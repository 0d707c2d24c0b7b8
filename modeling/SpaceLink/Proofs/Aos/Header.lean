import SpaceLink.Aos.Header
import SpaceLink.Proofs.Fields

/-! # Reading back and writing again the header of AOS frames -/

namespace SpaceLink.Aos

/-- Every number fits into its field. -/
structure Header.Fits (h : Header) : Prop where
  version : h.version < 4
  scid : h.scid ≤ maxScid
  vcid : h.vcid ≤ maxVcid
  vcFrameCount : h.vcFrameCount ≤ maxCount
  vcFrameCountCycle : h.vcFrameCountCycle ≤ 0xf

namespace Header

@[simp] theorem length_encode (h : Header) : h.encode.length = headerLength := rfl

/-- A header whose numbers fit is read back as it was written. -/
theorem decode_encode {h : Header} (hf : h.Fits) (rest : Bytes) :
    decode (h.encode ++ rest) = some h := by
  obtain ⟨version, scid, vcid, count, replay, usage, cycle⟩ := h
  obtain ⟨hversion, hscid, hvcid, hcount, hcycle⟩ := hf
  dsimp only [maxScid, maxVcid, maxCount] at hversion hscid hvcid hcount hcycle
  have hr := replay.toNat_lt
  have hu := usage.toNat_lt
  have hid : pack [(2, version), (8, scid), (6, vcid)] = version * 16384 + scid * 64 + vcid := by
    simp only [pack, List.foldl, Nat.shiftLeft_eq]
    omega
  have hsignalling : pack [(1, replay.toNat), (1, usage.toNat), (2, 0), (4, cycle)] =
      replay.toNat * 128 + usage.toNat * 64 + cycle := by
    simp only [pack, List.foldl, Nat.shiftLeft_eq]
    omega
  rw [encode, hid, hsignalling]
  show some _ = _
  dsimp only
  rw [Option.some.injEq, mk.injEq, toNat_toUInt8, Bytes.toNatBE_two (by omega),
    Bytes.toNatBE_three (by omega), bits_eq, bits_eq, bits_eq, bits_eq]
  refine ⟨by omega, by omega, by omega, rfl, flag_eq_of_bit ?_, flag_eq_of_bit ?_, by omega⟩
  · omega
  · omega

/-- What is read fits. -/
theorem fits_of_decode {d : Bytes} {h : Header} (hd : decode d = some h) : h.Fits := by
  unfold decode at hd
  split at hd
  · rename_i b0 b1 c2 c1 c0 b5 rest
    cases hd
    have hcount := Bytes.toNatBE_lt (d := [c2, c1, c0]) (show _ = 3 from rfl)
    refine ⟨bits_lt _ _ _, Nat.le_of_lt_succ (bits_lt _ _ _), Nat.le_of_lt_succ (bits_lt _ _ _), ?_,
      Nat.le_of_lt_succ (bits_lt _ _ _)⟩
    exact Nat.le_of_lt_succ hcount
  · cases hd

/-- A header is read from its own bytes alone. -/
theorem decode_take {d : Bytes} {h : Header} (hd : decode d = some h) :
    decode (d.take headerLength) = some h ∧ (d.take headerLength).length = headerLength := by
  unfold decode at hd
  split at hd
  · exact ⟨hd, rfl⟩
  · cases hd

/-- A header without spare bits set is written as it was read. -/
theorem encode_of_decode {d : Bytes} {h : Header} (hd : decode d = some h)
    (hspare : ∀ b ∈ d[5]?, bits b.toNat 4 2 = 0) : h.encode = d.take headerLength := by
  unfold decode at hd
  split at hd
  · rename_i b0 b1 c2 c1 c0 b5 rest
    cases hd
    have hid := Bytes.toNatBE_lt (d := [b0, b1]) rfl
    have hb := b5.toNat_lt
    have hzero := hspare b5 rfl
    have hpack (word : Nat) (hw : word < 256 ^ 2) :
        pack [(2, bits word 14 2), (8, bits word 6 8), (6, bits word 0 6)] = word := by
      simp only [pack, List.foldl, Nat.shiftLeft_eq, bits_eq]
      omega
    have hpack' : pack [(1, (flag b5.toNat 7).toNat), (1, (flag b5.toNat 6).toNat), (2, 0),
        (4, bits b5.toNat 0 4)] = b5.toNat := by
      rw [bits_eq] at hzero
      simp only [pack, List.foldl, Nat.shiftLeft_eq, bits_eq, toNat_flag]
      omega
    rw [encode]
    dsimp only
    rw [hpack _ hid, hpack', Bytes.ofNatBE_toNatBE (show [b0, b1].length = 2 from rfl),
      Bytes.ofNatBE_toNatBE (show [c2, c1, c0].length = 3 from rfl)]
    show _ ++ [b5.toNat.toUInt8] = _
    rw [show b5.toNat.toUInt8 = b5 from UInt8.ofNat_toNat]
    rfl
  · cases hd

/-! ## Headers with spare bits set or numbers that need not fit -/

theorem decode_isSome_iff {d : Bytes} : (decode d).isSome ↔ headerLength ≤ d.length := by
  rcases d with _ | ⟨_, _ | ⟨_, _ | ⟨_, _ | ⟨_, _ | ⟨_, _ | ⟨_, rest⟩⟩⟩⟩⟩⟩ <;>
    simp [decode, headerLength]

/-- The spare bits are not read. -/
theorem decode_clear (d : Bytes) : decode (d.clear 5 0x30) = decode d := by
  match d with
  | [] | [_] | [_, _] | [_, _, _] | [_, _, _, _] | [_, _, _, _, _] => rfl
  | b0 :: b1 :: c2 :: c1 :: c0 :: b5 :: rest =>
    have hmask : (b5 &&& ~~~0x30).toNat = b5.toNat &&& 0xcf := UInt8.toNat_and _ _
    have hreplay : flag (b5.toNat &&& 0xcf) 7 = flag b5.toNat 7 := flag_and_of_set rfl
    have husage : flag (b5.toNat &&& 0xcf) 6 = flag b5.toNat 6 := flag_and_of_set rfl
    have hcycle : bits (b5.toNat &&& 0xcf) 0 4 = bits b5.toNat 0 4 := bits_and_of_full rfl
    show decode (b0 :: b1 :: c2 :: c1 :: c0 :: (b5 &&& ~~~0x30) :: rest) = _
    simp only [decode, hmask, hreplay, husage, hcycle]

/-- A header is written as it was read, but for its spare bits. -/
theorem encode_of_decode_clear {d : Bytes} {h : Header} (hd : decode d = some h) :
    h.encode = Bytes.clear 5 0x30 (d.take headerLength) := by
  rw [← Bytes.take_clear]
  exact encode_of_decode ((decode_clear d).trans hd) (Bytes.bits_clear rfl)

/-- The header with each number reduced to the width of its field. -/
def reduced (h : Header) : Header :=
  { h with
    version := h.version % 2 ^ 2
    scid := h.scid % 2 ^ 8
    vcid := h.vcid % 2 ^ 6
    vcFrameCount := h.vcFrameCount % 2 ^ 24
    vcFrameCountCycle := h.vcFrameCountCycle % 2 ^ 4 }

theorem fits_reduced (h : Header) : h.reduced.Fits where
  version := Nat.mod_lt _ (by decide)
  scid := Nat.le_of_lt_succ (Nat.mod_lt _ (by decide))
  vcid := Nat.le_of_lt_succ (Nat.mod_lt _ (by decide))
  vcFrameCount := Nat.le_of_lt_succ (Nat.mod_lt _ (by decide))
  vcFrameCountCycle := Nat.le_of_lt_succ (Nat.mod_lt _ (by decide))

theorem encode_reduced (h : Header) : h.reduced.encode = h.encode := by
  have hcount : Bytes.ofNatBE 3 (h.vcFrameCount % 2 ^ 24) = Bytes.ofNatBE 3 h.vcFrameCount :=
    Bytes.ofNatBE_mod 3 _
  simp only [encode, reduced, hcount, pack, List.foldl, Nat.one_shiftLeft, Nat.mod_mod]

theorem decode_encode_reduced (h : Header) (rest : Bytes) :
    decode (h.encode ++ rest) = some h.reduced := by
  rw [← h.encode_reduced]
  exact decode_encode h.fits_reduced rest

end Header

end SpaceLink.Aos
