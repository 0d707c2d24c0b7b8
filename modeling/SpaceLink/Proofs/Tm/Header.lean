import SpaceLink.Tm.Header
import SpaceLink.Proofs.Fields

/-! # Reading back and writing again the header of TM frames -/

namespace SpaceLink.Tm

/-- Every number fits into its field. -/
structure Header.Fits (h : Header) : Prop where
  version : h.version < 4
  scid : h.scid ≤ maxScid
  vcid : h.vcid ≤ maxVcid
  segmentLengthId : h.segmentLengthId ≤ 3
  firstHeaderPointer : h.firstHeaderPointer ≤ noPacketPointer

namespace Header

@[simp] theorem length_encode (h : Header) : h.encode.length = headerLength := rfl

/-- A header whose numbers fit is read back as it was written. -/
theorem decode_encode {h : Header} (hf : h.Fits) (rest : Bytes) :
    decode (h.encode ++ rest) = some h := by
  obtain ⟨version, scid, vcid, ocf, mc, vc, secondary, sync, order, segment, pointer⟩ := h
  obtain ⟨hversion, hscid, hvcid, hsegment, hpointer⟩ := hf
  dsimp only [maxScid, maxVcid, noPacketPointer] at hversion hscid hvcid hsegment hpointer
  have ho := ocf.toNat_lt
  have h2 := secondary.toNat_lt
  have hs := sync.toNat_lt
  have hp := order.toNat_lt
  have hid : pack [(2, version), (10, scid), (3, vcid), (1, ocf.toNat)] =
      version * 16384 + scid * 16 + vcid * 2 + ocf.toNat := by
    simp only [pack, List.foldl, Nat.shiftLeft_eq]
    omega
  have hstatus : pack [(1, secondary.toNat), (1, sync.toNat), (1, order.toNat), (2, segment),
      (11, pointer)] =
      secondary.toNat * 32768 + sync.toNat * 16384 + order.toNat * 8192 + segment * 2048 +
        pointer := by
    simp only [pack, List.foldl, Nat.shiftLeft_eq]
    omega
  rw [encode, hid, hstatus]
  show some _ = _
  dsimp only
  rw [Option.some.injEq, mk.injEq, Bytes.toNatBE_two (by omega), Bytes.toNatBE_two (by omega),
    bits_eq, bits_eq, bits_eq, bits_eq, bits_eq]
  refine ⟨by omega, by omega, by omega, flag_eq_of_bit ?_, rfl, rfl, flag_eq_of_bit ?_,
    flag_eq_of_bit ?_, flag_eq_of_bit ?_, by omega, by omega⟩
  · omega
  · omega
  · omega
  · omega

/-- What is read fits. -/
theorem fits_of_decode {d : Bytes} {h : Header} (hd : decode d = some h) : h.Fits := by
  unfold decode at hd
  split at hd
  · cases hd
    exact ⟨bits_lt _ _ _, Nat.le_of_lt_succ (bits_lt _ _ _), Nat.le_of_lt_succ (bits_lt _ _ _),
      Nat.le_of_lt_succ (bits_lt _ _ _), Nat.le_of_lt_succ (bits_lt _ _ _)⟩
  · cases hd

/-- A header is written as it was read; it has no spare bits. -/
theorem encode_of_decode {d : Bytes} {h : Header} (hd : decode d = some h) :
    h.encode = d.take headerLength := by
  unfold decode at hd
  split at hd
  · rename_i b0 b1 mc vc b4 b5 rest
    cases hd
    have hid := Bytes.toNatBE_lt (d := [b0, b1]) rfl
    have hstatus := Bytes.toNatBE_lt (d := [b4, b5]) rfl
    have hpack (word : Nat) (hw : word < 256 ^ 2) : pack [(2, bits word 14 2), (10, bits word 4 10),
        (3, bits word 1 3), (1, (flag word 0).toNat)] = word := by
      simp only [pack, List.foldl, Nat.shiftLeft_eq, bits_eq, toNat_flag]
      omega
    have hpack' (word : Nat) (hw : word < 256 ^ 2) : pack [(1, (flag word 15).toNat),
        (1, (flag word 14).toNat), (1, (flag word 13).toNat), (2, bits word 11 2),
        (11, bits word 0 11)] = word := by
      simp only [pack, List.foldl, Nat.shiftLeft_eq, bits_eq, toNat_flag]
      omega
    rw [encode]
    dsimp only
    rw [hpack _ hid, hpack' _ hstatus, Bytes.ofNatBE_toNatBE (show [b0, b1].length = 2 from rfl),
      Bytes.ofNatBE_toNatBE (show [b4, b5].length = 2 from rfl)]
    rfl
  · cases hd

/-! ## Headers whose numbers need not fit -/

theorem decode_isSome_iff {d : Bytes} : (decode d).isSome ↔ headerLength ≤ d.length := by
  rcases d with _ | ⟨_, _ | ⟨_, _ | ⟨_, _ | ⟨_, _ | ⟨_, _ | ⟨_, rest⟩⟩⟩⟩⟩⟩ <;>
    simp [decode, headerLength]

/-- The header with each number reduced to the width of its field. -/
def reduced (h : Header) : Header :=
  { h with
    version := h.version % 2 ^ 2
    scid := h.scid % 2 ^ 10
    vcid := h.vcid % 2 ^ 3
    segmentLengthId := h.segmentLengthId % 2 ^ 2
    firstHeaderPointer := h.firstHeaderPointer % 2 ^ 11 }

theorem fits_reduced (h : Header) : h.reduced.Fits where
  version := Nat.mod_lt _ (by decide)
  scid := Nat.le_of_lt_succ (Nat.mod_lt _ (by decide))
  vcid := Nat.le_of_lt_succ (Nat.mod_lt _ (by decide))
  segmentLengthId := Nat.le_of_lt_succ (Nat.mod_lt _ (by decide))
  firstHeaderPointer := Nat.le_of_lt_succ (Nat.mod_lt _ (by decide))

theorem encode_reduced (h : Header) : h.reduced.encode = h.encode := by
  simp only [encode, reduced, pack, List.foldl, Nat.one_shiftLeft, Nat.mod_mod]

theorem decode_encode_reduced (h : Header) (rest : Bytes) :
    decode (h.encode ++ rest) = some h.reduced := by
  rw [← h.encode_reduced]
  exact decode_encode h.fits_reduced rest

end Header

end SpaceLink.Tm
