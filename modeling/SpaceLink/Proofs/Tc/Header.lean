import SpaceLink.Tc.Header
import SpaceLink.Tc.ControlCommand
import SpaceLink.Proofs.Fields

/-! # Reading back and writing again the headers and the control commands of TC frames -/

namespace SpaceLink.Tc

/-- Every number fits into its field. -/
structure Header.Fits (h : Header) : Prop where
  version : h.version < 4
  scid : h.scid ≤ maxScid
  vcid : h.vcid ≤ maxVcid
  frameLength_pos : 0 < h.frameLength
  frameLength : h.frameLength ≤ maxLength

namespace Header

@[simp] theorem length_encode (h : Header) : h.encode.length = headerLength := rfl

/-- A header whose numbers fit is read back as it was written. -/
theorem decode_encode {h : Header} (hf : h.Fits) (rest : Bytes) :
    decode (h.encode ++ rest) = some h := by
  obtain ⟨version, bypass, command, scid, vcid, length, sequence⟩ := h
  obtain ⟨hversion, hscid, hvcid, hpos, hlength⟩ := hf
  dsimp only [maxScid, maxVcid, maxLength] at hversion hscid hvcid hpos hlength
  have hb := bypass.toNat_lt
  have hc := command.toNat_lt
  have hid : pack [(2, version), (1, bypass.toNat), (1, command.toNat), (2, 0), (10, scid)] =
      version * 16384 + bypass.toNat * 8192 + command.toNat * 4096 + scid := by
    simp only [pack, List.foldl, Nat.shiftLeft_eq]
    omega
  have hroute : pack [(6, vcid), (10, length - 1)] = vcid * 1024 + (length - 1) := by
    simp only [pack, List.foldl, Nat.shiftLeft_eq]
    omega
  rw [encode, hid, hroute]
  show some _ = _
  dsimp only
  rw [Option.some.injEq, mk.injEq, Bytes.toNatBE_two (by omega), Bytes.toNatBE_two (by omega),
    bits_eq, bits_eq, bits_eq, bits_eq]
  refine ⟨by omega, flag_eq_of_bit ?_, flag_eq_of_bit ?_, by omega, by omega, by omega, rfl⟩
  · omega
  · omega

/-- What is read fits. -/
theorem fits_of_decode {d : Bytes} {h : Header} (hd : decode d = some h) : h.Fits := by
  unfold decode at hd
  split at hd
  · cases hd
    exact ⟨bits_lt _ _ _, Nat.le_of_lt_succ (bits_lt _ _ _), Nat.le_of_lt_succ (bits_lt _ _ _),
      Nat.succ_pos _, bits_lt _ _ _⟩
  · cases hd

/-- A header is read from its own bytes alone. -/
theorem decode_take {d : Bytes} {h : Header} (hd : decode d = some h) :
    decode (d.take headerLength) = some h ∧ (d.take headerLength).length = headerLength := by
  unfold decode at hd
  split at hd
  · exact ⟨hd, rfl⟩
  · cases hd

/-- A header without spare bits set is written as it was read. -/
theorem encode_of_decode {d : Bytes} {h : Header} (hd : decode d = some h)
    (hspare : ∀ b ∈ d[0]?, bits b.toNat 2 2 = 0) : h.encode = d.take headerLength := by
  unfold decode at hd
  split at hd
  · rename_i b0 b1 b2 b3 b4 rest
    cases hd
    have hroute := Bytes.toNatBE_lt (d := [b2, b3]) rfl
    have hb0 := b0.toNat_lt
    have hb1 := b1.toNat_lt
    have hzero := hspare b0 rfl
    have hpack : pack [(2, bits (Bytes.toNatBE [b0, b1]) 14 2),
        (1, (flag (Bytes.toNatBE [b0, b1]) 13).toNat),
        (1, (flag (Bytes.toNatBE [b0, b1]) 12).toNat), (2, 0),
        (10, bits (Bytes.toNatBE [b0, b1]) 0 10)] = Bytes.toNatBE [b0, b1] := by
      rw [bits_eq] at hzero
      simp only [pack, List.foldl, Nat.shiftLeft_eq, bits_eq, toNat_flag, Bytes.toNatBE]
      omega
    have hpack' (word : Nat) (hw : word < 256 ^ 2) :
        pack [(6, bits word 10 6), (10, bits word 0 10 + 1 - 1)] = word := by
      simp only [pack, List.foldl, Nat.shiftLeft_eq, bits_eq]
      omega
    rw [encode]
    dsimp only
    rw [hpack, hpack' _ hroute, Bytes.ofNatBE_toNatBE (show [b0, b1].length = 2 from rfl),
      Bytes.ofNatBE_toNatBE (show [b2, b3].length = 2 from rfl)]
    rfl
  · cases hd

/-! ### Headers with spare bits set or numbers that need not fit -/

theorem decode_isSome_iff {d : Bytes} : (decode d).isSome ↔ headerLength ≤ d.length := by
  rcases d with _ | ⟨_, _ | ⟨_, _ | ⟨_, _ | ⟨_, _ | ⟨_, rest⟩⟩⟩⟩⟩ <;> simp [decode, headerLength]

/-- The spare bits are not read. -/
theorem decode_clear (d : Bytes) : decode (d.clear 0 0x0c) = decode d := by
  match d with
  | [] | [_] | [_, _] | [_, _, _] | [_, _, _, _] => rfl
  | b0 :: b1 :: b2 :: b3 :: b4 :: rest =>
    have hmask : (b0 &&& ~~~0x0c).toNat = b0.toNat &&& 0xf3 := UInt8.toNat_and _ _
    have hversion : bits (b0.toNat &&& 0xf3) 6 2 = bits b0.toNat 6 2 := bits_and_of_full rfl
    have hbypass : flag (b0.toNat &&& 0xf3) 5 = flag b0.toNat 5 := flag_and_of_set rfl
    have hcommand : flag (b0.toNat &&& 0xf3) 4 = flag b0.toNat 4 := flag_and_of_set rfl
    have hhigh : bits (b0.toNat &&& 0xf3) 0 2 = bits b0.toNat 0 2 := bits_and_of_full rfl
    -- the spacecraft identifier crosses the border of the two bytes
    have hscid (b : UInt8) :
        bits (Bytes.toNatBE [b, b1]) 0 10 = bits b.toNat 0 2 * 256 + b1.toNat := by
      have hb1 := b1.toNat_lt
      simp only [bits_eq, Bytes.toNatBE, List.foldl]
      omega
    show decode ((b0 &&& ~~~0x0c) :: b1 :: b2 :: b3 :: b4 :: rest) = _
    simp only [decode, bits_toNatBE_two _ _ 6, flag_toNatBE_two _ _ 5, flag_toNatBE_two _ _ 4,
      hscid, hmask, hversion, hbypass, hcommand, hhigh]

/-- A header is written as it was read, but for its spare bits. -/
theorem encode_of_decode_clear {d : Bytes} {h : Header} (hd : decode d = some h) :
    h.encode = Bytes.clear 0 0x0c (d.take headerLength) := by
  rw [← Bytes.take_clear]
  exact encode_of_decode ((decode_clear d).trans hd) (Bytes.bits_clear rfl)

/-- The header with each number reduced to the width of its field. The field of the length carries
it reduced by one, so that no length is read back as 0. -/
def reduced (h : Header) : Header :=
  { h with
    version := h.version % 2 ^ 2
    scid := h.scid % 2 ^ 10
    vcid := h.vcid % 2 ^ 6
    frameLength := (h.frameLength - 1) % 2 ^ 10 + 1 }

theorem fits_reduced (h : Header) : h.reduced.Fits where
  version := Nat.mod_lt _ (by decide)
  scid := Nat.le_of_lt_succ (Nat.mod_lt _ (by decide))
  vcid := Nat.le_of_lt_succ (Nat.mod_lt _ (by decide))
  frameLength_pos := Nat.succ_pos _
  frameLength := Nat.mod_lt _ (by decide)

theorem encode_reduced (h : Header) : h.reduced.encode = h.encode := by
  simp only [encode, reduced, Nat.add_sub_cancel, pack, List.foldl, Nat.one_shiftLeft, Nat.mod_mod]

theorem decode_encode_reduced (h : Header) (rest : Bytes) :
    decode (h.encode ++ rest) = some h.reduced := by
  rw [← h.encode_reduced]
  exact decode_encode h.fits_reduced rest

/-- The flags alone tell a control command. -/
theorem frameType_eq_bc_iff {h : Header} :
    h.frameType = .bc ↔ h.bypass = true ∧ h.controlCommand = true := by
  rw [frameType]
  cases h.bypass <;> cases h.controlCommand <;> simp

end Header

namespace SequenceFlag

theorem ofBits_toBits (flag : SequenceFlag) : ofBits flag.toBits = flag := by
  cases flag <;> rfl

theorem toBits_lt (flag : SequenceFlag) : flag.toBits < 4 := by
  cases flag <;> decide

theorem toBits_ofBits {n : Nat} (h : n < 4) : (ofBits n).toBits = n := by
  match n, h with
  | 0, _ | 1, _ | 2, _ | 3, _ => rfl

end SequenceFlag

/-- A segment header whose access point fits is read back as it was written. -/
theorem SegmentHeader.decode_encode {h : SegmentHeader} (hf : h.mapId ≤ maxMapId) :
    decode h.encode = h := by
  obtain ⟨flag, mapId⟩ := h
  have hflag := flag.toBits_lt
  dsimp only [maxMapId] at hf
  have hpack : pack [(2, flag.toBits), (6, mapId)] = flag.toBits * 64 + mapId := by
    simp only [pack, List.foldl, Nat.shiftLeft_eq]
    omega
  have hhigh : bits (flag.toBits * 64 + mapId) 6 2 = flag.toBits := by
    rw [bits_eq]
    omega
  have hlow : bits (flag.toBits * 64 + mapId) 0 6 = mapId := by
    rw [bits_eq]
    omega
  rw [encode, decode, hpack, toNat_toUInt8, Nat.mod_eq_of_lt (by omega), hhigh, hlow,
    flag.ofBits_toBits]

/-- A segment header is written as it was read; it has no spare bits. -/
theorem SegmentHeader.encode_decode (b : UInt8) : (decode b).encode = b := by
  have hb := b.toNat_lt
  rw [encode, decode]
  dsimp only
  rw [SequenceFlag.toBits_ofBits (bits_lt _ _ _)]
  have hpack : pack [(2, bits b.toNat 6 2), (6, bits b.toNat 0 6)] = b.toNat := by
    simp only [pack, List.foldl, Nat.shiftLeft_eq, bits_eq]
    omega
  rw [hpack]
  exact UInt8.ofNat_toNat

namespace ControlCommand

/-- What is reserved does not spell another command. -/
def Plain : ControlCommand → Prop
  | .unlock | .setVr _ => True
  | .reserved d => d ≠ unlock.encode ∧ ∀ vr, d ≠ (setVr vr).encode

theorem decode_encode {c : ControlCommand} (h : c.Plain) : decode c.encode = c := by
  cases c with
  | unlock | setVr _ => rfl
  | reserved d =>
    obtain ⟨hunlock, hset⟩ := h
    rw [encode, decode]
    · exact hunlock
    · exact hset

/-- A command is written as it was read. -/
theorem encode_decode (d : Bytes) : (decode d).encode = d := by
  unfold decode
  split <;> rfl

/-- The command that the bytes spell, also where they are kept as reserved ones. -/
def reduced : ControlCommand → ControlCommand
  | .reserved [0x00] => .unlock
  | .reserved [0x82, 0x00, vr] => .setVr vr
  | c => c

theorem decode_encode_reduced (c : ControlCommand) : decode c.encode = c.reduced := by
  cases c with
  | unlock | setVr _ => rfl
  | reserved d =>
    rw [encode]
    unfold decode
    split
    · rfl
    · rfl
    · rename_i hunlock hset
      rw [reduced]
      · exact fun h => hunlock (reserved.inj h)
      · exact fun vr h => hset vr (reserved.inj h)

end ControlCommand

end SpaceLink.Tc
