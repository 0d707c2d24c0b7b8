import SpaceLink.Proofs.Packet.Delimiting
import SpaceLink.Proofs.Fields

/-!
# Reading back and writing again the headers of packets

These headers have no spare bits, so that they are written as they were read. What is read back is
the written header with each number reduced to the width of its field, for an encapsulation packet
in the format that the header selects.
-/

namespace SpaceLink

namespace SpacePacketHeader

/-- The header with each number reduced to the width of its field. -/
def reduced (h : SpacePacketHeader) : SpacePacketHeader :=
  { h with
    version := h.version % 2 ^ 3
    typeFlag := h.typeFlag % 2 ^ 1
    apid := h.apid % 2 ^ 11
    sequenceFlags := h.sequenceFlags % 2 ^ 2
    sequenceId := h.sequenceId % 2 ^ 14
    lengthMinusOne := h.lengthMinusOne % 2 ^ 16 }

theorem decode_encode (h : SpacePacketHeader) (rest : Bytes) :
    decode (h.encode ++ rest) = some h.reduced := by
  obtain ⟨version, type, secondary, apid, flags, id, length⟩ := h
  have hidentification := fieldsOf_pack [(3, version), (1, type), (1, secondary.toNat), (11, apid)]
  have hsequence := fieldsOf_pack [(2, flags), (14, id)]
  simp only [fieldsOf, List.map, List.sum_cons, List.sum_nil, List.cons.injEq, Prod.mk.injEq,
    true_and, and_true, Nat.reduceAdd] at hidentification hsequence
  obtain ⟨hversion, htype, hsecondary, hapid⟩ := hidentification
  obtain ⟨hflags, hid⟩ := hsequence
  have hwords : decode (encode ⟨version, type, secondary, apid, flags, id, length⟩ ++ rest) =
      let identification := Bytes.toNatBE (Bytes.ofNatBE 2
        (pack [(3, version), (1, type), (1, secondary.toNat), (11, apid)]))
      let sequence := Bytes.toNatBE (Bytes.ofNatBE 2 (pack [(2, flags), (14, id)]))
      some {
        version := bits identification 13 3
        typeFlag := bits identification 12 1
        hasSecondaryHeader := flag identification 11
        apid := bits identification 0 11
        sequenceFlags := bits sequence 14 2
        sequenceId := bits sequence 0 14
        lengthMinusOne := Bytes.toNatBE (Bytes.ofNatBE 2 length) } := rfl
  rw [hwords, toNatBE_pack rfl, toNatBE_pack rfl, Bytes.toNatBE_ofNatBE_bits]
  dsimp only
  rw [hversion, htype, hapid, hflags, hid, flag_eq_of_bits hsecondary]
  rfl

/-- A header is written as it was read. -/
theorem encode_of_decode {d : Bytes} {h : SpacePacketHeader} (hd : decode d = some h) :
    h.encode = d.take length := by
  unfold decode at hd
  split at hd
  · rename_i b0 b1 b2 b3 b4 b5 rest
    cases hd
    have hidentification := Bytes.ofNatBE_pack_fieldsOf [3, 1, 1, 11] (d := [b0, b1]) rfl
    have hsequence := Bytes.ofNatBE_pack_fieldsOf [2, 14] (d := [b2, b3]) rfl
    have hlength := Bytes.ofNatBE_toNatBE (show [b4, b5].length = 2 from rfl)
    simp only [fieldsOf, List.sum_cons, List.sum_nil, List.length_cons, List.length_nil,
      Nat.reduceAdd] at hidentification hsequence
    simp only [encode, toNat_flag_eq_bits]
    rw [hidentification, hsequence, hlength]
    rfl
  · cases hd

end SpacePacketHeader

namespace EncapsulationHeader

section

variable (h : EncapsulationHeader)

/-- What the first byte of the written header has of it. -/
def reducedFirst : EncapsulationHeader where
  version := h.version % 2 ^ 3
  protocolId := h.protocolId % 2 ^ 3
  lengthOfLength := h.lengthOfLength % 2 ^ 2
  userDefined := 0
  protocolIdExtension := 0
  ccsdsDefined := 0
  packetLength := 1

/-- What the first two bytes of the written header have of it, in the formats of 4 and 8 bytes. -/
def reducedSecond : EncapsulationHeader :=
  { h.reducedFirst with
    userDefined := h.userDefined % 2 ^ 4
    protocolIdExtension := h.protocolIdExtension % 2 ^ 4 }

/-- The header in the format that it selects: each number reduced to the width of its field, and
those that the format lacks left out. -/
def reduced : EncapsulationHeader :=
  match h.lengthOfLength % 2 ^ 2 with
  | 0 => h.reducedFirst
  | 1 => { h.reducedFirst with packetLength := h.packetLength % 2 ^ 8 }
  | 2 => { h.reducedSecond with packetLength := h.packetLength % 2 ^ 16 }
  | _ => { h.reducedSecond with
      ccsdsDefined := h.ccsdsDefined % 2 ^ 16
      packetLength := h.packetLength % 2 ^ 32 }

def firstByte : UInt8 :=
  (pack [(3, h.version), (3, h.protocolId), (2, h.lengthOfLength)]).toUInt8

def secondByte : UInt8 := (pack [(4, h.userDefined), (4, h.protocolIdExtension)]).toUInt8

theorem encode_eq : h.encode = h.firstByte :: match h.lengthOfLength % 2 ^ 2 with
    | 0 => []
    | 1 => Bytes.ofNatBE 1 h.packetLength
    | 2 => h.secondByte :: Bytes.ofNatBE 2 h.packetLength
    | _ => h.secondByte :: (Bytes.ofNatBE 2 h.ccsdsDefined ++ Bytes.ofNatBE 4 h.packetLength) := by
  rw [← bits_zero]
  rfl

theorem ofFirst_firstByte : ofFirst h.firstByte = h.reducedFirst := by
  have hfields := fieldsOf_pack [(3, h.version), (3, h.protocolId), (2, h.lengthOfLength)]
  simp only [fieldsOf, List.map, List.sum_cons, List.sum_nil, List.cons.injEq, Prod.mk.injEq,
    true_and, and_true, Nat.reduceAdd] at hfields
  obtain ⟨hversion, hprotocol, hformat⟩ := hfields
  rw [ofFirst, firstByte, toNat_pack rfl, hversion, hprotocol, hformat]
  rfl

theorem bits_firstByte : bits h.firstByte.toNat 0 2 = h.lengthOfLength % 2 ^ 2 :=
  congrArg lengthOfLength h.ofFirst_firstByte

theorem bits_secondByte : bits h.secondByte.toNat 4 4 = h.userDefined % 2 ^ 4 ∧
    bits h.secondByte.toNat 0 4 = h.protocolIdExtension % 2 ^ 4 := by
  have hfields := fieldsOf_pack [(4, h.userDefined), (4, h.protocolIdExtension)]
  simp only [fieldsOf, List.map, List.sum_cons, List.sum_nil, List.cons.injEq, Prod.mk.injEq,
    true_and, and_true, Nat.reduceAdd] at hfields
  rw [secondByte, toNat_pack rfl]
  exact hfields

theorem decode_encode (rest : Bytes) : decode (h.encode ++ rest) = some h.reduced := by
  have hformat := h.bits_firstByte
  obtain ⟨huser, hextension⟩ := h.bits_secondByte
  have hlt : h.lengthOfLength % 2 ^ 2 < 4 := Nat.mod_lt _ (by decide)
  rw [encode_eq, reduced]
  match hn : h.lengthOfLength % 2 ^ 2, hlt with
  | 0, _ =>
    rw [hn] at hformat
    show decode (h.firstByte :: rest) = _
    simp only [decode, hformat, ofFirst_firstByte]
  | 1, _ =>
    rw [hn] at hformat
    have hlength : h.packetLength.toUInt8.toNat = h.packetLength % 2 ^ 8 := toNat_toUInt8 _
    show decode (h.firstByte :: h.packetLength.toUInt8 :: rest) = _
    simp only [decode, hformat, ofFirst_firstByte, hlength]
  | 2, _ =>
    rw [hn] at hformat
    have hlength : Bytes.toNatBE [(h.packetLength / 256).toUInt8, h.packetLength.toUInt8] =
        h.packetLength % 2 ^ 16 := Bytes.toNatBE_ofNatBE_bits 2 _
    show decode (h.firstByte :: h.secondByte :: (Bytes.ofNatBE 2 h.packetLength ++ rest)) = _
    simp only [decode, hformat, ofFirst_firstByte, huser, hextension, Bytes.ofNatBE,
      List.nil_append, List.cons_append, hlength]
    rfl
  | 3, _ =>
    rw [hn] at hformat
    have hccsds : Bytes.toNatBE [(h.ccsdsDefined / 256).toUInt8, h.ccsdsDefined.toUInt8] =
        h.ccsdsDefined % 2 ^ 16 := Bytes.toNatBE_ofNatBE_bits 2 _
    have hlength : Bytes.toNatBE [(h.packetLength / 256 / 256 / 256).toUInt8,
        (h.packetLength / 256 / 256).toUInt8, (h.packetLength / 256).toUInt8,
        h.packetLength.toUInt8] = h.packetLength % 2 ^ 32 := Bytes.toNatBE_ofNatBE_bits 4 _
    show decode (h.firstByte :: h.secondByte ::
      (Bytes.ofNatBE 2 h.ccsdsDefined ++ Bytes.ofNatBE 4 h.packetLength ++ rest)) = _
    simp only [decode, hformat, ofFirst_firstByte, huser, hextension, Bytes.ofNatBE,
      List.nil_append, List.cons_append, hccsds, hlength]
    rfl

end

theorem firstByte_ofFirst (first : UInt8) : (ofFirst first).firstByte = first :=
  toUInt8_pack_fieldsOf [3, 3, 2] rfl first

/-- The first byte is written as it was read. -/
theorem first_of_decode {first : UInt8} {rest : Bytes} {h : EncapsulationHeader}
    (hd : decode (first :: rest) = some h) :
    h.firstByte = first ∧ h.lengthOfLength % 2 ^ 2 = bits first.toNat 0 2 := by
  have hformat : (ofFirst first).lengthOfLength % 2 ^ 2 = bits first.toNat 0 2 :=
    Nat.mod_eq_of_lt (bits_lt _ _ _)
  rw [decode.eq_def] at hd
  dsimp only at hd
  -- what the formats add to the first byte concerns neither
  split at hd <;> cases hd <;> exact ⟨firstByte_ofFirst first, hformat⟩

theorem encode_of_decode_cons {first : UInt8} {rest : Bytes} {h : EncapsulationHeader}
    (hd : decode (first :: rest) = some h) :
    h.encode = (first :: rest).take (lengthFromFirst first) := by
  obtain ⟨hfirst, hformat⟩ := first_of_decode hd
  have hsecond : ∀ b : UInt8, (pack [(4, bits b.toNat 4 4), (4, bits b.toNat 0 4)]).toUInt8 = b :=
    toUInt8_pack_fieldsOf [4, 4] rfl
  rw [lengthFromFirst, formatLength, encode_eq, hfirst, hformat]
  rw [decode.eq_def] at hd
  dsimp only at hd
  split at hd
  · rename_i hf
    rw [hf]
    rfl
  · rename_i l0 tail hf
    cases hd
    rw [hf]
    show [first, l0.toNat.toUInt8] = [first, l0]
    rw [show l0.toNat.toUInt8 = l0 from UInt8.ofNat_toNat]
  · rename_i second l1 l0 tail hf
    cases hd
    rw [hf]
    show first :: (pack [(4, bits second.toNat 4 4), (4, bits second.toNat 0 4)]).toUInt8 ::
      Bytes.ofNatBE 2 (Bytes.toNatBE [l1, l0]) = [first, second, l1, l0]
    rw [hsecond, Bytes.ofNatBE_toNatBE (show [l1, l0].length = 2 from rfl)]
  · rename_i second c1 c0 l3 l2 l1 l0 tail hf
    cases hd
    rw [hf]
    show first :: (pack [(4, bits second.toNat 4 4), (4, bits second.toNat 0 4)]).toUInt8 ::
      (Bytes.ofNatBE 2 (Bytes.toNatBE [c1, c0]) ++
        Bytes.ofNatBE 4 (Bytes.toNatBE [l3, l2, l1, l0])) =
        [first, second, c1, c0, l3, l2, l1, l0]
    rw [hsecond, Bytes.ofNatBE_toNatBE (show [c1, c0].length = 2 from rfl),
      Bytes.ofNatBE_toNatBE (show [l3, l2, l1, l0].length = 4 from rfl)]
    rfl
  · cases hd

/-- A header is written as it was read. -/
theorem encode_of_decode {d : Bytes} {h : EncapsulationHeader} (hd : decode d = some h) :
    h.encode = d.take (PacketKind.encapsulation.headerLength d) := by
  cases d with
  | nil => cases hd
  | cons first rest => exact encode_of_decode_cons hd

end EncapsulationHeader

end SpaceLink
