import SpaceLink.Proofs.Tm.Header
import SpaceLink.Proofs.Aos.Header
import SpaceLink.Proofs.Tc.Header
import SpaceLink.Proofs.Packet.Header
import SpaceLink.Proofs.Clcw

/-!
# Reading and writing are inverse

What is read of a header is written again as it was, but for spare bits; what is written is read
back as it was, but for the widths of the fields.
-/

namespace SpaceLink

/-- Reading and writing of the `length d` bytes of a header at the start of `d`. Written again,
these are as they were but for what `clear` does to them; read back, a header is as it was but for
what `reduced` does to it. -/
structure InverseCodec {H : Type} (decode : Bytes → Option H) (encode : H → Bytes)
    (length : Bytes → Nat) (clear : Bytes → Bytes) (reduced : H → H) : Prop where
  isSome_iff : ∀ d, (decode d).isSome ↔ length d ≤ d.length
  encode_of_decode : ∀ d h, decode d = some h → encode h = clear (d.take (length d))
  decode_encode : ∀ h rest, decode (encode h ++ rest) = some (reduced h)

theorem Tm.Header.inverseCodec :
    InverseCodec decode encode (fun _ => headerLength) id reduced where
  isSome_iff _ := decode_isSome_iff
  encode_of_decode _ _ := encode_of_decode
  decode_encode := decode_encode_reduced

theorem Aos.Header.inverseCodec :
    InverseCodec decode encode (fun _ => headerLength) (Bytes.clear 5 0x30) reduced where
  isSome_iff _ := decode_isSome_iff
  encode_of_decode _ _ := encode_of_decode_clear
  decode_encode := decode_encode_reduced

theorem Tc.Header.inverseCodec :
    InverseCodec decode encode (fun _ => headerLength) (Bytes.clear 0 0x0c) reduced where
  isSome_iff _ := decode_isSome_iff
  encode_of_decode _ _ := encode_of_decode_clear
  decode_encode := decode_encode_reduced

theorem SpacePacketHeader.inverseCodec :
    InverseCodec decode encode (fun _ => length) id reduced where
  isSome_iff _ := decode_isSome_iff
  encode_of_decode _ _ := encode_of_decode
  decode_encode := decode_encode

theorem EncapsulationHeader.inverseCodec :
    InverseCodec decode encode PacketKind.encapsulation.headerLength id reduced where
  isSome_iff d := by
    rw [← PacketKind.declaredLength?_isSome_iff, PacketKind.declaredLength?, Option.isSome_map]
  encode_of_decode _ _ := encode_of_decode
  decode_encode := decode_encode

/-- Headers, control words and control commands are written as they were read but for spare bits,
and read back as they were written but for the widths of their fields. A control word with a number
too large for its field is not written, and bytes that spell a command are read as this one. -/
theorem codecs_inverse :
    InverseCodec Tm.Header.decode Tm.Header.encode (fun _ => Tm.headerLength) id
      Tm.Header.reduced ∧
    InverseCodec Aos.Header.decode Aos.Header.encode (fun _ => Aos.headerLength)
      (Bytes.clear 5 0x30) Aos.Header.reduced ∧
    InverseCodec Tc.Header.decode Tc.Header.encode (fun _ => Tc.headerLength)
      (Bytes.clear 0 0x0c) Tc.Header.reduced ∧
    InverseCodec SpacePacketHeader.decode SpacePacketHeader.encode
      (fun _ => SpacePacketHeader.length) id SpacePacketHeader.reduced ∧
    InverseCodec EncapsulationHeader.decode EncapsulationHeader.encode
      PacketKind.encapsulation.headerLength id EncapsulationHeader.reduced ∧
    (∀ d, (Clcw.decode d).isSome ↔ ocfLength ≤ d.length ∧ d.octet 0 < 128) ∧
    (∀ d w, Clcw.decode d = some w → w.encode = .ok (Bytes.clear 1 0x03 (d.take ocfLength))) ∧
    (∀ w : Clcw, ReportsFirst w.encode w.faults) ∧
    (∀ (w : Clcw) d rest, w.encode = .ok d →
      w.reduced = w ∧ Clcw.decode (d ++ rest) = some w.reduced) ∧
    (∀ d, (Tc.ControlCommand.decode d).encode = d) ∧
    ∀ c : Tc.ControlCommand, Tc.ControlCommand.decode c.encode = c.reduced :=
  ⟨Tm.Header.inverseCodec, Aos.Header.inverseCodec, Tc.Header.inverseCodec,
    SpacePacketHeader.inverseCodec, EncapsulationHeader.inverseCodec,
    fun _ => Clcw.decode_isSome_iff, fun _ _ => Clcw.encode_of_decode, Clcw.encode_reportsFirst,
    fun _ _ rest h => Clcw.decode_of_encode h rest, Tc.ControlCommand.encode_decode,
    Tc.ControlCommand.decode_encode_reduced⟩

/-- Spare bits set, a length of 0, fields that the format lacks and a command kept as bytes. -/
theorem codecs_inverse_at_edges :
    Aos.Header.encode ⟨1, 0, 63, 7, true, true, 15⟩ = [0x40, 0x3f, 0, 0, 7, 0xcf] ∧
    Tc.Header.decode (Tc.Header.encode ⟨0, true, false, 1025, 64, 0, 9⟩ ++ []) =
      some ⟨0, true, false, 1, 0, 1, 9⟩ ∧
    EncapsulationHeader.decode (EncapsulationHeader.encode ⟨7, 9, 1, 5, 5, 5, 0x102⟩ ++ []) =
      some ⟨7, 1, 1, 0, 0, 0, 2⟩ ∧
    Clcw.encode ⟨0, 0, 1, 63, false, false, true, false, false, 2, false, 8⟩ =
      .ok [0x01, 0xfc, 0x24, 0x08] ∧
    Tc.ControlCommand.decode (Tc.ControlCommand.reserved [0x82, 0, 5]).encode = .setVr 5 := by
  obtain ⟨-, aos, tc, -, encapsulation, -, clcw, -, -, -, command⟩ := codecs_inverse
  refine ⟨aos.encode_of_decode [0x40, 0x3f, 0, 0, 7, 0xff] _ rfl, tc.decode_encode _ [],
    encapsulation.decode_encode _ [], clcw [0x01, 0xff, 0x24, 0x08] _ rfl, command _⟩

end SpaceLink
