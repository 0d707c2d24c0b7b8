import SpaceLink.Aos.Frame
import SpaceLink.Proofs.Aos.Header
import SpaceLink.Proofs.FrameBytes
import SpaceLink.Proofs.Steps

/-!
# Decoding AOS frames

`Frame.Decodes` are the conditions under which bytes are read as a frame, one for each that
`Frame.decode` looks at. Strict checking adds that both checks are right, and nothing else.
-/

namespace SpaceLink.Aos

/-- The frame is what the bytes are read as. -/
structure Frame.Decodes (f : Frame) (d : Bytes) (config : Config) : Prop where
  version : checkVersion d version headerLength = .ok ()
  header : Header.decode d = some f.header
  bytes : f.bytes = d
  overhead : f.overhead = config.overhead
  fhecPresent : f.fhecPresent = config.fhecPresent
  insertZoneLength : f.insertZoneLength = config.insertZoneLength
  userDataType : f.userDataType = config.userDataType
  pdu : checkPdu config.userDataType d.length f.dataField = .ok ()
  headerValid : config.strict = true → headerValid config.fhecPresent d = true
  valid : config.strict = true → f.isValid = true

theorem Frame.decode_eq_ok_iff {f : Frame} {d : Bytes} {config : Config} :
    Frame.decode d config = .ok f ↔ f.Decodes d config := by
  rw [decode, bind_eq_ok_iff]
  constructor
  · rintro ⟨⟨⟩, hversion, h⟩
    cases hheader : Header.decode d with
    | none => simp [hheader] at h
    | some header =>
      rw [hheader] at h
      obtain ⟨framed, hframed, h⟩ := bind_eq_ok_iff.mp h
      obtain ⟨hbytes, hoverhead⟩ := FrameBytes.ofBytes_eq_ok_iff.mp hframed
      dsimp only at h
      split at h
      · cases h
      rename_i hfhec
      obtain ⟨⟨⟩, hpdu, h⟩ := bind_eq_ok_iff.mp h
      obtain ⟨⟨⟩, hfecf, h⟩ := bind_eq_ok_iff.mp h
      cases h
      refine ⟨hversion, hheader, hbytes, hoverhead, rfl, rfl, rfl, hpdu, fun hs => ?_,
        FrameBytes.checkFecf_eq_ok_iff.mp hfecf⟩
      simpa [hs] using hfhec
  · intro h
    refine ⟨(), h.version, ?_⟩
    have hframed := FrameBytes.ofBytes_eq_ok_iff.mpr ⟨h.bytes, h.overhead⟩
    have hfhec : ¬(config.strict && !headerValid config.fhecPresent d) = true := by
      have := h.headerValid
      simpa using this
    rw [h.header]
    dsimp only
    rw [hframed, ok_bind, if_neg hfhec, h.pdu, ok_bind, FrameBytes.checkFecf_eq_ok_iff.mpr h.valid,
      ok_bind, ← h.fhecPresent, ← h.insertZoneLength, ← h.userDataType]
    rfl

/-- The version is that of the header. -/
theorem checkVersion_of_decode {d : Bytes} {h : Header} (hd : Header.decode d = some h)
    (hv : h.version = version) : checkVersion d version headerLength = .ok () := by
  unfold Header.decode at hd
  split at hd
  · cases hd
    exact checkVersion_of_version hv (by simp [headerLength])
  · cases hd

section

variable {f : Frame} {d : Bytes} {config : Config}

theorem Frame.Decodes.version_eq (hd : f.Decodes d config) : f.header.version = Aos.version := by
  have hheader := hd.header
  have hversion := hd.version
  unfold Header.decode at hheader
  split at hheader
  · rw [← Option.some.inj hheader]
    exact version_of_checkVersion hversion
  · cases hheader

theorem Frame.Decodes.pduHeaderOf_le (hd : f.Decodes d config) :
    pduHeaderOf f.userDataType ≤ f.dataField.length := by
  have hpdu := hd.pdu
  rw [← hd.userDataType, checkPdu] at hpdu
  cases htype : f.userDataType with
  | vca | idle => exact Nat.zero_le _
  | mpdu | bpdu =>
    rw [htype, pointerOf?] at hpdu
    dsimp only at hpdu
    split at hpdu
    · cases hpdu
    · exact Nat.not_lt.mp ‹_›

theorem Frame.Decodes.insertZone_isSome_or (hd : f.Decodes d config) :
    f.insertZone?.isSome = true ∨ config.insertZoneLength = 0 := by
  rw [← hd.insertZoneLength, insertZone?]
  split
  · exact .inr ‹_›
  · exact .inl rfl

theorem Frame.Decodes.length_insertZone (hd : f.Decodes d config) {zone : Bytes}
    (h : zone ∈ f.insertZone?) : zone.length = config.insertZoneLength := by
  have hle : config.insertZoneLength ≤ f.overhead.headers := by
    rw [hd.overhead, Config.overhead]
    exact Nat.le_add_left _ _
  rw [insertZone?] at h
  split at h
  · cases h
  · cases h
    rw [List.length_drop, f.length_headers, hd.insertZoneLength, Nat.sub_sub_self hle]

end

/-- The check of a header, as it stands in a frame. -/
def Header.checkBytes (h : Header) (present : Bool) : Bytes :=
  if present then (fhec? h.encode).getD [] else []

theorem Header.fhec?_encode (h : Header) : fhec? h.encode = some (h.checkBytes true) := rfl

theorem Header.length_checkBytes (h : Header) (present : Bool) :
    (h.checkBytes present).length = if present then fhecLength else 0 := by
  cases present <;> rfl

section

variable {h : Header} {present : Bool} {d rest : Bytes}
  (hd : d = h.encode ++ h.checkBytes present ++ rest)
include hd

theorem take_headerLength : d.take headerLength = h.encode := by
  rw [hd, List.append_assoc]
  exact List.take_left' h.length_encode

theorem slice_fhec (hp : present = true) :
    Bytes.slice headerLength fhecLength d = h.checkBytes true := by
  rw [hd, hp, List.append_assoc, Bytes.slice, List.drop_left' h.length_encode]
  exact List.take_left' (h.length_checkBytes true)

/-- A header with its check is valid. -/
theorem headerValid_of_checkBytes : headerValid present d = true := by
  cases hp : present with
  | false => rfl
  | true =>
    have hlen : (h.checkBytes true).length = fhecLength := h.length_checkBytes true
    rw [headerValid, take_headerLength hd, slice_fhec hd hp, fhecValid, fhecValid?, if_pos hlen,
      h.fhec?_encode, Option.map_some, beq_self_eq_true]
    rfl

end

/-- The check of a valid header is the one that its bytes have. -/
theorem checkBytes_of_headerValid {h : Header} {d : Bytes} (hd : d.take headerLength = h.encode)
    (hv : headerValid true d = true) :
    h.checkBytes true = Bytes.slice headerLength fhecLength d := by
  rw [headerValid, hd, fhecValid, fhecValid?] at hv
  split at hv
  · rw [h.fhec?_encode] at hv
    exact beq_iff_eq.mp hv
  · cases hv

/-- The headers of a frame are the primary header, its check and the insert zone. -/
theorem Frame.Decodes.headers_parts {f : Frame} {d : Bytes} {config : Config}
    (hd : f.Decodes d config) :
    f.headers = d.take headerLength ++ f.fhec?.getD [] ++ f.insertZone?.getD [] := by
  generalize hn : headerLength + (if f.fhecPresent then fhecLength else 0) = n
  have ho : f.overhead.headers = n + f.insertZoneLength := by
    rw [← hn, hd.overhead, hd.fhecPresent, hd.insertZoneLength]
    rfl
  have hheaders : f.headers = d.take (n + f.insertZoneLength) := by
    rw [FrameBytes.headers, hd.bytes, ho]
  have hcheck : d.take headerLength ++ f.fhec?.getD [] = d.take n := by
    subst hn
    rw [fhec?, hd.bytes]
    cases f.fhecPresent with
    | false => exact List.append_nil _
    | true => exact Bytes.take_append_slice _ _ _
  have hzone : f.insertZone?.getD [] = (d.drop n).take f.insertZoneLength := by
    rw [insertZone?, hheaders, ho, Nat.add_sub_cancel, List.drop_take, Nat.add_sub_cancel_left]
    split
    · rw [‹f.insertZoneLength = 0›, List.take_zero]
      rfl
    · rfl
  rw [hcheck, hzone, hheaders, List.take_add]

/-- The headers of a frame whose header is valid and has no spare bits set are as a builder writes
them. -/
theorem Frame.Decodes.headers_eq {f : Frame} {d : Bytes} {config : Config} (hd : f.Decodes d config)
    (hv : f.isHeaderValid = true) (hspare : ∀ b ∈ d[5]?, bits b.toNat 4 2 = 0) :
    f.header.encode ++ f.header.checkBytes f.fhecPresent ++ f.insertZone?.getD [] = f.headers := by
  have hencode := Header.encode_of_decode hd.header hspare
  have hcheck : f.header.checkBytes f.fhecPresent = f.fhec?.getD [] := by
    rw [fhec?]
    cases hp : f.fhecPresent with
    | false => rfl
    | true =>
      rw [isHeaderValid, hp, hd.bytes] at hv
      rw [checkBytes_of_headerValid hencode.symm hv, hd.bytes]
      rfl
  rw [hd.headers_parts, hencode, hcheck]

/-! ## What the frame carries -/

/-- The user data: the packets of an M_PDU, the bitstream of a B_PDU or the whole data field. -/
def Frame.Holds (f : Frame) (data : Bytes) : Prop :=
  match f.userDataType with
  | .mpdu => f.packetZone = .ok data
  | .bpdu => f.bitstreamZone = .ok data
  | .vca | .idle => f.dataField = data

theorem Frame.packetZone_of_mpdu {f : Frame} (h : f.userDataType = .mpdu) :
    f.packetZone = .ok f.pduZone := by
  rw [packetZone, firstHeaderPointer, pointerFor, if_pos h, pointer?, h]
  rfl

theorem Frame.bitstreamZone_of_bpdu {f : Frame} (h : f.userDataType = .bpdu) :
    f.bitstreamZone = .ok f.pduZone := by
  rw [bitstreamZone, bitstreamDataPointer, pointerFor, if_pos h, pointer?, h]
  rfl

/-- The user data follows the header of the data field. -/
theorem Frame.holds_of_dataField {f : Frame} {pduHeader data : Bytes}
    (h : f.dataField = pduHeader ++ data) (hl : pduHeader.length = pduHeaderOf f.userDataType) :
    f.Holds data := by
  have hzone (hp : pduHeader.length = pduHeaderLength) : f.pduZone = data :=
    (congrArg (List.drop pduHeaderLength) h).trans (List.drop_left' hp)
  rw [Holds]
  cases hu : f.userDataType with
  | mpdu =>
    rw [hu] at hl
    exact (packetZone_of_mpdu hu).trans (congrArg _ (hzone hl))
  | bpdu =>
    rw [hu] at hl
    exact (bitstreamZone_of_bpdu hu).trans (congrArg _ (hzone hl))
  | vca | idle =>
    rw [hu] at hl
    rw [List.eq_nil_of_length_eq_zero hl, List.nil_append] at h
    exact h

/-- The insert zone ends the headers. -/
theorem Frame.insertZone?_getD {f : Frame} {leading zone : Bytes} (h : f.headers = leading ++ zone)
    (hl : zone.length = f.insertZoneLength) : f.insertZone?.getD [] = zone := by
  rw [insertZone?]
  split
  · exact (List.eq_nil_of_length_eq_zero (hl.trans ‹_›)).symm
  · have hlen := congrArg List.length h
    rw [FrameBytes.length_headers, List.length_append] at hlen
    rw [Option.getD_some, h]
    exact List.drop_left' (by omega)

end SpaceLink.Aos
