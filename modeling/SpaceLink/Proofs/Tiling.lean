import SpaceLink.Proofs.Tm.Stored
import SpaceLink.Proofs.Aos.Stored
import SpaceLink.Proofs.Tc.Stored

/-!
# The parts of a decoded frame

The parts of a frame have their places from two sides: the headers, the security header and the
data field are counted from the first byte, everything after the data field back from the last one.
Its accessors cut them out, with cuts that stop the program where they would leave the frame. In
`FrameBytes.tiles` they do not, and the frame is these parts one after the other.
`Frame.Decodes.tiles` does the same for the headers that each kind of frame has of its own, and
`parts_of_decode` has all of it for every frame that decodes.

The lengths of the parts have to be a word together. In wrapping arithmetic they may not be, and then
there are frames with parts that cannot be cut out (`wrapped_frame_without_parts`).
-/

namespace SpaceLink

theorem FrameBytes.headers_le (f : FrameBytes) : f.overhead.headers ≤ f.bytes.length := by
  have hfits := f.fits
  rw [Overhead.total, Overhead.leading] at hfits
  omega

/-- The headers end where the security header begins. -/
theorem FrameBytes.between?_headers (f : FrameBytes) {start : Nat}
    (h : start ≤ f.overhead.headers) :
    Bytes.between? start f.overhead.headers f.bytes = some (f.headers.drop start) :=
  Bytes.between?_of_le h f.headers_le

/-- The frame has the bytes `d`, which are its parts one after the other, from the given headers on.
The lengths are those agreed for parts that a frame may or may not have. Every part is what is cut out
at its place. -/
structure FrameBytes.Tiles (a : Arithmetic) (f : FrameBytes) (d headers : Bytes)
    (securityHeader securityTrailer : Nat) (ocfPresent fecfPresent : Bool) : Prop where
  bytes : d = headers ++ f.securityHeader ++ f.dataField ++ f.securityTrailer ++ f.ocf?.getD [] ++
    f.fecf?.elim [] (Bytes.ofNatBE fecfLength)
  dataFieldStart : f.zones.dataFieldStart = (headers ++ f.securityHeader).length
  length_securityHeader : f.securityHeader.length = securityHeader
  length_securityTrailer : f.securityTrailer.length = securityTrailer
  length_ocf : f.ocf?.map (·.length) = if ocfPresent then some ocfLength else none
  isSome_fecf : f.fecf?.isSome = fecfPresent
  fecf_lt : ∀ n ∈ f.fecf?, n < 256 ^ fecfLength
  zone_securityHeader : f.zones.securityHeader d = some f.securityHeader
  zone_dataField : f.zones.dataField d = some f.dataField
  zone_securityTrailer : f.zones.securityTrailer d = some f.securityTrailer
  zone_ocf : f.zones.ocf? a d = some f.ocf?
  zone_fecf : f.zones.fecf? a d = some f.fecf?

/-- Whatever the overhead is, the frame is its parts. -/
theorem FrameBytes.tiles (a : Arithmetic) (f : FrameBytes) {headers : Bytes}
    (h : f.headers = headers) (hstorable : f.bytes.Storable) :
    f.Tiles a f.bytes headers f.overhead.securityHeader f.overhead.securityTrailer
      f.overhead.ocfPresent f.overhead.fecfPresent := by
  have hocf := f.length_ocfBytes
  have hfecf := f.length_fecfBytes
  rw [Overhead.ocf] at hocf
  rw [Overhead.fecf] at hfecf
  refine ⟨?_, ?_, f.length_securityHeader, f.length_securityTrailer, ?_, ?_, fun n hn => ?_,
    f.zones_securityHeader, f.zones_dataField, f.zones_securityTrailer, f.zones_ocf? a hstorable,
    f.zones_fecf? a⟩
  · have hocf' : f.ocf?.getD [] = f.ocfBytes := by
      rw [ocf?_eq]
      split
      · rfl
      · rw [if_neg ‹_›] at hocf
        exact (List.eq_nil_of_length_eq_zero hocf).symm
    have hfecf' : f.fecf?.elim [] (Bytes.ofNatBE fecfLength) = f.fecfBytes := by
      rw [fecf?_eq]
      split
      · rw [if_pos ‹_›] at hfecf
        exact Bytes.ofNatBE_toNatBE hfecf
      · rw [if_neg ‹_›] at hfecf
        exact (List.eq_nil_of_length_eq_zero hfecf).symm
    rw [hocf', hfecf', ← h, tile]
  · rw [← h, List.length_append, f.length_headers, f.length_securityHeader]
    rfl
  · rw [ocf?_eq]
    split
    · rw [if_pos ‹_›] at hocf
      exact congrArg some hocf
    · rfl
  · rw [fecf?_eq]
    cases f.overhead.fecfPresent <;> rfl
  · rw [fecf?_eq] at hn
    split at hn
    · rw [if_pos ‹_›] at hfecf
      cases hn
      exact Bytes.toNatBE_lt hfecf
    · cases hn

/-! ## TM frames -/

namespace Tm

/-- The first byte of the secondary header tells how many follow. -/
structure Frame.Tiles (a : Arithmetic) (f : Frame) (d : Bytes) (config : Config) : Prop extends
    FrameBytes.Tiles a f.toFrameBytes d (f.header.encode ++ f.secondaryHeader?.getD [])
      config.securityHeaderLength config.securityTrailerLength f.header.ocfPresent
      config.fecfPresent where
  length_header : f.header.encode.length = headerLength
  isSome_secondaryHeader : f.secondaryHeader?.isSome = f.header.secondaryHeaderPresent
  secondaryHeader : ∀ s ∈ f.secondaryHeader?, ∃ id data, s = id :: data ∧
    f.secondaryHeaderData? = some data ∧ data.length = bits id.toNat 0 6
  zone_secondaryHeader : StoredFrame.secondaryHeader? f.stored = some f.secondaryHeader?
  zone_secondaryHeaderData : StoredFrame.secondaryHeaderData? f.stored = some f.secondaryHeaderData?

/-- The secondary header is not cut out beyond the headers, and has the byte that tells its
length. -/
theorem Frame.Decodes.stored_secondaryHeader? {f : Frame} {d : Bytes} {config : Config}
    (hd : f.Decodes d config) : StoredFrame.secondaryHeader? f.stored = some f.secondaryHeader? ∧
      StoredFrame.secondaryHeaderData? f.stored = some f.secondaryHeaderData? := by
  have hstored : StoredFrame.secondaryHeader? f.stored =
      if f.header.secondaryHeaderPresent then
        (Bytes.between? headerLength f.overhead.headers f.bytes).bind fun h => some (some h)
      else some none := rfl
  rcases hd.headers_cases with ⟨hpresent, hnone, -⟩ | ⟨hpresent, id, data, hsome, hheaders, -⟩
  · rw [hpresent] at hstored
    rw [StoredFrame.secondaryHeaderData?, hstored, secondaryHeaderData?, hnone]
    exact ⟨rfl, rfl⟩
  · have hle : headerLength ≤ f.overhead.headers := by
      rw [← f.length_headers, hheaders, List.length_append, f.header.length_encode]
      exact Nat.le_add_right _ _
    have hcut : StoredFrame.secondaryHeader? f.stored = some (some (id :: data)) := by
      rw [hstored, hpresent, if_pos rfl, f.between?_headers hle, hheaders,
        List.drop_left' f.header.length_encode]
      rfl
    rw [StoredFrame.secondaryHeaderData?, hcut, secondaryHeaderData?, hsome]
    refine ⟨rfl, ?_⟩
    simp only [Option.bind_eq_bind, Option.bind_some]
    rw [Bytes.between?_length (Nat.succ_le_succ (Nat.zero_le _))]
    rfl

theorem Frame.Decodes.tiles (a : Arithmetic) {f : Frame} {d : Bytes} {config : Config}
    (hd : f.Decodes d config) (hstorable : d.Storable) : f.Tiles a d config := by
  rw [← hd.bytes] at hstorable
  have hsecondary : f.headers = f.header.encode ++ f.secondaryHeader?.getD [] := by
    rcases hd.headers_cases with ⟨-, hnone, hheaders, -⟩ | ⟨-, id, data, hsome, hheaders, -⟩
    · rw [hheaders, hnone]
      exact (List.append_nil _).symm
    · rw [hheaders, hsome]
      rfl
  have htiles := f.toFrameBytes.tiles a hsecondary hstorable
  obtain ⟨secondary, -, ho⟩ := hd.overhead
  rw [hd.bytes, ho] at htiles
  refine { htiles with
    length_header := rfl, isSome_secondaryHeader := ?_, secondaryHeader := fun s hs => ?_
    zone_secondaryHeader := hd.stored_secondaryHeader?.1
    zone_secondaryHeaderData := hd.stored_secondaryHeader?.2 }
  · rw [secondaryHeader?]
    cases f.header.secondaryHeaderPresent <;> rfl
  · rcases hd.headers_cases with ⟨-, hnone, -⟩ | ⟨-, id, data, hsome, -, hdata, -⟩
    · rw [hnone] at hs
      cases hs
    · rw [hsome] at hs
      cases hs
      exact ⟨id, data, rfl, by rw [secondaryHeaderData?, hsome]; rfl, hdata⟩

end Tm

/-! ## AOS frames -/

namespace Aos

/-- The insert zone is there if bytes are agreed for it, and the data field begins with a pointer
if the user data need one. -/
structure Frame.Tiles (a : Arithmetic) (f : Frame) (d : Bytes) (config : Config) : Prop extends
    FrameBytes.Tiles a f.toFrameBytes d
      (d.take headerLength ++ f.fhec?.getD [] ++ f.insertZone?.getD [])
      config.securityHeaderLength config.securityTrailerLength config.ocfPresent
      config.fecfPresent where
  length_header : (d.take headerLength).length = headerLength
  header : Header.decode (d.take headerLength) = some f.header
  length_fhec : f.fhec?.map (·.length) = if config.fhecPresent then some fhecLength else none
  length_insertZone : f.insertZone?.map (·.length) =
    if config.insertZoneLength = 0 then none else some config.insertZoneLength
  userDataType : f.userDataType = config.userDataType
  dataField : ∃ pduHeader data, f.dataField = pduHeader ++ data ∧
    pduHeader.length = pduHeaderOf config.userDataType ∧ f.Holds data
  zone_fhec : StoredFrame.fhec? f.stored = some f.fhec?
  zone_insertZone : StoredFrame.insertZone? a f.stored = some f.insertZone?
  zone_packet : (StoredFrame.packetZone f.stored).run = some f.packetZone
  zone_bitstream : (StoredFrame.bitstreamZone f.stored).run = some f.bitstreamZone

/-- Only a data field that begins with a pointer is asked for what follows it. -/
theorem Frame.Decodes.stored_pduZone {f : Frame} {d : Bytes} {config : Config}
    (hd : f.Decodes d config) (required : UserDataType) (field : Field) :
    (StoredFrame.pduZone f.stored required field).run =
      some (do discard (f.pointerFor required field); return f.pduZone) := by
  have hpointer : StoredFrame.pointerFor f.stored required field = f.pointerFor required field := rfl
  rw [StoredFrame.pduZone, hpointer]
  cases hp : f.pointerFor required field with
  | error e => rfl
  | ok pointer =>
    have hle : pduHeaderLength ≤ f.dataField.length := by
      have hle := hd.pduHeaderOf_le
      rw [pointerFor, pointer?] at hp
      cases htype : f.userDataType with
      | mpdu | bpdu =>
        rw [htype] at hle
        exact hle
      | vca | idle =>
        rw [htype, pointerOf?, ite_self] at hp
        cases hp
    have hfield : f.stored.zones.dataField f.stored.bytes = some f.dataField := f.zones_dataField
    rw [hfield]
    exact congrArg (Option.map Except.ok) (Bytes.between?_length hle)

section

variable {f : Frame} {d : Bytes} {config : Config}

theorem Frame.Decodes.overhead_headers (hd : f.Decodes d config) : f.overhead.headers =
    headerLength + (if f.fhecPresent then fhecLength else 0) + f.insertZoneLength := by
  rw [hd.overhead, hd.fhecPresent, hd.insertZoneLength]
  rfl

theorem Frame.Decodes.fhec?_le (hd : f.Decodes d config) (hp : f.fhecPresent = true) :
    headerLength + fhecLength ≤ f.bytes.length := by
  have hheaders := hd.overhead_headers
  have hle := f.headers_le
  rw [hp, if_pos rfl] at hheaders
  omega

theorem Frame.Decodes.stored_fhec? (hd : f.Decodes d config) :
    StoredFrame.fhec? f.stored = some f.fhec? := by
  show (if f.fhecPresent then
    (Bytes.between? headerLength (headerLength + fhecLength) f.bytes).bind fun h => some (some h)
    else some none) = _
  rw [fhec?]
  cases hp : f.fhecPresent with
  | false => rfl
  | true =>
    rw [if_pos rfl, Bytes.between?_slice (hd.fhec?_le hp)]
    rfl

theorem Frame.Decodes.length_fhec? (hd : f.Decodes d config) :
    f.fhec?.map (·.length) = if f.fhecPresent then some fhecLength else none := by
  rw [fhec?]
  cases hp : f.fhecPresent with
  | false => rfl
  | true =>
    have hle := hd.fhec?_le hp
    rw [if_pos rfl, if_pos rfl, Option.map_some, Bytes.length_slice, Nat.min_eq_left (by omega)]

theorem Frame.Decodes.stored_insertZone? (a : Arithmetic) (hd : f.Decodes d config) :
    StoredFrame.insertZone? a f.stored = some f.insertZone? := by
  have hle : f.insertZoneLength ≤ f.overhead.headers := by
    rw [hd.overhead_headers]
    exact Nat.le_add_left _ _
  show (if f.insertZoneLength = 0 then some none
    else (a.sub f.overhead.headers f.insertZoneLength).bind fun start =>
      (Bytes.between? start f.overhead.headers f.bytes).bind fun zone => some (some zone)) = _
  rw [insertZone?]
  split
  · rfl
  · rw [a.sub_of_le hle, Option.bind_some, f.between?_headers (Nat.sub_le _ _)]
    rfl

theorem Frame.Decodes.length_insertZone? (hd : f.Decodes d config) :
    f.insertZone?.map (·.length) =
      if f.insertZoneLength = 0 then none else some f.insertZoneLength := by
  cases hz : f.insertZone? with
  | none =>
    have h0 := hd.insertZone_isSome_or.resolve_left (by simp [hz])
    rw [hd.insertZoneLength, if_pos h0]
    rfl
  | some zone =>
    have hlength := hd.length_insertZone hz
    rw [insertZone?] at hz
    split at hz
    · cases hz
    · rw [if_neg ‹_›, Option.map_some, hlength, hd.insertZoneLength]

theorem Frame.Decodes.tiles (a : Arithmetic) (hd : f.Decodes d config) (hstorable : d.Storable) :
    f.Tiles a d config := by
  rw [← hd.bytes] at hstorable
  have htiles := f.toFrameBytes.tiles a hd.headers_parts hstorable
  rw [hd.bytes, hd.overhead] at htiles
  obtain ⟨hheader, hlength⟩ := Header.decode_take hd.header
  have hle := hd.pduHeaderOf_le
  have hfhec := hd.length_fhec?
  have hinsertZone := hd.length_insertZone?
  rw [hd.userDataType] at hle
  rw [hd.fhecPresent] at hfhec
  rw [hd.insertZoneLength] at hinsertZone
  refine { htiles with
    length_header := hlength, header := hheader, length_fhec := hfhec
    length_insertZone := hinsertZone, userDataType := hd.userDataType, dataField := ?_
    zone_fhec := hd.stored_fhec?, zone_insertZone := hd.stored_insertZone? a
    zone_packet := hd.stored_pduZone _ _, zone_bitstream := hd.stored_pduZone _ _ }
  refine ⟨f.dataField.take _, f.dataField.drop _, (List.take_append_drop _ _).symm,
    List.length_take_of_le hle, holds_of_dataField (List.take_append_drop _ _).symm ?_⟩
  rw [List.length_take_of_le hle, hd.userDataType]

end

end Aos

/-! ## TC frames -/

namespace Tc

/-- Control commands have no security parts, whatever is agreed. -/
structure Frame.Tiles (a : Arithmetic) (f : Frame) (d : Bytes) (config : Config) : Prop extends
    FrameBytes.Tiles a f.toFrameBytes d
      (d.take headerLength ++ (f.segmentHeader?.map (·.encode)).toList)
      (if f.frameType = .bc then 0 else config.securityHeaderLength)
      (if f.frameType = .bc then 0 else config.securityTrailerLength) false config.fecfPresent where
  length_header : (d.take headerLength).length = headerLength
  header : Header.decode (d.take headerLength) = some f.header
  isSome_segmentHeader : f.segmentHeader?.isSome = (config.segmented && f.frameType ≠ .bc)

theorem Frame.Decodes.tiles (a : Arithmetic) {f : Frame} {d : Bytes} {config : Config}
    (hd : f.Decodes d config) (hstorable : d.Storable) : f.Tiles a d config := by
  rw [← hd.bytes] at hstorable
  have htiles := f.toFrameBytes.tiles a hd.headers_parts hstorable
  rw [hd.bytes, hd.overhead] at htiles
  obtain ⟨hheader, hlength⟩ := Header.decode_take hd.header
  have hsegment : f.segmentHeader?.isSome = (config.segmented && f.frameType ≠ .bc) := by
    have hsegmented : config.segmentedIn f.frameType = (config.segmented && f.frameType ≠ .bc) := by
      cases f.frameType <;> simp [Config.segmentedIn]
    rw [← hsegmented]
    rcases hd.segmentHeader_cases with ⟨hno, hnone⟩ | ⟨hyes, b, -, hsome⟩
    · rw [hno, hnone, Option.isSome_none]
    · rw [hyes, hsome, Option.isSome_some]
  have hoverhead : config.overheadIn f.frameType = {
      headers := (config.overheadIn f.frameType).headers
      securityHeader := if f.frameType = .bc then 0 else config.securityHeaderLength
      securityTrailer := if f.frameType = .bc then 0 else config.securityTrailerLength
      ocfPresent := false, fecfPresent := config.fecfPresent } := by
    cases f.frameType <;> rfl
  rw [hoverhead] at htiles
  exact { htiles with
    length_header := hlength, header := hheader, isSome_segmentHeader := hsegment }

end Tc

/-- Every frame that decodes has the bytes it was decoded from, no part of it is cut out beyond
them, and they are its parts one after the other, each as long as agreed. -/
theorem parts_of_decode (a : Arithmetic) :
    (∀ (d : Bytes) (config : Tm.Config) (s : Tm.StoredFrame), d.Storable →
      (a = .wrapping → Tm.minimumLength d config < wordSize) →
      (Tm.StoredFrame.decode a d config).run = some (.ok s) →
      ∃ f : Tm.Frame, s = f.stored ∧ f.Tiles a d config) ∧
    (∀ (d : Bytes) (config : Aos.Config) (s : Aos.StoredFrame), d.Storable →
      (a = .wrapping → config.InWords d.length) →
      (Aos.StoredFrame.decode a d config).run = some (.ok s) →
      ∃ f : Aos.Frame, s = f.stored ∧ f.Tiles a d config) ∧
    ∀ (d : Bytes) (config : Tc.Config) (s : Tc.StoredFrame), d.Storable →
      (a = .wrapping → Tc.minimumLength d config < wordSize) →
      (Tc.StoredFrame.decode a d config).run = some (.ok s) →
      ∃ f : Tc.Frame, s = f.stored ∧ f.Tiles a d config := by
  refine ⟨fun d config s hd hwrapping hs => ?_, fun d config s hd hwrapping hs => ?_,
    fun d config s hd hwrapping hs => ?_⟩
  · obtain ⟨f, hf, rfl⟩ := (Tm.StoredFrame.decode_agrees a hd hwrapping).exists_of_run_ok hs
    exact ⟨f, rfl, (Tm.Frame.decode_eq_ok_iff.mp hf).tiles a hd⟩
  · obtain ⟨f, hf, rfl⟩ := (Aos.StoredFrame.decode_agrees a hd hwrapping).exists_of_run_ok hs
    exact ⟨f, rfl, (Aos.Frame.decode_eq_ok_iff.mp hf).tiles a hd⟩
  · obtain ⟨f, hf, rfl⟩ := (Tc.StoredFrame.decode_agrees a hd hwrapping).exists_of_run_ok hs
    exact ⟨f, rfl, (Tc.Frame.decode_eq_ok_iff.mp hf).tiles a hd⟩

/-- A frame of each kind with all of its parts, and a command. -/
theorem parts_of_decode_full :
    let tm : Bytes := [0x2a, 0x5b, 7, 255, 0x98, 1, 2, 0xaa, 0xbb, 0x77, 1, 2, 3, 0x55, 0x66, 9, 8,
      7, 6, 0x7f, 0xe3]
    let tmConfig : Tm.Config := { securityHeaderLength := 1, securityTrailerLength := 2 }
    let aos : Bytes := [0x4a, 0x45, 1, 2, 3, 0xc9, 0x41, 0x73, 10, 11, 0x77, 7, 255, 1, 2, 3, 0x55,
      9, 8, 7, 6, 0xbc, 0x24]
    let aosConfig : Aos.Config := {
      fhecPresent := true, insertZoneLength := 2, ocfPresent := true, securityHeaderLength := 1
      securityTrailerLength := 1 }
    let segment : Bytes := [0x22, 0xa5, 0xa0, 13, 200, 0x45, 0x77, 1, 2, 3, 0x55, 0x66, 0x1a, 0x39]
    let command : Bytes := [0x32, 0xa5, 0xa0, 9, 200, 0x82, 0, 5, 0x3e, 0x40]
    let tcConfig : Tc.Config := {
      segmented := true, securityHeaderLength := 1, securityTrailerLength := 2 }
    (∃ s, (Tm.StoredFrame.decode .wrapping tm tmConfig).run = some (.ok s) ∧
      ∃ f : Tm.Frame, s = f.stored ∧ f.Tiles .wrapping tm tmConfig) ∧
    (∃ s, (Aos.StoredFrame.decode .wrapping aos aosConfig).run = some (.ok s) ∧
      ∃ f : Aos.Frame, s = f.stored ∧ f.Tiles .wrapping aos aosConfig) ∧
    (∃ s, (Tc.StoredFrame.decode .checked segment tcConfig).run = some (.ok s) ∧
      ∃ f : Tc.Frame, s = f.stored ∧ f.Tiles .checked segment tcConfig) ∧
    (∃ s, (Tc.StoredFrame.decode .checked command tcConfig).run = some (.ok s) ∧
      ∃ f : Tc.Frame, s = f.stored ∧ f.Tiles .checked command tcConfig) := by
  intro tm tmConfig aos aosConfig segment command tcConfig
  obtain ⟨tmTiles, aosTiles, -⟩ := parts_of_decode .wrapping
  obtain ⟨-, -, tcTiles⟩ := parts_of_decode .checked
  refine ⟨?_, ?_, ?_, ?_⟩
  · obtain ⟨s, hs, -⟩ : ∃ s, (Tm.StoredFrame.decode .wrapping tm tmConfig).run = some (.ok s) ∧
        s.isValid = true := Program.exists_of_any (by decide +kernel)
    exact ⟨s, hs, tmTiles tm tmConfig s (by decide) (by decide) hs⟩
  · obtain ⟨s, hs, -⟩ : ∃ s, (Aos.StoredFrame.decode .wrapping aos aosConfig).run =
        some (.ok s) ∧ s.isValid = true := Program.exists_of_any (by decide +kernel)
    exact ⟨s, hs, aosTiles aos aosConfig s (by decide) (by decide) hs⟩
  · obtain ⟨s, hs, -⟩ : ∃ s, (Tc.StoredFrame.decode .checked segment tcConfig).run =
        some (.ok s) ∧ s.isValid = true := Program.exists_of_any (by decide +kernel)
    exact ⟨s, hs, tcTiles segment tcConfig s (by decide) (by decide) hs⟩
  · obtain ⟨s, hs, -⟩ : ∃ s, (Tc.StoredFrame.decode .checked command tcConfig).run =
        some (.ok s) ∧ s.isValid = true := Program.exists_of_any (by decide +kernel)
    exact ⟨s, hs, tcTiles command tcConfig s (by decide) (by decide) hs⟩

/-- A frame that decodes though the lengths of its parts together are no word. Its security header
would have to end before it begins, so that the program stops where it is asked for. -/
theorem wrapped_frame_without_parts :
    let d : Bytes := [0, 0, 0, 0, 7, 255, 0, 0]
    let config : Tm.Config := { fecfPresent := false, securityHeaderLength := wordSize - 4 }
    ∃ s, (Tm.StoredFrame.decode .wrapping d config).run = some (.ok s) ∧
      s.zones.dataFieldStart = 2 ∧ s.zones.securityHeader s.bytes = none := by
  intro d config
  obtain ⟨s, hs, htest⟩ : ∃ s, (Tm.StoredFrame.decode .wrapping d config).run = some (.ok s) ∧
      decide (s.zones.dataFieldStart = 2 ∧ s.zones.securityHeader s.bytes = none) = true :=
    Program.exists_of_any (by decide +kernel)
  exact ⟨s, hs, of_decide_eq_true htest⟩

end SpaceLink
