import SpaceLink.Tc.Frame
import SpaceLink.Proofs.Tc.Header
import SpaceLink.Proofs.FrameBytes
import SpaceLink.Proofs.Steps

/-!
# Decoding TC frames

`Frame.Decodes` are the conditions under which bytes are read as a frame, one for each that
`Frame.decode` looks at. Of what is agreed for frames with data, a control command keeps the frame
error control field only (`Config.segmentedIn`, `Config.overheadIn`). Strict checking adds that the
check is right, and nothing else.
-/

namespace SpaceLink.Tc

/-- Frames of this type have a segment header. -/
def Config.segmentedIn (c : Config) : FrameType → Bool
  | .bc => false
  | .ad | .bd | .reserved => c.segmented

/-- The lengths of the parts in frames of this type. -/
def Config.overheadIn (c : Config) : FrameType → Overhead
  | .bc => c.commandOverhead
  | .ad | .bd | .reserved => c.dataOverhead

theorem Config.headerLength_le_total (c : Config) : headerLength ≤ c.dataOverhead.total := by
  simp only [Overhead.total, Overhead.leading, Config.dataOverhead]
  omega

theorem Config.overheadIn_of_ne_bc (c : Config) {type : FrameType} (h : type ≠ .bc) :
    c.overheadIn type = c.dataOverhead := by
  cases type with
  | bc => contradiction
  | ad | bd | reserved => rfl

theorem Config.segmentedIn_of_ne_bc (c : Config) {type : FrameType} (h : type ≠ .bc) :
    c.segmentedIn type = c.segmented := by
  cases type with
  | bc => contradiction
  | ad | bd | reserved => rfl

/-- A command has the frame error control field as well. -/
theorem Config.fecfPresent_overheadIn (c : Config) (type : FrameType) :
    (c.overheadIn type).fecfPresent = c.fecfPresent := by
  cases type <;> rfl

theorem readParts_eq_ok_iff {h : Header} {d : Bytes} {config : Config}
    {segmentHeader? : Option SegmentHeader} {framed : FrameBytes} :
    readParts h d config = .ok (segmentHeader?, framed) ↔
      readSegmentHeader d (config.segmentedIn h.frameType) = .ok segmentHeader? ∧
        framed.bytes = d ∧ framed.overhead = config.overheadIn h.frameType := by
  rw [readParts, ← FrameBytes.ofBytes_eq_ok_iff]
  cases h.frameType with
  | bc =>
    dsimp only [Config.segmentedIn, Config.overheadIn]
    cases FrameBytes.ofBytes d config.commandOverhead with
    | error e => exact ⟨nofun, fun h => nomatch h.2⟩
    | ok parts =>
      show Except.ok (none, parts) = _ ↔ Except.ok none = _ ∧ _
      simp
  | ad | bd | reserved =>
    dsimp only [Config.segmentedIn, Config.overheadIn]
    cases readSegmentHeader d config.segmented with
    | error e => exact ⟨nofun, fun h => nomatch h.1⟩
    | ok header? =>
      cases FrameBytes.ofBytes d config.dataOverhead with
      | error e => exact ⟨nofun, fun h => nomatch h.2⟩
      | ok parts =>
        show Except.ok (header?, parts) = _ ↔ _
        simp

/-- The frame is what the bytes are read as. -/
structure Frame.Decodes (f : Frame) (d : Bytes) (config : Config) : Prop where
  version : checkVersion d version headerLength = .ok ()
  header : Header.decode d = some f.header
  frameLength : f.header.frameLength = d.length
  segmentHeader : readSegmentHeader d (config.segmentedIn f.frameType) = .ok f.segmentHeader?
  bytes : f.bytes = d
  overhead : f.overhead = config.overheadIn f.frameType
  valid : config.strict = true → f.isValid = true

theorem Frame.decode_eq_ok_iff {f : Frame} {d : Bytes} {config : Config} :
    Frame.decode d config = .ok f ↔ f.Decodes d config := by
  rw [decode, bind_eq_ok_iff]
  constructor
  · rintro ⟨⟨⟩, hversion, h⟩
    cases hheader : Header.decode d with
    | none => simp [hheader] at h
    | some header =>
      rw [hheader] at h
      dsimp only at h
      split at h
      · cases h
      rename_i hlength
      obtain ⟨⟨segmentHeader?, framed⟩, hparts, h⟩ := bind_eq_ok_iff.mp h
      obtain ⟨hsegment, hbytes, hoverhead⟩ := readParts_eq_ok_iff.mp hparts
      obtain ⟨⟨⟩, hfecf, h⟩ := bind_eq_ok_iff.mp h
      cases h
      exact ⟨hversion, hheader, Decidable.not_not.mp hlength, hsegment, hbytes, hoverhead,
        FrameBytes.checkFecf_eq_ok_iff.mp hfecf⟩
  · intro h
    have hparts := readParts_eq_ok_iff.mpr ⟨h.segmentHeader, h.bytes, h.overhead⟩
    refine ⟨(), h.version, ?_⟩
    rw [h.header]
    dsimp only
    rw [if_neg (not_not_intro h.frameLength), hparts, ok_bind]
    dsimp only
    rw [FrameBytes.checkFecf_eq_ok_iff.mpr h.valid, ok_bind]
    rfl

/-- A frame with a command is read in the same way whatever is agreed for frames with data. -/
theorem Frame.Decodes.of_bc {f : Frame} {d : Bytes} {config config' : Config}
    (h : f.Decodes d config) (htype : f.frameType = .bc) (hv : f.isValid = true)
    (hfecf : config'.fecfPresent = config.fecfPresent) : f.Decodes d config' := by
  have hsegment := h.segmentHeader
  have hoverhead := h.overhead
  rw [htype] at hsegment hoverhead
  refine { h with segmentHeader := ?_, overhead := ?_, valid := fun _ => hv }
  · rw [htype]
    exact hsegment
  · rw [htype, hoverhead, Config.overheadIn, Config.overheadIn, Config.commandOverhead,
      Config.commandOverhead, hfecf]

/-- The version is that of the header. -/
theorem checkVersion_of_decode {d : Bytes} {h : Header} (hd : Header.decode d = some h)
    (hv : h.version = version) : checkVersion d version headerLength = .ok () := by
  unfold Header.decode at hd
  split at hd
  · cases hd
    exact checkVersion_of_version hv (by simp [headerLength])
  · cases hd

section

variable {f : Frame} {d : Bytes} {config : Config}

theorem Frame.Decodes.version_eq (hd : f.Decodes d config) : f.header.version = Tc.version := by
  have hheader := hd.header
  have hversion := hd.version
  unfold Header.decode at hheader
  split at hheader
  · rw [← Option.some.inj hheader]
    exact version_of_checkVersion hversion
  · cases hheader

/-- The segment header is the byte after the primary header. -/
theorem Frame.Decodes.segmentHeader_cases (hd : f.Decodes d config) :
    (config.segmentedIn f.frameType = false ∧ f.segmentHeader? = none) ∨
      config.segmentedIn f.frameType = true ∧
        ∃ b, d[headerLength]? = some b ∧ f.segmentHeader? = some (.decode b) := by
  have hsegment := hd.segmentHeader
  rw [readSegmentHeader] at hsegment
  split at hsegment
  · rename_i hsegmented
    split at hsegment
    · exact .inr ⟨hsegmented, _, ‹_›, (Except.ok.inj hsegment).symm⟩
    · cases hsegment
  · rename_i hsegmented
    exact .inl ⟨Bool.eq_false_iff.mpr hsegmented, (Except.ok.inj hsegment).symm⟩

/-- The headers of a frame are the primary header and the segment header, if it has one. -/
theorem Frame.Decodes.headers_parts (hd : f.Decodes d config) :
    f.headers = d.take headerLength ++ (f.segmentHeader?.map (·.encode)).toList := by
  have ho : f.overhead.headers =
      headerLength + if config.segmentedIn f.frameType then SegmentHeader.length else 0 := by
    rw [hd.overhead]
    cases f.frameType <;> rfl
  rw [FrameBytes.headers, hd.bytes, ho]
  rcases hd.segmentHeader_cases with ⟨hsegmented, hnone⟩ | ⟨hsegmented, b, hb, hsome⟩
  · rw [hsegmented, hnone]
    exact (List.append_nil _).symm
  · rw [hsegmented, hsome, if_pos rfl, SegmentHeader.length, List.take_add_one, hb, Option.map_some,
      SegmentHeader.encode_decode]

/-- The headers of a frame without spare bits set are as a builder writes them. -/
theorem Frame.Decodes.headers_eq (hd : f.Decodes d config)
    (hspare : ∀ b ∈ d[0]?, bits b.toNat 2 2 = 0) :
    f.header.encode ++ (f.segmentHeader?.map (·.encode)).toList = f.headers := by
  rw [hd.headers_parts, Header.encode_of_decode hd.header hspare]

end

end SpaceLink.Tc
