import SpaceLink.Tm.Frame
import SpaceLink.Proofs.Tm.Header
import SpaceLink.Proofs.FrameBytes
import SpaceLink.Proofs.Steps

/-!
# Decoding TM frames

`Frame.Decodes` are the conditions under which bytes are read as a frame, one for each that
`Frame.decode` looks at. Strict checking adds that the check is right, and nothing else.
-/

namespace SpaceLink.Tm

/-- The parts of a frame whose secondary header, first byte included, has `secondary` bytes. -/
def Config.overhead (c : Config) (secondary : Nat) (ocfPresent : Bool) : Overhead where
  headers := headerLength + secondary
  securityHeader := c.securityHeaderLength
  securityTrailer := c.securityTrailerLength
  ocfPresent
  fecfPresent := c.fecfPresent

/-- The frame is what the bytes are read as. -/
structure Frame.Decodes (f : Frame) (d : Bytes) (config : Config) : Prop where
  version : checkVersion d version headerLength = .ok ()
  header : Header.decode d = some f.header
  bytes : f.bytes = d
  overhead : ∃ secondary, secondaryHeaderLength f.header d = .ok secondary ∧
    f.overhead = config.overhead secondary f.header.ocfPresent
  pointer : checkPointer f.header f.dataFieldLength = .ok ()
  valid : config.strict = true → f.isValid = true

theorem Frame.decode_eq_ok_iff {f : Frame} {d : Bytes} {config : Config} :
    Frame.decode d config = .ok f ↔ f.Decodes d config := by
  rw [decode, bind_eq_ok_iff]
  constructor
  · rintro ⟨⟨⟩, hversion, h⟩
    cases hheader : Header.decode d with
    | none => simp [hheader] at h
    | some header =>
      rw [hheader] at h
      obtain ⟨secondary, hsecondary, h⟩ := bind_eq_ok_iff.mp h
      obtain ⟨framed, hframed, h⟩ := bind_eq_ok_iff.mp h
      obtain ⟨hbytes, hoverhead⟩ := FrameBytes.ofBytes_eq_ok_iff.mp hframed
      obtain ⟨⟨⟩, hpointer, h⟩ := bind_eq_ok_iff.mp h
      obtain ⟨⟨⟩, hfecf, h⟩ := bind_eq_ok_iff.mp h
      cases h
      exact ⟨hversion, hheader, hbytes, ⟨secondary, hsecondary, hoverhead⟩, hpointer,
        FrameBytes.checkFecf_eq_ok_iff.mp hfecf⟩
  · intro h
    obtain ⟨secondary, hsecondary, hoverhead⟩ := h.overhead
    have hframed := FrameBytes.ofBytes_eq_ok_iff.mpr ⟨h.bytes, hoverhead⟩
    rw [Config.overhead] at hframed
    refine ⟨(), h.version, ?_⟩
    rw [h.header]
    dsimp only
    rw [hsecondary, ok_bind, hframed, ok_bind, h.pointer, ok_bind,
      FrameBytes.checkFecf_eq_ok_iff.mpr h.valid, ok_bind]
    rfl

/-- The version is that of the header. -/
theorem checkVersion_of_decode {d : Bytes} {h : Header} (hd : Header.decode d = some h)
    (hv : h.version = version) : checkVersion d version headerLength = .ok () := by
  unfold Header.decode at hd
  split at hd
  · cases hd
    exact checkVersion_of_version hv (by simp [headerLength])
  · cases hd

theorem Frame.Decodes.version_eq {f : Frame} {d : Bytes} {config : Config}
    (h : f.Decodes d config) : f.header.version = Tm.version := by
  have hheader := h.header
  have hversion := h.version
  unfold Header.decode at hheader
  split at hheader
  · rw [← Option.some.inj hheader]
    exact version_of_checkVersion hversion
  · cases hheader

/-- The headers of a frame are the primary header alone, or with a secondary header whose first byte
has the length of the rest. -/
theorem Frame.Decodes.headers_cases {f : Frame} {d : Bytes} {config : Config}
    (h : f.Decodes d config) :
    (f.header.secondaryHeaderPresent = false ∧ f.secondaryHeader? = none ∧
        f.headers = f.header.encode ∧ f.overhead = config.overhead 0 f.header.ocfPresent) ∨
      f.header.secondaryHeaderPresent = true ∧ ∃ id data, f.secondaryHeader? = some (id :: data) ∧
        f.headers = f.header.encode ++ id :: data ∧ data.length = bits id.toNat 0 6 ∧
        f.overhead = config.overhead (1 + data.length) f.header.ocfPresent := by
  obtain ⟨secondary, hsecondary, hoverhead⟩ := h.overhead
  have hheaders : f.headers = d.take (headerLength + secondary) := by
    rw [FrameBytes.headers, h.bytes, hoverhead, Config.overhead]
  have hlength := f.length_headers
  rw [hheaders, hoverhead, Config.overhead] at hlength
  rw [secondaryHeaderLength] at hsecondary
  rw [Header.encode_of_decode h.header, secondaryHeader?]
  cases hpresent : f.header.secondaryHeaderPresent with
  | false =>
    rw [hpresent] at hsecondary
    cases hsecondary
    exact .inl ⟨rfl, rfl, hheaders, hoverhead⟩
  | true =>
    rw [hpresent, if_pos rfl] at hsecondary
    cases hid : d[headerLength]? with
    | none =>
      rw [hid] at hsecondary
      cases hsecondary
    | some id =>
      rw [hid] at hsecondary
      cases hsecondary
      have hrest : d.take (headerLength + (bits id.toNat 0 6 + 1)) =
          d.take headerLength ++ id :: (d.drop (headerLength + 1)).take (bits id.toNat 0 6) := by
        rw [List.take_add, List.drop_eq_getElem?_toList_append, hid]
        rfl
      have hdata : ((d.drop (headerLength + 1)).take (bits id.toNat 0 6)).length =
          bits id.toNat 0 6 := by
        rw [List.length_take] at hlength ⊢
        rw [List.length_drop]
        dsimp only at hlength
        omega
      refine .inr ⟨rfl, id, _, ?_, hheaders.trans hrest, hdata, ?_⟩
      · rw [if_pos rfl, hheaders, hrest, ← Header.encode_of_decode h.header,
          List.drop_left' f.header.length_encode]
      · rw [hoverhead, hdata, Nat.add_comm 1]

end SpaceLink.Tm
