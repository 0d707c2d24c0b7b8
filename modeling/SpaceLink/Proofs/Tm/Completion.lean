import SpaceLink.Proofs.Completion
import SpaceLink.Proofs.Tm.Builder

/-! # What is missing from a TM frame -/

namespace SpaceLink.Tm

namespace Builder

/-- The pointer leads out of the data field, unless it has no meaning or does not point. -/
def pointerFault (h : Header) (capacity : Nat) : Fault :=
  let pointer := h.firstHeaderPointer
  ⟨!h.sync && pointer ≠ idlePointer && pointer ≠ noPacketPointer && capacity ≤ pointer,
    .pointer .firstHeaderPointer pointer capacity⟩

/-- What may be missing or wrong when a TM frame is built, in the order in which it is looked
for. -/
def faults (plan : Plan) (capacity : Nat) (t : Told) : List Fault :=
  t.request.faults plan.overhead capacity ++
    [⟨plan.secondaryHeaderPresent && t.secondaryHeader?.isNone, .fieldUnset .secondaryHeader⟩,
      pointerFault t.header capacity]

section

variable {b : Builder} {plan : Plan} {room : Nat} {t : Told} {contents : Contents}
  {secondary? : Option Bytes}

/-- A complete frame is decoded unless its pointer leads out of it. -/
theorem Obeys.decode_reportsFirst (h : b.Obeys plan room t) (hv : t.header.version = version)
    (hc : b.draft.finish = .ok contents)
    (hs : Part.get? b.secondaryHeader? .secondaryHeader = .ok secondary?) :
    ReportsFirst
      (Frame.decode (contents.toBytes (b.header.encode ++ secondaryBytes secondary?) []) b.config)
      [pointerFault t.header room] := by
  obtain ⟨-, -, hlength, -⟩ := h.secondary hs
  obtain ⟨hfits, -, hroom, -⟩ := h.draft.finish hc
  have hheaders : (b.header.encode ++ secondaryBytes secondary?).length =
      plan.overhead.headers := by
    rw [List.length_append, Header.length_encode, hlength]
    rfl
  obtain ⟨framed, hframed, hfield⟩ := hfits.exists_ofBytes [] hheaders
  obtain ⟨rest, hrest⟩ :=
    contents.toBytes_eq_append (b.header.encode ++ secondaryBytes secondary?) []
  obtain ⟨hheader, hsecondary⟩ := h.header_encode hs rest
  rw [← hrest] at hheader hsecondary
  generalize contents.toBytes (b.header.encode ++ secondaryBytes secondary?) [] = d
    at hframed hheader hsecondary ⊢
  have hframed : FrameBytes.ofBytes d {
      headers := headerLength + plan.secondary
      securityHeader := b.config.securityHeaderLength
      securityTrailer := b.config.securityTrailerLength
      ocfPresent := t.header.ocfPresent
      fecfPresent := b.config.fecfPresent } = .ok framed := by
    rw [h.agreed, h.ocfPresent]
    exact hframed
  have hfield : framed.dataFieldLength = room := by
    rw [← FrameBytes.length_dataField, hfield, List.nil_append, hroom]
  have hfecf : framed.checkFecf b.config.strict = .ok () := by
    rw [h.agreed]
    exact FrameBytes.checkFecf_eq_ok_iff.mpr nofun
  rw [Frame.decode, checkVersion_of_decode hheader hv, ok_bind, hheader]
  dsimp only
  rw [hsecondary, ok_bind, hframed, ok_bind, hfecf]
  refine .bind_one ?_ fun _ _ => .of_ok rfl
  rw [checkPointer, hfield, Header.pointerIsSentinel]
  refine .ite ?_ fun _ => .of_ok rfl
  simp [and_assoc]

theorem Obeys.build_reportsFirst (h : b.Obeys plan room t) (hv : t.header.version = version) :
    ReportsFirst b.build (faults plan room t) := by
  refine h.draft.finish_reportsFirst.bind fun contents hc => ?_
  refine .bind_one (h.secondaryHeader.get_reportsFirst (fun hp => of_decide_eq_true hp) _)
    fun secondary? hs => ?_
  exact h.decode_reportsFirst hv hc hs

end

end Builder

end SpaceLink.Tm
