import SpaceLink.Proofs.Aos.Builder
import SpaceLink.Proofs.Completion

/-! # What is missing from an AOS frame -/

namespace SpaceLink.Aos

namespace Builder

/-- The data field has no header yet, though data of this type has one. -/
def unsetFaults (type : UserDataType) (pointer? : Option Nat) : List Fault :=
  [⟨type = .mpdu && pointer?.isNone, .fieldUnset .firstHeaderPointer⟩,
    ⟨type = .bpdu && pointer?.isNone, .fieldUnset .bitstreamDataPointer⟩]

/-- The pointer leads out of what follows it, unless it does not point. That of a bitstream counts
bits. -/
def pointerFaults (type : UserDataType) (pointer? : Option Nat) (capacity : Nat) : List Fault :=
  let pointer := pointer?.getD 0
  [⟨type = .mpdu && pointer?.isSome && pointer ≠ idlePointer && pointer ≠ noPacketPointer &&
      capacity ≤ pointer, .pointer .firstHeaderPointer pointer capacity⟩,
    ⟨type = .bpdu && pointer?.isSome && pointer ≠ idleBitstream && pointer ≠ fullBitstream &&
      8 * capacity < pointer, .pointer .bitstreamDataPointer pointer capacity⟩]

/-- What may be missing or wrong when an AOS frame is built, in the order in which it is looked
for. -/
def faults (config : Config) (capacity : Nat) (t : Told) : List Fault :=
  t.request.faults config.overhead capacity ++
    ⟨0 < config.insertZoneLength && t.insertZone?.isNone, .fieldUnset .insertZone⟩ ::
    (unsetFaults config.userDataType t.pointer? ++
      pointerFaults config.userDataType t.pointer? capacity)

section

variable {b : Builder} {config : Config} {room : Nat} {t : Told} {contents : Contents}
  {insertZone header : Bytes}

theorem Obeys.pduHeader_reportsFirst (h : b.Obeys config room t) :
    ReportsFirst b.pduHeader (unsetFaults config.userDataType t.pointer?) := by
  rw [Builder.pduHeader, h.userDataType, h.pointer]
  cases config.userDataType <;> cases t.pointer? <;> first | exact .of_ok rfl | exact .of_error rfl

/-- Behind a header of the data field that has been written there is the user data. -/
theorem Obeys.checkPdu_reportsFirst (h : b.Obeys config room t) (hp : b.pduHeader = .ok header)
    {data : Bytes} (hd : data.length = room) (length : Nat) :
    ReportsFirst (checkPdu config.userDataType length (header ++ data))
      (pointerFaults config.userDataType t.pointer? room) := by
  obtain ⟨hlength, hpointer⟩ := h.pduHeader hp
  have hread := hpointer data
  have hlen : (header ++ data).length = pduHeaderOf config.userDataType + room := by
    rw [List.length_append, hlength, hd]
  generalize config.userDataType = type at hread hlen ⊢
  -- the header is there whenever there is a pointer, so that only the pointer itself is checked
  have hsome {pointer : Nat} (hpointer : t.pointer? = some pointer)
      (htype : pduHeaderOf type = pduHeaderLength) : checkPdu type length (header ++ data) =
        if type = .mpdu then checkFirstHeader pointer room else checkBitstream pointer room := by
    rw [checkPdu, hread, hpointer]
    dsimp only
    rw [hlen, htype, if_neg (Nat.not_lt.mpr (Nat.le_add_right _ _)), Nat.add_sub_cancel_left]
  cases type with
  | vca | idle =>
    rw [checkPdu, hread, ← hread]
    exact .of_ok rfl
  | mpdu =>
    obtain ⟨pointer, hp⟩ : ∃ pointer, t.pointer? = some pointer := ⟨_, hread.symm⟩
    rw [hsome hp rfl, hp, if_pos rfl, checkFirstHeader]
    refine .ite ?_ fun _ => .cons rfl (.of_ok rfl)
    simp [and_assoc]
  | bpdu =>
    obtain ⟨pointer, hp⟩ : ∃ pointer, t.pointer? = some pointer := ⟨_, hread.symm⟩
    rw [hsome hp rfl, hp, if_neg (by decide), checkBitstream]
    refine .cons rfl (.ite ?_ fun _ => .of_ok rfl)
    simp [and_assoc, Nat.mul_comm 8]

/-- A complete frame is decoded unless its pointer leads out of it. -/
theorem Obeys.decode_reportsFirst (h : b.Obeys config room t) (hv : t.header.version = version)
    (hc : b.draft.finish = .ok contents) (hi : b.insertZone.get .insertZone = .ok insertZone)
    (hp : b.pduHeader = .ok header) :
    ReportsFirst
      (Frame.decode (contents.toBytes (b.header.encode ++ b.fhec ++ insertZone) header) b.config)
      (pointerFaults config.userDataType t.pointer? room) := by
  obtain ⟨hfits, -, hroom, -⟩ := h.draft.finish hc
  have hheaders := h.length_headers (h.insertZone.get hi).2
  obtain ⟨framed, hframed, hfield⟩ := hfits.exists_ofBytes header hheaders
  obtain ⟨rest, hrest⟩ :=
    contents.toBytes_eq_append (b.header.encode ++ b.fhec ++ insertZone) header
  have hheader : Header.decode (contents.toBytes (b.header.encode ++ b.fhec ++ insertZone) header) =
      some t.header := by
    rw [hrest, List.append_assoc, List.append_assoc, h.header, Header.decode_encode h.fits]
  have hstrict : b.config.strict = false := by rw [h.agreed]
  have hfecf : framed.checkFecf b.config.strict = .ok () :=
    FrameBytes.checkFecf_eq_ok_iff.mpr fun hs => absurd (hs.symm.trans hstrict) Bool.noConfusion
  have ho : b.config.overhead = config.overhead := by
    rw [h.agreed]
    rfl
  rw [Frame.decode, checkVersion_of_decode hheader hv, ok_bind, hheader]
  dsimp only
  rw [ho, hframed, ok_bind, hfecf, hstrict, Bool.false_and, if_neg Bool.false_ne_true, hfield,
    h.userDataType]
  rw [← List.append_nil (pointerFaults _ _ _)]
  exact (h.checkPdu_reportsFirst hp hroom _).bind fun _ _ => .of_ok rfl

theorem Obeys.build_reportsFirst (h : b.Obeys config room t) (hv : t.header.version = version) :
    ReportsFirst b.build (faults config room t) := by
  refine h.draft.finish_reportsFirst.bind fun contents hc => ?_
  refine .bind_one (h.insertZone.get_reportsFirst _) fun insertZone hi => ?_
  exact h.pduHeader_reportsFirst.bind fun header hp => h.decode_reportsFirst hv hc hi hp

end

end Builder

end SpaceLink.Aos
