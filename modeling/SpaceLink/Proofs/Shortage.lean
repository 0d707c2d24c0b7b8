import SpaceLink.Proofs.Decoding
import SpaceLink.Proofs.Tm.Staged
import SpaceLink.Proofs.Aos.Staged
import SpaceLink.Proofs.Tc.Staged

/-!
# Errors that ask for more bytes

Several checks find that there are too few bytes, and each says how many there would have to be.
None says too many: a decoder accepts nothing shorter that begins with the same bytes, and a
constructor no shorter frame (`shortage_reports_lower_bound`). More bytes change nothing where the
checks before have looked, so that the minimum is the same for whatever begins with the bytes.

All this is so where the lengths of the parts together are a word. In wrapping arithmetic they may not
be, and then a constructor asks for less than there is (`wrapped_builder_asks_for_less`).
-/

namespace SpaceLink

/-- If the error asks for more bytes, then `size` is how many there are, this is too little, and no
accepted size is less than what it asks for. -/
def Error.AsksRightly (e : Error) (size : Nat) (accepted : Nat → Prop) : Prop :=
  match e with
  | .notEnoughData actual minimum =>
    actual = size ∧ size < minimum ∧ ∀ n, accepted n → minimum ≤ n
  | _ => True

section

variable {size : Nat} {accepted : Nat → Prop} {fault : Fault} {faults faults' : List Fault}

theorem asksRightly_nil : ∀ e ∈ firstFault? [], e.AsksRightly size accepted := nofun

/-- A fault that applies has to ask rightly, and if it does not apply, then the first of those after
it. -/
theorem asksRightly_cons (happlies : fault.applies = true → fault.error.AsksRightly size accepted)
    (hrest : fault.applies = false → ∀ e ∈ firstFault? faults, e.AsksRightly size accepted) :
    ∀ e ∈ firstFault? (fault :: faults), e.AsksRightly size accepted := by
  intro e he
  rw [firstFault?_cons] at he
  cases h : fault.applies with
  | true =>
    rw [h, if_pos rfl] at he
    cases he
    exact happlies h
  | false =>
    rw [h, if_neg Bool.false_ne_true] at he
    exact hrest h e he

theorem asksRightly_append (hfaults : ∀ fault ∈ faults, fault.error.AsksRightly size accepted)
    (hrest : ∀ e ∈ firstFault? faults', e.AsksRightly size accepted) :
    ∀ e ∈ firstFault? (faults ++ faults'), e.AsksRightly size accepted := by
  induction faults with
  | nil => exact hrest
  | cons fault faults ih =>
    rw [List.forall_mem_cons] at hfaults
    exact asksRightly_cons (fun _ => hfaults.1) fun _ => ih hfaults.2

end

/-! ## Decoders -/

/-- There are bytes of this length without a fault that begin with these. -/
def FrameOfLength (faults : Bytes → List Fault) (d : Bytes) (n : Nat) : Prop :=
  ∃ longer, d <+: longer ∧ longer.length = n ∧ ∀ fault ∈ faults longer, fault.applies = false

theorem Bytes.octet_of_extends {d longer : Bytes} (h : d <+: longer) {i : Nat} (hi : i < d.length) :
    longer.octet i = d.octet i := by
  obtain ⟨rest, rfl⟩ := h
  rw [octet, octet, List.getD_append _ _ _ _ hi]

section

variable {d : Bytes} {minimum version : Nat} {accepted : Nat → Prop} {faults : List Fault}

theorem le_of_tooShort (h : ∀ fault ∈ faults, fault.applies = false)
    (hmem : tooShort d minimum ∈ faults) : minimum ≤ d.length :=
  Nat.not_lt.mp (of_decide_eq_false (h _ hmem))

theorem asksRightly_tooShort (h : (tooShort d minimum).applies = true)
    (hle : ∀ n, accepted n → minimum ≤ n) :
    (tooShort d minimum).error.AsksRightly d.length accepted :=
  ⟨rfl, of_decide_eq_true h, hle⟩

theorem asksRightly_versionFaults (hpos : 0 < minimum) (hle : ∀ n, accepted n → minimum ≤ n)
    (hrest : minimum ≤ d.length → ∀ e ∈ firstFault? faults, e.AsksRightly d.length accepted) :
    ∀ e ∈ firstFault? (versionFaults d version minimum ++ faults),
      e.AsksRightly d.length accepted := by
  refine asksRightly_cons (fun h => ?_) fun _ => asksRightly_cons (fun _ => trivial) fun _ =>
    asksRightly_cons (asksRightly_tooShort · hle) fun h => hrest ?_
  · have hempty : d.length = 0 := of_decide_eq_true h
    rw [hempty]
    exact ⟨rfl, hpos, hle⟩
  · exact Nat.not_lt.mp (of_decide_eq_false h)

end

namespace Tm

/-- The length that a secondary header announces is looked up only where it is. -/
theorem minimumLength_of_extends {d longer : Bytes} {c : Config} (h : d <+: longer)
    (hd : 6 ≤ d.length) (hs : 128 ≤ d.octet 4 → 7 ≤ d.length) :
    minimumLength longer c = minimumLength d c := by
  rw [minimumLength, minimumLength, Bytes.octet_of_extends h (show 4 < d.length by omega),
    Bytes.octet_of_extends h (show 1 < d.length by omega)]
  by_cases hflag : 128 ≤ d.octet 4
  · rw [Bytes.octet_of_extends h (hs hflag)]
  · rw [if_neg hflag, if_neg hflag]

theorem asksRightly_faults (d : Bytes) (c : Config) : ∀ e ∈ firstFault? (faults d c),
    e.AsksRightly d.length (FrameOfLength (faults · c) d) := by
  refine asksRightly_versionFaults (by decide) ?_ fun hlong => ?_
  · rintro n ⟨longer, -, rfl, hnone⟩
    exact le_of_tooShort hnone (by simp [faults, versionFaults])
  refine asksRightly_cons (fun h => ?_) fun h => ?_
  · simp only [Bool.and_eq_true, decide_eq_true_iff] at h
    refine ⟨rfl, h.2, ?_⟩
    rintro n ⟨longer, hlonger, rfl, hnone⟩
    have hid := hnone ⟨128 ≤ Bytes.octet longer 4 && longer.length < 7,
      .notEnoughData longer.length 7⟩ (by simp [faults])
    have hflag : 128 ≤ Bytes.octet longer 4 := by
      rw [Bytes.octet_of_extends hlonger (Nat.lt_of_lt_of_le (by decide) hlong)]
      exact h.1
    simpa [hflag] using hid
  have hid : 128 ≤ d.octet 4 → 7 ≤ d.length := by simpa using h
  refine asksRightly_cons (asksRightly_tooShort · ?_) fun _ => ?_
  · rintro n ⟨longer, hlonger, rfl, hnone⟩
    rw [← minimumLength_of_extends hlonger hlong hid]
    exact le_of_tooShort hnone (by simp [faults])
  exact asksRightly_cons (fun _ => trivial) fun _ => asksRightly_cons (fun _ => trivial) fun _ =>
    asksRightly_nil

end Tm

theorem Aos.asksRightly_faults (d : Bytes) (c : Config) : ∀ e ∈ firstFault? (faults d c),
    e.AsksRightly d.length (FrameOfLength (faults · c) d) := by
  rw [faults, List.append_assoc, List.append_assoc]
  refine asksRightly_versionFaults (by decide) ?_ fun _ => ?_
  · rintro n ⟨longer, -, rfl, hnone⟩
    exact le_of_tooShort hnone (by simp [faults, versionFaults])
  refine asksRightly_cons (asksRightly_tooShort · ?_) fun _ => ?_
  · rintro n ⟨longer, -, rfl, hnone⟩
    exact le_of_tooShort hnone (by simp [faults])
  refine asksRightly_cons (fun _ => trivial) fun _ => ?_
  refine asksRightly_cons (fun h => ?_) fun _ => ?_
  · simp only [Bool.and_eq_true, decide_eq_true_iff] at h
    refine ⟨rfl, h.2, ?_⟩
    rintro n ⟨longer, -, rfl, hnone⟩
    have hpdu := hnone
      ⟨(c.userDataType = .mpdu || c.userDataType = .bpdu) && longer.length < c.minimumLength + 2,
        .notEnoughData longer.length (c.minimumLength + 2)⟩ (by simp [faults, pduFaults])
    simpa [h.1] using hpdu
  exact asksRightly_cons (fun _ => trivial) fun _ => asksRightly_cons (fun _ => trivial) fun _ =>
    asksRightly_cons (fun _ => trivial) fun _ => asksRightly_nil

namespace Tc

/-- Bytes of the length that their header declares are the only frame that begins with them. -/
theorem eq_of_extends {d longer : Bytes} {c : Config} (hlonger : d <+: longer)
    (hd : 5 ≤ d.length) (hdeclared : d.octet 2 % 4 * 256 + d.octet 3 + 1 = d.length)
    (hnone : ∀ fault ∈ faults longer c, fault.applies = false) : longer = d := by
  have hlength := hnone
    ⟨longer.octet 2 % 4 * 256 + longer.octet 3 + 1 ≠ longer.length,
      .frameLength (longer.octet 2 % 4 * 256 + longer.octet 3 + 1) longer.length⟩ (by simp [faults])
  rw [Bytes.octet_of_extends hlonger (by omega), Bytes.octet_of_extends hlonger (by omega),
    hdeclared] at hlength
  exact (hlonger.eq_of_length (Decidable.not_not.mp (of_decide_eq_false hlength))).symm

theorem asksRightly_faults (d : Bytes) (c : Config) : ∀ e ∈ firstFault? (faults d c),
    e.AsksRightly d.length (FrameOfLength (faults · c) d) := by
  refine asksRightly_versionFaults (by decide) ?_ fun hlong => ?_
  · rintro n ⟨longer, -, rfl, hnone⟩
    exact le_of_tooShort hnone (by simp [faults, versionFaults])
  refine asksRightly_cons (fun _ => trivial) fun h => ?_
  have hdeclared : d.octet 2 % 4 * 256 + d.octet 3 + 1 = d.length :=
    Decidable.not_not.mp (of_decide_eq_false h)
  -- the bytes themselves are the only frame that there may be, so that no fault of theirs applies
  have hnone {n : Nat} (hn : FrameOfLength (faults · c) d n) :
      ∀ fault ∈ faults d c, fault.applies = false := by
    obtain ⟨longer, hlonger, -, hnone⟩ := hn
    obtain rfl := eq_of_extends hlonger hlong hdeclared hnone
    exact hnone
  refine asksRightly_cons (fun h => ⟨rfl, ?_, fun n hn => ?_⟩) fun _ => ?_
  · simp only [Bool.and_eq_true, decide_eq_true_iff] at h
    exact h.2
  · exact Bool.noConfusion <| h.symm.trans (hnone hn _ (by simp [faults]))
  refine asksRightly_cons (fun h => asksRightly_tooShort h fun n hn => ?_) fun _ => ?_
  · exact Bool.noConfusion <| h.symm.trans (hnone hn _ (by simp [faults]))
  exact asksRightly_cons (fun _ => trivial) fun _ => asksRightly_nil

end Tc

/-- A decoder that asks for more bytes says how many there are, and accepts nothing that begins with
these and is shorter than what it asks for. Of other bytes than those in `domain` nothing is said. -/
def DecodesFromMinimum {F : Type} (decode : Bytes → Program F) (domain : Bytes → Prop) : Prop :=
  ∀ d, domain d → ∀ actual minimum,
    (decode d).run = some (.error (.notEnoughData actual minimum)) →
    actual = d.length ∧ actual < minimum ∧
      ∀ longer, domain longer → d <+: longer → longer.length < minimum →
        ∀ f, (decode longer).run ≠ some (.ok f)

section

variable {α : Type} {p : Program α} {stops : Prop} {faults : List Fault}

theorem Program.Reports.of_run_error {e : Error} (h : p.Reports stops faults)
    (hrun : p.run = some (.error e)) : firstFault? faults = some e := by
  obtain ⟨hnone, -⟩ | ⟨outcome, houtcome, hreports⟩ := h
  · exact absurd (hnone.symm.trans hrun) (Option.some_ne_none _).symm
  · cases houtcome.symm.trans hrun
    exact (hreports.error e).mp rfl

theorem Program.Reports.of_run_ok {x : α} (h : p.Reports stops faults)
    (hrun : p.run = some (.ok x)) : ∀ fault ∈ faults, fault.applies = false := by
  obtain ⟨hnone, -⟩ | ⟨outcome, houtcome, hreports⟩ := h
  · exact absurd (hnone.symm.trans hrun) (Option.some_ne_none _).symm
  · cases houtcome.symm.trans hrun
    exact hreports.accepts.mp ⟨x, rfl⟩

end

theorem DecodesFromMinimum.of_faults {F : Type} {decode : Bytes → Program F}
    {domain stops : Bytes → Prop} {faults : Bytes → List Fault}
    (h : ∀ d, domain d → (decode d).Reports (stops d) (faults d))
    (hasks : ∀ d, ∀ e ∈ firstFault? (faults d), e.AsksRightly d.length (FrameOfLength faults d)) :
    DecodesFromMinimum decode domain := by
  intro d hd actual minimum he
  obtain ⟨rfl, hlt, hle⟩ := hasks d _ ((h d hd).of_run_error he)
  refine ⟨rfl, hlt, fun longer hdomain hlonger hshort f hf => ?_⟩
  exact Nat.not_lt.mpr (hle _ ⟨longer, hlonger, rfl, (h longer hdomain).of_run_ok hf⟩) hshort

/-! ## Constructors -/

/-- What may be wrong with the length of a frame whose data field begins with `reserved` bytes. -/
def Overhead.lengthFaults (o : Overhead) (reserved length : Nat) : List Fault :=
  [⟨length < o.total, .notEnoughData length o.total⟩,
    ⟨length < o.total + reserved, .notEnoughData length (o.total + reserved)⟩]

theorem Overhead.forall_lengthFaults_iff {o : Overhead} {reserved length : Nat} :
    (∀ fault ∈ o.lengthFaults reserved length, fault.applies = false) ↔
      o.total + reserved ≤ length := by
  rw [lengthFaults, List.forall_mem_cons, List.forall_mem_singleton, decide_eq_false_iff_not,
    decide_eq_false_iff_not]
  omega

theorem Overhead.asksRightly_lengthFaults {o : Overhead} {reserved length : Nat}
    {accepted : Nat → Prop} (hle : ∀ n, accepted n → o.total + reserved ≤ n) :
    ∀ e ∈ firstFault? (o.lengthFaults reserved length), e.AsksRightly length accepted := by
  refine asksRightly_cons (fun h => ⟨rfl, of_decide_eq_true h, fun n hn => ?_⟩) fun _ => ?_
  · exact Nat.le_trans (Nat.le_add_right _ _) (hle n hn)
  · exact asksRightly_cons (fun h => ⟨rfl, of_decide_eq_true h, hle⟩) fun _ => asksRightly_nil

theorem Draft.plan_reportsFirst (length : Nat) (o : Overhead) (reserved : Nat) :
    ReportsFirst (plan length o reserved) (o.lengthFaults reserved length) := by
  refine .bind_one (.ite decide_eq_true_iff fun _ => .of_ok rfl) fun room hroom => ?_
  obtain rfl := o.room_eq_ok_iff.mp hroom
  have hminimum : o.total + room + reserved - room = o.total + reserved := by omega
  rw [hminimum]
  exact .ite (by simp) fun _ => .of_ok rfl

theorem ReportsFirst.bind_ok {α β : Type} {x : Except Error α} {faults : List Fault} (f : α → β)
    (hx : ReportsFirst x faults) : ReportsFirst (x >>= fun a => .ok (f a)) faults := by
  rw [← List.append_nil faults]
  exact hx.bind fun _ _ => .of_ok rfl

/-- What may be wrong with what a builder of TM frames is created for. -/
def Tm.Builder.Plan.faults (p : Plan) (length : Nat) : List Fault :=
  ⟨maxSecondaryHeader < p.secondaryHeaderLength,
    .outOfRange .secondaryHeaderLength p.secondaryHeaderLength maxSecondaryHeader⟩ ::
    p.overhead.lengthFaults 0 length

theorem Tm.Builder.create_reportsFirst (length : Nat) (p : Plan) :
    ReportsFirst (create length p.secondaryHeaderLength p.ocfPresent p.config) (p.faults length) :=
  .bind_one (checkRange_reportsFirst _ _ _) fun _ _ => .bind_ok _ (Draft.plan_reportsFirst _ _ _)

theorem Aos.Builder.create_reportsFirst (length : Nat) (c : Config) :
    ReportsFirst (create length c)
      (c.overhead.lengthFaults (pduHeaderOf c.userDataType) length) :=
  .bind_ok _ (Draft.plan_reportsFirst _ _ _)

theorem Tc.Builder.create_reportsFirst (length : Nat) (c : Config) :
    ReportsFirst (create length c)
      (⟨maxLength < length, .outOfRange .frameLength length maxLength⟩ ::
        c.dataOverhead.lengthFaults 0 length) :=
  .bind_one (checkRange_reportsFirst _ _ _) fun _ _ => .bind_ok _ (Draft.plan_reportsFirst _ _ _)

/-- A constructor that asks for a longer frame says how long this one is, and accepts no frame that
is shorter than what it asks for. If it accepts a length, then all greater ones, up to the largest
that there may be. -/
structure CreatesFromMinimum {B : Type} (create : Nat → Program B) (largest : Nat) : Prop where
  asks : ∀ length < wordSize, ∀ actual minimum,
    (create length).run = some (.error (.notEnoughData actual minimum)) →
    actual = length ∧ actual < minimum ∧
      ∀ shorter < wordSize, shorter < minimum → ∀ b, (create shorter).run ≠ some (.ok b)
  upward : ∀ first < wordSize, ∀ b, (create first).run = some (.ok b) →
    ∀ length, first ≤ length → length ≤ largest → ∃ b', (create length).run = some (.ok b')

theorem CreatesFromMinimum.of_faults {B : Type} {create : Nat → Program B} {o : Overhead}
    {largest : Nat} (reserved : Nat) (others : Nat → List Fault) (hlargest : largest ≤ maxBytes)
    (h : ∀ length < wordSize, (create length).Reports
      (maxBytes < o.total + reserved ∨ maxBytes < length)
      (others length ++ o.lengthFaults reserved length))
    (hother : ∀ length, ∀ fault ∈ others length, ∀ size accepted,
      fault.error.AsksRightly size accepted)
    (hupward : ∀ first, (∀ fault ∈ others first, fault.applies = false) → ∀ length ≤ largest,
      ∀ fault ∈ others length, fault.applies = false) :
    CreatesFromMinimum create largest := by
  have haccepts {length : Nat} {b : B} (hlength : length < wordSize)
      (hb : (create length).run = some (.ok b)) :
      (∀ fault ∈ others length, fault.applies = false) ∧ o.total + reserved ≤ length := by
    rw [← Overhead.forall_lengthFaults_iff, ← List.forall_mem_append]
    exact (h length hlength).of_run_ok hb
  refine ⟨fun length hlength actual minimum he => ?_, fun first hfirst b hb length hle hmax => ?_⟩
  · have hasks : ∀ e ∈ firstFault? (others length ++ o.lengthFaults reserved length),
        e.AsksRightly length fun n => o.total + reserved ≤ n :=
      asksRightly_append (fun fault hfault => hother length fault hfault _ _)
        (o.asksRightly_lengthFaults fun _ hn => hn)
    obtain ⟨rfl, hlt, hleast⟩ := hasks _ ((h length hlength).of_run_error he)
    refine ⟨rfl, hlt, fun shorter hword hshorter b hb => ?_⟩
    exact Nat.not_lt.mpr (hleast shorter (haccepts hword hb).2) hshorter
  · obtain ⟨hnone, hfits⟩ := haccepts hfirst hb
    have hfaults : ∀ fault ∈ others length ++ o.lengthFaults reserved length,
        fault.applies = false :=
      List.forall_mem_append.mpr ⟨hupward first hnone length hmax,
        Overhead.forall_lengthFaults_iff.mpr (Nat.le_trans hfits hle)⟩
    have hword := two_mul_maxBytes
    exact (h length (by omega)).exists_run_ok (by omega) (firstFault?_eq_none_iff.mpr hfaults)

section

variable (a : Arithmetic)

theorem Tm.StagedBuilder.createsFromMinimum (p : Builder.Plan)
    (hwrapping : a = .wrapping → p.overhead.total < wordSize) :
    CreatesFromMinimum (create a · p.secondaryHeaderLength p.ocfPresent p.config) maxBytes := by
  refine .of_faults 0 (fun _ => [_]) (Nat.le_refl _) (fun length hlength =>
    (create_agrees a hlength hwrapping).reports (Builder.create_reportsFirst length p)) ?_ ?_
  · exact fun _ => List.forall_mem_singleton.mpr fun _ _ => trivial
  · exact fun _ hnone _ _ => hnone

theorem Aos.StagedBuilder.createsFromMinimum (c : Config)
    (hwrapping : a = .wrapping → c.overhead.total + pduHeaderOf c.userDataType < wordSize) :
    CreatesFromMinimum (create a · c) maxBytes :=
  .of_faults _ (fun _ => []) (Nat.le_refl _)
    (fun length hlength =>
      (create_agrees a hlength hwrapping).reports (Builder.create_reportsFirst length c))
    (fun _ => List.forall_mem_nil _) fun _ _ _ _ => List.forall_mem_nil _

theorem Tc.StagedBuilder.createsFromMinimum (c : Config)
    (hwrapping : a = .wrapping → c.dataOverhead.total < wordSize) :
    CreatesFromMinimum (create a · c) maxLength := by
  have hreports (length : Nat) : (create a length c).Reports
      (maxBytes < c.dataOverhead.total + 0 ∨ maxBytes < length) _ :=
    ((create_agrees a hwrapping).reports (Builder.create_reportsFirst length c)).imp_left
      (And.imp_right .inl)
  refine .of_faults 0 (fun _ => [_]) maxLength_le_maxBytes (fun length _ => hreports length) ?_ ?_
  · exact fun _ => List.forall_mem_singleton.mpr fun _ _ => trivial
  · intro first _ length hmax
    exact List.forall_mem_singleton.mpr (decide_eq_false (Nat.not_lt.mpr hmax))

end

/-- What is asked for is never more than what is needed. -/
theorem shortage_reports_lower_bound (a : Arithmetic) :
    (∀ config : Tm.Config, DecodesFromMinimum (Tm.StoredFrame.decode a · config) fun d =>
      d.Storable ∧ (a = .wrapping → Tm.minimumLength d config < wordSize)) ∧
    (∀ config : Aos.Config, DecodesFromMinimum (Aos.StoredFrame.decode a · config) fun d =>
      d.Storable ∧ (a = .wrapping → config.InWords d.length)) ∧
    (∀ config : Tc.Config, DecodesFromMinimum (Tc.StoredFrame.decode a · config) fun d =>
      d.Storable ∧ (a = .wrapping → Tc.minimumLength d config < wordSize)) ∧
    (∀ plan : Tm.Builder.Plan, (a = .wrapping → plan.overhead.total < wordSize) →
      CreatesFromMinimum (Tm.StagedBuilder.create a · plan.secondaryHeaderLength plan.ocfPresent
        plan.config) maxBytes) ∧
    (∀ config : Aos.Config,
      (a = .wrapping →
        config.overhead.total + Aos.pduHeaderOf config.userDataType < wordSize) →
      CreatesFromMinimum (Aos.StagedBuilder.create a · config) maxBytes) ∧
    ∀ config : Tc.Config, (a = .wrapping → config.dataOverhead.total < wordSize) →
      CreatesFromMinimum (Tc.StagedBuilder.create a · config) Tc.maxLength := by
  refine ⟨fun config => ?_, fun config => ?_, fun config => ?_,
    Tm.StagedBuilder.createsFromMinimum a, Aos.StagedBuilder.createsFromMinimum a,
    Tc.StagedBuilder.createsFromMinimum a⟩
  · exact .of_faults (fun d hd => (Tm.StoredFrame.decode_agrees a hd.1 hd.2).reports
      (Tm.Frame.decode_reportsFirst d config)) (Tm.asksRightly_faults · config)
  · exact .of_faults (fun d hd => (Aos.StoredFrame.decode_agrees a hd.1 hd.2).reports
      (Aos.Frame.decode_reportsFirst d config)) (Aos.asksRightly_faults · config)
  · exact .of_faults (fun d hd => (Tc.StoredFrame.decode_agrees a hd.1 hd.2).reports
      (Tc.Frame.decode_reportsFirst d config)) (Tc.asksRightly_faults · config)

/-- A secondary header announced with 64 bytes, no place for a pointer, and the longest frame. -/
theorem shortage_reports_lower_bound_at_headers :
    (Tm.StoredFrame.decode .wrapping [0, 0, 0, 0, 0x80, 0, 0x3f] {}).run =
      some (.error (.notEnoughData 7 72)) ∧
    (∀ longer : Bytes, longer.Storable → Tm.minimumLength longer {} < wordSize →
      [0, 0, 0, 0, 0x80, 0, 0x3f] <+: longer → longer.length < 72 →
      ∀ s, (Tm.StoredFrame.decode .wrapping longer {}).run ≠ some (.ok s)) ∧
    (∀ shorter < 10, ∀ m, (Aos.StagedBuilder.create .wrapping shorter {}).run ≠ some (.ok m)) ∧
    ∃ m, (Tc.StagedBuilder.create .checked 1024 {}).run = some (.ok m) := by
  obtain ⟨tm, -, -, -, aos, -⟩ := shortage_reports_lower_bound .wrapping
  obtain ⟨-, -, -, -, -, tc⟩ := shortage_reports_lower_bound .checked
  have hreports := (Tm.StoredFrame.decode_agrees .wrapping (by decide) (by decide)).reports
    (Tm.Frame.decode_reportsFirst [0, 0, 0, 0, 0x80, 0, 0x3f] {})
  have hshort := hreports.run_eq_error (by decide) (show _ = some (.notEnoughData 7 72) by decide)
  have hasks := (aos {} (by decide)).asks 8 (by decide) 8 10 rfl
  refine ⟨hshort, fun longer hstorable hword => ?_, fun shorter hshorter => ?_, ?_⟩
  · exact (tm {} _ ⟨by decide, by decide⟩ 7 72 hshort).2.2 longer ⟨hstorable, fun _ => hword⟩
  · exact hasks.2.2 shorter (Nat.lt_trans hshorter (by decide)) hshorter
  · exact (tc {} (by decide)).upward 7 (by decide) _ rfl 1024 (by decide) (by decide)

/-- A builder that is refused for 20 bytes because there ought to be 2. It is accepted for 2, where it
has no place for the parts. If sums are checked, it stops when it is created. -/
theorem wrapped_builder_asks_for_less :
    let config : Tm.Config := {
      fecfPresent := false, securityHeaderLength := wordSize - 16, securityTrailerLength := 12 }
    (Tm.StagedBuilder.create .checked 20 0 false config).run = none ∧
    (Tm.StagedBuilder.create .wrapping 20 0 false config).run =
      some (.error (.notEnoughData 20 2)) ∧
    ∃ m, (Tm.StagedBuilder.create .wrapping 2 0 false config).run = some (.ok m) ∧
      (Tm.StagedBuilder.perform .wrapping (.addData [0])).on m = none :=
  ⟨rfl, rfl, _, rfl, rfl⟩

end SpaceLink
