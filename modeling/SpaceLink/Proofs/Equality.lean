import SpaceLink.Tm.Stored
import SpaceLink.Aos.Stored
import SpaceLink.Tc.Stored
import SpaceLink.Proofs.Tm.Frame
import SpaceLink.Proofs.Aos.Frame
import SpaceLink.Proofs.Tc.Frame

/-!
# Equal frames

What is stored of a frame (`Stored`) loses nothing that was agreed for it, although some places stay
the same when neighbouring parts of different lengths are agreed: comparing what is stored tells
whether two frames were read from the same bytes in the same way (`frames_equal_iff`). Only whether
checking was strict, and what does not matter for a control command, is not compared.
-/

namespace SpaceLink

attribute [ext] Overhead FrameBytes Tm.Frame Aos.Frame Tc.Frame

/-- A part whose length is agreed lies between two of the places, so that its length follows. -/
theorem FrameBytes.overhead_eq_of_zones {f g : FrameBytes} (h : f.zones = g.zones) :
    f.overhead = g.overhead := by
  simp only [zones, Overhead.zones, Zones.mk.injEq, Overhead.leading] at h
  obtain ⟨hheaders, hdataStart, hdataEnd, htrailer, hocf, hfecf⟩ := h
  ext1
  case headers => exact hheaders
  case securityHeader => omega
  case securityTrailer => omega
  case fecfPresent => exact hfecf
  case ocfPresent =>
    have hpresent := congrArg Option.isSome hocf
    simpa [apply_ite Option.isSome] using hpresent

theorem FrameBytes.stored_eq_iff {Details : Type} {f g : FrameBytes} {x y : Details} :
    f.stored x = g.stored y ↔ f = g ∧ x = y := by
  constructor
  · intro h
    simp only [stored, Stored.mk.injEq] at h
    obtain ⟨hbytes, hzones, -, hdetails⟩ := h
    exact ⟨FrameBytes.ext hbytes (overhead_eq_of_zones hzones), hdetails⟩
  · rintro ⟨rfl, rfl⟩
    rfl

/-- Of two frames that are read, the same is stored exactly if they are equal, and they are equal
exactly if the bytes are and the parameters agree. -/
def ComparedBy {F C S : Type} (decode : Bytes → C → Except Error F) (stored : F → S)
    (agree : F → C → C → Prop) : Prop :=
  ∀ a b ca cb f g, decode a ca = .ok f → decode b cb = .ok g →
    (f = g ↔ stored f = stored g) ∧ (f = g ↔ a = b ∧ agree f ca cb)

/-! ## TM frames -/

namespace Tm

theorem Frame.stored_injective : Function.Injective Frame.stored := by
  intro f g h
  obtain ⟨hbytes, hheader⟩ := FrameBytes.stored_eq_iff.mp h
  exact Frame.ext (congrArg (·.bytes) hbytes) (congrArg (·.overhead) hbytes) hheader

/-- Parameters are the same, apart from strictness. -/
def Config.Agree (c c' : Config) : Prop := { c with strict := c'.strict } = c'

theorem Config.overhead_eq_iff {c c' : Config} {secondary : Nat} {ocfPresent : Bool} :
    c.overhead secondary ocfPresent = c'.overhead secondary ocfPresent ↔ c.Agree c' := by
  obtain ⟨⟩ := c
  obtain ⟨⟩ := c'
  simp only [overhead, Agree, Overhead.mk.injEq, mk.injEq, true_and, and_true]
  exact and_rotate.symm

theorem Frame.Decodes.eq_iff {f g : Frame} {a b : Bytes} {ca cb : Config} (hf : f.Decodes a ca)
    (hg : g.Decodes b cb) : f = g ↔ a = b ∧ ca.Agree cb := by
  obtain ⟨secondary, hsecondary, hoverhead⟩ := hf.overhead
  obtain ⟨secondary', hsecondary', hoverhead'⟩ := hg.overhead
  constructor
  · rintro rfl
    obtain rfl : a = b := hf.bytes.symm.trans hg.bytes
    obtain rfl : secondary = secondary' := Except.ok.inj (hsecondary.symm.trans hsecondary')
    exact ⟨rfl, Config.overhead_eq_iff.mp (hoverhead.symm.trans hoverhead')⟩
  · rintro ⟨rfl, hagree⟩
    have hheader : f.header = g.header := Option.some.inj (hf.header.symm.trans hg.header)
    rw [hheader] at hsecondary hoverhead
    obtain rfl : secondary = secondary' := Except.ok.inj (hsecondary.symm.trans hsecondary')
    refine Frame.ext (hf.bytes.trans hg.bytes.symm) ?_ hheader
    rw [hoverhead, hoverhead', Config.overhead_eq_iff]
    exact hagree

end Tm

/-! ## AOS frames -/

namespace Aos

theorem Frame.stored_injective : Function.Injective Frame.stored := by
  intro f g h
  obtain ⟨hbytes, hdetails⟩ := FrameBytes.stored_eq_iff.mp h
  simp only [details, Details.mk.injEq] at hdetails
  obtain ⟨hheader, hfhec, hinsert, htype, -, -⟩ := hdetails
  exact Frame.ext (congrArg (·.bytes) hbytes) (congrArg (·.overhead) hbytes) hheader hfhec hinsert
    htype

/-- Parameters are the same, apart from strictness. -/
def Config.Agree (c c' : Config) : Prop := { c with strict := c'.strict } = c'

/-- The check of the header and the insert zone are not told apart by the lengths of all headers. -/
theorem Config.agree_iff {c c' : Config} :
    c.Agree c' ↔ c.overhead = c'.overhead ∧ c.fhecPresent = c'.fhecPresent ∧
      c.insertZoneLength = c'.insertZoneLength ∧ c.userDataType = c'.userDataType := by
  obtain ⟨⟩ := c
  obtain ⟨⟩ := c'
  simp only [overhead, Agree, Overhead.mk.injEq, mk.injEq, and_true]
  constructor
  · rintro ⟨rfl, rfl, rfl, rfl, rfl, rfl, rfl⟩
    simp
  · rintro ⟨⟨-, rfl, rfl, rfl, rfl⟩, rfl, rfl, rfl⟩
    simp

theorem Frame.Decodes.eq_iff {f g : Frame} {a b : Bytes} {ca cb : Config} (hf : f.Decodes a ca)
    (hg : g.Decodes b cb) : f = g ↔ a = b ∧ ca.Agree cb := by
  rw [Config.agree_iff, ← hf.overhead, ← hg.overhead, ← hf.fhecPresent, ← hg.fhecPresent,
    ← hf.insertZoneLength, ← hg.insertZoneLength, ← hf.userDataType, ← hg.userDataType]
  constructor
  · rintro rfl
    exact ⟨hf.bytes.symm.trans hg.bytes, rfl, rfl, rfl, rfl⟩
  · rintro ⟨rfl, hoverhead, hfhec, hinsert, htype⟩
    have hheader : f.header = g.header := Option.some.inj (hf.header.symm.trans hg.header)
    exact Frame.ext (hf.bytes.trans hg.bytes.symm) hoverhead hheader hfhec hinsert htype

end Aos

/-! ## TC frames -/

namespace Tc

theorem Frame.stored_injective : Function.Injective Frame.stored := by
  intro f g h
  obtain ⟨hbytes, hdetails⟩ := FrameBytes.stored_eq_iff.mp h
  obtain ⟨hheader, hsegment⟩ := Prod.mk.inj hdetails
  exact Frame.ext (congrArg (·.bytes) hbytes) (congrArg (·.overhead) hbytes) hheader hsegment

/-- Parameters are the same for frames of the type, apart from strictness. -/
def Config.AgreeIn (c c' : Config) : FrameType → Prop
  | .bc => c.fecfPresent = c'.fecfPresent
  | .ad | .bd | .reserved => { c with strict := c'.strict } = c'

theorem Config.agreeIn_iff {c c' : Config} {type : FrameType} :
    c.AgreeIn c' type ↔ c.segmentedIn type = c'.segmentedIn type ∧
      c.overheadIn type = c'.overheadIn type := by
  obtain ⟨⟩ := c
  obtain ⟨⟩ := c'
  cases type with
  | bc => simp [AgreeIn, segmentedIn, overheadIn, commandOverhead]
  | ad | bd | reserved =>
    simp only [AgreeIn, segmentedIn, overheadIn, dataOverhead, Overhead.mk.injEq, mk.injEq,
      true_and, and_true]
    constructor
    · rintro ⟨rfl, rfl, rfl, rfl⟩
      simp
    · rintro ⟨rfl, -, rfl, rfl, rfl⟩
      simp

/-- The frame shows whether such frames have segment headers. -/
theorem Frame.Decodes.segmentedIn_eq {f : Frame} {d : Bytes} {config : Config}
    (h : f.Decodes d config) : config.segmentedIn f.frameType = f.segmentHeader?.isSome := by
  rcases h.segmentHeader_cases with ⟨hsegmented, hnone⟩ | ⟨hsegmented, b, -, hsome⟩
  · simp [hsegmented, hnone]
  · simp [hsegmented, hsome]

theorem Frame.Decodes.eq_iff {f g : Frame} {a b : Bytes} {ca cb : Config} (hf : f.Decodes a ca)
    (hg : g.Decodes b cb) : f = g ↔ a = b ∧ ca.AgreeIn cb f.frameType := by
  rw [Config.agreeIn_iff]
  constructor
  · rintro rfl
    exact ⟨hf.bytes.symm.trans hg.bytes, hf.segmentedIn_eq.trans hg.segmentedIn_eq.symm,
      hf.overhead.symm.trans hg.overhead⟩
  · rintro ⟨rfl, hsegmented, hoverhead⟩
    have hheader : f.header = g.header := Option.some.inj (hf.header.symm.trans hg.header)
    have htype : f.frameType = g.frameType := congrArg (·.frameType) hheader
    have hsegment := hf.segmentHeader
    rw [hsegmented, htype, hg.segmentHeader] at hsegment
    refine Frame.ext (hf.bytes.trans hg.bytes.symm) ?_ hheader (Except.ok.inj hsegment).symm
    rw [hf.overhead, hoverhead, htype, hg.overhead]

end Tc

/-! ## All kinds -/

/-- Frames are equal exactly if they were read from the same bytes and the same has been agreed for
them, strictness apart; for a control command, the same about the frame error control field. -/
theorem frames_equal_iff :
    ComparedBy Tm.Frame.decode Tm.Frame.stored (fun _ => Tm.Config.Agree) ∧
    ComparedBy Aos.Frame.decode Aos.Frame.stored (fun _ => Aos.Config.Agree) ∧
    ComparedBy Tc.Frame.decode Tc.Frame.stored (fun f c c' => c.AgreeIn c' f.frameType) := by
  refine ⟨fun a b ca cb f g hf hg => ?_, fun a b ca cb f g hf hg => ?_,
    fun a b ca cb f g hf hg => ?_⟩
  · exact ⟨Tm.Frame.stored_injective.eq_iff.symm,
      (Tm.Frame.decode_eq_ok_iff.mp hf).eq_iff (Tm.Frame.decode_eq_ok_iff.mp hg)⟩
  · exact ⟨Aos.Frame.stored_injective.eq_iff.symm,
      (Aos.Frame.decode_eq_ok_iff.mp hf).eq_iff (Aos.Frame.decode_eq_ok_iff.mp hg)⟩
  · exact ⟨Tc.Frame.stored_injective.eq_iff.symm,
      (Tc.Frame.decode_eq_ok_iff.mp hf).eq_iff (Tc.Frame.decode_eq_ok_iff.mp hg)⟩

/-- The parts meet in the same places, but a check of the header is no insert zone. -/
theorem frames_equal_iff_same_places :
    let d : Bytes := [0x4a, 0x45, 1, 2, 3, 0x40, 9, 9, 0x07, 0xff, 5, 0, 0]
    let checked : Aos.Config := { fhecPresent := true }
    let inserted : Aos.Config := { insertZoneLength := 2 }
    ∃ f g, Aos.Frame.decode d checked = .ok f ∧ Aos.Frame.decode d inserted = .ok g ∧
      f.zones = g.zones ∧ f ≠ g ∧ f.stored ≠ g.stored := by
  intro d checked inserted
  obtain ⟨f, hf⟩ := exists_eq_ok_of_isOk (show (Aos.Frame.decode d checked).isOk by decide +kernel)
  obtain ⟨g, hg⟩ := exists_eq_ok_of_isOk (show (Aos.Frame.decode d inserted).isOk by decide +kernel)
  obtain ⟨hstored, hequal⟩ := frames_equal_iff.2.1 d d checked inserted f g hf hg
  have hzones : (Aos.Frame.decode d checked).toOption.map (·.zones) =
      (Aos.Frame.decode d inserted).toOption.map (·.zones) := by decide +kernel
  rw [hf, hg] at hzones
  have hne : f ≠ g := by
    intro h
    have hagree : checked.Agree inserted := (hequal.mp h).2
    simp [Aos.Config.Agree, checked, inserted] at hagree
  exact ⟨f, g, hf, hg, Option.some.inj hzones, hne, hne ∘ hstored.mpr⟩

end SpaceLink
