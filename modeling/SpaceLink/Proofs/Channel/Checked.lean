import SpaceLink.Proofs.Channel.Run
import SpaceLink.Proofs.Channel.Stream

/-!
# Reassembly with checked arithmetic

The reassembly of packets once more, as loops over positions in the zone. Subtractions
(`difference?`) and cuts (`Bytes.between?`) give nothing where they would leave their range, and so
does a loop that is not over after a given number of rounds. As long as the packet in flight is one
that reassembly can leave behind (`PartialPacket.Suspended`), none of this happens:
`Checked.advance_eq` and `Checked.process_eq` say that there is always a result, and that it is the
one of `advance` and `Channel.process`.
-/

namespace SpaceLink

/-- The difference of two numbers, if it is not negative. -/
def difference? (a b : Nat) : Option Nat := if b ≤ a then some (a - b) else none

theorem difference?_of_le {a b : Nat} (h : b ≤ a) : difference? a b = some (a - b) := if_pos h

namespace Checked

/-- What the search for the length of a packet in flight ends with. -/
inductive Sought
  /-- The header stays incomplete or cannot be read. -/
  | unknown (inFlight? : Option PartialPacket)
  /-- The bytes then held, the declared length and the position reached in the zone. -/
  | known (bytes : Bytes) (total position : Nat)

/-- Completes the header of a packet in flight with the bytes of `zone` from `position` up to
`limit`, where another packet starts if `interrupted`. Each round adds bytes, reads the length, or
finds it known. -/
def seekLength (kind : PacketKind) (zone : Bytes) (limit : Nat) (interrupted : Bool) :
    (rounds : Nat) → PartialPacket → (position : Nat) → Option Sought
  | 0, _, _ => none
  | rounds + 1, p, position =>
    match p.total? with
    | some total => some (.known p.bytes total position)
    | none =>
      if kind.headerLength p.bytes ≤ p.bytes.length then
        match kind.declaredLength? p.bytes with
        | some total =>
          seekLength kind zone limit interrupted rounds { p with total? := some total } position
        | none => some (.unknown none)
      else do
        let needed ← difference? (kind.headerLength p.bytes) p.bytes.length
        let available ← difference? limit position
        if available < needed then
          if interrupted then return .unknown none
          let rest ← Bytes.between? position limit zone
          return .unknown (some { p with bytes := p.bytes ++ rest })
        let header ← Bytes.between? position (position + needed) zone
        seekLength kind zone limit interrupted rounds { p with bytes := p.bytes ++ header }
          (position + needed)

/-- Completes a packet of known length with the bytes of `zone` from `position` up to `limit`. -/
def complete (kind : PacketKind) (zone : Bytes) (limit : Nat) (interrupted : Bool) (bytes : Bytes)
    (total position : Nat) : Option (Option Extracted × Option PartialPacket) :=
  if total < kind.headerLength bytes then some (none, none)
  else do
    let remaining ← difference? total bytes.length
    let available ← difference? limit position
    if remaining ≤ available then
      let rest ← Bytes.between? position (position + remaining) zone
      return (some { bytes := bytes ++ rest, complete := true }, none)
    let rest ← Bytes.between? position limit zone
    if interrupted then return (some { bytes := bytes ++ rest, complete := false }, none)
    return (none, some { bytes := bytes ++ rest, total? := some total })

/-- Continues the packet in flight. Three rounds have to do for its header. -/
def resume (kind : PacketKind) (p : PartialPacket) (zone : Bytes) (start? : Option Nat) :
    Option (Option Extracted × Option PartialPacket) := do
  let limit := start?.getD zone.length
  match ← seekLength kind zone limit start?.isSome 3 p 0 with
  | .unknown inFlight? => return (none, inFlight?)
  | .known bytes total position =>
    complete kind zone limit start?.isSome bytes total position

/-- Cuts the bytes of `zone` from `position` on into packets, one in each round. -/
def extract (kind : PacketKind) (zone : Bytes) :
    (rounds position : Nat) → Option (List Bytes × Option PartialPacket)
  | 0, _ => none
  | rounds + 1, position =>
    if zone.length ≤ position then some ([], none)
    else do
      let rest ← Bytes.between? position zone.length zone
      if rest.length < kind.headerLength rest then
        return ([], some { bytes := rest, total? := none })
      match kind.declaredLength? rest with
      | none => return ([], none)
      | some total =>
        if kind.headerLength rest = 1 then extract kind zone rounds (position + 1)
        else if total < kind.headerLength rest then return ([], none)
        else if rest.length < total then return ([], some { bytes := rest, total? := some total })
        else
          let packet ← Bytes.between? 0 total rest
          let (packets, inFlight?) ← extract kind zone rounds (position + total)
          return (packet :: packets, inFlight?)

/-- Takes one packet zone. A start beyond the end of the zone is taken for the end. There cannot be
more packets in a zone than bytes. -/
def advance (kind : PacketKind) (inFlight? : Option PartialPacket) (zone : Bytes)
    (start? : Option Nat) : Option (List Extracted × Option PartialPacket) := do
  let start? := start?.map (min · zone.length)
  let (resumed?, waiting?) ← match inFlight? with
    | some p => resume kind p zone start?
    | none => pure (none, none)
  match start? with
  | none => return (resumed?.toList, waiting?)
  | some start =>
    let (packets, rest?) ← extract kind zone (zone.length + 1) start
    return (resumed?.toList ++ packets.map fun bytes => { bytes, complete := true }, rest?)

variable {F : Type} [ChannelFrame F]

def processPackets (c : Channel) (kind : PacketKind) (f : F) (gap : Bool) : Option Outcome := do
  let gap := c.pendingGap || gap
  let report := List.map fun (p : Extracted) => Event.packetExtracted kind p.bytes p.complete
  if ChannelFrame.isIdle f then
    return { channel := { c with pendingGap := gap }, events := [], result := .ok () }
  let closed := if gap then (c.inFlight?.bind (·.close?)).toList else []
  let inFlight? := if gap then none else c.inFlight?
  match ChannelFrame.packetField f with
  | .error e =>
    return {
      channel := { c with pendingGap := false, inFlight? }
      events := report closed
      result := .error e }
  | .ok (zone, start?) =>
    let (packets, inFlight?) ← advance kind inFlight? zone start?
    return {
      channel := { c with pendingGap := false, inFlight? }
      events := report (closed ++ packets)
      result := .ok () }

def processBitstream (c : Channel) (f : F) : Option Outcome :=
  if ChannelFrame.isIdle f then some { channel := c, events := [], result := .ok () }
  else if ChannelFrame.isSync f then
    some { channel := c, events := [], result := .error .syncFlag }
  else match ChannelFrame.bitstream f with
    | .error e => some { channel := c, events := [], result := .error e }
    | .ok (zone, validBits) => do
      let data ← Bytes.between? 0 (min ((validBits + 7) / 8) zone.length) zone
      return { channel := c, events := [.bitstreamExtracted data validBits], result := .ok () }

def processContents (c : Channel) (f : F) (gap : Bool) : Option Outcome :=
  match c.mode with
  | .data =>
    some { channel := c, events := [.dataExtracted (ChannelFrame.dataZone f)], result := .ok () }
  | .bitstream => processBitstream c f
  | .packet => processPackets c .space f gap
  | .encapsulation => processPackets c .encapsulation f gap

/-- Takes one frame. -/
def process (c : Channel) (f : F) : Option Outcome :=
  let vcid := ChannelFrame.vcid f
  if vcid ≠ c.vcid then
    some {
      channel := c
      events := []
      result := if c.strict then .error (.vcidMismatch c.vcid vcid) else .ok () }
  else do
    let gap? := c.gap? f
    let counted := { c with lastCount? := some (ChannelFrame.frameCount f) }
    let outcome ← processContents counted f gap?.isSome
    return { outcome with
      events := .frameReceived :: (gap?.toList.map .gapDetected ++ outcome.events) }

/-! ## The packet in flight -/

variable {kind : PacketKind} {zone : Bytes} {limit : Nat} {interrupted : Bool} {p : PartialPacket}

/-- What a search has to end with, for a packet of which `d` are all bytes up to the limit. -/
def Sought.RightFor (kind : PacketKind) (zone : Bytes) (limit : Nat) (interrupted : Bool)
    (d : Bytes) : Sought → Prop
  | .unknown inFlight? => settle kind d interrupted = (none, inFlight?)
  | .known bytes total position =>
    bytes ≠ [] ∧ kind.declaredLength? bytes = some total ∧
      (kind.headerLength bytes ≤ total → bytes.length ≤ total) ∧
      position ≤ limit ∧ bytes ++ Bytes.between position limit zone = d

/-- A header without its end is all that is known of a packet. -/
private theorem settle_of_length_lt (kind : PacketKind) {d : Bytes} (hd : d ≠ [])
    (h : d.length < kind.headerLength d) (interrupted : Bool) :
    settle kind d interrupted =
      (none, if interrupted then none else some { bytes := d, total? := none }) := by
  have ht := PacketKind.declaredLength?_eq_none_iff.mpr h
  have := settle_of_header d [] interrupted hd (.inl rfl) fun t h' => by
    rw [ht] at h'
    cases h'
  rw [List.append_nil, ht] at this
  exact this.symm

/-- The search ends, after at most three rounds. -/
theorem seekLength_spec (hp : p.Suspended kind) (hl : limit ≤ zone.length) (interrupted : Bool) :
    ∃ sought, seekLength kind zone limit interrupted 3 p 0 = some sought ∧
      sought.RightFor kind zone limit interrupted (p.bytes ++ zone.take limit) := by
  have hbytes := hp.bytes_ne_nil
  have hd := hp.total?_eq
  obtain ⟨bytes, total?⟩ := p
  dsimp only at hbytes hd ⊢
  cases ht : total? with
  | some t =>
    rw [ht] at hd
    refine ⟨.known bytes t 0, by rw [seekLength], hbytes, hd.symm, fun _ => ?_, Nat.zero_le _, ?_⟩
    · exact Nat.le_of_lt (hp.length_lt ht)
    · rw [Bytes.between, List.drop_zero]
  | none =>
    rw [ht] at hd
    have hlt := PacketKind.declaredLength?_eq_none_iff.mp hd.symm
    generalize hn : kind.headerLength bytes - bytes.length = needed
    have hneeded : difference? (kind.headerLength bytes) bytes.length = some needed :=
      hn ▸ difference?_of_le (Nat.le_of_lt hlt)
    rw [seekLength]
    simp only [if_neg (Nat.not_le.mpr hlt), hneeded, difference?_of_le (Nat.zero_le limit),
      Option.bind_eq_bind, Option.bind_some, Nat.sub_zero, Nat.zero_add]
    by_cases hs : limit < needed
    · -- the zone ends, or another packet starts, before the header is complete
      have hsettle := settle_of_length_lt kind (d := bytes ++ zone.take limit)
        (List.append_ne_nil_of_left_ne_nil hbytes _) (by
          rw [PacketKind.headerLength_append hbytes, List.length_append, List.length_take]
          omega) interrupted
      rw [if_pos hs]
      cases interrupted with
      | true => exact ⟨_, rfl, hsettle⟩
      | false =>
        refine ⟨.unknown (some { bytes := bytes ++ zone.take limit, total? := none }), ?_, hsettle⟩
        rw [Bytes.between?_of_le (Nat.zero_le limit) hl, Bytes.between, List.drop_zero]
        rfl
    · -- the header is completed, its length read, and the search over
      have hle : needed ≤ limit := Nat.not_lt.mp hs
      have hheader : Bytes.between 0 needed zone = zone.take needed := by
        rw [Bytes.between, List.drop_zero]
      have hlen : (bytes ++ zone.take needed).length =
          kind.headerLength (bytes ++ zone.take needed) := by
        rw [PacketKind.headerLength_append hbytes, List.length_append, List.length_take]
        omega
      obtain ⟨t, ht⟩ := Option.isSome_iff_exists.mp
        (PacketKind.declaredLength?_isSome_iff.mpr (Nat.le_of_eq hlen.symm))
      refine ⟨.known (bytes ++ zone.take needed) t needed, ?_,
        List.append_ne_nil_of_left_ne_nil hbytes _, ht, fun h => hlen ▸ h, hle, ?_⟩
      · rw [if_neg hs, Bytes.between?_of_le (Nat.zero_le needed) (Nat.le_trans hle hl), hheader,
          Option.bind_some, seekLength]
        simp only [if_pos (Nat.le_of_eq hlen.symm), ht]
        rw [seekLength]
      · rw [List.append_assoc, ← hheader, Bytes.between_append (Nat.zero_le needed) hle,
          Bytes.between, List.drop_zero]

theorem complete_eq {bytes d : Bytes} {total position : Nat} (hl : limit ≤ zone.length)
    (h : (Sought.known bytes total position).RightFor kind zone limit interrupted d) :
    complete kind zone limit interrupted bytes total position =
      some (settle kind d interrupted) := by
  obtain ⟨hbytes, ht, hle, hpos, rfl⟩ := h
  rw [complete, ← settle_of_header bytes _ interrupted hbytes (.inr (ht ▸ rfl)), ht]
  · dsimp only
    by_cases hm : total < kind.headerLength bytes
    · rw [if_pos hm, if_pos hm]
    have hlen := hle (Nat.not_lt.mp hm)
    rw [if_neg hm, if_neg hm, difference?_of_le hlen, difference?_of_le hpos]
    simp only [Option.bind_eq_bind, Option.bind_some]
    by_cases hc : total - bytes.length ≤ limit - position
    · have hcut : (Bytes.between position limit zone).take (total - bytes.length) =
          Bytes.between position (position + (total - bytes.length)) zone := by
        rw [Bytes.between, Bytes.between, List.drop_take, List.drop_take, List.take_take,
          Nat.add_sub_cancel_left, Nat.min_eq_left hc]
      rw [if_pos hc, Bytes.between?_of_le (by omega) (by omega), if_pos, hcut]
      · rfl
      · rw [List.length_append, List.length_take, Bytes.length_between]
        omega
    · have hall : (Bytes.between position limit zone).take (total - bytes.length) =
          Bytes.between position limit zone := by
        rw [List.take_of_length_le]
        rw [Bytes.length_between]
        omega
      rw [if_neg hc, Bytes.between?_of_le hpos hl, if_neg, hall]
      · cases interrupted <;> rfl
      · rw [hall, List.length_append, Bytes.length_between]
        omega
  · rintro t ht' h
    rw [ht] at ht'
    cases ht'
    exact hle h

/-- A packet in flight is continued without leaving the range of any number or of the zone. -/
theorem resume_eq (hp : p.Suspended kind) (zone : Bytes) (start? : Option Nat) :
    resume kind p zone (start?.map (min · zone.length)) = some (p.resume kind zone start?) := by
  generalize hlimit : (start?.map (min · zone.length)).getD zone.length = limit
  have hl : limit ≤ zone.length := by
    subst hlimit
    cases start? with
    | none => exact Nat.le_refl _
    | some start => exact Nat.min_le_right _ _
  have hb : before zone start? = zone.take limit := by
    subst hlimit
    cases start? with
    | none => exact (List.take_length (l := zone)).symm
    | some start =>
      show zone.take start = zone.take (min start zone.length)
      rw [← List.take_take, List.take_length]
  rw [PartialPacket.resume_eq hp, hb, resume, hlimit, Option.isSome_map]
  obtain ⟨sought, hseek, hright⟩ := seekLength_spec hp hl start?.isSome
  rw [hseek]
  cases sought with
  | unknown inFlight? => exact congrArg some hright.symm
  | known bytes total position => exact complete_eq hl hright

/-! ## Cutting a zone -/

/-- Packets are cut without leaving the zone, and the cutting ends. -/
theorem extract_eq (kind : PacketKind) (zone : Bytes) {rounds position : Nat}
    (hr : zone.length - position ≤ rounds) :
    extract kind zone (rounds + 1) position =
      some (SpaceLink.extract kind (zone.drop position)) := by
  generalize hd : zone.drop position = d
  induction d using PacketKind.packet_induction kind generalizing rounds position with
  | rest d h =>
    rw [extract_of_none h, extract]
    by_cases hz : zone.length ≤ position
    · rw [if_pos hz, ← hd, List.drop_of_length_le hz, held?_nil]
    have hne : d ≠ [] := hd ▸ mt List.drop_eq_nil_iff.mp hz
    rw [if_neg hz, Bytes.between?_length (by omega), hd]
    simp only [Option.bind_eq_bind, Option.bind_some]
    cases ht : kind.declaredLength? d with
    | none =>
      rw [held?_of_none hne ht, if_pos (PacketKind.declaredLength?_eq_none_iff.mp ht)]
      rfl
    | some t =>
      have hle := PacketKind.headerLength_le_length ht
      rw [if_neg (Nat.not_lt.mpr hle), held?_of_some ht]
      dsimp only
      rw [if_neg (PacketKind.headerLength_ne_one hne h)]
      rw [PacketKind.packetLength?_of_declaredLength? ht] at h
      split
      · rfl
      · rw [if_pos]
        · rfl
        · simp only [ite_eq_right_iff, reduceCtorEq, imp_false] at h
          omega
  | packet d t h ih =>
    obtain ⟨ht, hh, hlen⟩ := PacketKind.packetLength?_eq_some_iff.mp h
    have hpos := PacketKind.packetLength?_pos h
    have hleft : zone.length - position = d.length := hd ▸ List.length_drop.symm
    have hz : ¬zone.length ≤ position := by omega
    obtain ⟨rounds, rfl⟩ := Nat.exists_eq_add_one_of_ne_zero (show rounds ≠ 0 by omega)
    have hih : extract kind zone (rounds + 1) (position + t) =
        some (SpaceLink.extract kind (d.drop t)) :=
      ih (by omega) (by rw [← List.drop_drop, hd])
    rw [extract_of_some h, extract, if_neg hz, Bytes.between?_length (by omega), hd]
    simp only [Option.bind_eq_bind, Option.bind_some]
    rw [if_neg (by omega), ht]
    dsimp only
    by_cases h1 : kind.headerLength d = 1
    · have hne := PacketKind.ne_nil_of_packetLength? h
      rw [PacketKind.declaredLength?_of_headerLength hne h1] at ht
      cases ht
      rw [if_pos h1, yield, if_pos h1, hih]
      rfl
    · rw [if_neg h1, if_neg (by omega), if_neg (by omega), yield, if_neg h1,
        Bytes.between?_of_le (Nat.zero_le t) hlen, hih]
      rfl

/-! ## Taking a zone and a frame -/

/-- A zone is taken without leaving the range of any number or of the zone. -/
theorem advance_eq {inFlight? : Option PartialPacket} (hs : ∀ p ∈ inFlight?, p.Suspended kind)
    (zone : Bytes) (start? : Option Nat) :
    advance kind inFlight? zone start? = some (SpaceLink.advance kind inFlight? zone start?) := by
  have hdrop (start : Nat) : zone.drop (min start zone.length) = zone.drop start := by
    rcases Nat.le_total start zone.length with h | h
    · rw [Nat.min_eq_left h]
    · rw [Nat.min_eq_right h, List.drop_length, List.drop_of_length_le h]
  have hcut (start : Nat) : extract kind zone (zone.length + 1) (min start zone.length) =
      some (SpaceLink.extract kind (zone.drop start)) := by
    rw [extract_eq kind zone (Nat.sub_le _ _), hdrop]
  unfold advance SpaceLink.advance
  cases inFlight? with
  | none => cases start? <;> simp [hcut]
  | some p =>
    dsimp only
    rw [resume_eq (hs p rfl)]
    cases start? <;> simp [hcut]

theorem processPackets_eq {c : Channel} (hs : ∀ p ∈ c.inFlight?, p.Suspended kind) (f : F)
    (gap : Bool) : processPackets c kind f gap = some (c.processPackets kind f gap) := by
  have hc : ∀ p ∈ if c.pendingGap || gap then none else c.inFlight?, p.Suspended kind := by
    split
    · exact nofun
    · exact hs
  unfold processPackets Channel.processPackets
  split
  · rfl
  cases hz : ChannelFrame.packetField f with
  | error e => rfl
  | ok field =>
    obtain ⟨zone, start?⟩ := field
    simp only [advance_eq hc]
    rfl

theorem processBitstream_eq (c : Channel) (f : F) :
    processBitstream c f = some (c.processBitstream f) := by
  unfold processBitstream Channel.processBitstream
  split
  · rfl
  split
  · rfl
  cases ChannelFrame.bitstream f with
  | error e => rfl
  | ok field =>
    obtain ⟨zone, validBits⟩ := field
    have hdata : Bytes.between 0 (min ((validBits + 7) / 8) zone.length) zone =
        zone.take ((validBits + 7) / 8) := by
      rw [Bytes.between, List.drop_zero, ← List.take_take, List.take_length]
    dsimp only
    rw [Bytes.between?_of_le (Nat.zero_le _) (Nat.min_le_right _ _), hdata]
    rfl

theorem processContents_eq {c : Channel}
    (hs : ∀ kind : PacketKind, c.mode = kind.mode → ∀ p ∈ c.inFlight?, p.Suspended kind) (f : F)
    (gap : Bool) : processContents c f gap = some (c.processContents f gap) := by
  unfold processContents Channel.processContents
  cases hm : c.mode with
  | packet => exact processPackets_eq (hs .space hm) f gap
  | encapsulation => exact processPackets_eq (hs .encapsulation hm) f gap
  | data => rfl
  | bitstream => exact processBitstream_eq c f

/-- A frame is taken without leaving the range of any number or of a zone. -/
theorem process_eq {c : Channel}
    (hs : ∀ kind : PacketKind, c.mode = kind.mode → ∀ p ∈ c.inFlight?, p.Suspended kind) (f : F) :
    process c f = some (c.process f) := by
  rw [process, Channel.process]
  dsimp only
  by_cases hv : ChannelFrame.vcid f ≠ c.vcid
  · rw [if_pos hv, if_pos hv]
  · have hcounted := processContents_eq
      (c := { c with lastCount? := some (ChannelFrame.frameCount f) }) hs f (c.gap? f).isSome
    rw [if_neg hv, if_neg hv, hcounted]
    rfl

end Checked

end SpaceLink
