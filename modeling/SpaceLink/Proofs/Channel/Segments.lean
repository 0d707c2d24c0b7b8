import SpaceLink.Proofs.Channel.Gaps
import SpaceLink.Proofs.Channel.Sequence
import SpaceLink.Proofs.Tc.Header

/-!
# Packets in TC frames

A TC frame has no pointer to the first packet in it. Either it has whole packets, or it is a segment
of a single packet, and then the flag in its segment header tells whether the packet starts in it.
`Tc.Segmented` are packets sent in this way. A channel has all of them again when it has taken the
frames, whatever control commands are among these (`packets_of_segments`): segments that are taken
one after the other are taken as one (`deliver_segments`), since no packet starts in a part of one
but at its beginning.
-/

namespace SpaceLink

/-! ## Packets in zones -/

/-- Takes several zones one after the other. -/
def deliver (kind : PacketKind) (inFlight? : Option PartialPacket) :
    List (Bytes × Option Nat) → List Extracted × Option PartialPacket
  | [] => ([], inFlight?)
  | zone :: zones =>
    let taken := advance kind inFlight? zone.1 zone.2
    let later := deliver kind taken.2 zones
    (taken.1 ++ later.1, later.2)

theorem deliver_append (kind : PacketKind) (inFlight? : Option PartialPacket)
    (zones zones' : List (Bytes × Option Nat)) : deliver kind inFlight? (zones ++ zones') =
      ((deliver kind inFlight? zones).1 ++ (deliver kind (deliver kind inFlight? zones).2 zones').1,
        (deliver kind (deliver kind inFlight? zones).2 zones').2) := by
  induction zones generalizing inFlight? with
  | nil => rfl
  | cons zone zones ih =>
    rw [List.cons_append, deliver, deliver, ih]
    dsimp only
    rw [List.append_assoc]

variable {kind : PacketKind} {p d : Bytes}

/-- Whole packets, of which none is left in flight. -/
theorem extract_flatten {ps : List Bytes} (h : ∀ p ∈ ps, WholePacket kind p) :
    extract kind ps.flatten = (ps, none) := by
  induction ps with
  | nil => rw [List.flatten_nil, extract]
  | cons p ps ih =>
    rw [List.flatten_cons, (h p List.mem_cons_self).extract_append,
      ih fun q hq => h q (List.mem_cons_of_mem p hq)]

/-- In the beginning of a packet, no other packet starts. -/
theorem WholePacket.packetStarts_of_prefix (hp : WholePacket kind p) (hd : d ≠ [])
    (hpre : d <+: p) : kind.packetStarts d = [0] := by
  have hwhole : kind.packetStarts [p].flatten = [0] :=
    packetStarts_flatten fun q hq => List.mem_singleton.mp hq ▸ hp
  have hpos := List.length_pos_iff.mpr hd
  rw [List.flatten_singleton] at hwhole
  rw [List.prefix_iff_eq_take.mp hpre, PacketKind.packetStarts_take, hwhole,
    List.filter_cons_of_pos (by simpa using hpos), List.filter_nil]

/-- With nothing in flight, a zone that begins with a packet is taken as it is. -/
theorem advance_none (kind : PacketKind) (d : Bytes) : advance kind none d (some 0) =
    ((extract kind d).1.map fun bytes => { bytes, complete := true }, (extract kind d).2) := rfl

/-- Segments in which no packet starts continue the one whose beginning has been taken. -/
theorem deliver_segments (hp : WholePacket kind p) (hd : d ≠ []) {segments : List Bytes}
    (hpre : d ++ segments.flatten <+: p) :
    ∃ packets, (extract kind (d ++ segments.flatten)).1 = (extract kind d).1 ++ packets ∧
      deliver kind (extract kind d).2 (segments.map (·, none)) =
        (packets.map fun bytes => { bytes, complete := true },
          (extract kind (d ++ segments.flatten)).2) := by
  induction segments generalizing d with
  | nil =>
    rw [List.flatten_nil, List.append_nil]
    exact ⟨[], (List.append_nil _).symm, rfl⟩
  | cons segment segments ih =>
    rw [List.flatten_cons, ← List.append_assoc] at hpre ⊢
    have hd' : d ++ segment ≠ [] := List.append_ne_nil_of_left_ne_nil hd _
    -- the only packet that starts in the bytes so far starts before this segment
    have hnone : firstFrom (kind.packetStarts (d ++ segment)) d.length = none := by
      rw [hp.packetStarts_of_prefix hd' ((List.prefix_append _ _).trans hpre),
        firstFrom_cons_of_lt (List.length_pos_iff.mpr hd)]
      rfl
    obtain ⟨packets, hpackets, hadvance⟩ := advance_extract kind d segment
    obtain ⟨later, hlater, hdeliver⟩ := ih hd' hpre
    rw [hnone] at hadvance
    refine ⟨packets ++ later, ?_, ?_⟩
    · rw [hlater, hpackets, List.append_assoc]
    · rw [List.map_cons, deliver, hadvance, hdeliver, List.map_append]

/-- The segments of a packet give the packet. -/
theorem deliver_cut (hp : WholePacket kind p) (hd : d ≠ []) {segments : List Bytes}
    (hcut : d ++ segments.flatten = p) :
    deliver kind none ((d, some 0) :: segments.map (·, none)) =
      ([{ bytes := p, complete := true }], none) := by
  have hpre : d ++ segments.flatten <+: p := by rw [hcut]
  obtain ⟨packets, hpackets, hdeliver⟩ := deliver_segments hp hd hpre
  have hwhole : extract kind [p].flatten = ([p], none) :=
    extract_flatten fun q hq => List.mem_singleton.mp hq ▸ hp
  rw [List.flatten_singleton] at hwhole
  rw [hcut, hwhole] at hpackets hdeliver
  rw [deliver, advance_none, hdeliver]
  dsimp only
  rw [← List.map_append, ← hpackets]
  rfl

namespace Tc

/-! ## Sending -/

def Frame.sequenceFlag? (f : Frame) : Option SequenceFlag := f.segmentHeader?.map (·.sequenceFlag)

/-- Packets and the frames that they are sent in: some of them whole in one frame, which has no
segment header or one that says so, or one of them cut into two or more segments, of which only the
first cannot be empty. -/
inductive Segmented : List Bytes → List Frame → Prop
  | done : Segmented [] []
  | whole {packets later f fs} : f.sequenceFlag?.all (· = .unsegmented) →
      f.dataField = packets.flatten → Segmented later fs → Segmented (packets ++ later) (f :: fs)
  | cut {p later first middle last fs} : first.sequenceFlag? = some .first →
      (∀ f ∈ middle, f.sequenceFlag? = some .continuing) → last.sequenceFlag? = some .last →
      first.dataField ≠ [] → first.dataField ++ ((middle ++ [last]).map (·.dataField)).flatten = p →
      Segmented later fs → Segmented (p :: later) (first :: (middle ++ last :: fs))

/-- The overhead of a frame without a frame error control field. -/
def plainOverhead (segmentHeader securityHeader securityTrailer : Bytes) : Overhead where
  headers := headerLength + segmentHeader.length
  securityHeader := securityHeader.length
  securityTrailer := securityTrailer.length
  ocfPresent := false
  fecfPresent := false

theorem total_plainOverhead_le (h : Header)
    (segmentHeader securityHeader data securityTrailer : Bytes) :
    (plainOverhead segmentHeader securityHeader securityTrailer).total ≤
      (h.encode ++ segmentHeader ++ securityHeader ++ data ++ securityTrailer).length := by
  have htotal : (plainOverhead segmentHeader securityHeader securityTrailer).total =
      headerLength + segmentHeader.length + securityHeader.length + securityTrailer.length := rfl
  simp only [htotal, List.length_append, h.length_encode]
  omega

/-- A frame that is put together from its parts. -/
def Frame.plain (header : Header) (segmentHeader? : Option SegmentHeader)
    (securityHeader data securityTrailer : Bytes) : Frame :=
  let segmentHeader := (segmentHeader?.map (·.encode)).toList
  let header := { header with
    frameLength := headerLength + segmentHeader.length + securityHeader.length + data.length +
      securityTrailer.length }
  { header, segmentHeader?
    bytes := header.encode ++ segmentHeader ++ securityHeader ++ data ++ securityTrailer
    overhead := plainOverhead segmentHeader securityHeader securityTrailer
    fits := total_plainOverhead_le header segmentHeader securityHeader data securityTrailer }

/-- Where the first packet of the frame starts. -/
def Frame.start? (f : Frame) : Option Nat :=
  if f.sequenceFlag?.all (·.startsPacket) then some 0 else none

theorem Frame.firstPacket_eq {f : Frame} (h : f.frameType ≠ .bc) :
    f.firstPacket = .ok f.start? := by
  rw [firstPacket, isIdle, if_neg (by simpa using h), start?, sequenceFlag?]
  cases hs : f.segmentHeader? with
  | none => rfl
  | some s =>
    show Except.ok (ite _ _ _) = _
    rw [Option.map_some, Option.all_some]

/-- What a frame has for a channel. -/
def Frame.zone (f : Frame) : Bytes × Option Nat := (f.dataField, f.start?)

theorem Frame.zone_of_flag {f : Frame} {flag : SequenceFlag} (h : f.sequenceFlag? = some flag) :
    f.zone = (f.dataField, if flag.startsPacket then some 0 else none) := by
  rw [zone, start?, h, Option.all_some]

theorem Frame.zone_of_unsegmented {f : Frame} (h : f.sequenceFlag?.all (· = .unsegmented)) :
    f.zone = (f.dataField, some 0) := by
  cases hflag : f.sequenceFlag? with
  | none =>
    rw [zone, start?, hflag]
    rfl
  | some flag =>
    rw [hflag, Option.all_some, decide_eq_true_eq] at h
    rw [zone_of_flag hflag, h]
    rfl

/-- The packets come out of the data fields of their frames again. -/
theorem Segmented.deliver_zones {packets : List Bytes} {frames : List Frame}
    (h : Segmented packets frames) (hwhole : ∀ p ∈ packets, WholePacket kind p) :
    deliver kind none (frames.map (·.zone)) =
      (packets.map fun bytes => { bytes, complete := true }, none) := by
  induction h with
  | done => rfl
  | @whole packets later f fs hflag hdata _ ih =>
    have hlater := ih fun p hp => hwhole p (List.mem_append_right _ hp)
    have hpackets := extract_flatten fun p hp => hwhole p (List.mem_append_left later hp)
    rw [List.map_cons, Frame.zone_of_unsegmented hflag, hdata, deliver, advance_none, hpackets,
      hlater, List.map_append]
  | @cut p later first middle last fs hfirst hmiddle hlast hne hdata _ ih =>
    have hlater := ih fun q hq => hwhole q (List.mem_cons_of_mem p hq)
    have hrest : (middle ++ [last]).map (·.zone) =
        ((middle ++ [last]).map (·.dataField)).map (·, none) := by
      rw [List.map_map]
      refine List.map_congr_left fun f hf => ?_
      rcases List.mem_append.mp hf with hf | hf
      · rw [Frame.zone_of_flag (hmiddle f hf)]
        rfl
      · rw [List.mem_singleton.mp hf, Frame.zone_of_flag hlast]
        rfl
    have hzones : (first :: (middle ++ last :: fs)).map (·.zone) =
        ((first.dataField, some 0) :: ((middle ++ [last]).map (·.dataField)).map (·, none)) ++
          fs.map (·.zone) := by
      rw [← hrest, List.append_cons, List.map_cons, List.map_append, Frame.zone_of_flag hfirst]
      rfl
    rw [hzones, deliver_append, deliver_cut (hwhole p List.mem_cons_self) hne hdata, hlater]
    rfl

end Tc

namespace Channel

/-! ## Receiving -/

variable {c : Channel}

/-- The sequence numbers of TC frames tell nothing about missing ones. -/
theorem gap?_tc (c : Channel) (f : Tc.Frame) : c.gap? f = none := if_neg Bool.false_ne_true

theorem missed_tc (hp : c.pendingGap = false) (f : Tc.Frame) : c.missed f = false := by
  rw [missed, hp, gap?_tc]
  rfl

/-- A control command changes nothing that a channel has of packets. -/
theorem process_command (hm : c.mode = kind.mode) (hp : c.pendingGap = false) {f : Tc.Frame}
    (hv : f.header.vcid = c.vcid) (ht : f.frameType = .bc) :
    (c.process f).channel =
        { c with lastCount? := some (ChannelFrame.frameCount f), pendingGap := false } ∧
      (c.process f).packets = [] ∧ (c.process f).result = .ok () := by
  obtain ⟨hchannel, hpackets, hresult⟩ := process_idle (f := f) hv hm (decide_eq_true ht)
  rw [missed_tc hp] at hchannel
  exact ⟨hchannel, hpackets, hresult⟩

/-- Of every other frame the data field is taken. -/
theorem process_data (hm : c.mode = kind.mode) (hp : c.pendingGap = false) {f : Tc.Frame}
    (hv : f.header.vcid = c.vcid) (ht : f.frameType ≠ .bc) :
    (c.process f).channel =
        { c with
          lastCount? := some (ChannelFrame.frameCount f), pendingGap := false
          inFlight? := (advance kind c.inFlight? f.zone.1 f.zone.2).2 } ∧
      (c.process f).packets = (advance kind c.inFlight? f.zone.1 f.zone.2).1 ∧
      (c.process f).result = .ok () := by
  have hfield : ChannelFrame.packetField f = .ok f.zone :=
    ChannelFrame.packetField_eq_ok_iff.mpr ⟨rfl, Tc.Frame.firstPacket_eq ht⟩
  obtain ⟨hchannel, hpackets, hresult⟩ := process_zone (f := f) hv hm (decide_eq_false ht) hfield
  have hmissed := missed_tc hp f
  rw [continued_of_not_missed hmissed] at hchannel hpackets
  rw [cutOff_of_not_missed hmissed] at hpackets
  exact ⟨hchannel, hpackets, hresult⟩

/-- A channel takes the data fields one after the other, whatever control commands there are. -/
theorem run_tc (hm : c.mode = kind.mode) (hp : c.pendingGap = false) {frames : List Tc.Frame}
    (hv : ∀ f ∈ frames, f.header.vcid = c.vcid) :
    (∀ o ∈ c.outcomes frames, o.result = .ok ()) ∧
      deliver kind c.inFlight? ((frames.filter (·.frameType ≠ .bc)).map (·.zone)) =
        (c.packets frames, (c.after frames).inFlight?) := by
  induction frames generalizing c with
  | nil => exact ⟨fun o ho => absurd ho List.not_mem_nil, rfl⟩
  | cons f fs ih =>
    have hvf := hv f List.mem_cons_self
    have hvs := fun g hg => hv g (List.mem_cons_of_mem f hg)
    have hpackets : c.packets (f :: fs) =
        (c.process f).packets ++ (c.process f).channel.packets fs := rfl
    rw [outcomes, after, hpackets, List.filter_cons]
    by_cases ht : f.frameType = .bc
    · obtain ⟨hchannel, hnone, hok⟩ := process_command hm hp hvf ht
      have hnext := ih (c := (c.process f).channel) (by rw [hchannel, hm]) (by rw [hchannel])
        (by rw [hchannel]; exact hvs)
      refine ⟨List.forall_mem_cons.mpr ⟨hok, hnext.1⟩, ?_⟩
      rw [if_neg (by simpa using ht), hnone, List.nil_append, ← hnext.2, hchannel]
    · obtain ⟨hchannel, htaken, hok⟩ := process_data hm hp hvf ht
      have hnext := ih (c := (c.process f).channel) (by rw [hchannel, hm]) (by rw [hchannel])
        (by rw [hchannel]; exact hvs)
      refine ⟨List.forall_mem_cons.mpr ⟨hok, hnext.1⟩, ?_⟩
      have hinFlight : (c.process f).channel.inFlight? =
          (advance kind c.inFlight? f.zone.1 f.zone.2).2 := by rw [hchannel]
      rw [hinFlight] at hnext
      rw [if_pos (decide_eq_true ht), List.map_cons, deliver, htaken, hnext.2]

end Channel

/-- Packets that are sent whole or in segments in TC frames are handed out as they are, each once
and in order, and nothing is left over. Neither sequence numbers nor access points matter, nor do
control commands, wherever they are. -/
theorem packets_of_segments (vcid : Nat) (kind : PacketKind) (strict : Bool) (listeners : List Nat)
    (packets : List Bytes) (frames : List Tc.Frame)
    (hdeclared : ∀ p ∈ packets, kind.declaredLength? p = some p.length ∧ kind.headerLength p ≠ 1)
    (hsent : Tc.Segmented packets (frames.filter (·.frameType ≠ .bc)))
    (hv : ∀ f ∈ frames, f.header.vcid = vcid) :
    let c := Channel.fresh vcid kind strict listeners
    (∀ o ∈ c.outcomes frames, o.result = .ok () ∧ o.gaps = []) ∧
    c.packets frames = packets.map (fun bytes => { bytes, complete := true }) ∧
    (c.after frames).inFlight? = none := by
  intro c
  have hm : c.mode = kind.mode := rfl
  obtain ⟨hok, hrun⟩ := Channel.run_tc hm rfl hv
  have hdeliver := hsent.deliver_zones fun p hp =>
    WholePacket.of_declaredLength? (hdeclared p hp).1 (hdeclared p hp).2
  obtain ⟨hpackets, hnone⟩ := Prod.mk.inj (hrun.symm.trans hdeliver)
  exact ⟨fun o ho => ⟨hok o ho, Channel.gaps_of_unchecked (fun _ => rfl) c frames o ho⟩,
    hpackets, hnone⟩

/-- Among the frames of four packets are a segment with half a header, an empty segment, two control
commands and a last segment to a packet that is already complete. -/
theorem packets_of_segments_split :
    let config : Tc.Config := {
      segmented := true, fecfPresent := false, securityHeaderLength := 1
      securityTrailerLength := 2 }
    let header (bypass controlCommand : Bool) (sequence : UInt8) : Tc.Header := {
      version := 0, bypass, controlCommand, scid := 9, vcid := 5, frameLength := 0
      frameSequenceNumber := sequence }
    let data (bypass : Bool) (sequence : UInt8) (mapId : Nat) (sequenceFlag : Tc.SequenceFlag)
        (data : Bytes) :=
      Tc.Frame.plain (header bypass false sequence) (some { sequenceFlag, mapId }) [0x77] data
        [0x55, 0x66]
    let unlock := Tc.Frame.plain (header true true 0) none [] [0x00] []
    let first := data false 9 1 .first [0x00, 0x01]
    let empty := data true 9 2 .continuing []
    let next := data false 3 1 .continuing [0xc0, 0x00, 0x00]
    let last := data false 4 1 .last [0x00, 0xaa]
    let whole := data true 4 0 .unsegmented
      [0x00, 0x01, 0xc0, 0x01, 0x00, 0x01, 0xbb, 0xbc, 0x00, 0x01, 0xc0, 0x02, 0x00, 0x00, 0xcc]
    let complete := data false 5 63 .first [0x00, 0x01, 0xc0, 0x03, 0x00, 0x00, 0xdd]
    let nothing := data false 5 63 .last []
    let frames := [first, unlock, empty, next, last, whole, complete, unlock, nothing]
    let packets : List Bytes := [
      [0x00, 0x01, 0xc0, 0x00, 0x00, 0x00, 0xaa], [0x00, 0x01, 0xc0, 0x01, 0x00, 0x01, 0xbb, 0xbc],
      [0x00, 0x01, 0xc0, 0x02, 0x00, 0x00, 0xcc], [0x00, 0x01, 0xc0, 0x03, 0x00, 0x00, 0xdd]]
    let c := Channel.fresh 5 .space true [0]
    (∀ f ∈ frames, (Tc.Frame.decode f.bytes config).toOption = some f) ∧
    (∀ o ∈ c.outcomes frames, o.result = .ok () ∧ o.gaps = []) ∧
    c.packets frames = packets.map (fun bytes => { bytes, complete := true }) ∧
    (c.after frames).inFlight? = none := by
  intro config header data unlock first empty next last whole complete nothing frames packets c
  have hframes : frames.filter (·.frameType ≠ .bc) =
      [first, empty, next, last, whole, complete, nothing] := by decide +kernel
  have hsent : Tc.Segmented packets (frames.filter (·.frameType ≠ .bc)) := by
    rw [hframes]
    exact @Tc.Segmented.cut _ _ first [empty, next] last _ rfl (by decide) rfl (by decide)
        (by decide +kernel) <|
      @Tc.Segmented.whole [packets[1], packets[2]] _ whole _ rfl (by decide +kernel) <|
      @Tc.Segmented.cut _ _ complete [] nothing _ rfl nofun rfl (by decide) (by decide +kernel) .done
  exact ⟨by decide +kernel, packets_of_segments 5 .space true [0] packets frames (by decide +kernel)
    hsent (by decide +kernel)⟩

end SpaceLink
