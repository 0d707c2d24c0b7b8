import SpaceLink.Proofs.Channel.Carrier

/-!
# Cutting a stream into frames

Where a stream of packets is cut into frames makes no difference to a channel that misses no frame
(`packets_of_cut`). The stream need not be well-formed: every zone comes with the first of the
offsets at which a packet starts that can be found by going from packet to packet, and a packet that
never ends or declares less than its header is the last.
-/

namespace SpaceLink

variable {F G : Type} [PacketCarrier F] [PacketCarrier G] {kind : PacketKind} {s : Bytes}

/-- The channel has taken the stream up to `o` without a gap, and expects the count `n`. -/
structure Channel.Reaches (c : Channel) (kind : PacketKind) (vcid n modulus : Nat) (s : Bytes)
    (o : Nat) : Prop where
  vcid : c.vcid = vcid
  mode : c.mode = kind.mode
  count : ∀ last ∈ c.lastCount?, n % modulus = (last + 1) % modulus
  noGap : c.pendingGap = false
  inFlight : c.inFlight? = (extract kind (s.take o)).2

namespace Channel.Reaches

variable {c : Channel} {vcid n o : Nat} {zone : Bytes} {zones : List Bytes} {f : F} {fs : List F}

theorem fresh (vcid n modulus : Nat) (kind : PacketKind) (s : Bytes) (strict : Bool)
    (listeners : List Nat) :
    (Channel.fresh vcid kind strict listeners).Reaches kind vcid n modulus s 0 := by
  refine ⟨rfl, rfl, nofun, rfl, ?_⟩
  rw [List.take_zero, extract]
  rfl

theorem step (h : c.Reaches kind vcid n (ChannelFrame.countModulus F) s o) (hne : zone ≠ [])
    (hlen : zone.length ≤ maxZoneLength)
    (hcarry : PacketCarrier.Carries f zone
      (firstIn? (kind.packetStarts s) o (o + zone.length)))
    (hv : ChannelFrame.vcid f = vcid)
    (hn : ChannelFrame.frameCount f = n % ChannelFrame.countModulus F)
    (hrest : s.drop o = (zone :: zones).flatten) :
    (c.process f).channel.Reaches kind vcid (n + 1) (ChannelFrame.countModulus F) s
        (o + zone.length) ∧
      ∃ packets, (extract kind (s.take (o + zone.length))).1 =
          (extract kind (s.take o)).1 ++ packets ∧
        (c.process f).packets = packets.map fun bytes => { bytes, complete := true } := by
  have hmissed : c.missed f = false := by
    have hf : c.gap? f = none := gap?_eq_none fun last hl => hn.trans (h.count last hl)
    rw [missed, h.noGap, hf]
    rfl
  obtain ⟨hzone, hlt, hend, -⟩ := zone_of_drop hne hrest
  obtain ⟨hi, hfield⟩ := PacketCarrier.usable_of_carries hlen hcarry
  obtain ⟨hchannel, hpackets, -⟩ := process_zone (hv.trans h.vcid.symm) h.mode hi hfield
  -- what the channel has is that of one that began at the start of the stream
  obtain ⟨packets, hnew, hadvance⟩ := advance_between kind s (Nat.zero_le o) hlt hend
  rw [resync_zero, Bytes.between, List.drop_zero, Bytes.between, List.drop_zero] at hnew
  rw [resync_zero, hzone, Bytes.between, List.drop_zero, Bytes.between, List.drop_zero,
    ← h.inFlight] at hadvance
  rw [continued_of_not_missed hmissed, hadvance] at hchannel hpackets
  rw [cutOff_of_not_missed hmissed] at hpackets
  refine ⟨?_, packets, hnew, hpackets⟩
  rw [hchannel]
  refine ⟨h.vcid, h.mode, fun last hl => ?_, rfl, rfl⟩
  cases hl
  rw [hn, Nat.mod_add_mod]

/-- The frames that carry the rest of the stream. -/
theorem run (h : c.Reaches kind vcid n (ChannelFrame.countModulus F) s o)
    (hs : Sends (kind.packetStarts s) o zones fs)
    (hidle : ∀ f ∈ fs, ChannelFrame.isIdle f = false)
    (hv : ∀ f ∈ fs, ChannelFrame.vcid f = vcid) (hn : Numbered n fs)
    (hrest : s.drop o = zones.flatten) :
    ∃ packets, (extract kind s).1 = (extract kind (s.take o)).1 ++ packets ∧
      c.packets fs = packets.map (fun bytes => { bytes, complete := true }) ∧
      (c.after fs).inFlight? = (extract kind s).2 := by
  induction hs generalizing n c with
  | done =>
    rw [List.flatten_nil, List.drop_eq_nil_iff] at hrest
    have hin := h.inFlight
    rw [List.take_of_length_le hrest] at hin ⊢
    exact ⟨[], (List.append_nil _).symm, rfl, hin⟩
  | idle hi =>
    have := hidle _ List.mem_cons_self
    rw [hi] at this
    cases this
  | @zone o zone zones f fs hne hlen hcarry _ ih =>
    obtain ⟨hnext, packets, hnew, hpackets⟩ :=
      h.step hne hlen hcarry (hv f List.mem_cons_self) hn.head hrest
    obtain ⟨later, hlater, hpackets', hin⟩ := ih hnext
      (fun g hg => hidle g (List.mem_cons_of_mem _ hg))
      (fun g hg => hv g (List.mem_cons_of_mem _ hg)) hn.tail (zone_of_drop hne hrest).2.2.2
    refine ⟨packets ++ later, ?_, ?_, hin⟩
    · rw [hlater, hnew, List.append_assoc]
    · rw [List.map_append, ← hpackets', ← hpackets]
      rfl

end Channel.Reaches

/-- Where a stream is cut into frames makes no difference. -/
theorem packets_of_cut {zones : List Bytes} {frames : List F} {whole : G} {vcid n : Nat}
    (strict : Bool) (listeners : List Nat) (hcut : zones.flatten = s)
    (hsends : Sends (kind.packetStarts s) 0 zones frames)
    (hidle : ∀ f ∈ frames, ChannelFrame.isIdle f = false)
    (hv : ∀ f ∈ frames, ChannelFrame.vcid f = vcid) (hn : Numbered n frames)
    (hwhole : PacketCarrier.Carries whole s (some 0)) (hvw : ChannelFrame.vcid whole = vcid) :
    let c := Channel.fresh vcid kind strict listeners
    c.packets frames = c.packets [whole] ∧
      (c.after frames).inFlight? = (c.after [whole]).inFlight? := by
  intro c
  obtain ⟨packets, h1, h2, h3⟩ :=
    (Channel.Reaches.fresh vcid n _ kind s strict listeners).run hsends hidle hv hn hcut.symm
  obtain ⟨hi, hfield⟩ := PacketCarrier.usable
    (fun start h => by cases h; decide) hwhole
  have hm : c.missed whole = false := by
    rw [Channel.missed, Channel.gap?_eq_none (by rintro _ ⟨⟩)]
    rfl
  obtain ⟨h4, h5, -⟩ := Channel.process_zone (c := c) hvw rfl hi hfield
  rw [Channel.continued_of_not_missed hm] at h4 h5
  rw [Channel.cutOff_of_not_missed hm] at h5
  constructor
  · rw [List.take_zero, extract_of_none PacketKind.packetLength?_nil, List.nil_append] at h1
    rw [h2, ← h1]
    show _ = (c.process whole).packets ++ []
    rw [h5, List.append_nil]
    rfl
  · show _ = (c.process whole).channel.inFlight?
    rw [h3, h4]
    rfl

/-- Headers are cut, a byte that fills space ends a frame, and the last header declares less than
itself. The frames have two packets. -/
theorem packets_of_cut_headers :
    let zones : List Bytes :=
      [[0xe2], [0x00, 0x00], [0x05, 0x01, 0xe0], [0xe5], [0x04, 0xaa, 0xbb, 0xe5, 0x01, 0xcc]]
    let frames := [Tm.Frame.plain 3 254 0 [0xe2], Tm.Frame.plain 3 255 0x7ff [0x00, 0x00],
      Tm.Frame.plain 3 0 2 [0x05, 0x01, 0xe0], Tm.Frame.plain 3 1 0 [0xe5],
      Tm.Frame.plain 3 2 3 [0x04, 0xaa, 0xbb, 0xe5, 0x01, 0xcc]]
    let whole := Tm.Frame.plain 3 0 0 zones.flatten
    let c := Channel.fresh 3 .encapsulation true [0]
    (c.packets frames = c.packets [whole] ∧
      (c.after frames).inFlight? = (c.after [whole]).inFlight?) ∧
    c.packets frames = [{ bytes := [0xe2, 0x00, 0x00, 0x05, 0x01], complete := true },
      { bytes := [0xe5, 0x04, 0xaa, 0xbb], complete := true }] ∧
    (c.after frames).inFlight? = none := by
  intro zones frames whole c
  have hstarts : PacketKind.encapsulation.packetStarts zones.flatten = [0, 5, 6, 10] := by
    rw [PacketKind.packetStarts_of_some (t := 5) rfl,
      PacketKind.packetStarts_of_some (t := 1) rfl,
      PacketKind.packetStarts_of_some (t := 4) rfl,
      PacketKind.packetStarts_of_none (by decide) rfl]
    rfl
  have hsends : Sends (PacketKind.encapsulation.packetStarts zones.flatten) 0 zones frames := by
    rw [hstarts]
    exact .zone (by decide) (by decide) (Tm.Frame.carries_plain 3 254 _ (some 0)) <|
      .zone (by decide) (by decide) (Tm.Frame.carries_plain 3 255 _ none) <|
      .zone (by decide) (by decide) (Tm.Frame.carries_plain 3 0 _ (some 2)) <|
      .zone (by decide) (by decide) (Tm.Frame.carries_plain 3 1 _ (some 0)) <|
      .zone (by decide) (by decide) (Tm.Frame.carries_plain 3 2 _ (some 3)) .done
  have hnumbered : Numbered 254 frames := fun i => by revert i; decide
  have hcut : c.packets frames = c.packets [whole] ∧
      (c.after frames).inFlight? = (c.after [whole]).inFlight? :=
    packets_of_cut true [0] rfl hsends (by decide) (by decide) hnumbered
      (Tm.Frame.carries_plain 3 0 zones.flatten (some 0)) rfl
  refine ⟨hcut, hcut.1.trans ?_, hcut.2.trans ?_⟩
  · decide +kernel
  · decide +kernel

end SpaceLink
