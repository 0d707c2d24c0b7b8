import SpaceLink.TransferFrame

/-!
# What a channel needs of a frame

The channels treat all kinds of frame alike; the class `ChannelFrame` says where a kind of frame
keeps its count, its packets and its bitstream.
-/

namespace SpaceLink

class ChannelFrame (F : Type) where
  kind : FrameKind
  countModulus : Nat
  vcid : F → Nat
  frameCount : F → Nat
  /-- Gaps in the frame count mean missing frames. -/
  countChecked : F → Bool
  /-- The frame has no packets and no bitstream. -/
  isIdle : F → Bool
  /-- The data is not synchronised to packets. -/
  isSync : F → Bool
  dataZone : F → Bytes
  packetZone : F → Except Error Bytes
  /-- The offset in the packet zone of the first packet that starts in the frame, if one does. -/
  firstPacket : F → Except Error (Option Nat)
  /-- Where bitstream data is, and how many of its bits are data. -/
  bitstream : F → Except Error (Bytes × Nat)

def ChannelFrame.packetField {F : Type} [ChannelFrame F] (f : F) :
    Except Error (Bytes × Option Nat) :=
  return (← packetZone f, ← firstPacket f)

namespace Tm

def Frame.firstPacket (f : Frame) : Except Error (Option Nat) :=
  if f.isIdle then .error .idleFrame
  else if f.header.sync then .error .syncFlag
  else if f.containsNoPacketStart then .ok none
  else .ok (some f.header.firstHeaderPointer)

instance : ChannelFrame Frame where
  kind := .tm
  countModulus := countModulus
  vcid f := f.header.vcid
  frameCount f := f.header.vcFrameCount.toNat
  countChecked _ := true
  isIdle := Frame.isIdle
  isSync f := f.header.sync
  dataZone f := f.dataField
  packetZone f := .ok f.dataField
  firstPacket := Frame.firstPacket
  bitstream _ := .error (.accessMode .tm)

end Tm

namespace Aos

def Frame.firstPacket (f : Frame) : Except Error (Option Nat) :=
  if f.isIdle then .error .idleFrame
  else do
    let pointer ← f.firstHeaderPointer
    return if pointer = noPacketPointer then none else some pointer

instance : ChannelFrame Frame where
  kind := .aos
  countModulus := countModulus
  vcid f := f.header.vcid
  frameCount f := f.header.vcFrameCount
  countChecked f := f.header.vcFrameCountUsage
  isIdle := Frame.isIdle
  isSync _ := false
  dataZone f := f.dataField
  packetZone := Frame.packetZone
  firstPacket := Frame.firstPacket
  bitstream f := return (← f.bitstreamZone, ← f.validBits)

end Aos

namespace Tc

/-- A packet starts at the beginning of every frame that is not segmented, and of a segment whose
flag says so. -/
def Frame.firstPacket (f : Frame) : Except Error (Option Nat) :=
  if f.isIdle then .error .idleFrame
  else match f.segmentHeader? with
    | some h => .ok (if h.sequenceFlag.startsPacket then some 0 else none)
    | none => .ok (some 0)

/-- The sequence numbers of TC frames are those of a retransmission protocol, so they are not
checked. -/
instance : ChannelFrame Frame where
  kind := .tc
  countModulus := countModulus
  vcid f := f.header.vcid
  frameCount f := f.header.frameSequenceNumber.toNat
  countChecked _ := false
  isIdle := Frame.isIdle
  isSync _ := false
  dataZone f := f.dataField
  packetZone f := .ok f.dataField
  firstPacket := Frame.firstPacket
  bitstream _ := .error (.accessMode .tc)

end Tc

end SpaceLink
