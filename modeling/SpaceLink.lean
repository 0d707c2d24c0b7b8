import SpaceLink.Tm.Staged
import SpaceLink.Aos.Staged
import SpaceLink.Tc.Staged
import SpaceLink.Channel.Display
import SpaceLink.Channel.Demux
import SpaceLink.Proofs.Fields
import SpaceLink.Proofs.FrameCount
import SpaceLink.Proofs.Packet.Delimiting
import SpaceLink.Proofs.Packet.Header
import SpaceLink.Proofs.Clcw
import SpaceLink.Proofs.Codecs
import SpaceLink.Proofs.Checksum.Differences
import SpaceLink.Proofs.Checksum.Crc16
import SpaceLink.Proofs.Checksum.Nibble
import SpaceLink.Proofs.Corruption
import SpaceLink.Proofs.Steps
import SpaceLink.Proofs.FrameBytes
import SpaceLink.Proofs.Draft
import SpaceLink.Proofs.Faults
import SpaceLink.Proofs.Strictness
import SpaceLink.Proofs.Equality
import SpaceLink.Proofs.Words
import SpaceLink.Proofs.Zones
import SpaceLink.Proofs.Decoding
import SpaceLink.Proofs.Tiling
import SpaceLink.Proofs.Completion
import SpaceLink.Proofs.Machine
import SpaceLink.Proofs.Staging
import SpaceLink.Proofs.Building
import SpaceLink.Proofs.Rebuild
import SpaceLink.Proofs.Shortage
import SpaceLink.Proofs.Channel.Run
import SpaceLink.Proofs.Channel.Carrier
import SpaceLink.Proofs.Channel.Reassembly
import SpaceLink.Proofs.Channel.Checked
import SpaceLink.Proofs.Channel.Invariant
import SpaceLink.Proofs.Channel.Stream
import SpaceLink.Proofs.Channel.Cut
import SpaceLink.Proofs.Channel.Sequence
import SpaceLink.Proofs.Channel.Reception
import SpaceLink.Proofs.Channel.Loss
import SpaceLink.Proofs.Channel.Placement
import SpaceLink.Proofs.Channel.Origin
import SpaceLink.Proofs.Channel.Continuation
import SpaceLink.Proofs.Channel.Parse
import SpaceLink.Proofs.Channel.Segments
import SpaceLink.Proofs.Channel.Gaps
import SpaceLink.Proofs.Channel.Idle
import SpaceLink.Proofs.Channel.Refusal
import SpaceLink.Proofs.Channel.Events
import SpaceLink.Proofs.Channel.Demux
import SpaceLink.Proofs.Pointers
