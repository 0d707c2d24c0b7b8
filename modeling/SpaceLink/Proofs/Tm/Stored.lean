import SpaceLink.Tm.Stored
import SpaceLink.Proofs.Zones
import SpaceLink.Proofs.Tm.Faults

/-! # Decoding TM frames in words -/

namespace SpaceLink.Tm

theorem StoredFrame.decode_agrees (a : Arithmetic) {d : Bytes} {c : Config} (hd : d.Storable)
    (hwrapping : a = .wrapping → minimumLength d c < wordSize) :
    (decode a d c).Agrees (wordSize ≤ minimumLength d c) (fun s f => s = f.stored)
      (Frame.decode d c) := by
  refine .bind_lift fun _ hversion => ?_
  obtain ⟨h, hh, hocf, hpresent, -⟩ := Header.exists_decode (le_length_of_checkVersion hversion)
  rw [hh]
  refine .bind_lift fun secondary hsecondary => ?_
  have htotal := c.total_of_header hocf hpresent hsecondary
  rw [← htotal] at hwrapping ⊢
  refine (Zones.compute_agrees a (by have := hd.length_lt; omega) hwrapping id).bind
    fun z framed hframed hz => ?_
  obtain ⟨hbytes, -⟩ := FrameBytes.ofBytes_eq_ok_iff.mp hframed
  subst hz hbytes
  refine .bind_sub (Nat.le_add_right _ _) ?_
  have hroom : framed.zones.dataFieldEnd - framed.zones.dataFieldStart = framed.dataFieldLength :=
    Nat.add_sub_cancel_left ..
  rw [hroom]
  refine .bind_lift fun _ _ => ?_
  refine (framed.zones_checkFecf a c.strict).bind fun valid _ _ hvalid => .ok ?_
  rw [hvalid]
  rfl

end SpaceLink.Tm
