import SpaceLink.Tc.Stored
import SpaceLink.Proofs.Zones
import SpaceLink.Proofs.Tc.Faults

/-! # Decoding TC frames in words -/

namespace SpaceLink.Tc

theorem StoredFrame.readParts_agrees (a : Arithmetic) {h : Header} {d : Bytes} {c : Config}
    (hd : d.Storable) (hwrapping : a = .wrapping → (c.overheadIn h.frameType).total < wordSize) :
    (readParts a h d c).Agrees (wordSize ≤ (c.overheadIn h.frameType).total)
      (fun x y => x = (y.1, y.2.zones)) (Tc.readParts h d c) := by
  have hlength : d.length < wordSize := by
    have := hd.length_lt
    omega
  rw [readParts, Tc.readParts]
  cases htype : h.frameType with
  | bc =>
    rw [htype] at hwrapping
    refine (Zones.compute_agrees a hlength hwrapping id).bind fun z framed _ hz => .ok ?_
    rw [hz]
  | ad | bd | reserved =>
    rw [htype] at hwrapping
    refine .bind_lift fun segmentHeader? _ => ?_
    refine (Zones.compute_agrees a hlength hwrapping id).bind fun z framed _ hz => .ok ?_
    rw [hz]

theorem StoredFrame.decode_agrees (a : Arithmetic) {d : Bytes} {c : Config} (hd : d.Storable)
    (hwrapping : a = .wrapping → minimumLength d c < wordSize) :
    (decode a d c).Agrees (wordSize ≤ minimumLength d c) (fun s f => s = f.stored)
      (Frame.decode d c) := by
  refine .bind_lift fun _ hversion => ?_
  obtain ⟨h, hh, hcommand, -⟩ := Header.exists_decode (le_length_of_checkVersion hversion)
  rw [hh]
  dsimp only
  refine .ite (fun _ => .error _) fun _ => ?_
  rw [← total_overheadIn c hcommand] at hwrapping ⊢
  refine (readParts_agrees a hd hwrapping).bind fun (segmentHeader?, z) (_, framed) hparts hz => ?_
  obtain ⟨-, hbytes, -⟩ := readParts_eq_ok_iff.mp hparts
  subst hbytes
  cases hz
  refine (framed.zones_checkFecf a c.strict).bind fun valid _ _ hvalid => .ok ?_
  rw [hvalid]
  rfl

end SpaceLink.Tc
