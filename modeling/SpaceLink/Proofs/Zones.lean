import SpaceLink.Zones
import SpaceLink.Proofs.FrameBytes
import SpaceLink.Proofs.Words

/-!
# The places of the parts, computed in words

If the lengths of the parts together are a word, the places that are computed are those of the
frame, and if they are not, a program that checks its sums stops (`Zones.compute_agrees`). At the
places of a frame each of its parts can be cut out (`FrameBytes.zones_dataField` and the like).
-/

namespace SpaceLink

/-- The byte string is not longer than any can be. -/
def Bytes.Storable (d : Bytes) : Prop := d.length ≤ maxBytes

instance (d : Bytes) : Decidable d.Storable := inferInstanceAs (Decidable (_ ≤ _))

theorem two_mul_maxBytes : 2 * maxBytes + 2 = wordSize := rfl

theorem Bytes.Storable.length_lt {d : Bytes} (h : d.Storable) : d.length + 8 < wordSize := by
  rw [Storable, maxBytes] at h
  rw [wordSize]
  omega

namespace Zones

variable (a : Arithmetic) {o : Overhead} {stops : Prop}

theorem compute_agrees_room {length : Nat} (hlength : length < wordSize)
    (hwrapping : a = .wrapping → o.total < wordSize) (hstops : wordSize ≤ o.total → stops) :
    (compute a length o).Agrees stops (fun z room => z = o.zones room) (o.room length) := by
  have htotal : o.total = o.headers + o.securityHeader + (o.securityTrailer + o.ocf + o.fecf) := rfl
  rw [htotal] at hwrapping hstops
  refine .bind_add (fun h => by have := hwrapping h; omega) (fun _ => hstops (by omega)) fun _ => ?_
  refine .bind_add (fun h => by have := hwrapping h; omega) (fun _ => hstops (by omega)) fun _ => ?_
  refine .bind_add (fun h => by have := hwrapping h; omega) (fun _ => hstops (by omega)) fun _ => ?_
  refine .bind_add hwrapping hstops fun _ => ?_
  rw [← htotal, Overhead.room]
  refine .ite (fun _ => .error _) fun hfits => .bind_sub (by omega) ?_
  have hend : length - (o.securityTrailer + o.ocf + o.fecf) = o.leading + (length - o.total) := by
    rw [Overhead.leading]
    omega
  rw [hend, a.add_of_lt (by rw [Overhead.leading]; omega), some_bind]
  exact .ok rfl

theorem compute_agrees {d : Bytes} (hd : d.length < wordSize)
    (hwrapping : a = .wrapping → o.total < wordSize) (hstops : wordSize ≤ o.total → stops) :
    (compute a d.length o).Agrees stops (fun z f => z = f.zones) (FrameBytes.ofBytes d o) := by
  have hrun := compute_agrees_room a hd hwrapping hstops
  rw [Overhead.room] at hrun
  rw [FrameBytes.ofBytes]
  by_cases hfits : o.total ≤ d.length
  · rw [if_neg (Nat.not_lt.mpr hfits)] at hrun
    rw [dif_pos hfits]
    exact hrun.imp fun _ hz => hz
  · rw [if_pos (Nat.not_le.mp hfits)] at hrun
    rw [dif_neg hfits]
    exact hrun.imp_error

end Zones

namespace FrameBytes

variable (f : FrameBytes)

theorem zones_dataFieldStart : f.zones.dataFieldStart = f.dataFieldStart := rfl

theorem zones_dataFieldEnd : f.zones.dataFieldEnd = f.dataFieldStart + f.dataFieldLength := rfl

theorem zones_ocfStart? :
    f.zones.ocfStart? = if f.overhead.ocfPresent then some f.ocfStart else none := rfl

theorem zones_fecfPresent : f.zones.fecfPresent = f.overhead.fecfPresent := rfl

theorem zones_securityHeader : f.zones.securityHeader f.bytes = some f.securityHeader := by
  have hfits := f.fits
  rw [Overhead.total, Overhead.leading] at hfits
  have hle : f.overhead.headers + f.overhead.securityHeader ≤ f.bytes.length := by omega
  exact Bytes.between?_slice hle

theorem zones_dataField : f.zones.dataField f.bytes = some f.dataField := by
  have hend := f.fecfStart_add_fecf
  rw [fecfStart, ocfStart] at hend
  exact Bytes.between?_slice (show f.trailerStart ≤ f.bytes.length by omega)

theorem zones_securityTrailer : f.zones.securityTrailer f.bytes = some f.securityTrailer := by
  have hend := f.fecfStart_add_fecf
  rw [fecfStart, ocfStart] at hend
  have hle : f.trailerStart + f.overhead.securityTrailer ≤ f.bytes.length := by omega
  exact Bytes.between?_slice hle

theorem zones_ocf? (a : Arithmetic) (h : f.bytes.Storable) :
    f.zones.ocf? a f.bytes = some f.ocf? := by
  have hend := f.fecfStart_add_fecf
  have hlength := h.length_lt
  rw [Zones.ocf?, zones_ocfStart?, ocf?]
  cases hp : f.overhead.ocfPresent with
  | false => rfl
  | true =>
    rw [fecfStart, Overhead.ocf, if_pos hp] at hend
    rw [if_pos rfl, if_pos rfl]
    dsimp only
    rw [a.add_of_lt (by omega)]
    have hcut : Bytes.between? f.ocfStart (f.ocfStart + ocfLength) f.bytes = some _ :=
      Bytes.between?_slice (by omega)
    simp only [Option.bind_eq_bind, Option.bind_some, hcut]
    rfl

theorem zones_fecf? (a : Arithmetic) : f.zones.fecf? a f.bytes = some f.fecf? := by
  have hend := f.fecfStart_add_fecf
  rw [Zones.fecf?, zones_fecfPresent, fecf?]
  cases hp : f.overhead.fecfPresent with
  | false => rfl
  | true =>
    rw [Overhead.fecf, if_pos hp] at hend
    have hcut : Bytes.between? f.fecfStart (f.fecfStart + fecfLength) f.bytes = some _ :=
      Bytes.between?_slice (by omega)
    rw [hend, fecfStart_eq hp] at hcut
    rw [if_pos rfl, if_pos rfl, a.sub_of_le (by omega), fecfStart_eq hp]
    simp only [Option.bind_eq_bind, Option.bind_some, hcut]
    rfl

/-- The check is compared with that of the bytes before it. -/
theorem zones_checkFecf (a : Arithmetic) (strict : Bool) {stops : Prop} :
    (f.zones.checkFecf a f.bytes strict).Agrees stops (fun valid _ => valid = f.isValid)
      (f.checkFecf strict) := by
  rw [Zones.checkFecf, f.zones_fecf?, some_bind, checkFecf, isValid]
  cases hfecf : f.fecf? with
  | none => exact .ok rfl
  | some expected =>
    have hp : f.overhead.fecfPresent = true := by
      rw [fecf?] at hfecf
      split at hfecf
      · assumption
      · cases hfecf
    have hend := f.fecfStart_add_fecf
    rw [Overhead.fecf, if_pos hp] at hend
    dsimp only
    refine .bind_sub (by omega) ?_
    rw [Bytes.between?_of_le (Nat.zero_le _) (Nat.sub_le _ _), some_bind, computedFecf,
      fecfStart_eq hp]
    refine .ite (fun _ => .error _) fun _ => .ok ?_
    rfl

end FrameBytes

end SpaceLink
