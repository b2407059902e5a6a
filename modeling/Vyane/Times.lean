import Mathlib

/-!
Times as the stores read them: whole milliseconds of a `DateTime<Utc>`, and the bounds of the integers of Rust.
-/
namespace Vyane.Times
def U64_MAX : Nat := 2 ^ 64 - 1
/-- The first and the last millisecond of a `DateTime<Utc>`. -/
def MIN_MILLIS : Int := -8334601228800000
def MAX_MILLIS : Int := 8210266876799999
/-- A `DateTime<Utc>` of a caller or a clock, in nanoseconds. -/
structure DateTime where
  nanos : Int
  inRange : MIN_MILLIS * 1000000 ≤ nanos ∧ nanos < (MAX_MILLIS + 1) * 1000000
deriving DecidableEq, Repr

/-- `timestamp_millis`: rounds towards the past. -/
def DateTime.timestamp_millis (value : DateTime) : Int := value.nanos / 1000000
theorem epoch_in_range : MIN_MILLIS * 1000000 ≤ 0 ∧ 0 < (MAX_MILLIS + 1) * 1000000 := by decide

/-- The time at a number of milliseconds; the epoch, if it is out of range. -/
def DateTime.atMillis (millis : Int) : DateTime :=
  if inRange : MIN_MILLIS * 1000000 ≤ millis * 1000000 ∧ millis * 1000000 < (MAX_MILLIS + 1) * 1000000 then
    ⟨millis * 1000000,inRange⟩
  else ⟨0,epoch_in_range⟩

end Vyane.Times
