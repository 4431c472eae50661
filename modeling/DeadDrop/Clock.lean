/-!
Time as a store sees it: nanoseconds since a start that never run backwards, and the calendar in
whole seconds. The calendar is a 64-bit word; there is no reading past its end.
-/

namespace DeadDrop

structure Clock where
  epoch : Nat
  elapsed : Nat
  deriving DecidableEq

namespace Clock

def second : Nat := 1000000000

def wordLimit : Nat := UInt64.size

def start (epoch : Nat) : Clock := ⟨epoch, 0⟩

def seconds (clock : Clock) : Nat := clock.elapsed / second

/-- The second of the calendar, which the fraction of a running second does not move. -/
def wall? (clock : Clock) : Option Nat :=
  let now := clock.epoch + clock.seconds
  if now < wordLimit then some now else none

def nanoseconds (secs nanos : Nat) : Nat := secs * second + nanos

/-- Elapsed time is also counted in 64-bit seconds. -/
def advance? (span : Nat) (clock : Clock) : Option Clock :=
  let elapsed := clock.elapsed + span
  if elapsed / second < wordLimit then some { clock with elapsed := elapsed } else none

theorem elapsed_of_advance? {span : Nat} {clock later : Clock}
    (moved : clock.advance? span = some later) : later.elapsed = clock.elapsed + span := by
  simp only [advance?] at moved
  split at moved
  · cases moved; rfl
  · cases moved

end Clock

end DeadDrop
