/-!
How long a secret may wait. There are three lifetimes; any other number of seconds names none.
-/

namespace DeadDrop

inductive Lifetime where
  | hour
  | day
  | week
  deriving DecidableEq, Repr

namespace Lifetime

def all : List Lifetime := [hour, day, week]

def seconds : Lifetime → Int32
  | hour => 3600
  | day => 86400
  | week => 604800

def ofSeconds? (seconds : Int32) : Option Lifetime :=
  all.find? fun lifetime => lifetime.seconds = seconds

/-- The span as a count of seconds, for moments that lie that far ahead. -/
def span (lifetime : Lifetime) : Nat := lifetime.seconds.toInt.toNat

def rank : Lifetime → Nat
  | hour => 0
  | day => 1
  | week => 2

def shorter (left right : Lifetime) : Bool := left.rank < right.rank

theorem ofSeconds?_seconds (lifetime : Lifetime) :
    ofSeconds? lifetime.seconds = some lifetime := by
  cases lifetime <;> decide

theorem seconds_of_ofSeconds? {seconds : Int32} {lifetime : Lifetime}
    (named : ofSeconds? seconds = some lifetime) : lifetime.seconds = seconds := by
  simpa using List.find?_some named

theorem shorter_iff (left right : Lifetime) :
    left.shorter right = true ↔ left.seconds.toInt < right.seconds.toInt := by
  cases left <;> cases right <;> decide

end Lifetime

end DeadDrop
