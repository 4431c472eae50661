import DeadDrop.Store.Basic
import DeadDrop.Store.Shelf

/-!
The store that forgets. It remembers when each secret arrived and drops it, at the latest when
it is asked for, as soon as its span has passed to the nanosecond.
-/

namespace DeadDrop.Store

structure Memory.Entry where
  secret : Secret
  storedAt : Nat
  span : Nat
  deriving DecidableEq

abbrev Memory := Shelf Memory.Entry

namespace Memory

def empty : Memory := []

def isExpired (clock : Clock) (entry : Entry) : Bool :=
  entry.span ≤ clock.elapsed - entry.storedAt

/-- Looking for an expired entry removes it. -/
def withoutExpired (clock : Clock) (id : SecretId) (memory : Memory) : Memory :=
  match memory.find? id with
  | some entry => if isExpired clock entry then memory.erase id else memory
  | none => memory

def get (clock : Clock) (id : SecretId) (memory : Memory) : Answer Memory Secret :=
  let live := memory.withoutExpired clock id
  (found ((live.find? id).map Entry.secret), live)

def put (clock : Clock) (id : SecretId) (secret : Secret) (memory : Memory) :
    Answer Memory Unit :=
  match span secret with
  | .error error => (.error error, memory)
  | .ok seconds =>
      (.ok (), Shelf.put memory id ⟨secret, clock.elapsed, seconds * Clock.second⟩)

def delete (clock : Clock) (id : SecretId) (memory : Memory) : Answer Memory Bool :=
  let live := memory.withoutExpired clock id
  (.ok (live.find? id).isSome, live.erase id)

def status (clock : Clock) (id : SecretId) (memory : Memory) : Answer Memory Bool :=
  let live := memory.withoutExpired clock id
  (found ((live.find? id).map fun entry => entry.secret.oneTime), live)

def purge (clock : Clock) (memory : Memory) : Answer Memory Nat :=
  let left := memory.keep fun entry => !isExpired clock entry
  (.ok (memory.length - left.length), left)

end Memory

def memory : Store Memory := ⟨Memory.get, Memory.put, Memory.delete, Memory.status, Memory.purge⟩

end DeadDrop.Store
