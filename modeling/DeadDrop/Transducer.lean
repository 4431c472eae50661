/-!
Machines that turn a sequence of chunks into output as they go: something before the first
chunk, something for each chunk, something at the close. Two machines compose by feeding the
output of the first to the second.
-/

namespace DeadDrop

structure Transducer (In Out : Type) where
  State : Type
  start : State
  opening : List Out
  feed : State → List In → State × List Out
  close : State → List Out

namespace Transducer

variable {In Mid Out : Type}

/-- Output so far is kept as reversed pieces, so that long runs stay linear. -/
def feedAll (machine : Transducer In Out) :
    machine.State → List (List Out) → List (List In) → machine.State × List (List Out)
  | state, pieces, [] => (state, pieces)
  | state, pieces, chunk :: rest =>
      let (next, out) := machine.feed state chunk
      feedAll machine next (out :: pieces) rest

def run (machine : Transducer In Out) (chunks : List (List In)) : List Out :=
  let (last, pieces) := machine.feedAll machine.start [machine.opening] chunks
  (machine.close last :: pieces).reverse.flatten

def preceded (first : List In) (machine : Transducer In Out) : Transducer In Out :=
  let (state, out) := machine.feed machine.start first
  { State := machine.State
    start := state
    opening := machine.opening ++ out
    feed := machine.feed
    close := machine.close }

def into (first : Transducer In Mid) (second : Transducer Mid Out) : Transducer In Out :=
  let (ready, early) := second.feed second.start first.opening
  { State := first.State × second.State
    start := (first.start, ready)
    opening := second.opening ++ early
    feed := fun (left, right) chunk =>
      let (left, middle) := first.feed left chunk
      let (right, out) := second.feed right middle
      ((left, right), out)
    close := fun (left, right) =>
      let (right, out) := second.feed right (first.close left)
      out ++ second.close right }

end Transducer

end DeadDrop
