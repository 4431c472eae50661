import DeadDrop.Service

/-!
Reclaiming space. Stores never hand out what has expired, so the sweeper only frees room: it
sleeps, purges and sleeps again, and a purge that fails is tried again after the next sleep.
-/

namespace DeadDrop.Server.Sweeper

variable {State Seed : Type}

def round (service : Service State Seed) (interval : Nat) (world : Service.World State Seed) :
    Option (Service.World State Seed) :=
  (world.advance? (Clock.nanoseconds interval 0)).map fun world => (service.purge world).2

/-- What the sweeper finds whenever it lies down, the last time to be woken for good. -/
def run (service : Service State Seed) (interval : Nat) :
    Nat → Service.World State Seed → Option (List (Service.World State Seed))
  | 0, world => some [world]
  | rounds + 1, world => do
      let next ← round service interval world
      return world :: (← run service interval rounds next)

end DeadDrop.Server.Sweeper
