import DeadDrop.Policy
import DeadDrop.Random.Source
import DeadDrop.Store.Basic

/-!
The drop itself: policy in front of a store. Leaving a secret draws a fresh id once the policy
has admitted it. Reading a one-time secret removes it before the secret is handed out; that
another reader removed it in between is no error.
-/

namespace DeadDrop

namespace Service

inductive Error where
  | refused (refusal : Policy.Refusal)
  | notFound
  | misconfigured (fault : Policy.Misconfiguration)
  | store (cause : Store.Error)
  | clear (cause : Store.Error)
  | retrieve (cause : Store.Error)
  | delete (cause : Store.Error)
  deriving DecidableEq

namespace Error

def message : Error → String
  | refused refusal => refusal.message
  | notFound => "Secret not found"
  | misconfigured _ => "Server misconfiguration"
  | store _ => "Failed to store secret in database"
  | clear _ => "Failed to clear secret"
  | retrieve _ => "Failed to retrieve secret"
  | delete _ => "Failed to delete secret"

def storeCause? : Error → Option Store.Error
  | store cause | clear cause | retrieve cause | delete cause => some cause
  | _ => none

def cause? : Error → Option String
  | misconfigured fault => some fault.message
  | error => error.storeCause?.map Store.Error.message

def blamesClient : Error → Bool
  | refused _ | notFound => true
  | _ => false

def blamesStore (error : Error) : Bool := error.storeCause?.isSome

/-- A missing secret is an answer; anything else is a failure of the store. -/
def ofRead : Store.Error → Error
  | .notFound => notFound
  | cause => retrieve cause

end Error

end Service

structure Service (State Seed : Type) where
  store : Store State
  ids : Random.Source Seed
  policy : Policy

namespace Service

structure World (State Seed : Type) where
  clock : Clock
  state : State
  seed : Seed
  deriving DecidableEq

variable {State Seed α : Type}

def World.advance? (span : Nat) (world : World State Seed) : Option (World State Seed) :=
  (world.clock.advance? span).map fun clock => { world with clock := clock }

abbrev Reply (State Seed α : Type) := Except Error α × World State Seed

def ask (wrap : Store.Error → Error) (call : Clock → State → Store.Answer State α)
    (world : World State Seed) : Reply State Seed α :=
  let (answer, state) := call world.clock world.state
  (answer.mapError wrap, { world with state := state })

def newId (service : Service State Seed) (world : World State Seed) :
    SecretId × World State Seed :=
  let (id, seed) := SecretId.draw service.ids world.seed
  (id, { world with seed := seed })

/-- Leaves a secret under a fresh id. Nothing is drawn and nothing stored unless the policy
admits it. -/
def create (service : Service State Seed) (secret : Secret) (world : World State Seed) :
    Reply State Seed SecretId :=
  match service.policy.check secret with
  | .error (.request refusal) => (.error (.refused refusal), world)
  | .error (.configuration fault) => (.error (.misconfigured fault), world)
  | .ok () =>
      let (id, world) := service.newId world
      let (answer, world) := ask .store (fun clock => service.store.put clock id secret) world
      (answer.map fun _ => id, world)

/-- Reads a secret; a one-time secret is removed first, and lost to the reader if that fails. -/
def retrieve (service : Service State Seed) (id : SecretId) (world : World State Seed) :
    Reply State Seed Secret :=
  match ask .ofRead (fun clock => service.store.get clock id) world with
  | (.error error, world) => (.error error, world)
  | (.ok secret, world) =>
      if secret.oneTime then
        let (answer, world) := ask .clear (fun clock => service.store.delete clock id) world
        (answer.map fun _ => secret, world)
      else (.ok secret, world)

def delete (service : Service State Seed) (id : SecretId) (world : World State Seed) :
    Reply State Seed Bool :=
  ask .delete (fun clock => service.store.delete clock id) world

/-- Whether a waiting secret is a one-time secret. Nothing changes by asking. -/
def status (service : Service State Seed) (id : SecretId) (world : World State Seed) :
    Reply State Seed Bool :=
  ask .ofRead (fun clock => service.store.status clock id) world

def purge (service : Service State Seed) (world : World State Seed) :
    Except Store.Error Nat × World State Seed :=
  let (answer, state) := service.store.purge world.clock world.state
  (answer, { world with state := state })

end Service

end DeadDrop
