import DeadDrop.Proofs.Courier.Direct
import DeadDrop.Proofs.Envelope.Sealing
import DeadDrop.Proofs.Envelope.ShareKey
import DeadDrop.Proofs.Service.Custody

/-!
From plaintext to plaintext. What is shared comes back through its link as long as the store shows
it: every time, or once and never again. The seams are the body around the armor, which the server
has to have room for, the route of a file, and the place of the key, which is the link or the
reader's memory.
-/

namespace DeadDrop

open Store (Depot seconds)
open Store.Shelf (Slot)
open Service (World)

section Keys

namespace Courier

variable {terms : Terms} (chance : Chance)

theorem Terms.keyFrom_ne_empty (keyed : terms.key ≠ some "") : terms.keyFrom chance ≠ "" := by
  unfold keyFrom
  cases own : terms.key with
  | none => exact Envelope.ShareKey.ofRandom_ne_empty _
  | some key => exact fun blank => keyed (own.trans (congrArg some blank))

def linked (terms : Terms) (family : Family) (id : SecretId) : Link :=
  ⟨id.text, terms.keyFrom chance, ⟨family = .file, terms.key.isSome⟩⟩

variable {chance} {family : Family} {id : SecretId}

theorem shownKey_linked_of_none (own : terms.key = none) :
    (linked chance terms family id).shownKey =
      (Envelope.ShareKey.ofRandom chance.key).toList := by
  simp [Link.shownKey, linked, Terms.keyFrom, own]

theorem shownKey_linked_of_some {key : String} (own : terms.key = some key) :
    (linked chance terms family id).shownKey = [] := by
  simp [Link.shownKey, linked, own]

theorem plain_shownKey_linked :
    ∀ c ∈ (linked chance terms family id).shownKey, Link.Plain c ∧ c ≠ '/' := by
  cases own : terms.key with
  | none =>
      rw [shownKey_linked_of_none own]
      exact Envelope.ShareKey.plain_ofRandom chance.key
  | some key =>
      rw [shownKey_linked_of_some own]
      exact fun c member => nomatch member

theorem keyOf_linked (keyed : terms.key ≠ some "") :
    keyOf { linked chance terms family id with
      key := String.ofList (linked chance terms family id).shownKey } terms.key =
        .ok (terms.keyFrom chance) := by
  have filled := Terms.keyFrom_ne_empty chance keyed
  cases own : terms.key with
  | none =>
      have same : terms.keyFrom chance = Envelope.ShareKey.ofRandom chance.key := by
        rw [Terms.keyFrom, own, Option.getD_none]
      rw [same] at filled ⊢
      rw [shownKey_linked_of_none own, String.ofList_toList, keyOf, if_pos filled]
  | some key =>
      have same : terms.keyFrom chance = key := by rw [Terms.keyFrom, own, Option.getD_some]
      rw [same] at filled ⊢
      rw [shownKey_linked_of_some own, keyOf, if_neg fun named => named rfl]
      simp [Option.filter, filled]

/-- A link is a ticket to what it was made for, in the hands of who knows the key. -/
theorem ticket_linkTo [Url.Names] (page : Link.IsPage terms.page) (keyed : terms.key ≠ some "") :
    ticket (linkTo terms family id (terms.keyFrom chance)) terms.key =
      .ok ⟨family, id, terms.keyFrom chance⟩ := by
  have idPlain : ∀ c ∈ id.text.toList, Link.Plain c ∧ c ≠ '/' := by
    rw [SecretId.text, String.toList_ofList]
    exact Link.plain_write id
  have parsed := Link.parse_write page (linked chance terms family id) idPlain
    plain_shownKey_linked
  have known : SecretId.ofText? (linked chance terms family id).id = some id :=
    SecretId.ofText?_text id
  have issued := ticket_of_parse parsed (keyOf_linked keyed) known
  have kind (key : String) :
      Family.of { linked chance terms family id with key := key } = family := by
    cases family <;> rfl
  rw [kind] at issued
  exact issued

end Courier

end Keys

namespace Courier

section Plaintexts

/-- What a plaintext is to come back as. Only files have names, of 255 octets at most. -/
inductive Plaintext.Means : Plaintext → Envelope.Decrypted → Prop where
  | octets (reads : List Bytes) : Means (.octets ⟨reads, none⟩) ⟨reads.flatten, none⟩
  | file {file : Envelope.File} (fits : file.hints.Fits) :
      Means (.file (.ok file)) ⟨file.content, some file.filename⟩

def Terms.secret (terms : Terms) (armored : String) : Secret :=
  Secret.ofLifetime armored terms.lifetime terms.oneTime

theorem Terms.size_secret (terms : Terms) (armored : String) :
    (terms.secret armored).size = armored.utf8ByteSize := rfl

variable {plaintext : Plaintext} {content : Envelope.Decrypted} {key : String}

theorem reveal_eq {secret : Secret}
    (opens : Envelope.decrypt (.ofBytes (Text.Utf8.bytes secret.message)) key =
      some (.ok content)) : reveal secret key = .ok content := by
  rw [reveal, opens]
  rfl

theorem Plaintext.Means.exists_sealed (means : plaintext.Means content)
    (randomness : Envelope.Randomness) (filled : key ≠ "") :
    ∃ octets, plaintext.seal randomness key = .ok (Envelope.armoredText octets) ∧
      octets.length ≤ 4 * content.content.length + 1200 ∧
      ∀ terms : Terms, reveal (terms.secret (Envelope.armoredText octets)) key = .ok content := by
  cases means with
  | octets reads =>
      obtain ⟨octets, made, size, opens⟩ := Envelope.exists_sealed randomness none reads filled
        fun hint named => nomatch named
      exact ⟨octets, made, size, fun terms => reveal_eq opens⟩
  | @file file fits =>
      obtain ⟨octets, made, size, opens⟩ := Envelope.exists_sealed randomness (some file.hints)
        [file.content] filled fun hint named => Option.some.inj named ▸ fits
      rw [List.flatten_singleton] at size opens
      have given : key.isEmpty = false := by simpa using filled
      refine ⟨octets, ?_, size, fun terms => reveal_eq opens⟩
      rw [Plaintext.seal, Envelope.encryptFile, given]
      exact made

end Plaintexts

section Sharing

variable {depot : Depot} {Seed : Type}

/-- A share that goes through. The server keeps its secrets in one of the two stores and takes in
what the terms come to; in practice every body is shorter than the largest word. -/
structure Accepted [Url.Names] (courier : Courier) (api : Http.Api depot.State Seed)
    (chance : Chance) (plaintext : Plaintext) (terms : Terms)
    (world : World depot.State Seed) : Prop where
  stored : api.service.store = depot.store
  rooted : courier.AtRoot
  allowed : plaintext.family.Open api.settings
  keyed : terms.key ≠ some ""
  page : Link.IsPage terms.page
  admitted : ∀ armored, plaintext.seal chance.envelope (terms.keyFrom chance) = .ok armored →
    api.service.policy.check (terms.secret armored) = .ok ()
  fits : ∀ armored, plaintext.seal chance.envelope (terms.keyFrom chance) = .ok armored →
    (Text.Utf8.bytes (terms.secret armored).encode).length ≤ Http.Api.lastWord
  ready : depot.Ready world.clock
  distinct : world.state.Distinct

/-- Where there is room for a message there is room for its record, escapes and all. -/
theorem length_body_le {policy : Policy} {terms : Terms} (octets : Bytes)
    (admitted : policy.check (terms.secret (Envelope.armoredText octets)) = .ok ())
    (fits : (Text.Utf8.bytes (terms.secret (Envelope.armoredText octets)).encode).length ≤
      Http.Api.lastWord) :
    (Text.Utf8.bytes (terms.secret (Envelope.armoredText octets)).encode).length ≤
      Http.Api.bodyLimit policy := by
  have body := Secret.length_encode_ofLifetime terms.lifetime terms.oneTime
    (Envelope.mild_armoredText octets)
  have size := Policy.size_le_of_check admitted
  rw [Terms.size_secret] at size
  rw [← Terms.secret] at body
  unfold Http.Api.bodyLimit
  omega

variable {courier : Courier} {api : Http.Api depot.State Seed} {chance : Chance}
  {plaintext : Plaintext} {terms : Terms} {world : World depot.State Seed}
  {content : Envelope.Decrypted}

theorem share_of_seal {State : Type} {carrier : Carrier State} {state : State} {armored : String}
    (made : plaintext.seal chance.envelope (terms.keyFrom chance) = .ok armored) :
    courier.share carrier chance plaintext terms state =
      ((courier.store carrier plaintext.family (terms.secret armored) state).1.map fun id =>
          ⟨id, terms.keyFrom chance, linkTo terms plaintext.family id (terms.keyFrom chance)⟩,
        (courier.store carrier plaintext.family (terms.secret armored) state).2) := by
  rw [share]
  simp only [made]
  rfl

theorem Accepted.exists_share [Url.Names]
    (accepted : Accepted courier api chance plaintext terms world)
    (means : plaintext.Means content) :
    ∃ armored id seed,
      courier.share (direct api) chance plaintext terms world =
        (.ok ⟨id, terms.keyFrom chance,
            linkTo terms plaintext.family id (terms.keyFrom chance)⟩,
          { world with
            state := world.state.put id (depot.itemOf world.clock (terms.secret armored))
            seed := seed }) ∧
      reveal (terms.secret armored) (terms.keyFrom chance) = .ok content := by
  have filled := Terms.keyFrom_ne_empty chance accepted.keyed
  obtain ⟨octets, made, -, opens⟩ := means.exists_sealed chance.envelope filled
  have admitted := accepted.admitted _ made
  obtain ⟨id, seed, created⟩ := Service.create_admitted accepted.stored admitted accepted.ready
  have stored := store_direct accepted.rooted accepted.allowed
    (length_body_le octets admitted (accepted.fits _ made)) world
  rw [created] at stored
  refine ⟨_, id, seed, ?_, opens terms⟩
  rw [share_of_seal made, stored]
  rfl

end Sharing

section Visits

inductive Visit where
  | call (call : Service.Call)
  | opens
  deriving DecidableEq

inductive Sight where
  | seen (event : Service.Event)
  | opened (answer : Except Error Envelope.Decrypted)

/-- What leaves a secret where it is. Opening the link to a one-time secret does not. -/
def Sight.Respects (id : SecretId) (oneTime : Bool) : Sight → Prop
  | seen event => event.Respects id oneTime
  | opened _ => oneTime = false

def Sight.Avoids (id : SecretId) : Sight → Prop
  | seen event => event.Avoids id
  | opened _ => True

def Sight.Answers (answer : Except Error Envelope.Decrypted) : Sight → Prop
  | seen _ => True
  | opened given => given = answer

variable [Url.Names] {depot : Depot} {Seed : Type} (courier : Courier)
  (api : Http.Api depot.State Seed) (text : String) (supplied : Option String)

/-- There is no outcome only where the clock comes to its end. -/
def visit : Visit → World depot.State Seed →
    Option (Sight × World depot.State Seed)
  | .call call, world =>
      (api.service.perform call world).map fun (event, next) => (.seen event, next)
  | .opens, world =>
      some (.opened (courier.collect (direct api) text supplied world).1,
        (courier.collect (direct api) text supplied world).2)

/-- A link, the secret that it asks for, and the key that opens it. -/
def Leads (id : SecretId) (key : String) : Prop :=
  ∀ world, courier.collect (direct api) text supplied world =
    ((heard (api.service.retrieve id world).1).bind fun secret => reveal secret key,
      (api.service.retrieve id world).2)

variable {courier api text supplied} {family : Family} {id : SecretId} {key : String}
  {world next last : World depot.State Seed} {secret : Secret} {start : Clock}
  {content : Envelope.Decrypted} {sight : Sight} {sights : List Sight}

theorem leads_of_ticket (rooted : courier.AtRoot) (allowed : family.Open api.settings)
    (issued : ticket text supplied = .ok ⟨family, id, key⟩) :
    courier.Leads api text supplied id key := by
  intro world
  rw [collect_of_ticket _ issued, fetch_direct rooted allowed]

theorem collect_of_shows (leads : courier.Leads api text supplied id key)
    (stored : api.service.store = depot.store)
    (held : world.state.find? id = some (depot.itemOf start secret))
    (shows : depot.Shows (seconds secret) start world.clock)
    (opens : reveal secret key = .ok content) :
    courier.collect (direct api) text supplied world =
      (.ok content, { world with
        state := if secret.oneTime then world.state.erase id else world.state }) := by
  rw [leads, Service.retrieve_of_shows stored held shows]
  exact Prod.ext opens rfl

theorem collect_of_absent (leads : courier.Leads api text supplied id key)
    (stored : api.service.store = depot.store) (absent : world.state.find? id = none) :
    courier.collect (direct api) text supplied world =
      (.error (.server 404 "Secret not found"), world) := by
  rw [leads, Service.retrieve_of_absent stored absent]
  rfl

inductive Sees (courier : Courier) (api : Http.Api depot.State Seed) (text : String)
    (supplied : Option String) (world : World depot.State Seed) :
    Sight → World depot.State Seed → Prop where
  | seen {event : Service.Event} {next : World depot.State Seed}
      (performs : Service.Performs api.service world event next) :
      Sees courier api text supplied world (.seen event) next
  | opened : Sees courier api text supplied world
      (.opened (courier.collect (direct api) text supplied world).1)
      (courier.collect (direct api) text supplied world).2

theorem sees_of_visit {visit : Visit}
    (moved : courier.visit api text supplied visit world = some (sight, next)) :
    Sees courier api text supplied world sight next := by
  cases visit with
  | call call =>
      obtain ⟨⟨event, left⟩, performed, same⟩ := Option.map_eq_some_iff.mp moved
      cases same
      exact .seen (Service.performs_of_perform performed)
  | opens =>
      rw [Courier.visit] at moved
      obtain ⟨rfl, rfl⟩ := Prod.mk.inj (Option.some.inj moved)
      exact .opened

theorem Sees.precedes (sees : Sees courier api text supplied world sight next)
    (leads : courier.Leads api text supplied id key) : world.clock.Precedes next.clock := by
  cases sees with
  | seen performs => exact performs.precedes
  | opened =>
      rw [leads, Service.clock_of_retrieve]
      exact .refl _

theorem Sees.shown (sees : Sees courier api text supplied world sight next)
    (leads : courier.Leads api text supplied id key) (stored : api.service.store = depot.store)
    (opens : reveal secret key = .ok content)
    (slot : Slot id (some (depot.itemOf start secret)) world.state)
    (shows : depot.Shows (seconds secret) start world.clock)
    (respects : sight.Respects id secret.oneTime) :
    Slot id (some (depot.itemOf start secret)) next.state ∧ sight.Answers (.ok content) := by
  cases sees with
  | seen performs => exact ⟨performs.slot stored slot shows respects, trivial⟩
  | opened =>
      have lasting : secret.oneTime = false := respects
      rw [collect_of_shows leads stored slot.here shows opens, lasting, if_neg Bool.false_ne_true]
      exact ⟨slot, rfl⟩

theorem Sees.gone (sees : Sees courier api text supplied world sight next)
    (leads : courier.Leads api text supplied id key) (stored : api.service.store = depot.store)
    (slot : Slot id none world.state) (avoids : sight.Avoids id) :
    Slot id none next.state ∧
      sight.Answers (.error (.server 404 "Secret not found")) := by
  cases sees with
  | seen performs => exact ⟨performs.gone stored slot avoids, trivial⟩
  | opened =>
      rw [collect_of_absent leads stored slot.here]
      exact ⟨slot, rfl⟩

variable {visits : List Visit}

theorem precedes_of_visits (leads : courier.Leads api text supplied id key)
    (ran : replay (courier.visit api text supplied) visits world = some (sights, last)) :
    world.clock.Precedes last.clock := by
  induction visits generalizing world sights with
  | nil =>
      cases ran
      exact .refl _
  | cons visit rest ih =>
      obtain ⟨sight, next, later, moved, onward, -⟩ := replay_cons_eq_some.mp ran
      exact ((sees_of_visit moved).precedes leads).trans (ih onward)

/-- The content comes back at every opening as long as it is shown at the last. -/
theorem shown_of_visits (leads : courier.Leads api text supplied id key)
    (stored : api.service.store = depot.store) (opens : reveal secret key = .ok content)
    (slot : Slot id (some (depot.itemOf start secret)) world.state)
    (ran : replay (courier.visit api text supplied) visits world = some (sights, last))
    (shows : depot.Shows (seconds secret) start last.clock)
    (respects : ∀ sight ∈ sights, sight.Respects id secret.oneTime) :
    Slot id (some (depot.itemOf start secret)) last.state ∧
      ∀ sight ∈ sights, sight.Answers (.ok content) := by
  have before := precedes_of_visits leads ran
  induction visits generalizing world sights with
  | nil =>
      cases ran
      exact ⟨slot, fun sight member => nomatch member⟩
  | cons visit rest ih =>
      obtain ⟨sight, next, later, moved, onward, rfl⟩ := replay_cons_eq_some.mp ran
      obtain ⟨here, others⟩ := List.forall_mem_cons.mp respects
      obtain ⟨kept, answered⟩ := (sees_of_visit moved).shown leads stored opens slot
        (depot.shows_earlier before shows) here
      obtain ⟨stays, answers⟩ := ih kept onward others (precedes_of_visits leads onward)
      exact ⟨stays, List.forall_mem_cons.mpr ⟨answered, answers⟩⟩

theorem gone_of_visits (leads : courier.Leads api text supplied id key)
    (stored : api.service.store = depot.store) (slot : Slot id none world.state)
    (ran : replay (courier.visit api text supplied) visits world = some (sights, last))
    (avoids : ∀ sight ∈ sights, sight.Avoids id) :
    ∀ sight ∈ sights, sight.Answers (.error (.server 404 "Secret not found")) := by
  induction visits generalizing world sights with
  | nil =>
      cases ran
      exact fun sight member => nomatch member
  | cons visit rest ih =>
      obtain ⟨sight, next, later, moved, onward, rfl⟩ := replay_cons_eq_some.mp ran
      obtain ⟨here, others⟩ := List.forall_mem_cons.mp avoids
      obtain ⟨empty, answered⟩ := (sees_of_visit moved).gone leads stored slot here
      exact List.forall_mem_cons.mpr ⟨answered, ih empty onward others⟩

end Visits

section Notes

def hi : Plaintext := .octets ⟨[[104], [105]], none⟩

def tossed : Chance := ⟨Sized.filled 22 7, ⟨Sized.filled 8 1, Sized.filled 32 2, Sized.filled 16 3⟩⟩

def hourly (oneTime : Bool) : Terms := ⟨.hour, oneTime, none, "http://bücher.example"⟩

def desk (depot : Depot) : Http.Api depot.State Nat :=
  ⟨⟨depot.store, Service.countedIds, .standard⟩, .standard⟩

def morning (depot : Depot) (clock : Clock) : World depot.State Nat := ⟨clock, [], 0⟩

theorem hi_means : hi.Means ⟨[104, 105], none⟩ := .octets [[104], [105]]

theorem check_standard {terms : Terms} {armored : String}
    (short : armored.utf8ByteSize ≤ Policy.defaultMaxLength) :
    Policy.standard.check (terms.secret armored) = .ok () := by
  have named : (terms.secret armored).lifetime? = some terms.lifetime :=
    Lifetime.ofSeconds?_seconds terms.lifetime
  have room : ¬ Policy.standard.maxLength < (terms.secret armored).size := Nat.not_lt.mpr short
  rw [Policy.check, named]
  simp only [Policy.standard, Policy.maximum, Policy.exceeds] at room ⊢
  simp [room]

theorem hi_accepted {depot : Depot} {clock : Clock} (oneTime : Bool) (ready : depot.Ready clock) :
    letI := shopNames
    Accepted shopRoot (desk depot) tossed hi (hourly oneTime) (morning depot clock) := by
  let := shopNames
  have keyed : (hourly oneTime).key ≠ some "" := fun own => nomatch own
  obtain ⟨octets, made, size, -⟩ :=
    hi_means.exists_sealed tossed.envelope (Terms.keyFrom_ne_empty tossed keyed)
  have few : octets.length ≤ 1208 := size
  have text := Envelope.size_armoredText octets
  have body := Secret.length_encode_ofLifetime .hour oneTime (Envelope.mild_armoredText octets)
  have word : 100000 ≤ Http.Api.lastWord := by decide
  have page : Link.IsPage "http://bücher.example" := by
    refine ⟨⟨shopRoot.root, rfl, .inl rfl⟩, by decide, fun c last => ?_⟩
    obtain rfl : 'e' = c := Option.some.inj last
    decide
  refine ⟨rfl, rfl, (fun file => nomatch file), keyed, page, fun armored same => ?admitted,
    fun armored same => ?fits, ready, List.nodup_nil⟩
  case admitted =>
    obtain rfl := Except.ok.inj (made.symm.trans same)
    exact check_standard (by unfold Policy.defaultMaxLength; omega)
  case fits =>
    obtain rfl := Except.ok.inj (made.symm.trans same)
    have room : 2 * (Envelope.armoredText octets).utf8ByteSize + 100 ≤ Http.Api.lastWord := by
      omega
    exact Nat.le_trans body room

/-- What is shared goes through and comes back. As long as the store shows the secret and nobody
else takes it away, its link opens to the content; if it was a one-time secret, nobody finds it
there afterwards. -/
theorem share_then_collect [Url.Names] {depot : Depot} {Seed : Type} {courier : Courier}
    {api : Http.Api depot.State Seed} {chance : Chance} {plaintext : Plaintext}
    {terms : Terms} {world : World depot.State Seed} {content : Envelope.Decrypted}
    (accepted : Accepted courier api chance plaintext terms world)
    (means : plaintext.Means content) :
    ∃ shared left,
      courier.share (direct api) chance plaintext terms world = (.ok shared, left) ∧
      left.clock = world.clock ∧
      ∀ visits sights last,
        replay (courier.visit api shared.link terms.key) visits left = some (sights, last) →
        (∀ sight ∈ sights, sight.Respects shared.id terms.oneTime) →
        depot.Shows terms.lifetime.span world.clock last.clock →
        (∀ sight ∈ sights, sight.Answers (.ok content)) ∧
        ∃ after, courier.collect (direct api) shared.link terms.key last = (.ok content, after) ∧
          (terms.oneTime = true → ∀ later found final,
            replay (courier.visit api shared.link terms.key) later after = some (found, final) →
            (∀ sight ∈ found, sight.Avoids shared.id) →
            ∀ sight ∈ found, sight.Answers (.error (.server 404 "Secret not found"))) := by
  obtain ⟨armored, id, seed, shared, opens⟩ := accepted.exists_share means
  have stored := accepted.stored
  have leads : courier.Leads api (linkTo terms plaintext.family id (terms.keyFrom chance))
      terms.key id (terms.keyFrom chance) :=
    leads_of_ticket accepted.rooted accepted.allowed (ticket_linkTo accepted.page accepted.keyed)
  have slot : Slot id (some (depot.itemOf world.clock (terms.secret armored)))
      (world.state.put id (depot.itemOf world.clock (terms.secret armored))) :=
    ⟨accepted.distinct.put id _, by rw [Store.Shelf.find?_put, if_pos rfl]⟩
  refine ⟨_, _, shared, rfl, fun visits sights last ran respects shows => ?_⟩
  obtain ⟨kept, answers⟩ := shown_of_visits leads stored opens slot ran shows respects
  refine ⟨answers, _, collect_of_shows leads stored kept.here shows opens, ?_⟩
  intro once later found final onward avoids
  have taken : (terms.secret armored).oneTime = true := once
  rw [taken, if_pos rfl] at onward
  have empty : Slot id none (last.state.erase id) :=
    ⟨kept.distinct.erase id, by rw [Store.Shelf.find?_erase, if_pos rfl]⟩
  exact gone_of_visits leads stored empty onward avoids

theorem hi_opens_once :
    letI := shopNames
    Accepted shopRoot (desk .durable) tossed hi (hourly true)
        (morning .durable (.start 1700000000)) ∧
      ∃ shared left after,
        shopRoot.share (direct (desk .durable)) tossed hi (hourly true)
          (morning .durable (.start 1700000000)) = (.ok shared, left) ∧
        shopRoot.collect (direct (desk .durable)) shared.link none left =
          (.ok ⟨[104, 105], none⟩, after) ∧
        (shopRoot.collect (direct (desk .durable)) shared.link none after).1 =
          .error (.server 404 "Secret not found") := by
  let := shopNames
  have ready : Depot.durable.Ready (.start 1700000000) := rfl
  have accepted := hi_accepted true ready
  obtain ⟨shared, left, made, same, opens⟩ := share_then_collect accepted hi_means
  have early : Depot.durable.Shows (hourly true).lifetime.span (.start 1700000000) left.clock := by
    rw [same]
    show (Clock.start 1700000000).epoch + (Clock.start 1700000000).seconds < min _ _
    decide
  obtain ⟨-, after, found, once⟩ := opens [] [] left rfl (fun sight member => nomatch member) early
  have gone := once rfl [.opens] _ _ rfl
    (fun sight member => List.mem_singleton.mp member ▸ trivial) _ List.mem_cons_self
  exact ⟨accepted, shared, left, after, made, found, gone⟩

/-- In the last second of the calendar a table takes a secret in and does not show it. -/
theorem hi_is_lost_in_the_last_second :
    letI := shopNames
    Accepted shopRoot (desk .durable) tossed hi (hourly false)
        (morning .durable (.start Store.Durable.lastDeadline)) ∧
      hi.Means ⟨[104, 105], none⟩ ∧
      ∃ shared left,
        shopRoot.share (direct (desk .durable)) tossed hi (hourly false)
          (morning .durable (.start Store.Durable.lastDeadline)) = (.ok shared, left) ∧
        left.clock = .start Store.Durable.lastDeadline ∧
        (shopRoot.collect (direct (desk .durable)) shared.link none left).1 =
          .error (.server 404 "Secret not found") := by
  let := shopNames
  have ready : Depot.durable.Ready (.start Store.Durable.lastDeadline) := rfl
  have accepted := hi_accepted false ready
  obtain ⟨armored, id, seed, made, -⟩ := accepted.exists_share hi_means
  refine ⟨accepted, hi_means, _, _, made, rfl, ?_⟩
  have leads : shopRoot.Leads (desk .durable)
      (linkTo (hourly false) hi.family id ((hourly false).keyFrom tossed)) none id
        ((hourly false).keyFrom tossed) :=
    leads_of_ticket accepted.rooted accepted.allowed (ticket_linkTo accepted.page accepted.keyed)
  have held := Store.Shelf.find?_put ([] : Store.Durable) id id
    (Store.Durable.itemOf (.start Store.Durable.lastDeadline) ((hourly false).secret armored))
  rw [if_pos rfl] at held
  have passed : ¬ Store.Durable.Shows (seconds ((hourly false).secret armored))
      (.start Store.Durable.lastDeadline) (.start Store.Durable.lastDeadline) :=
    Nat.not_lt.mpr (Nat.min_le_right _ _)
  have readable : (Clock.start Store.Durable.lastDeadline).epoch +
      (Clock.start Store.Durable.lastDeadline).seconds ≤ Store.Durable.lastDeadline := by decide
  have loaded := Store.Durable.load_of_late readable held passed
  rw [leads, Service.retrieve_missed (Prod.ext loaded rfl)]
  rfl

end Notes

end Courier

end DeadDrop
