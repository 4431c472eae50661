import DeadDrop.Proofs.Courier.Errand

/-!
Where the requests of a courier go. Reading a reference on from a base drops what follows the last
slash of the base, so the root is closed with a slash first. After that nothing of it is lost: every
request has the scheme and the authority of the address that the courier was given, and its path
goes on from the path of that address.
-/

namespace DeadDrop.Courier

open Text.Blank (splitOn)
open Url (IsPlain)

variable {State : Type} {courier : Courier} {api : Url}

/-- The URL lies behind the slash at the end of an address, and nothing stands behind its path. -/
structure IsBelow (api : Url) (reference : List Char) (url : Url) : Prop where
  scheme : url.scheme = api.scheme
  authority : url.authority = api.authority
  path : url.path.write = Url.slashEnded api.path.write ++ reference
  query : url.query = none
  fragment : url.fragment = none

section Calls

inductive Call where
  | store (family : Family) (secret : Secret)
  | fetch (family : Family) (id : SecretId)
  | status (id : SecretId)
  | delete (id : SecretId)
  | settings

namespace Call

def method : Call → Http.Method
  | store _ _ => .post
  | fetch _ _ | status _ | settings => .get
  | delete _ => .delete

def reference : Call → List Char
  | store family _ => family.segment
  | fetch family id => secretReference family id []
  | status id => secretReference .message id "/status".toList
  | delete id => secretReference .message id []
  | settings => "config".toList

def body : Call → Option Bytes
  | store _ secret => some (Text.Utf8.bytes secret.encode)
  | _ => none

end Call

def attend (courier : Courier) (carrier : Carrier State) : Call → State → State
  | .store family secret, state => (courier.store carrier family secret state).2
  | .fetch family id, state => (courier.fetch carrier family id state).2
  | .status id, state => (courier.status carrier id state).2
  | .delete id, state => (courier.delete carrier id state).2
  | .settings, state => (courier.settings carrier state).2

def errands (courier : Courier) (carrier : Carrier State) (call : Call) (state : State) :
    List Errand :=
  (courier.attend carrier.recorded call (state, [])).2

theorem state_of_run {url : Url} {reference : List Char}
    (found : courier.address reference = .ok url) (carrier : Carrier State) (method : Http.Method)
    (body : Option Bytes) (state : State) :
    (courier.run carrier method reference body state).2 =
      (carrier ⟨method, url, body⟩ state).2 := by
  rw [run, found]
  dsimp only
  generalize carrier ⟨method, url, body⟩ state = carried
  obtain ⟨reason | reception, left⟩ := carried <;> rfl

theorem attend_eq (courier : Courier) (carrier : Carrier State) (call : Call) (state : State) :
    courier.attend carrier call state =
      (courier.run carrier call.method call.reference call.body state).2 := by
  cases call <;> rfl

/-- Whatever becomes of it, a call sends one request. -/
theorem errands_eq {url : Url} {call : Call} (found : courier.address call.reference = .ok url)
    (carrier : Carrier State) (state : State) :
    courier.errands carrier call state = [⟨call.method, url, call.body⟩] := by
  rw [errands, attend_eq, state_of_run found]
  rfl

end Calls

section Places

theorem isPlain_of_mem_statusReference (id : SecretId) :
    ∀ item ∈ splitOn '/' (secretReference .message id "/status".toList), IsPlain item := by
  apply isPlain_of_mem_secretReference
  have pieces : splitOn '/' "/status".toList = [[], "status".toList] := by decide
  rw [pieces]
  have status : IsPlain "status".toList :=
    ⟨Text.forall_of_all (by decide), by decide, by decide⟩
  exact List.forall_mem_cons.mpr ⟨Url.isPlain_nil, List.forall_mem_singleton.mpr status⟩

theorem isPlain_of_mem_reference (call : Call) :
    ∀ item ∈ splitOn '/' call.reference, IsPlain item := by
  have nothing : ∀ item ∈ splitOn '/' [], IsPlain item :=
    List.forall_mem_singleton.mpr Url.isPlain_nil
  cases call with
  | store family secret =>
      have pieces : splitOn '/' (Call.store family secret).reference = [family.segment] :=
        splitOn_segment family
      rw [pieces]
      exact List.forall_mem_singleton.mpr (isPlain_segment family)
  | fetch family id => exact isPlain_of_mem_secretReference nothing
  | status id => exact isPlain_of_mem_statusReference id
  | delete id => exact isPlain_of_mem_secretReference nothing
  | settings => exact List.forall_mem_singleton.mpr isPlain_config

theorem exists_address [Url.Names] {text : String} (made : new text = .ok courier)
    (web : Url.IsWeb courier.root.scheme) :
    ∃ api, Url.parse text = .ok api ∧
      courier.root.path.write = Url.slashEnded api.path.write ∧
      ∀ reference, (∀ item ∈ splitOn '/' reference, IsPlain item) →
        ∃ url, courier.address reference = .ok url ∧ IsBelow api reference url := by
  obtain ⟨api, front, parsed, root, closed⟩ := root_of_new made web
  refine ⟨api, parsed, by rw [root, closed], ?_⟩
  intro reference plain
  have path : courier.root.path = .segments (front ++ [[]]) := by rw [root]
  have pages : Url.isFile courier.root.scheme = true →
      ∀ item ∈ splitOn '/' reference, Url.isDrive item = false := by
    rw [web.not_isFile]
    nofun
  refine ⟨_, address_eq path plain pages, ?_⟩
  constructor
  · rw [root]
  · rw [root]
  · rw [← closed]
    exact Url.write_extended front reference
  · rfl
  · rfl

/-- All requests of a courier lie below the address that it was given. -/
theorem requests_stay_below_root [Url.Names] {text : String} (made : new text = .ok courier)
    (web : Url.IsWeb courier.root.scheme) :
    ∃ api, Url.parse text = .ok api ∧
      courier.root.path.write = Url.slashEnded api.path.write ∧
      (∀ family id suffix, (∀ item ∈ splitOn '/' suffix, IsPlain item) →
        ∃ url, courier.address (secretReference family id suffix) = .ok url ∧
          IsBelow api (family.segment ++ '/' :: (id.write ++ suffix)) url) ∧
      ∀ (State : Type) (carrier : Carrier State) (call : Call) (state : State),
        ∃ url, courier.errands carrier call state = [⟨call.method, url, call.body⟩] ∧
          IsBelow api call.reference url := by
  obtain ⟨api, parsed, closed, below⟩ := exists_address made web
  refine ⟨api, parsed, closed, ?secrets, ?calls⟩
  case secrets =>
    intro family id suffix plain
    exact below _ (isPlain_of_mem_secretReference plain)
  case calls =>
    intro State carrier call state
    obtain ⟨url, found, lies⟩ := below call.reference (isPlain_of_mem_reference call)
    exact ⟨url, errands_eq found carrier state, lies⟩

-- A server that shares the shop's host: its address has a port, an empty segment, an escape, a
-- query and a fragment.
def sharedApi : Url :=
  ⟨"https".toList, some { Url.anonymous shopHost with port := some 8443 },
    .segments ["a".toList, [], "b%20c".toList], some "x=1".toList, some "f".toList⟩

theorem status_stays_below_root :
    letI := shopNames
    let root : Courier := ⟨sharedApi.closePath⟩
    new "https://bücher.example:8443/a//b c?x=1#f" = .ok root ∧ Url.IsWeb root.root.scheme ∧
      ∃ url, root.errands losing (.status .zero) 0 = [⟨.get, url, none⟩] ∧
        url.write = ("https://xn--bcher-kva.example:8443/a//b%20c/secret/" ++
          "00000000-0000-0000-0000-000000000000/status").toList := by
  intro root
  let := shopNames
  have read : Url.parse "https://bücher.example:8443/a//b c?x=1#f" = .ok sharedApi := rfl
  have made : new "https://bücher.example:8443/a//b c?x=1#f" = .ok root := rfl
  have web : Url.IsWeb root.root.scheme := .inr rfl
  obtain ⟨api, parsed, -, -, calls⟩ := requests_stay_below_root made web
  obtain rfl : sharedApi = api := Except.ok.inj (read.symm.trans parsed)
  obtain ⟨url, sent, below⟩ := calls Nat losing (.status .zero) 0
  have guard : url.pathGuard = [] := by
    rw [Url.pathGuard, below.authority]
    rfl
  refine ⟨made, web, url, sent, ?_⟩
  rw [Url.write, guard, below.scheme, below.authority, below.path, below.query, below.fragment]
  decide +kernel

end Places

end DeadDrop.Courier
