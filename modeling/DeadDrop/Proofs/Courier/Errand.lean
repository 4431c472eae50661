import DeadDrop.Courier.Share
import DeadDrop.Proofs.Courier.Reference

/-!
What opening a link sends. Fetching a one-time secret takes it away, so whatever can be wrong with
a link or a key has to be found before anybody is sent. A carrier that keeps a log of its errands
shows what was sent: nothing for a link that is refused, and else one errand, which knows the id
and the kind of the link but not the key.
-/

namespace DeadDrop.Courier

variable {State : Type}

section Tickets

variable {text : String} {link : Link} {supplied : Option String}

def HasKey (link : Link) (supplied : Option String) : Prop :=
  link.key ≠ "" ∨ ∃ key, supplied = some key ∧ key ≠ ""

inductive Refused [Url.Names] (text : String) (supplied : Option String) : Error → Prop where
  | unread {error : Exchange.Error} (unparsed : Link.parse text = .error error) :
      Refused text supplied (.exchange error)
  | keyless {link : Link} (parsed : Link.parse text = .ok link) (keyless : ¬HasKey link supplied) :
      Refused text supplied .missingKey
  | foreign {link : Link} (parsed : Link.parse text = .ok link) (keyed : HasKey link supplied)
      (foreign : SecretId.isCanonical link.id = false) :
      Refused text supplied (.exchange (.secretId link.id))

theorem keyOf_of_hasKey (keyed : HasKey link supplied) : ∃ key, keyOf link supplied = .ok key := by
  rw [keyOf]
  split
  · exact ⟨_, rfl⟩
  · rename_i keyless
    obtain own | ⟨key, rfl, filled⟩ := keyed
    · exact absurd own keyless
    · exact ⟨key, by simp [Option.filter, filled]⟩

theorem keyOf_of_keyless (keyless : ¬HasKey link supplied) :
    keyOf link supplied = .error .missingKey := by
  rw [HasKey, not_or, not_exists] at keyless
  obtain ⟨own, others⟩ := keyless
  rw [keyOf, if_neg own]
  match supplied, others with
  | none, _ => rfl
  | some key, others =>
      have blank : key = "" := by simpa using others key
      simp [Option.filter, blank]

def Family.of (link : Link) : Family := if link.kind.file then .file else .message

theorem parseId_of_foreign {text : String} (foreign : SecretId.isCanonical text = false) :
    Exchange.parseId text = .error (.secretId text) := by
  have unread : SecretId.ofText? text = none := by
    rw [← Option.isSome_eq_false_iff.trans Option.isNone_iff_eq_none, SecretId.isSome_ofText?,
      foreign]
  rw [Exchange.parseId, unread]

theorem ticket_eq [Url.Names] (parsed : Link.parse text = .ok link) :
    ticket text supplied = (keyOf link supplied).bind fun key =>
      ((Exchange.parseId link.id).mapError .exchange).bind fun id => .ok ⟨.of link, id, key⟩ := by
  rw [ticket, parsed]
  rfl

theorem ticket_of_refused [Url.Names] {error : Error} (refused : Refused text supplied error) :
    ticket text supplied = .error error := by
  cases refused with
  | unread unparsed => rw [ticket, unparsed]; rfl
  | keyless parsed keyless =>
      rw [ticket_eq parsed, keyOf_of_keyless keyless]
      rfl
  | foreign parsed keyed foreign =>
      obtain ⟨key, found⟩ := keyOf_of_hasKey keyed
      rw [ticket_eq parsed, found, parseId_of_foreign foreign]
      rfl

theorem ticket_of_parse [Url.Names] {id : SecretId} {key : String}
    (parsed : Link.parse text = .ok link) (found : keyOf link supplied = .ok key)
    (known : SecretId.ofText? link.id = some id) :
    ticket text supplied = .ok ⟨.of link, id, key⟩ := by
  rw [ticket_eq parsed, found, Exchange.parseId, known]
  rfl

theorem of_not_refused [Url.Names] (accepted : ∀ error, ¬Refused text supplied error) :
    ∃ link id, Link.parse text = .ok link ∧ HasKey link supplied ∧
      SecretId.ofText? link.id = some id := by
  cases parsed : Link.parse text with
  | error error => exact absurd (.unread parsed) (accepted _)
  | ok link =>
      by_cases keyed : HasKey link supplied
      · cases known : SecretId.ofText? link.id with
        | some id => exact ⟨link, id, rfl, keyed, known⟩
        | none =>
            have foreign : SecretId.isCanonical link.id = false := by
              rw [← SecretId.isSome_ofText?, known, Option.isSome_none]
            exact absurd (.foreign parsed keyed foreign) (accepted _)
      · exact absurd (.keyless parsed keyed) (accepted _)

end Tickets

section Logs

def Carrier.recorded (carrier : Carrier State) : Carrier (State × List Errand) :=
  fun errand (state, log) =>
    let (answer, state) := carrier errand state
    (answer, state, log ++ [errand])

variable (courier : Courier) (carrier : Carrier State)

def sent [Url.Names] (link : String) (supplied : Option String) (state : State) : List Errand :=
  (courier.collect carrier.recorded link supplied (state, [])).2.2

/-- The request for a secret. In place of the last item, the path of the root goes on with the
route of the family and the id. -/
def asking (family : Family) (id : SecretId) : Errand :=
  let base := match courier.root.path with
    | .segments items => items.dropLast
    | .rootless _ => []
  ⟨.get, { courier.root with
    path := .segments (base ++ secretItems family id), query := none, fragment := none }, none⟩

variable {courier : Courier}

theorem address_asking (closed : courier.root.path.IsClosed) (family : Family) (id : SecretId) :
    courier.address (secretReference family id []) = .ok (courier.asking family id).url := by
  obtain ⟨front, path⟩ := closed
  rw [address_bareReference path, asking, path]
  simp only [List.dropLast_concat]

theorem fetch_of_closed (closed : courier.root.path.IsClosed) (family : Family)
    (id : SecretId) (state : State) :
    courier.fetch carrier family id state =
      (match carrier (courier.asking family id) state with
        | (.error reason, state) => (.error (.unreachable reason), state)
        | (.ok reception, state) =>
            ((accept reception).bind (readRecord Secret.decode), state)) := by
  have errand : (⟨.get, (courier.asking family id).url, none⟩ : Errand) =
      courier.asking family id := rfl
  rw [fetch, ask, run, address_asking closed]
  dsimp only
  rw [errand]
  generalize carrier (courier.asking family id) state = carried
  obtain ⟨reason | reception, left⟩ := carried
  · rfl
  · rfl

theorem fetch_recorded (closed : courier.root.path.IsClosed) (family : Family)
    (id : SecretId) (state : State) (log : List Errand) :
    courier.fetch carrier.recorded family id (state, log) =
      ((courier.fetch carrier family id state).1, (courier.fetch carrier family id state).2,
        log ++ [courier.asking family id]) := by
  rw [fetch_of_closed _ closed, fetch_of_closed _ closed, Carrier.recorded]
  rcases carrier (courier.asking family id) state with ⟨_ | _, after⟩ <;> rfl

theorem state_of_fetch (closed : courier.root.path.IsClosed) (family : Family)
    (id : SecretId) (state : State) :
    (courier.fetch carrier family id state).2 = (carrier (courier.asking family id) state).2 := by
  rw [fetch_of_closed _ closed]
  rcases carrier (courier.asking family id) state with ⟨_ | _, after⟩ <;> rfl

theorem isClosed_of_new [Url.Names] {address : String} (made : new address = .ok courier)
    (web : Url.IsWeb courier.root.scheme) : courier.root.path.IsClosed := by
  obtain ⟨_, front, -, root, -⟩ := root_of_new made web
  exact ⟨front, by rw [root]⟩

end Logs

section Collecting

variable [Url.Names] {courier : Courier} {text : String} {supplied : Option String} {link : Link}

theorem collect_of_refused (carrier : Carrier State) {error : Error}
    (refused : Refused text supplied error) (state : State) :
    courier.collect carrier text supplied state = (.error error, state) := by
  rw [collect, ticket_of_refused refused]

theorem collect_of_ticket (carrier : Carrier State) {ticket : Ticket}
    (issued : Courier.ticket text supplied = .ok ticket) (state : State) :
    courier.collect carrier text supplied state =
      ((courier.fetch carrier ticket.family ticket.id state).1.bind fun secret =>
        reveal secret ticket.key, (courier.fetch carrier ticket.family ticket.id state).2) := by
  rw [collect, issued]

theorem sent_of_refused (carrier : Carrier State) {error : Error}
    (refused : Refused text supplied error) (state : State) :
    courier.sent carrier text supplied state = [] := by
  rw [sent, collect_of_refused _ refused]

theorem sent_of_ticket (closed : courier.root.path.IsClosed) (carrier : Carrier State)
    {ticket : Ticket} (issued : Courier.ticket text supplied = .ok ticket) (state : State) :
    courier.sent carrier text supplied state = [courier.asking ticket.family ticket.id] := by
  rw [sent, collect_of_ticket _ issued, fetch_recorded _ closed]
  rfl

theorem collect_recorded (closed : courier.root.path.IsClosed) (carrier : Carrier State)
    (text : String) (supplied : Option String) (state : State) :
    courier.collect carrier.recorded text supplied (state, []) =
      ((courier.collect carrier text supplied state).1,
        (courier.collect carrier text supplied state).2,
        courier.sent carrier text supplied state) := by
  cases issued : ticket text supplied with
  | error error => simp only [sent, collect, issued]
  | ok ticket =>
      rw [sent_of_ticket closed carrier issued, collect_of_ticket _ issued,
        collect_of_ticket _ issued, fetch_recorded _ closed]
      rfl

theorem collect_of_hasKey (closed : courier.root.path.IsClosed)
    (carrier : Carrier State) (parsed : Link.parse text = .ok link) (keyed : HasKey link supplied)
    (state : State) :
    (courier.sent carrier text supplied state, (courier.collect carrier text supplied state).2) =
      match SecretId.ofText? link.id with
      | some id =>
          ([courier.asking (.of link) id], (carrier (courier.asking (.of link) id) state).2)
      | none => ([], state) := by
  cases known : SecretId.ofText? link.id with
  | some id =>
      obtain ⟨key, found⟩ := keyOf_of_hasKey keyed
      have issued := ticket_of_parse parsed found known
      rw [sent_of_ticket closed carrier issued, collect_of_ticket _ issued,
        state_of_fetch _ closed]
  | none =>
      have foreign : SecretId.isCanonical link.id = false := by
        rw [← SecretId.isSome_ofText?, known, Option.isSome_none]
      have refused := Refused.foreign parsed keyed foreign
      rw [sent_of_refused carrier refused, collect_of_refused carrier refused]

end Collecting

section Openings

variable {courier : Courier}

/-- A link that is refused sends nothing and changes nothing. Any other sends one request, which
reads the secret of its id among the secrets of its kind. Keys make no difference to either. -/
theorem refused_or_asks_once [Url.Names] {address : String} (made : new address = .ok courier)
    (web : Url.IsWeb courier.root.scheme) (carrier : Carrier State) (text : String)
    (supplied : Option String) (state : State) :
    courier.collect carrier.recorded text supplied (state, []) =
        ((courier.collect carrier text supplied state).1,
          (courier.collect carrier text supplied state).2,
          courier.sent carrier text supplied state) ∧
      (∀ error, Refused text supplied error →
        courier.sent carrier text supplied state = [] ∧
          courier.collect carrier text supplied state = (.error error, state)) ∧
      ((∀ error, ¬Refused text supplied error) →
        ∃ link id, Link.parse text = .ok link ∧ SecretId.ofText? link.id = some id ∧
          courier.sent carrier text supplied state = [courier.asking (.of link) id] ∧
          (courier.collect carrier text supplied state).2 =
            (carrier (courier.asking (.of link) id) state).2) ∧
      ∀ link other otherText otherSupplied,
        Link.parse text = .ok link → HasKey link supplied →
        Link.parse otherText = .ok other → HasKey other otherSupplied →
        other.id = link.id → other.kind.file = link.kind.file →
        courier.sent carrier otherText otherSupplied state =
            courier.sent carrier text supplied state ∧
          (courier.collect carrier otherText otherSupplied state).2 =
            (courier.collect carrier text supplied state).2 := by
  have closed := isClosed_of_new made web
  refine ⟨collect_recorded closed carrier text supplied state, ?refused, ?accepted, ?keys⟩
  case refused =>
    exact fun error refused =>
      ⟨sent_of_refused carrier refused state, collect_of_refused carrier refused state⟩
  case accepted =>
    intro accepted
    obtain ⟨link, id, parsed, keyed, known⟩ := of_not_refused accepted
    have both := collect_of_hasKey closed carrier parsed keyed state
    rw [known, Prod.mk.injEq] at both
    exact ⟨link, id, parsed, known, both⟩
  case keys =>
    intro link other otherText otherSupplied parsed keyed otherParsed otherKeyed id kind
    have family : Family.of other = Family.of link := by rw [Family.of, Family.of, kind]
    have here := collect_of_hasKey closed carrier parsed keyed state
    have there := collect_of_hasKey closed carrier otherParsed otherKeyed state
    rw [id, family, ← here, Prod.mk.injEq] at there
    exact there

-- A shop whose name is beyond ASCII, with as much of the rules as it takes to find its server.
abbrev shopNames : Url.Names :=
  ⟨fun octets => if octets = Text.Utf8.bytes "bücher.example" then
    some "xn--bcher-kva.example".toList else none⟩

def shopHost : Url.Host := .name "xn--bcher-kva.example".toList

def shopRoot : Courier :=
  ⟨⟨"http".toList, some (Url.anonymous shopHost), .segments [[]], none, none⟩⟩

-- Counts errands and loses them all.
def losing : Carrier Nat := fun _ count => (.error "lost", count + 1)

def linkWithKey (key : String) : String :=
  "http://bücher.example/#/s/00000000-0000-0000-0000-000000000000/" ++ key

theorem keys_make_no_difference :
    letI := shopNames
    new "http://bücher.example" = .ok shopRoot ∧ Url.IsWeb shopRoot.root.scheme ∧
      shopRoot.sent losing (linkWithKey "wrong") none 0 =
        shopRoot.sent losing (linkWithKey "") (some "right") 0 ∧
      (shopRoot.collect losing (linkWithKey "wrong") none 0).2 =
        (shopRoot.collect losing (linkWithKey "") (some "right") 0).2 := by
  let := shopNames
  have made : new "http://bücher.example" = .ok shopRoot := rfl
  have web : Url.IsWeb shopRoot.root.scheme := .inl rfl
  have keys :=
    (refused_or_asks_once made web losing (linkWithKey "") (some "right") 0).2.2.2
  exact ⟨made, web, keys
    ⟨"00000000-0000-0000-0000-000000000000", "", ⟨false, false⟩⟩
    ⟨"00000000-0000-0000-0000-000000000000", "wrong", ⟨false, false⟩⟩
    (linkWithKey "wrong") none rfl (.inr ⟨"right", rfl, by decide⟩) rfl (.inl (by decide)) rfl rfl⟩

end Openings

end DeadDrop.Courier
