import DeadDrop.Proofs.Http.Delivery

/-!
The two names under which secrets are reached. While uploads are on, a name is exchanged for the
other and nobody can tell, whatever stands behind it in the path. Turning uploads off takes the
second name away: what is asked below it is not there, and everything else goes on as before, but
for what the server says of itself and for the preflight below that name, which has no route to
list the methods of.
-/

namespace DeadDrop.Http

section Names

namespace Route

open Text (Blank.splitOn Blank.splitOn_append Blank.splitOn_of_clean Blank.splitOn_begun
  Blank.eq_of_splitOn)

def families : List (List Char) := ["secret".toList, "file".toList]

def below (path : List Char) : Bool := path = "/file".toList || "/file/".toList.isPrefixOf path

/-- What is reached under a name by the segments that follow it. -/
def within? : List (List Char) → Option Route
  | [] => some drop
  | [id] => if id ≠ [] then some (secret id) else none
  | [id, last] => if id ≠ [] && last = "status".toList then some (status id) else none
  | _ => none

variable {uploads : Bool} {name other path : List Char} {others : List (List Char)}

theorem slash_not_mem_family (known : name ∈ families) : '/' ∉ name := by
  have clean : ∀ name ∈ families, '/' ∉ name := by decide
  exact clean name known

theorem find?_within (family : isFamily uploads name = true)
    (split : Blank.splitOn '/' path = [] :: name :: others) :
    find? uploads path = within? others := by
  rw [find?, split]
  rcases others with _ | ⟨id, _ | ⟨last, _ | ⟨more, rest⟩⟩⟩
  · exact if_pos family
  · simp only [family, Bool.true_and, decide_eq_true_eq, within?]
  · simp only [family, Bool.true_and, within?]
  · rfl

theorem find?_elsewhere (foreign : isFamily uploads name = false)
    (plain : name ≠ "config".toList ∧ name ≠ "health".toList)
    (split : Blank.splitOn '/' path = [] :: name :: others) : find? uploads path = none := by
  rw [find?, split]
  rcases others with _ | ⟨id, _ | ⟨last, _ | ⟨more, rest⟩⟩⟩
  · simp only [foreign, if_neg plain.1, if_neg plain.2, Bool.false_eq_true, if_false]
  · simp [foreign]
  · simp [foreign]
  · rfl

theorem find?_longer (known : name ∈ families) {more : List Char} (longer : more ≠ [])
    (split : Blank.splitOn '/' path = [] :: (name ++ more) :: others) :
    find? true path = none := by
  have apart : ∀ word ∈ families ++ ["config".toList, "health".toList], name ++ more ≠ word := by
    intro word listed same
    have front : name <+: word := ⟨more, same⟩
    have whole : ∀ name ∈ families, ∀ word ∈ families ++ ["config".toList, "health".toList],
        name <+: word → name = word := by decide
    obtain rfl := whole name known word listed front
    exact longer (List.append_right_eq_self.mp same)
  apply find?_elsewhere _ _ split
  · have one := apart "secret".toList (by decide)
    have two := apart "file".toList (by decide)
    simp only [isFamily, Bool.true_and, one, two, decide_false, Bool.or_false]
  · exact ⟨apart _ (by decide), apart _ (by decide)⟩

theorem find?_exchanged (known : name ∈ families) (known' : other ∈ families)
    (rest : List Char) :
    find? true ('/' :: (name ++ rest)) = find? true ('/' :: (other ++ rest)) := by
  obtain ⟨more, others, begun⟩ := Blank.splitOn_begun '/' rest
  have split {name : List Char} (known : name ∈ families) :
      Blank.splitOn '/' ('/' :: (name ++ rest)) = [] :: (name ++ more) :: others := by
    have behind := Blank.splitOn_append (List.not_mem_nil (a := '/')) (name ++ rest)
    rw [begun name (slash_not_mem_family known)] at behind
    exact behind
  by_cases whole : more = []
  · have family : ∀ name ∈ families, isFamily true name = true := by decide
    simp only [whole, List.append_nil] at split
    rw [find?_within (family name known) (split known),
      find?_within (family other known') (split known')]
  · rw [find?_longer known whole (split known), find?_longer known' whole (split known')]

theorem split_of_below (under : below path = true) :
    ∃ others, Blank.splitOn '/' path = [] :: "file".toList :: others := by
  simp only [below, Bool.or_eq_true, decide_eq_true_eq, List.isPrefixOf_iff_prefix] at under
  rcases under with rfl | ⟨rest, rfl⟩
  · exact ⟨[], by decide⟩
  · refine ⟨Blank.splitOn '/' rest, ?_⟩
    have named := Blank.splitOn_append (show '/' ∉ "file".toList by decide) rest
    have behind := Blank.splitOn_append (List.not_mem_nil (a := '/')) ("file".toList ++ '/' :: rest)
    rw [named] at behind
    exact behind

theorem below_of_split (split : Blank.splitOn '/' path = [] :: "file".toList :: others) :
    below path = true := by
  rw [Blank.eq_of_splitOn split]
  cases others with
  | nil => decide
  | cons item rest => simp [below, List.isPrefixOf]

theorem find?_below (under : below path = true) : find? false path = none := by
  obtain ⟨others, split⟩ := split_of_below under
  exact find?_elsewhere (by decide) (by decide) split

theorem find?_not_below (clear : below path = false) : find? false path = find? true path := by
  have same (name : List Char) (others : List (List Char))
      (split : Blank.splitOn '/' path = [] :: name :: others) :
      isFamily false name = isFamily true name := by
    have apart : name ≠ "file".toList := by
      rintro rfl
      rw [below_of_split split] at clear
      cases clear
    simp only [isFamily, apart, decide_false, Bool.and_false]
  unfold find?
  split
  · next name split => rw [same name _ split]
  · next name id split => rw [same name _ split]
  · next name id last split => rw [same name _ split]
  · rfl

theorem path_of_settings (found : find? uploads path = some settings) :
    path = "/config".toList := by
  unfold find? at found
  split at found
  · next name split =>
      obtain rfl : name = "config".toList := by
        split at found
        · cases found
        · split at found
          · next named => exact named
          · split at found <;> cases found
      exact Blank.eq_of_splitOn split
  · split at found <;> cases found
  · split at found <;> cases found
  · cases found

end Route

end Names

section Servers

open Service (World note firstId)

/-- What is seen of a turn. Nothing is seen of a wait. -/
def Turn.response? : Turn → Option Response
  | answered _ response => some response
  | waited _ => none

inductive Input.Mirrors : Input → Input → Prop where
  | same (input : Input) : Mirrors input input
  | renamed (method : Method) (rest : List Char) (headers : List Header) (body : Bytes)
      {name other : List Char} : name ∈ Route.families → other ∈ Route.families →
      Mirrors (.request ⟨method, '/' :: (name ++ rest), headers, body⟩)
        (.request ⟨method, '/' :: (other ++ rest), headers, body⟩)

def Input.shut : Input → Bool
  | .request asked => asked.method ≠ .options && Route.below asked.path
  | .wait _ => false

def Response.withoutAllow (response : Response) : Response :=
  { response with headers := response.headers.filter fun header => header.1 ≠ "allow" }

namespace Api

variable {State Seed : Type} {api : Api State Seed} {request : Request}

def withUploads (api : Api State Seed) (uploads : Bool) : Api State Seed :=
  { api with settings := { api.settings with uploadDisabled := !uploads } }

def absent (api : Api State Seed) (request : Request) : Response :=
  dress api.settings request.method Error.noRoute.response

/-- What becomes of a response when uploads are turned off. -/
def retold (api : Api State Seed) (request : Request) (response : Response) : Response :=
  if request.method = .options ∧ Route.below request.path = true then response.withoutAllow
  else if (request.method = .get ∨ request.method = .head) ∧ request.path = "/config".toList then
    dress api.settings request.method (json 200 (api.withUploads false).advertised.encode)
  else response

def refuse (api : Api State Seed) : Input → Turn
  | .request request => .answered request (api.absent request)
  | .wait nanoseconds => .waited nanoseconds

def retell (api : Api State Seed) : Turn → Turn
  | .answered request response => .answered request (api.retold request response)
  | .waited nanoseconds => .waited nanoseconds

theorem handle_options (asks : request.method = .options) (world : World State Seed) :
    api.handle request world =
      (dress api.settings .options (permit (api.route? request)), world) := by
  simp only [handle, asks, if_true]

theorem handle_none (asks : request.method ≠ .options) (lost : api.route? request = none)
    (world : World State Seed) : api.handle request world = (api.absent request, world) := by
  simp only [handle, lost, if_neg asks]
  rfl

theorem handle_renamed {name other : List Char} (known : name ∈ Route.families)
    (known' : other ∈ Route.families) (method : Method) (rest : List Char)
    (headers : List Header) (body : Bytes) (world : World State Seed) :
    (api.withUploads true).handle ⟨method, '/' :: (name ++ rest), headers, body⟩ world =
      (api.withUploads true).handle ⟨method, '/' :: (other ++ rest), headers, body⟩ world := by
  have routes := Route.find?_exchanged known known' rest
  unfold handle
  rw [route?, route?]
  simp only [withUploads, Bool.not_true, Bool.not_false, routes]
  rfl

theorem handle_shut (asks : request.method ≠ .options) (under : Route.below request.path = true)
    (world : World State Seed) :
    (api.withUploads false).handle request world = (api.absent request, world) := by
  have lost : (api.withUploads false).route? request = none := Route.find?_below under
  exact handle_none asks lost world

theorem run_withUploads {uploads : Bool} {route : Route} {method : Method}
    (other : route = .settings → method ≠ .get ∧ method ≠ .head) :
    (api.withUploads uploads).run request route method = api.run request route method := by
  cases route with
  | settings => cases method <;> simp_all [run]
  | _ => cases method <;> rfl

theorem other_of_mem_common {settings : Settings} {header : Header}
    (member : header ∈ common settings) : header.1 ≠ "allow" := by
  have fixed : ∀ header ∈ vary :: (security ++ [strictTransport]), header.1 ≠ "allow" := by decide
  simp only [common, List.cons_append, List.mem_cons, List.mem_append] at member
  rcases member with rfl | rfl | secure | strict
  · exact fixed _ (by simp)
  · exact show "access-control-allow-origin" ≠ "allow" by decide
  · exact fixed header (by simp [secure])
  · split at strict
    · exact fixed header (by simp_all)
    · cases strict

theorem withoutAllow_permit (route : Option Route) (settings : Settings) (method : Method) :
    (dress settings method (permit route)).withoutAllow =
      dress settings method (permit none) := by
  have rest (value : String) :
      (("content-length", value) :: common settings).filter (fun header => header.1 ≠ "allow") =
        ("content-length", value) :: common settings := by
    rw [List.filter_eq_self]
    intro header member
    rcases List.mem_cons.mp member with rfl | later
    · exact decide_eq_true (show "content-length" ≠ "allow" by decide)
    · exact decide_eq_true (other_of_mem_common later)
  have front : (permit route).headers.filter (fun header => header.1 ≠ "allow") =
      (permit none).headers := by
    cases route with
    | none => decide
    | some route =>
        have lists : [route.allowHeader].filter (fun header => header.1 ≠ "allow") = [] := rfl
        have kept : preflight.headers.filter (fun header => header.1 ≠ "allow") =
            preflight.headers := by decide
        simp only [permit, Option.map_some, Option.map_none, Option.toList_some,
          Option.toList_none, List.filter_append, lists, kept]
  simp only [Response.withoutAllow, dress, List.filter_append, rest, front]
  rfl

/-- Without uploads a request that is not turned away is answered as with them, but for what
`retold` changes, and leaves the same. -/
theorem handle_retold (passed : Input.shut (.request request) = false)
    (world : World State Seed) :
    (api.withUploads false).handle request world =
      Prod.map (api.retold request) id ((api.withUploads true).handle request world) := by
  by_cases under : request.method = .options ∧ Route.below request.path = true
  · have lost : (api.withUploads false).route? request = none := Route.find?_below under.2
    have changed (response : Response) : api.retold request response = response.withoutAllow :=
      if_pos under
    rw [handle_options under.1, handle_options under.1, lost, Prod.map_apply, changed,
      withoutAllow_permit]
    rfl
  · have clear : Route.below request.path = false := by
      by_cases asks : request.method = .options
      · simpa [asks] using under
      · simpa [Input.shut, asks] using passed
    have routes : (api.withUploads false).route? request =
        (api.withUploads true).route? request := Route.find?_not_below clear
    by_cases told : (request.method = .get ∨ request.method = .head) ∧
        request.path = "/config".toList
    · have changed (response : Response) : api.retold request response =
          dress api.settings request.method
            (json 200 (api.withUploads false).advertised.encode) := by
        rw [retold, if_neg under, if_pos told]
      rw [handle_config told.1 told.2, handle_config told.1 told.2, Prod.map_apply, changed]
      rfl
    · have kept (response : Response) : api.retold request response = response := by
        rw [retold, if_neg under, if_neg told]
      by_cases asks : request.method = .options
      · rw [handle_options asks, handle_options asks, routes, Prod.map_apply, kept]
        rfl
      · cases found : (api.withUploads true).route? request with
        | none =>
            rw [handle_none asks (routes.trans found), handle_none asks found, Prod.map_apply, kept]
            rfl
        | some route =>
            have other : route = .settings → request.method ≠ .get ∧ request.method ≠ .head := by
              rintro rfl
              rw [← not_or]
              exact fun reads => told ⟨reads, Route.path_of_settings found⟩
            rw [handle_run asks (routes.trans found), handle_run asks found,
              run_withUploads other, run_withUploads other, Prod.map_apply, kept]
            rfl

theorem serve_mirrored {input other : Input} (mirrors : Input.Mirrors input other)
    (world : World State Seed) :
    ((api.withUploads true).serve input world).map (Prod.map Turn.response? id) =
      ((api.withUploads true).serve other world).map (Prod.map Turn.response? id) := by
  cases mirrors with
  | same => rfl
  | renamed method rest headers body known known' =>
      simp only [serve, handle_renamed known known' method rest headers body world, Option.map_some]
      rfl

theorem serve_shut {input : Input} (shut : input.shut = true) (world : World State Seed) :
    (api.withUploads false).serve input world = some (api.refuse input, world) := by
  cases input with
  | wait nanoseconds => cases shut
  | request request =>
      obtain ⟨asks, under⟩ : request.method ≠ .options ∧ Route.below request.path = true := by
        simpa [Input.shut] using shut
      rw [serve, handle_shut asks under]
      rfl

theorem serve_retold {input : Input} (passed : input.shut = false) (world : World State Seed) :
    (api.withUploads false).serve input world =
      ((api.withUploads true).serve input world).map (Prod.map api.retell id) := by
  cases input with
  | wait nanoseconds =>
      simp only [serve, Option.map_map]
      rfl
  | request request =>
      rw [serve, handle_retold passed]
      rfl

/-- With uploads on, requests by one name may be exchanged for requests by the other, and the
responses and the world at the end are the same. With uploads off, whatever is asked below the
second name is answered 404, unless it is OPTIONS, and changes nothing; the other inputs are
answered, and leave the world, as if they had been sent to a server with uploads. Only the settings
are told with uploads disabled, and OPTIONS below the second name lists no methods. -/
theorem names_are_interchangeable (api : Api State Seed) (world : World State Seed) :
    (∀ inputs others, List.Forall₂ Input.Mirrors inputs others →
      watch (api.withUploads true).serve Turn.response? inputs world =
        watch (api.withUploads true).serve Turn.response? others world) ∧
    (∀ request, request.method ≠ .options → Route.below request.path = true →
      ((api.withUploads false).handle request world).1.status = 404 ∧
        ((api.withUploads false).handle request world).2 = world) ∧
    (∀ inputs, replay (api.withUploads false).serve inputs world =
      (replay (api.withUploads true).serve (inputs.filter fun input => !input.shut) world).map
        (Prod.map (fill Input.shut api.refuse api.retell inputs) id)) ∧
    (∀ request uploads, request.method = .get ∨ request.method = .head →
      request.path = "/config".toList →
      (api.withUploads uploads).handle request world =
        (dress api.settings request.method
          (json 200 { api.advertised with uploadDisabled := !uploads }.encode), world)) := by
  refine ⟨?mirrored, ?refused, ?through, ?config⟩
  case mirrored =>
    intro inputs others mirrored
    refine watch_exchanged ?_ mirrored world
    intro input other world mirrors
    exact serve_mirrored mirrors world
  case refused =>
    intro request asks under
    rw [handle_shut asks under]
    exact ⟨rfl, rfl⟩
  case through =>
    intro inputs
    exact replay_filled (fun input world shut => serve_shut shut world)
      (fun input world passed => serve_retold passed world) inputs world
  case config =>
    intro request uploads reads path
    exact handle_config reads path world

-- The note that is left and fetched below the first name, left and fetched below the second.
theorem note_goes_by_either_name :
    let inputs : List Input := [.request posting, .request (asking .get)]
    let others : List Input := [.request { posting with path := "/file".toList },
      .request ⟨.get, "/file/".toList ++ firstId.write, [], []⟩]
    List.Forall₂ Input.Mirrors inputs others ∧
      watch (counted.withUploads true).serve Turn.response? others opened =
        some ([some posted.1, some (asked .get).1], (asked .get).2) ∧
      (asked .get).1.body = note.encode := by
  intro inputs others
  have first : "secret".toList ∈ Route.families := by decide
  have second : "file".toList ∈ Route.families := by decide
  have mirrors : List.Forall₂ Input.Mirrors inputs others :=
    .cons (.renamed .post [] posting.headers posting.body first second)
      (.cons (.renamed .get ('/' :: firstId.write) [] [] first second) .nil)
  have seen : watch (counted.withUploads true).serve Turn.response? inputs opened =
      some ([some posted.1, some (asked .get).1], (asked .get).2) :=
    congrArg (Option.map (Prod.map (List.map Turn.response?) id)) (replay_asking .get)
  refine ⟨mirrors, ?_, by decide +kernel⟩
  rw [← seen]
  exact ((names_are_interchangeable counted opened).1 inputs others mirrors).symm

/-- A preflight tells whether there are uploads. -/
theorem preflight_tells_uploads :
    let preflight : Request := ⟨.options, "/file".toList, [], []⟩
    let refusing := ((counted.withUploads false).handle preflight opened).1
    let taking := ((counted.withUploads true).handle preflight opened).1
    refusing ≠ taking ∧ refusing.headers.lookup "allow" = none ∧
      taking.headers.lookup "allow" = some "POST" := by
  decide +kernel

end Api

end Servers

end DeadDrop.Http
