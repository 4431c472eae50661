import DeadDrop.Courier.Direct
import DeadDrop.Proofs.Courier.Errand
import DeadDrop.Proofs.Exchange.Record
import DeadDrop.Proofs.Http.Calls

/-!
A courier that walks straight to a server. What it leaves there is a call of the service to create,
what it fetches a call to retrieve, and the answer of the service comes back as it was given.
-/

namespace DeadDrop.Courier

open Service (World)

/-- Files are taken in and given out only where uploads are allowed. -/
def Family.Open (family : Family) (settings : Http.Settings) : Prop :=
  family = .file → settings.uploadDisabled = false

variable {State Seed : Type} {api : Http.Api State Seed} {courier : Courier} {family : Family}
  {id : SecretId} {world : World State Seed} {secret : Secret}

section Paths

theorem isFamily_segment (allowed : family.Open api.settings) :
    Http.Route.isFamily (!api.settings.uploadDisabled) family.segment = true := by
  cases family with
  | message => rfl
  | file => rw [allowed rfl]; rfl

theorem find?_secret (allowed : family.Open api.settings) (id : SecretId) :
    Http.Route.find? (!api.settings.uploadDisabled)
      (Url.Path.segments (secretItems family id)).write = some (.secret id.write) := by
  have path : (Url.Path.segments (secretItems family id)).write =
      '/' :: (family.segment ++ '/' :: id.write) := by
    simp [Url.Path.write, secretItems]
  rw [path, Http.Api.find?_named (isFamily_segment allowed) (slash_not_mem_segment family)]

theorem find?_drop (allowed : family.Open api.settings) :
    Http.Route.find? (!api.settings.uploadDisabled)
      (Url.Path.segments [family.segment]).write = some .drop := by
  have items : ∀ item ∈ [family.segment], '/' ∉ item := by simp [slash_not_mem_segment family]
  have split : Text.Blank.splitOn '/' (Url.Path.segments [family.segment]).write =
      [[], family.segment] := Text.Blank.splitOn_path items
  simp [Http.Route.find?, split, isFamily_segment allowed]

end Paths

section Errands

variable (courier)

def AtRoot : Prop := courier.root.path = .segments [[]]

/-- How a sender hears of an answer of the service. -/
def heard {α : Type} (answer : Except Service.Error α) : Except Error α :=
  answer.mapError fun error =>
    .server (Http.Error.ofService error).status (Http.Error.ofService error).message

variable {courier}

theorem accept_ok (body : Bytes) : accept ⟨200, body⟩ = .ok body := rfl

theorem accept_error (error : Http.Error) :
    accept ⟨error.response.status, Text.Utf8.bytes error.response.body⟩ =
      .error (.server error.status error.message) := by
  have status : error.response.status = error.status := rfl
  have failed : isSuccess ⟨error.status, Text.Utf8.bytes error.response.body⟩ = false := by
    unfold isSuccess Http.Error.status
    split <;> rfl
  have told : reason (Text.Utf8.bytes error.response.body) = error.message := by
    rw [reason, Text.Utf8.textLossy_bytes, Http.Error.response, Http.json,
      Exchange.Notice.decode_encode]
  rw [accept, status, failed, told]
  rfl

theorem fetch_direct (rooted : courier.AtRoot) (allowed : family.Open api.settings)
    (id : SecretId) (world : World State Seed) :
    courier.fetch (direct api) family id world =
      (heard (api.service.retrieve id world).1, (api.service.retrieve id world).2) := by
  have closed : courier.root.path.IsClosed := ⟨[], rooted⟩
  have path : (courier.asking family id).request.path =
      (Url.Path.segments (secretItems family id)).write := by
    have root : courier.root.path = .segments [[]] := rooted
    rw [Errand.request, asking, root]
    rfl
  have found : api.route? (courier.asking family id).request = some (.secret id.write) := by
    rw [Http.Api.route?, path, find?_secret allowed]
  have named : api.named? (courier.asking family id).request = some id :=
    (Http.Api.named?_of_secret found).trans (Http.Api.idOf?_write id)
  have carried : direct api (courier.asking family id) world =
      (.ok ⟨(Http.Api.respond (.retrieved id (api.service.retrieve id world).1)).status,
        Text.Utf8.bytes (Http.Api.respond (.retrieved id (api.service.retrieve id world).1)).body⟩,
        (api.service.retrieve id world).2) := by
    rw [direct, Http.Api.handle_get rfl named]
    rfl
  rw [fetch_of_closed _ closed]
  simp only [carried]
  cases (api.service.retrieve id world).1 with
  | error error =>
      simp only [Http.Api.respond, accept_error, heard, Except.bind, Except.mapError]
  | ok secret =>
      have read : readRecord Secret.decode (Text.Utf8.bytes secret.encode) = .ok secret := by
        rw [readRecord, Secret.decode_encode]
        rfl
      simp only [Http.Api.respond, Http.json, accept_ok, heard, Except.bind, read, Except.mapError]

theorem readSecret_sent {policy : Policy} {request : Http.Request}
    (headers : request.headers = [("content-type", "application/json")])
    (body : request.body = Text.Utf8.bytes secret.encode)
    (fits : request.body.length ≤ Http.Api.bodyLimit policy) :
    Http.Api.readSecret policy request = .ok secret := by
  have typed : ((request.header? "content-type").map Http.MediaType.isJson).getD false = true := by
    rw [Http.Request.header?, headers]
    decide +kernel
  rw [Http.Api.readSecret, typed, Bool.not_true, if_neg Bool.false_ne_true,
    if_neg (Nat.not_lt.mpr fits), body, Secret.decodeFront?_encode]

theorem store_direct (rooted : courier.AtRoot) (allowed : family.Open api.settings)
    (fits : (Text.Utf8.bytes secret.encode).length ≤ Http.Api.bodyLimit api.service.policy)
    (world : World State Seed) :
    courier.store (direct api) family secret world =
      (heard (api.service.create secret world).1, (api.service.create secret world).2) := by
  have root : courier.root.path = .segments ([] ++ [[]]) := rooted
  obtain ⟨url, address, path⟩ : ∃ url, courier.address family.segment = .ok url ∧
      url.path = .segments [family.segment] := ⟨_, address_segment root family, rfl⟩
  -- What is in the body matters only where it is read.
  generalize same : Text.Utf8.bytes secret.encode = body at fits
  have found : api.route? (Errand.request ⟨.post, url, some body⟩) = some .drop := by
    rw [Http.Api.route?, Errand.request, path, find?_drop allowed]
  have given : Http.Api.readSecret api.service.policy
      (Errand.request ⟨.post, url, some body⟩) = .ok secret :=
    readSecret_sent rfl same.symm fits
  have carried : direct api ⟨.post, url, some body⟩ world =
      (.ok ⟨(Http.Api.respond (.created secret (api.service.create secret world).1)).status,
        Text.Utf8.bytes (Http.Api.respond
          (.created secret (api.service.create secret world).1)).body⟩,
        (api.service.create secret world).2) := by
    rw [direct, Http.Api.handle_post rfl found given]
    rfl
  rw [store, same, ask, run, address]
  simp only [carried]
  cases (api.service.create secret world).1 with
  | error error =>
      simp only [Http.Api.respond, accept_error, heard, Except.bind, Except.mapError]
  | ok id =>
      have read : readRecord Exchange.Notice.decode
          (Text.Utf8.bytes (Exchange.Notice.encode ⟨id.text⟩)) = .ok ⟨id.text⟩ := by
        rw [readRecord, Exchange.Notice.decode_encode]
        rfl
      simp only [Http.Api.respond, Http.json, accept_ok, heard, Except.bind, read,
        Except.mapError, Exchange.parseId, SecretId.ofText?_text]

end Errands

end DeadDrop.Courier
