import DeadDrop.Proofs.Exchange.Size
import DeadDrop.Proofs.Http.Delivery

/-!
Room for a secret. The policy measures the message, the limit of the body measures the record, and
the record also holds what the escapes add. The limit leaves room for every character that has an
escape of two, and for up to 243 that are spelled out in six. A message that the policy admits and
that holds more of these may be refused for its length all the same.
-/

namespace DeadDrop.Http.Api

open Service (World)
open Text.Utf8 (bytes)

variable {State Seed : Type} {api : Api State Seed} {request : Request} {secret : Secret}
  {world : World State Seed}

/-- A request that brings the record of a secret. -/
structure Brings (request : Request) (secret : Secret) : Prop where
  method : request.method = .post
  path : request.path = "/secret".toList
  typed : request.header? "content-type" = some "application/json"
  body : request.body = bytes secret.encode

def bringing (secret : Secret) : Request :=
  ⟨.post, "/secret".toList, [("content-type", "application/json")], bytes secret.encode⟩

theorem brings_bringing (secret : Secret) : Brings (bringing secret) secret := by
  have typed : [("content-type", "application/json")].lookup "content-type" =
      some "application/json" := by
    decide +kernel
  exact ⟨rfl, rfl, typed, rfl⟩

def spelledRoom : Nat := 243

theorem readSecret_brought (policy : Policy) (brings : Brings request secret) :
    readSecret policy request =
      if bodyLimit policy < (bytes secret.encode).length then .error .payloadTooLarge
      else .ok secret := by
  have json : MediaType.isJson "application/json" = true := by decide +kernel
  have typed : (!((request.header? "content-type").map MediaType.isJson).getD false) = false := by
    rw [brings.typed, Option.map_some, json]
    rfl
  rw [readSecret, typed, if_neg Bool.false_ne_true, brings.body, Secret.decodeFront?_encode]

theorem route?_brought (brings : Brings request secret) : api.route? request = some .drop := by
  rw [route?, brings.path]
  cases api.settings.uploadDisabled <;> decide

theorem handle_refused {error : Error} (method : request.method = .post)
    (found : api.route? request = some .drop)
    (refused : readSecret api.service.policy request = .error error) :
    api.handle request world = (dress api.settings .post error.response, world) := by
  have asks : request.method ≠ .options := by
    rw [method]
    decide
  rw [handle_run asks found, method, run, create, refused]
  rfl

theorem exists_created {service : Service State Seed}
    (admitted : service.policy.check secret = .ok ())
    (stored : ∀ id, (service.store.put world.clock id secret world.state).1 = .ok ()) :
    ∃ id, (service.create secret world).1 = .ok id := by
  have taken := stored (SecretId.draw service.ids world.seed).1
  rcases put : service.store.put world.clock (SecretId.draw service.ids world.seed).1 secret
    world.state with ⟨answer, left⟩
  rw [put] at taken
  cases taken
  exact ⟨_, congrArg Prod.fst (Service.create_of_put admitted put)⟩

theorem length_encode_le_bodyLimit {policy : Policy} (admitted : policy.check secret = .ok ())
    (word : (bytes secret.encode).length ≤ lastWord)
    (few : secret.message.toList.countP Json.isSpelled ≤ spelledRoom) :
    (bytes secret.encode).length ≤ bodyLimit policy := by
  obtain ⟨lifetime, named⟩ := Policy.lifetime_of_check admitted
  have size := Policy.size_le_of_check admitted
  have length := Secret.length_encode_le named
  unfold spelledRoom at few
  unfold bodyLimit
  omega

/-- A secret that the policy admits is left if and only if its record is within the limit of the
body; otherwise its sender is told that the message is too long, and nothing changes. -/
theorem admitted_answered_iff_room (brings : Brings request secret)
    (admitted : api.service.policy.check secret = .ok ())
    (stored : ∀ id, (api.service.store.put world.clock id secret world.state).1 = .ok ()) :
    request.body.length = secret.frame + secret.size + secret.surplus ∧
      ((api.handle request world).1.status = 200 ↔
        request.body.length ≤ bodyLimit api.service.policy) ∧
      (bodyLimit api.service.policy < request.body.length →
        api.handle request world =
          (dress api.settings .post Error.payloadTooLarge.response, world)) ∧
      (secret.message.toList.countP Json.isSpelled ≤ spelledRoom →
        request.body.length ≤ lastWord → (api.handle request world).1.status = 200) := by
  have found : api.route? request = some .drop := route?_brought brings
  have read := readSecret_brought api.service.policy brings
  rw [brings.body]
  have within (fits : (bytes secret.encode).length ≤ bodyLimit api.service.policy) :
      (api.handle request world).1.status = 200 := by
    rw [if_neg (Nat.not_lt.mpr fits)] at read
    obtain ⟨id, created⟩ := exists_created admitted stored
    rw [handle_post brings.method found read, created]
    rfl
  have beyond (long : bodyLimit api.service.policy < (bytes secret.encode).length) :
      api.handle request world =
        (dress api.settings .post Error.payloadTooLarge.response, world) := by
    rw [if_pos long] at read
    exact handle_refused brings.method found read
  refine ⟨secret.length_encode, ⟨?_, within⟩, beyond, ?_⟩
  · intro answered
    by_contra long
    rw [beyond (Nat.lt_of_not_le long)] at answered
    cases answered
  · intro few word
    exact within (length_encode_le_bodyLimit admitted word few)

section Notes

open Service (countedIds note)
open Store (memory Memory)

theorem note_has_room :
    Policy.standard.check note = .ok () ∧
      (counted.handle (bringing note) opened).1.status = 200 := by
  have admitted : counted.service.policy.check note = .ok () := by decide +kernel
  have stored : ∀ id, (counted.service.store.put opened.clock id note opened.state).1 = .ok () :=
    fun _ => rfl
  obtain ⟨-, -, -, room⟩ := admitted_answered_iff_room (brings_bringing note) admitted stored
  exact ⟨admitted, room (by decide +kernel) (by decide +kernel)⟩

def controls (count : Nat) : Secret :=
  ⟨3600, String.ofList (List.replicate count '\x01'), false⟩

theorem size_controls (count : Nat) : (controls count).size = count := by
  have single : '\x01'.utf8Size = 1 := by decide
  have length : (bytes (controls count).message).length = count := by
    simp [bytes, Text.Utf8.encode, controls, List.length_flatMap, single]
  exact (Text.Utf8.length_bytes _).symm.trans length

theorem length_encode_controls (count : Nat) :
    (bytes (controls count).encode).length = 6 * count + 32 := by
  have frame : (controls count).frame = 32 := by
    change (bytes (Secret.encode ⟨3600, "", false⟩)).length = 32
    decide +kernel
  have surplus : (controls count).surplus = count * 5 := by
    have five : Json.surplus '\x01' = 5 := by decide
    simp [Secret.surplus, controls, five]
  rw [Secret.length_encode, frame, size_controls, surplus]
  omega

def narrow : Api Memory Nat := ⟨⟨memory, countedIds, ⟨false, none, 300⟩⟩, .standard⟩

theorem controls_have_no_room :
    narrow.service.policy.check (controls 300) = .ok () ∧
      (∀ id, (narrow.service.store.put opened.clock id (controls 300) opened.state).1 = .ok ()) ∧
      (narrow.handle (bringing (controls 300)) opened).1.status = 400 ∧
      (narrow.handle (bringing (controls 300)) opened).1.body =
        Exchange.Notice.encode ⟨"The encrypted message is too long"⟩ := by
  have admitted : narrow.service.policy.check (controls 300) = .ok () := by
    have short : (controls 300).size ≤ 300 := Nat.le_of_eq (size_controls 300)
    rw [Policy.check_eq_ok_iff]
    exact ⟨.hour, none, rfl, fun forced => absurd forced Bool.false_ne_true, rfl, rfl, short⟩
  have long : bodyLimit narrow.service.policy < (bytes (controls 300).encode).length := by
    rw [length_encode_controls]
    decide
  have brings := brings_bringing (controls 300)
  have read := readSecret_brought narrow.service.policy brings
  rw [if_pos long] at read
  have handled : narrow.handle (bringing (controls 300)) opened =
      (dress narrow.settings .post Error.payloadTooLarge.response, opened) :=
    handle_refused brings.method (route?_brought brings) read
  rw [handled]
  exact ⟨admitted, fun _ => rfl, rfl, rfl⟩

end Notes

end DeadDrop.Http.Api
