import DeadDrop.Proofs.Exchange.Record
import DeadDrop.Proofs.Http.Delivery
import DeadDrop.Proofs.Service.Admission
import DeadDrop.Server.Settings

/-!
What a server says of itself is what it holds its clients to. The settings are checked once, at the
start; each secret is checked by the names of lifetimes and their order; and what is told is the
number of seconds as it was set. The three come to the same, so a client that has asked knows which
of its secrets are admitted, and is never told that the server itself is at fault.
-/

namespace DeadDrop

open Service (World)
open Text.Utf8 (bytes)

variable {State Seed : Type}

section Policies

namespace Policy

variable {policy : Policy} {secret : Secret}

/-- Where the policy is in order, a secret that names a lifetime and is not too long is admitted if
it goes once where it must, and stays no longer than it may. -/
theorem check_eq_ok_iff_of_maximum {limit : Option Lifetime} (valid : policy.maximum = .ok limit)
    (named : secret.expiration ∈ Lifetime.all.map Lifetime.seconds)
    (short : secret.size ≤ policy.maxLength) :
    policy.check secret = .ok () ↔
      (policy.forceOneTime = true → secret.oneTime = true) ∧
        ∀ seconds, policy.maxExpiration = some seconds →
          secret.expiration.toInt ≤ seconds.toInt := by
  rw [check_eq_ok_iff_admits]
  constructor
  · intro admits
    exact ⟨admits.oneTime, fun seconds set => (admits.expiration seconds set).2⟩
  · rintro ⟨once, within⟩
    exact ⟨named, once, fun seconds set => ⟨known_of_maximum valid set, within seconds set⟩, short⟩

theorem check_ne_configuration {limit : Option Lifetime} (valid : policy.maximum = .ok limit)
    (fault : Misconfiguration) : policy.check secret ≠ .error (.configuration fault) := by
  intro blamed
  obtain ⟨longest, set, unknown, -⟩ := (check_eq_error_iff.mp blamed).broken.invalid rfl
  exact unknown (known_of_maximum valid set)

end Policy

end Policies

section Creating

namespace Service

variable {service : Service State Seed} {secret : Secret} {world : World State Seed}

theorem create_not_refused_iff {limit : Option Lifetime}
    (valid : service.policy.maximum = .ok limit) :
    (∀ refusal, (service.create secret world).1 ≠ .error (.refused refusal)) ↔
      service.policy.check secret = .ok () := by
  constructor
  · intro heard
    cases checked : service.policy.check secret with
    | ok admitted => rfl
    | error violation =>
        cases violation with
        | request refusal => exact absurd (create_eq_ofViolation_iff.mpr checked) (heard refusal)
        | configuration fault => exact absurd checked (Policy.check_ne_configuration valid fault)
  · intro admitted refusal refused
    have found : service.policy.check secret = .error (.request refusal) :=
      create_eq_ofViolation_iff.mp refused
    rw [admitted] at found
    cases found

end Service

end Creating

section Servers

namespace Server.Settings

def api (settings : Settings) (store : Store State) (ids : Random.Source Seed) :
    Http.Api State Seed :=
  ⟨⟨store, ids, settings.policy⟩, settings.http⟩

theorem exists_maximum {settings : Settings} (accepted : settings.check = .ok ()) :
    ∃ limit, settings.policy.maximum = .ok limit := by
  unfold check at accepted
  split at accepted
  · cases accepted
  · split at accepted
    · cases accepted
    · split at accepted
      · cases accepted
      · next limit valid => exact ⟨limit, valid⟩

end Server.Settings

/-- Whoever asks a server for its settings is told what it admits: of the secrets that name a
lifetime and are not too long, those that go once where that is demanded and stay no more seconds
than the longest told, and of no secret does the server say that its own settings are at fault. -/
theorem Server.advertised_is_enforced {settings : Settings} (accepted : settings.check = .ok ())
    (store : Store State) (ids : Random.Source Seed) {request : Http.Request}
    (method : request.method = .get) (path : request.path = "/config".toList)
    (world : World State Seed) :
    let api := settings.api store ids
    ∃ told : Exchange.Advertised, (api.handle request world).1.status = 200 ∧
      Exchange.Advertised.decode (bytes (api.handle request world).1.body) = .ok told ∧
      ∀ (secret : Secret) (later : World State Seed),
        (∀ fault, (api.service.create secret later).1 ≠ .error (.misconfigured fault)) ∧
          (secret.expiration ∈ Lifetime.all.map Lifetime.seconds →
            secret.size ≤ settings.policy.maxLength →
            ((∀ refusal, (api.service.create secret later).1 ≠ .error (.refused refusal)) ↔
              (told.forceOneTime = true → secret.oneTime = true) ∧
                ∀ seconds, told.forceExpiration = some seconds →
                  secret.expiration.toInt ≤ seconds.toInt)) := by
  intro api
  obtain ⟨limit, valid⟩ := Settings.exists_maximum accepted
  have answered : api.handle request world =
      (Http.dress api.settings .get (Http.json 200 api.advertised.encode), world) :=
    (Http.Api.handle_config (.inl method) path world).trans (by rw [method])
  rw [answered]
  refine ⟨api.advertised, rfl, Exchange.Advertised.decode_encode api.advertised, ?_⟩
  intro secret later
  constructor
  · intro fault blamed
    have found : api.service.policy.check secret = .error (.configuration fault) :=
      Service.create_eq_ofViolation_iff.mp blamed
    exact Policy.check_ne_configuration valid fault found
  · intro named short
    rw [Service.create_not_refused_iff valid]
    exact Policy.check_eq_ok_iff_of_maximum valid named short

end Servers

section Daily

namespace Server

open Http.Api (opened)

def daily : Settings := { Settings.standard with policy := ⟨true, some 86400, 10000⟩ }

def dailyApi : Http.Api Store.Memory Nat := daily.api Store.memory Service.countedIds

def inquiry : Http.Request := ⟨.get, "/config".toList, [], []⟩

def leaving (lifetime : Lifetime) : Secret := .ofLifetime "note" lifetime true

theorem day_is_admitted_and_week_refused :
    daily.check = .ok () ∧
      (∀ refusal, (dailyApi.service.create (leaving .day) opened).1 ≠ .error (.refused refusal)) ∧
      ∃ refusal, (dailyApi.service.create (leaving .week) opened).1 = .error (.refused refusal) := by
  have accepted : daily.check = .ok () := by decide
  have method : inquiry.method = .get := rfl
  obtain ⟨told, -, decoded, enforced⟩ := advertised_is_enforced accepted Store.memory
    Service.countedIds method rfl opened
  have known : Exchange.Advertised.decode (bytes dailyApi.advertised.encode) = .ok told := decoded
  rw [Exchange.Advertised.decode_encode] at known
  cases known
  have named (lifetime : Lifetime) :
      (leaving lifetime).expiration ∈ Lifetime.all.map Lifetime.seconds := by
    cases lifetime <;> decide
  have short (lifetime : Lifetime) : (leaving lifetime).size ≤ daily.policy.maxLength := by
    cases lifetime <;> decide +kernel
  have day := (enforced (leaving .day) opened).2 (named .day) (short .day)
  have week := (enforced (leaving .week) opened).2 (named .week) (short .week)
  refine ⟨accepted, day.mpr ⟨fun _ => rfl, ?_⟩, ?_⟩
  · intro seconds longest
    cases longest
    decide
  · by_contra unrefused
    have heard := week.mp fun refusal refused => unrefused ⟨refusal, refused⟩
    exact absurd (heard.2 86400 rfl) (by decide)

end Server

end Daily

end DeadDrop
