import DeadDrop.Secret.Basic

/-!
What a server admits: one-time secrets only, if it says so; no lifetime beyond its maximum; no
message longer than its limit. A maximum that names no lifetime is a fault of the server, not of
the request.
-/

namespace DeadDrop

structure Policy where
  forceOneTime : Bool
  maxExpiration : Option Int32
  maxLength : Nat
  deriving DecidableEq

namespace Policy

def defaultMaxLength : Nat := 10000

def standard : Policy := ⟨false, none, defaultMaxLength⟩

inductive Refusal where
  | lifetime
  | notOneTime
  | expiration
  | length
  deriving DecidableEq

structure Misconfiguration where
  maxExpiration : Int32
  deriving DecidableEq

inductive Violation where
  | request (refusal : Refusal)
  | configuration (fault : Misconfiguration)
  deriving DecidableEq

def Refusal.message : Refusal → String
  | lifetime => "Invalid expiration specified"
  | notOneTime => "Secret must be one time download"
  | expiration => "Expiration exceeds server maximum"
  | length => "The encrypted message is too long"

def Misconfiguration.message (fault : Misconfiguration) : String :=
  s!"maximum expiration {fault.maxExpiration.toInt} is not one of 3600, 86400, 604800"

/-- The longest lifetime admitted, if there is a limit and it names a lifetime. -/
def maximum (policy : Policy) : Except Misconfiguration (Option Lifetime) :=
  match policy.maxExpiration with
  | none => .ok none
  | some seconds =>
      match Lifetime.ofSeconds? seconds with
      | some lifetime => .ok (some lifetime)
      | none => .error ⟨seconds⟩

def exceeds (lifetime : Lifetime) : Option Lifetime → Bool
  | some limit => limit.shorter lifetime
  | none => false

/-- Rules apply in this order; the first one violated is the answer. -/
def check (policy : Policy) (secret : Secret) : Except Violation Unit :=
  match secret.lifetime? with
  | none => .error (.request .lifetime)
  | some lifetime =>
      if policy.forceOneTime && !secret.oneTime then .error (.request .notOneTime)
      else
        match policy.maximum with
        | .error fault => .error (.configuration fault)
        | .ok limit =>
            if exceeds lifetime limit then .error (.request .expiration)
            else if policy.maxLength < secret.size then .error (.request .length)
            else .ok ()

theorem check_eq_ok_iff {policy : Policy} {secret : Secret} :
    policy.check secret = .ok () ↔
      ∃ lifetime limit, secret.lifetime? = some lifetime ∧
        (policy.forceOneTime = true → secret.oneTime = true) ∧ policy.maximum = .ok limit ∧
        exceeds lifetime limit = false ∧ secret.size ≤ policy.maxLength := by
  unfold check
  constructor
  · intro admitted
    split at admitted
    · cases admitted
    · next lifetime named =>
        split at admitted
        · cases admitted
        · next once =>
            split at admitted
            · cases admitted
            · next limit valid =>
                split at admitted
                · cases admitted
                · next inside =>
                    split at admitted
                    · cases admitted
                    · next short =>
                        have marked : policy.forceOneTime = true → secret.oneTime = true := by
                          simpa using once
                        exact ⟨lifetime, limit, named, marked, valid, by simpa using inside,
                          Nat.le_of_not_lt short⟩
  · rintro ⟨lifetime, limit, named, marked, valid, inside, short⟩
    have once : ¬ (policy.forceOneTime && !secret.oneTime) = true := by simpa using marked
    simp only [named, if_neg once, valid, inside, Bool.false_eq_true, if_false,
      if_neg (Nat.not_lt.mpr short)]

theorem lifetime_of_check {policy : Policy} {secret : Secret}
    (admitted : policy.check secret = .ok ()) :
    ∃ lifetime, secret.lifetime? = some lifetime := by
  obtain ⟨lifetime, _, named, -⟩ := check_eq_ok_iff.mp admitted
  exact ⟨lifetime, named⟩

theorem size_le_of_check {policy : Policy} {secret : Secret}
    (admitted : policy.check secret = .ok ()) : secret.size ≤ policy.maxLength := by
  obtain ⟨_, _, -, -, -, -, short⟩ := check_eq_ok_iff.mp admitted
  exact short

theorem expiration_pos_of_check {policy : Policy} {secret : Secret}
    (admitted : policy.check secret = .ok ()) : 0 < secret.expiration.toInt := by
  obtain ⟨lifetime, named⟩ := lifetime_of_check admitted
  rw [← Lifetime.seconds_of_ofSeconds? named]
  cases lifetime <;> decide

end Policy

end DeadDrop
