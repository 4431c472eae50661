import DeadDrop.Cipher.Feedback

/-!
The feedback stream, octet by octet. Both directions send the same ciphertext, so a stream that
turns an octet into another and the stream that turns it back go through the same states. Nothing
is asked of the block function.
-/

namespace DeadDrop.Cipher

def Direction.inverse : Direction → Direction
  | encrypt => decrypt
  | decrypt => encrypt

namespace Feedback

variable (block : Bytes → Bytes) (direction : Direction)

theorem xor_xor_self (octet pad : UInt8) : octet ^^^ pad ^^^ pad = octet := by
  rw [UInt8.xor_assoc, UInt8.xor_self, UInt8.xor_zero]

theorem step_inverse (state : Feedback) (octet : UInt8) :
    step block direction.inverse state (step block direction state octet).2 =
      ((step block direction state octet).1, octet) := by
  cases direction with
  | encrypt => simp only [step, Direction.inverse, xor_xor_self]
  | decrypt => simp only [step, Direction.inverse, xor_xor_self]

/-- One octet of a chunk, with what has come out so far, newest first. -/
def carry (carried : Feedback × Bytes) (octet : UInt8) : Feedback × Bytes :=
  let (next, mixed) := step block direction carried.1 octet
  (next, mixed :: carried.2)

theorem apply_eq_foldl (state : Feedback) (chunk : Bytes) :
    state.apply block direction chunk =
      ((chunk.foldl (carry block direction) (state, [])).1,
        (chunk.foldl (carry block direction) (state, [])).2.reverse) := rfl

-- What came out before the chunk stays behind what comes out of it, since the newest is in front.
theorem foldl_carry (state : Feedback) (done chunk : Bytes) :
    chunk.foldl (carry block direction) (state, done) =
      ((chunk.foldl (carry block direction) (state, [])).1,
        (chunk.foldl (carry block direction) (state, [])).2 ++ done) := by
  induction chunk generalizing state done with
  | nil => rfl
  | cons octet rest ih =>
      rw [List.foldl_cons, List.foldl_cons]
      simp only [carry]
      rw [ih _ (_ :: done), ih _ [_], List.append_assoc]
      rfl

theorem apply_cons (state : Feedback) (octet : UInt8) (rest : Bytes) :
    state.apply block direction (octet :: rest) =
      let (next, mixed) := step block direction state octet
      let (last, out) := next.apply block direction rest
      (last, mixed :: out) := by
  rw [apply_eq_foldl, List.foldl_cons]
  simp only [carry]
  rw [foldl_carry]
  simp [apply_eq_foldl]

theorem apply_append (state : Feedback) (left right : Bytes) :
    state.apply block direction (left ++ right) =
      let (middle, early) := state.apply block direction left
      let (last, late) := middle.apply block direction right
      (last, early ++ late) := by
  induction left generalizing state with
  | nil => rfl
  | cons octet rest ih => simp only [List.cons_append, apply_cons, ih]

@[simp] theorem length_apply (state : Feedback) (chunk : Bytes) :
    (state.apply block direction chunk).2.length = chunk.length := by
  induction chunk generalizing state with
  | nil => rfl
  | cons octet rest ih => simp only [apply_cons, List.length_cons, ih]

theorem apply_inverse (state : Feedback) (chunk : Bytes) :
    state.apply block direction.inverse (state.apply block direction chunk).2 =
      ((state.apply block direction chunk).1, chunk) := by
  induction chunk generalizing state with
  | nil => rfl
  | cons octet rest ih => simp only [apply_cons, step_inverse, ih]

theorem decrypt_encrypt (state : Feedback) (chunk : Bytes) :
    (state.apply block .decrypt (state.apply block .encrypt chunk).2).2 = chunk :=
  congrArg Prod.snd (apply_inverse block .encrypt state chunk)

end Feedback

end DeadDrop.Cipher
