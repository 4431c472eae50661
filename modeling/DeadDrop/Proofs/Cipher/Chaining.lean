import DeadDrop.Proofs.Cipher.Aes
import DeadDrop.Proofs.Cipher.Feedback

/-!
The feedback stream is cipher feedback by whole blocks, wherever its input was cut. A stream keeps
the rest of its pad and the ciphertext of the current block, so it goes on inside a block as if
there had been no cut; and what one direction made in some pieces the other takes back in any other
pieces. The block function may be any that takes blocks to blocks.
-/

namespace DeadDrop.Cipher

/-- The ciphertext of a text and what it was mixed into. -/
def Direction.ciphertext : Direction → Bytes → Bytes → Bytes
  | encrypt, _, mixed => mixed
  | decrypt, text, _ => text

/-- Each block is mixed with what the block function makes of the ciphertext before it; the last
may be short. -/
def chained (block : Bytes → Bytes) (direction : Direction) (before text : Bytes) : Bytes :=
  if text = [] then []
  else
    let part := text.take blockSize
    let mixed := Bytes.xor part (block before)
    mixed ++ chained block direction (direction.ciphertext part mixed) (text.drop blockSize)
termination_by text.length
decreasing_by
  have some := List.length_pos_iff.mpr (by assumption : text ≠ [])
  rw [List.length_drop]
  exact Nat.sub_lt some (by decide)

theorem chained_nil (block : Bytes → Bytes) (direction : Direction) (before : Bytes) :
    chained block direction before [] = [] := by
  rw [chained, if_pos rfl]

theorem chained_cut {block : Bytes → Bytes} {direction : Direction} {before text part mixed : Bytes}
    (some : text ≠ []) (first : part = text.take blockSize)
    (made : mixed = Bytes.xor part (block before)) :
    chained block direction before text =
      mixed ++ chained block direction (direction.ciphertext part mixed) (text.drop blockSize) := by
  rw [chained, if_neg some, made, first]

namespace Feedback

variable {block : Bytes → Bytes} {direction : Direction}

section Streams

theorem flatten_applyAll (block : Bytes → Bytes) (direction : Direction) (state : Feedback)
    (chunks : List Bytes) :
    (state.applyAll block direction chunks).flatten =
      (state.apply block direction chunks.flatten).2 := by
  induction chunks generalizing state with
  | nil => rfl
  | cons chunk rest ih => simp only [applyAll, List.flatten_cons, apply_append, ih]

theorem lengths_applyAll (block : Bytes → Bytes) (direction : Direction) (state : Feedback)
    (chunks : List Bytes) :
    (state.applyAll block direction chunks).map List.length = chunks.map List.length := by
  induction chunks generalizing state with
  | nil => rfl
  | cons chunk rest ih => simp only [applyAll, List.map_cons, length_apply, ih]

end Streams

section Block

theorem apply_of_pad {pad chunk : Bytes} (enough : chunk.length ≤ pad.length) (fed : Bytes) :
    Feedback.apply block direction ⟨pad, fed⟩ chunk =
      (⟨pad.drop chunk.length,
        (direction.ciphertext chunk (Bytes.xor chunk pad)).reverse ++ fed⟩,
        Bytes.xor chunk pad) := by
  induction chunk generalizing pad fed with
  | nil => cases direction <;> rfl
  | cons octet rest ih =>
      cases pad with
      | nil => exact absurd enough (Nat.not_succ_le_zero _)
      | cons first pad =>
          have later := ih (Nat.le_of_succ_le_succ enough)
          cases direction with
          | encrypt => simp [apply_cons, step, refill, later, Direction.ciphertext, Bytes.xor]
          | decrypt => simp [apply_cons, step, refill, later, Direction.ciphertext, Bytes.xor]

/-- At the end of a block the ciphertext so far makes the next pad. -/
theorem apply_refilled {fed chunk : Bytes} (some : chunk ≠ []) (filled : block fed.reverse ≠ []) :
    Feedback.apply block direction ⟨[], fed⟩ chunk =
      Feedback.apply block direction ⟨block fed.reverse, []⟩ chunk := by
  obtain ⟨octet, rest, rfl⟩ := List.exists_cons_of_ne_nil some
  obtain ⟨first, pad, made⟩ := List.exists_cons_of_ne_nil filled
  simp only [apply_cons, step, refill, made]

end Block

theorem apply_eq_chained (blockwise : Blockwise block) {before : Bytes}
    (whole : before.length = blockSize) (text : Bytes) :
    (Feedback.apply block direction ⟨[], before.reverse⟩ text).2 =
      chained block direction before text := by
  induction before, text using chained.induct block direction with
  | case1 before =>
      rw [chained_nil]
      rfl
  | case2 before text some part mixed ih =>
      have pad : (block before).length = blockSize := blockwise before whole
      have fits : part.length ≤ (block before).length := by
        rw [pad, List.length_take]
        exact Nat.min_le_left _ _
      have filled : block before.reverse.reverse ≠ [] := by
        rw [List.reverse_reverse]
        exact List.ne_nil_of_length_eq_add_one pad
      have cut : text = part ++ text.drop blockSize := (List.take_append_drop _ _).symm
      have given : part ≠ [] := by
        intro empty
        have length := congrArg List.length empty
        rw [List.length_take, List.length_nil] at length
        have longer := List.length_pos_iff.mpr some
        have size : blockSize = 16 := rfl
        omega
      have first : Feedback.apply block direction ⟨[], before.reverse⟩ part =
          (⟨(block before).drop part.length, (direction.ciphertext part mixed).reverse⟩,
            mixed) := by
        rw [apply_refilled given filled, List.reverse_reverse, apply_of_pad fits, List.append_nil]
      rw [chained_cut some rfl rfl]
      conv => lhs; rw [cut]
      rw [apply_append, first]
      -- Either the text ends within this block, or the block is full and its pad used up.
      by_cases ended : text.drop blockSize = []
      · rw [ended, chained_nil]
        rfl
      · have full : part.length = blockSize := by
          have longer : blockSize < text.length :=
            Nat.lt_of_not_le fun short => ended (List.drop_eq_nil_iff.mpr short)
          rw [List.length_take, Nat.min_eq_left (Nat.le_of_lt longer)]
        have sent : (direction.ciphertext part mixed).length = blockSize := by
          cases direction with
          | encrypt => exact Aes.length_xor full pad
          | decrypt => exact full
        have spent : (block before).drop part.length = [] :=
          List.drop_eq_nil_iff.mpr (Nat.le_of_eq (pad.trans full.symm))
        rw [spent]
        exact congrArg (mixed ++ ·) (ih sent)

theorem start_eq : start = ⟨[], (List.replicate blockSize 0).reverse⟩ := rfl

/-- Every key is taken that has the size of its algorithm, and is a function on blocks. For any
function on blocks, decrypting gives back what was encrypted although the ciphertext comes in other
pieces than the text did; and either stream, in whatever pieces it is fed, gives out pieces of the
same lengths that together are cipher feedback by whole blocks. -/
theorem pieces_do_not_show :
    (∀ (algorithm : Algorithm) (bytes : Bytes), bytes.length = algorithm.keySize →
      ∃ key : Key algorithm, Key.ofBytes? algorithm bytes = some key ∧ key.bytes = bytes ∧
        Blockwise key.block) ∧
    ∀ block : Bytes → Bytes, Blockwise block →
      (∀ plain received : List Bytes,
        received.flatten = (start.applyAll block .encrypt plain).flatten →
          (start.applyAll block .decrypt received).flatten = plain.flatten) ∧
      ∀ (direction : Direction) (chunks : List Bytes),
        (start.applyAll block direction chunks).flatten =
            chained block direction (List.replicate blockSize 0) chunks.flatten ∧
          (start.applyAll block direction chunks).map List.length = chunks.map List.length := by
  refine ⟨?_, fun block blockwise => ⟨?_, ?_⟩⟩
  · intro algorithm bytes fits
    exact ⟨⟨bytes, fits⟩, dif_pos fits, rfl, Key.blockwise _⟩
  · intro plain received same
    rw [flatten_applyAll, same, flatten_applyAll, decrypt_encrypt]
  · intro direction chunks
    refine ⟨?_, lengths_applyAll block direction start chunks⟩
    rw [flatten_applyAll, start_eq, apply_eq_chained blockwise List.length_replicate]

/-- Twenty-one octets go in behind an empty piece, and their ciphertext comes back in pieces of
three, none and eighteen. -/
theorem note_in_other_pieces :
    ∃ key : Key .aes192, Key.ofBytes? .aes192 (List.replicate 24 7) = some key ∧
      Blockwise key.block ∧
      (start.applyAll key.block .decrypt
        [(start.applyAll key.block .encrypt [[], List.replicate 20 104, [105]]).flatten.take 3, [],
          (start.applyAll key.block .encrypt [[], List.replicate 20 104, [105]]).flatten.drop
            3]).flatten = [[], List.replicate 20 104, [105]].flatten := by
  obtain ⟨keys, streams⟩ := pieces_do_not_show
  obtain ⟨key, made, _, blockwise⟩ := keys .aes192 (List.replicate 24 7) rfl
  obtain ⟨undone, _⟩ := streams key.block blockwise
  refine ⟨key, made, blockwise, undone _ _ ?_⟩
  simp only [List.flatten_cons, List.flatten_nil, List.nil_append, List.append_nil,
    List.take_append_drop]

end Feedback

end DeadDrop.Cipher
