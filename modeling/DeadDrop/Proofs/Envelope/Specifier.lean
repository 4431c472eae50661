import DeadDrop.Envelope.Specifier
import DeadDrop.Proofs.Packet.Acceptance

/-!
A specifier is read as it was written, whatever follows it, and nothing else is read as one: octets
that do not begin with a specifier either end before it does, or say a digest or a kind that there
is none of. A derived key has the size that was asked for, over any digest.
-/

namespace DeadDrop

theorem Digest.Algorithm.number_of_ofNumber? {number : UInt8} {hash : Digest.Algorithm}
    (named : ofNumber? number = some hash) : hash.number = number := by
  simpa using List.find?_some named

namespace Envelope.Specifier

open Packet (Cursor)

section Written

theorem ofBytes_val {size : Nat} (sized : Sized size) :
    Sized.ofBytes? size sized.val = some sized := by
  rw [Sized.ofBytes?, dif_pos sized.property]

theorem readSalt_append (salt : Salt) (rest : Bytes) :
    readSalt ⟨salt.val ++ rest⟩ = .ok (salt, ⟨rest⟩) := by
  have front : (salt.val ++ rest).take 8 = salt.val := List.take_left' salt.property
  have back : (salt.val ++ rest).drop 8 = rest := List.drop_left' salt.property
  simp only [readSalt, front, back, ofBytes_val]

theorem readHash_cons (hash : Digest.Algorithm) (rest : Bytes) :
    readHash ⟨hash.number :: rest⟩ = .ok (hash, ⟨rest⟩) := by
  simp [readHash, Digest.Algorithm.ofNumber_number, bind, Except.bind, pure, Except.pure]

theorem read_write (specifier : Specifier) (rest : Bytes) :
    read ⟨specifier.write ++ rest⟩ = .ok (specifier, ⟨rest⟩) := by
  cases specifier with
  | simple hash =>
      simp [read, write, readHash_cons, bind, Except.bind, pure, Except.pure]
  | salted hash salt =>
      simp [read, write, readHash_cons, readSalt_append, bind, Except.bind, pure, Except.pure]
  | iterated hash salt count =>
      simp [read, write, readHash_cons, readSalt_append, bind, Except.bind, pure, Except.pure]

end Written

section Read

variable {cursor next : Cursor}

theorem of_readSalt {salt : Salt} (read : readSalt cursor = .ok (salt, next)) :
    cursor.rest = salt.val ++ next.rest := by
  unfold readSalt at read
  split at read
  · next found =>
      cases read
      unfold Sized.ofBytes? at found
      split at found
      · cases found
        exact (List.take_append_drop 8 cursor.rest).symm
      · cases found
  · cases read

theorem of_readHash {hash : Digest.Algorithm} (read : readHash cursor = .ok (hash, next)) :
    cursor.rest = hash.number :: next.rest := by
  obtain ⟨⟨number, middle⟩, first, read⟩ := bind_eq_ok_iff.mp read
  dsimp only at read
  split at read
  · next named =>
      cases read
      rw [Cursor.of_octet first, Digest.Algorithm.number_of_ofNumber? named]
  · cases read

theorem of_read {specifier : Specifier} (done : read cursor = .ok (specifier, next)) :
    cursor.rest = specifier.write ++ next.rest := by
  obtain ⟨⟨kind, after⟩, first, done⟩ := bind_eq_ok_iff.mp done
  obtain ⟨⟨hash, body⟩, second, done⟩ := bind_eq_ok_iff.mp done
  have start := Cursor.of_octet first
  rw [of_readHash second] at start
  dsimp only at done
  split at done
  · next simple =>
      cases done
      rw [start, simple]
      rfl
  · split at done
    · next salted =>
        obtain ⟨⟨salt, last⟩, third, done⟩ := bind_eq_ok_iff.mp done
        cases done
        rw [start, salted, of_readSalt third]
        rfl
    · split at done
      · next iterated =>
          obtain ⟨⟨salt, last⟩, third, done⟩ := bind_eq_ok_iff.mp done
          obtain ⟨⟨count, end'⟩, fourth, done⟩ := bind_eq_ok_iff.mp done
          cases done
          rw [start, iterated, of_readSalt third, Cursor.of_octet fourth]
          simp [write]
      · cases done

end Read

/-! What is not read. The digest is judged as soon as its octet is there, ahead of the kind, and
both ahead of what follows them. -/
section Unread

variable {input body : Bytes} {what : Unsupported}

/-- The octets end before the specifier does. -/
def EndsInside (input : Bytes) : Prop :=
  input.length < 2 ∨ ∃ specifier : Specifier, input <+: specifier.write ∧ input ≠ specifier.write

/-- A digest or a kind that there is none of. -/
inductive Unknown : Bytes → Unsupported → Prop where
  | digest {kind number : UInt8} {rest : Bytes} :
      Digest.Algorithm.ofNumber? number = none → Unknown (kind :: number :: rest) (.digest number)
  | kind {kind number : UInt8} {rest : Bytes} :
      Digest.Algorithm.ofNumber? number ≠ none → kind ≠ 0 → kind ≠ 1 → kind ≠ 3 →
      Unknown (kind :: number :: rest) (.specifier kind)

theorem readSalt_short (short : body.length < 8) :
    readSalt ⟨body⟩ = .error (.malformed (.truncated 8)) := by
  have cut : (body.take 8).length ≠ 8 := by
    rw [List.length_take]
    omega
  rw [readSalt, Sized.ofBytes?, dif_neg cut]

theorem read_short (short : input.length < 2) :
    read ⟨input⟩ = .error (.malformed (.truncated 1)) := by
  match input, short with
  | [], _ => rfl
  | [kind], _ => rfl

theorem read_cons (kind : UInt8) (hash : Digest.Algorithm) (body : Bytes) :
    read ⟨kind :: hash.number :: body⟩ =
      if kind = 0 then .ok (.simple hash, ⟨body⟩)
      else if kind = 1 then
        (readSalt ⟨body⟩).bind fun (salt, cursor) => .ok (.salted hash salt, cursor)
      else if kind = 3 then
        (readSalt ⟨body⟩).bind fun (salt, cursor) =>
          cursor.octet.bind fun (count, cursor) => .ok (.iterated hash salt count, cursor)
      else .error (.unsupported (.specifier kind)) := by
  simp only [read, Cursor.octet, readHash_cons, bind, Except.bind, pure, Except.pure]

theorem read_unknown (unknown : Unknown input what) :
    read ⟨input⟩ = .error (.unsupported what) := by
  cases unknown with
  | digest unnamed =>
      simp only [read, readHash, Cursor.octet, bind, Except.bind, unnamed]
  | kind named notSimple notSalted notIterated =>
      obtain ⟨hash, found⟩ := Option.ne_none_iff_exists'.mp named
      rw [← Digest.Algorithm.number_of_ofNumber? found, read_cons, if_neg notSimple,
        if_neg notSalted, if_neg notIterated]

theorem length_lt_of_cut {whole : Bytes} (front : input <+: whole) (cut : input ≠ whole) :
    input.length < whole.length :=
  Nat.lt_of_le_of_ne front.length_le fun same => cut (front.eq_of_length same)

theorem read_endsInside (ends : EndsInside input) :
    ∃ wanted, read ⟨input⟩ = .error (.malformed (.truncated wanted)) := by
  by_cases short : input.length < 2
  · exact ⟨1, read_short short⟩
  obtain ⟨specifier, front, cut⟩ := ends.resolve_left short
  have less := length_lt_of_cut front cut
  cases specifier with
  | simple hash => exact absurd less short
  | salted hash salt =>
      match input, short with
      | kind :: number :: body, _ =>
          simp only [write, List.cons_prefix_cons] at front
          obtain ⟨rfl, rfl, front⟩ := front
          have unsalted : body.length < 8 := by
            simp only [write, List.length_cons, salt.property] at less
            omega
          exact ⟨8, by rw [read_cons, readSalt_short unsalted]; rfl⟩
  | iterated hash salt count =>
      match input, short with
      | kind :: number :: body, _ =>
          simp only [write, List.cons_append, List.cons_prefix_cons] at front
          obtain ⟨rfl, rfl, front⟩ := front
          have small : body.length < 9 := by
            simp only [write, List.cons_append, List.length_cons, List.length_append,
              salt.property, List.length_nil] at less
            omega
          by_cases unsalted : body.length < 8
          · exact ⟨8, by rw [read_cons, readSalt_short unsalted]; rfl⟩
          · -- The whole salt is there, and the count is what is missing.
            have size : body.length = salt.val.length := by
              rw [salt.property]
              omega
            have whole : body = salt.val :=
              (List.prefix_of_prefix_length_le front (List.prefix_append _ _)
                (Nat.le_of_eq size)).eq_of_length size
            have salted := readSalt_append salt []
            rw [List.append_nil] at salted
            exact ⟨1, by rw [read_cons, whole, salted]; rfl⟩

theorem exists_extension {size : Nat} (fits : body.length ≤ size) :
    ∃ full : Bytes, full.length = size ∧ body <+: full := by
  refine ⟨body ++ List.replicate (size - body.length) 0, ?_, List.prefix_append _ _⟩
  rw [List.length_append, List.length_replicate]
  omega

theorem endsInside_salted (hash : Digest.Algorithm) (short : body.length < 8) :
    EndsInside (1 :: hash.number :: body) := by
  obtain ⟨salt, size, front⟩ := exists_extension (Nat.le_of_lt short)
  refine .inr ⟨.salted hash ⟨salt, size⟩, ?_, ?_⟩
  · simpa [write] using front
  · intro same
    have whole : body = salt := by simpa [write] using same
    rw [whole] at short
    omega

theorem endsInside_iterated (hash : Digest.Algorithm) (short : body.length < 9) :
    EndsInside (3 :: hash.number :: body) := by
  obtain ⟨octets, size, front⟩ := exists_extension (Nat.le_of_lt short)
  have salt : (octets.take 8).length = 8 := List.length_take_of_le (by omega)
  obtain ⟨count, last⟩ : ∃ count, octets.drop 8 = [count] :=
    List.length_eq_one_iff.mp (by rw [List.length_drop, size])
  have shape : octets.take 8 ++ [count] = octets := by rw [← last, List.take_append_drop]
  refine .inr ⟨.iterated hash ⟨octets.take 8, salt⟩ count, ?_, ?_⟩
  · simpa [write, shape] using front
  · intro same
    have whole : body = octets := by simpa [write, shape] using same
    rw [whole] at short
    omega

theorem written_or_ends_of_salted (hash : Digest.Algorithm) (body : Bytes) :
    (∃ specifier rest, 1 :: hash.number :: body = write specifier ++ rest) ∨
      EndsInside (1 :: hash.number :: body) := by
  by_cases short : body.length < 8
  · exact .inr (endsInside_salted hash short)
  · have salt : (body.take 8).length = 8 := List.length_take_of_le (by omega)
    exact .inl ⟨.salted hash ⟨body.take 8, salt⟩, body.drop 8, by simp [write]⟩

theorem written_or_ends_of_iterated (hash : Digest.Algorithm) (body : Bytes) :
    (∃ specifier rest, 3 :: hash.number :: body = write specifier ++ rest) ∨
      EndsInside (3 :: hash.number :: body) := by
  by_cases short : body.length < 9
  · exact .inr (endsInside_iterated hash short)
  · have salt : (body.take 8).length = 8 := List.length_take_of_le (by omega)
    obtain ⟨count, rest, behind⟩ : ∃ count rest, body.drop 8 = count :: rest :=
      List.exists_cons_of_length_pos (by rw [List.length_drop]; omega)
    refine .inl ⟨.iterated hash ⟨body.take 8, salt⟩ count, rest, ?_⟩
    simp [write, ← behind]

theorem written_or_ends_or_unknown (input : Bytes) :
    (∃ (specifier : Specifier) (rest : Bytes), input = specifier.write ++ rest) ∨
      EndsInside input ∨ ∃ what, Unknown input what := by
  match input with
  | [] | [_] => exact .inr (.inl (.inl (by simp)))
  | kind :: number :: body =>
      cases named : Digest.Algorithm.ofNumber? number with
      | none => exact .inr (.inr ⟨_, .digest named⟩)
      | some hash =>
          obtain rfl := Digest.Algorithm.number_of_ofNumber? named
          by_cases simple : kind = 0
          · exact .inl ⟨.simple hash, body, by rw [simple]; rfl⟩
          by_cases salted : kind = 1
          · exact salted ▸ (written_or_ends_of_salted hash body).imp_right .inl
          by_cases iterated : kind = 3
          · exact iterated ▸ (written_or_ends_of_iterated hash body).imp_right .inl
          have found : Digest.Algorithm.ofNumber? hash.number ≠ none := by
            rw [named]
            exact Option.some_ne_none hash
          exact .inr (.inr ⟨_, .kind found simple salted iterated⟩)

/-- Octets are read as a specifier exactly if they are the written form of one and what is left. All
others are refused, as truncated exactly if they end inside a specifier, as unsupported exactly if
they say a digest or a kind that there is none of. -/
theorem read_exactly (input : Bytes) :
    (∀ specifier rest,
        read ⟨input⟩ = .ok (specifier, ⟨rest⟩) ↔ input = specifier.write ++ rest) ∧
      ((∃ wanted, read ⟨input⟩ = .error (.malformed (.truncated wanted))) ↔ EndsInside input) ∧
      (∀ what, read ⟨input⟩ = .error (.unsupported what) ↔ Unknown input what) ∧
      ((∃ (specifier : Specifier) (rest : Bytes), input = specifier.write ++ rest) ∨
        EndsInside input ∨ ∃ what, Unknown input what) := by
  have sorts := written_or_ends_or_unknown input
  refine ⟨?written, ?ends, ?unknown, sorts⟩
  case written =>
    intro specifier rest
    constructor
    · exact fun done => of_read done
    · rintro rfl
      exact read_write specifier rest
  case ends =>
    refine ⟨?_, read_endsInside⟩
    rintro ⟨wanted, failed⟩
    obtain ⟨specifier, rest, rfl⟩ | ends | ⟨what, unknown⟩ := sorts
    · rw [read_write] at failed
      cases failed
    · exact ends
    · rw [read_unknown unknown] at failed
      cases failed
  case unknown =>
    refine fun what => ⟨?_, read_unknown⟩
    intro failed
    obtain ⟨specifier, rest, rfl⟩ | ends | ⟨other, unknown⟩ := sorts
    · rw [read_write] at failed
      cases failed
    · obtain ⟨wanted, truncated⟩ := read_endsInside ends
      rw [truncated] at failed
      cases failed
    · rw [read_unknown unknown] at failed
      cases failed
      exact unknown

end Unread

section Derive

variable (digest : Digest) (specifier : Specifier) (passphrase : Bytes)

theorem length_lengthen (size zeros : Nat) (key : Bytes) :
    (lengthen digest specifier passphrase size zeros key).length = size := by
  induction zeros, key using lengthen.induct digest specifier passphrase size with
  | case1 zeros key short ih =>
      rw [lengthen, if_pos short]
      exact ih
  | case2 zeros key enough =>
      rw [lengthen, if_neg enough, List.length_take, Nat.min_eq_left (Nat.le_of_not_lt enough)]

theorem length_deriveWith (size : Nat) :
    (deriveWith digest specifier passphrase size).length = size :=
  length_lengthen digest specifier passphrase size 0 []

theorem length_derive (size : Nat) : (specifier.derive passphrase size).length = size :=
  length_deriveWith _ specifier passphrase size

end Derive

end Envelope.Specifier

end DeadDrop
