import DeadDrop.Armor.Frame
import DeadDrop.Proofs.Armor.Truncation
import DeadDrop.Text.Utf8
import Mathlib.Data.List.Flatten

/-!
A message is no longer than its armor. No stage adds anything: a character takes at least one octet,
lines are what stands between line feeds, digits are what stands on some of the lines, and four
digits are three octets at most.
-/

namespace DeadDrop

open scoped List

section Characters

variable {octets : Bytes} {chars : List Char}

theorem Text.Utf8.length_decodePrefix (done : List Char) (octets : Bytes) :
    (decodePrefix done octets).1.length ≤ done.length + octets.length := by
  induction done, octets using decodePrefix.induct with
  | case1 done =>
      rw [decodePrefix]
      exact Nat.le_add_right _ _
  | case2 done lead rest c tail read shorter ih =>
      rw [decodePrefix]
      split
      · next other after same =>
          rw [read] at same
          cases same
          rw [List.length_cons] at ih ⊢
          exact Nat.le_trans ih (by omega)
      · exact Nat.le_add_right _ _
  | case3 done lead rest tail read =>
      rw [decodePrefix]
      split
      · next other after same =>
          rw [read] at same
          cases same
      · exact Nat.le_add_right _ _

theorem Text.Utf8.length_of_decode (decoded : decode? octets = some chars) :
    chars.length ≤ octets.length := by
  have shorter := length_decodePrefix [] octets
  unfold decode? at decoded
  split at decoded
  · next done whole =>
      cases decoded
      rw [whole, List.length_nil, Nat.zero_add] at shorter
      rw [List.length_reverse]
      exact shorter
  · cases decoded

end Characters

section Lines

open Text.Blank (splitOn lines trimEnd trimEnd_front go_eq)

theorem Text.Blank.flatten_go (separator : Char) (chars piece : List Char) :
    (splitOn.go separator chars piece []).flatten =
      piece.reverse ++ chars.filter (· ≠ separator) := by
  induction chars generalizing piece with
  | nil => simp [splitOn.go]
  | cons c rest ih =>
      by_cases here : c = separator
      · rw [splitOn.go, if_pos here, go_eq, List.reverse_singleton, List.singleton_append,
          List.flatten_cons, ih]
        simp [here]
      · rw [splitOn.go, if_neg here, ih]
        simp [here]

theorem Text.Blank.flatten_splitOn (separator : Char) (chars : List Char) :
    (splitOn separator chars).flatten = chars.filter (· ≠ separator) :=
  flatten_go separator chars []

theorem Text.Blank.lines_sublist (chars : List Char) : lines chars <+ splitOn '\n' chars := by
  unfold lines
  split
  · next others shape =>
      rw [← List.reverse_reverse (splitOn '\n' chars), shape]
      exact (List.sublist_cons_self [] others).reverse
  · simp only [List.reverse_reverse, List.Sublist.refl]

theorem Text.Blank.flatMap_trimEnd_lines (chars : List Char) :
    (lines chars).flatMap trimEnd <+ chars :=
  calc (lines chars).flatMap trimEnd
      <+ (lines chars).flatMap id :=
        List.Sublist.flatMap_right _ fun line _ => (trimEnd_front line).sublist
    _ <+ (splitOn '\n' chars).flatMap id := (lines_sublist chars).flatMap id
    _ <+ chars := by
        rw [List.flatMap_id, flatten_splitOn]
        exact List.filter_sublist

end Lines

namespace Armor

theorem Base64.length_go {alphabet : Alphabet} {digits : List Char} {done octets : Bytes}
    (decoded : decode?.go alphabet done digits = some octets) :
    octets.length ≤ done.length + digits.length := by
  fun_induction decode?.go alphabet done digits with
  | case1 done =>
      cases decoded
      rw [List.length_reverse]
      exact Nat.le_add_right _ _
  | case2 done a b c d rest _ _ _ _ _ _ _ _ x y z _ ih =>
      have shorter := ih decoded
      simp only [List.length_cons] at shorter ⊢
      omega
  | case3 done a b c d rest | case5 done a b c d rest =>
      cases decoded
      simp only [List.length_reverse, List.length_cons]
      omega
  | case4 | case6 | case7 | case8 => cases decoded

theorem readBody_sublist {pieces lines : List Line} {checksum : Option (List Char)} {body : Body}
    (read : readBody pieces checksum lines = some body) :
    body.digits <+ pieces.reverse.flatten ++ lines.flatten := by
  fun_induction readBody pieces checksum lines with
  | case1 => cases read
  | case2 pieces checksum rest =>
      cases read
      exact List.sublist_append_left _ _
  | case3 pieces checksum rest digits other ih =>
      refine (ih read).trans (List.Sublist.append_left ?_ _)
      exact List.sublist_append_right _ _
  | case4 pieces checksum line rest other digits ih =>
      have within := ih read
      rw [List.reverse_cons, List.flatten_append, List.flatten_singleton, List.append_assoc]
        at within
      exact within

theorem length_of_decode {text : List Char} {octets : Bytes}
    (decoded : decode? text = some octets) : octets.length ≤ text.length := by
  unfold decode? decodeLines at decoded
  split at decoded
  · cases decoded
  · next first inside shape =>
      simp only [Option.bind_eq_bind, Option.bind_eq_some_iff] at decoded
      obtain ⟨body, ⟨rest, skipped, read⟩, data, done, agreed⟩ := decoded
      split at agreed
      · cases agreed
        have behind : first :: inside <+ (Text.Blank.lines text).map Text.Blank.trimEnd := by
          rw [← shape]
          exact (List.dropWhile_suffix _).sublist
        have held : rest <+ (Text.Blank.lines text).map Text.Blank.trimEnd :=
          ((skipHeaders_suffix skipped).sublist.trans (List.sublist_cons_self _ _)).trans behind
        have digits : body.digits <+ text :=
          calc body.digits
              <+ rest.flatten := readBody_sublist read
            _ <+ ((Text.Blank.lines text).map Text.Blank.trimEnd).flatten := held.flatten
            _ <+ text := Text.Blank.flatMap_trimEnd_lines text
        have fewer := Base64.length_go done
        rw [List.length_nil, Nat.zero_add] at fewer
        exact Nat.le_trans fewer digits.length_le
      · cases agreed

end Armor

end DeadDrop
