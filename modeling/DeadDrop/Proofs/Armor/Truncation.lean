import DeadDrop.Proofs.Armor.Layout

/-!
Armor that breaks off. The reader gives nothing back before it has seen the line that ends the
message, and no line before that one starts as it does. A part that lacks more than the last line
feed has no such line, so nothing is read from it.
-/

namespace DeadDrop.Armor

open Text.Blank (lines splitOn splitOn_lines splitOn_part mem_splitOn_of_mem_lines trimEnd
  trimEnd_front)

section Unended

variable {all rest : List Line}

theorem readBody_unended (pieces : List Line) (checksum : Option (List Char))
    (open_ : endLine ∉ all) : readBody pieces checksum all = none := by
  induction all generalizing pieces checksum with
  | nil => rfl
  | cons line rest ih =>
      have other : line ≠ endLine := fun same => open_ (same ▸ List.mem_cons_self)
      have later : endLine ∉ rest := fun member => open_ (List.mem_cons_of_mem _ member)
      rw [readBody.eq_def]
      simp only [if_neg other]
      split
      · exact ih pieces _ later
      · exact ih _ checksum later

theorem skipHeaders_suffix (skipped : skipHeaders all = some rest) : rest <:+ all := by
  induction all with
  | nil =>
      cases skipped
      exact List.suffix_refl []
  | cons line others ih =>
      cases line with
      | nil =>
          cases skipped
          exact List.suffix_cons _ _
      | cons c chars =>
          rw [skipHeaders.eq_def] at skipped
          dsimp only at skipped
          split at skipped
          · exact (ih skipped).trans (List.suffix_cons _ _)
          · cases skipped

theorem decodeLines_unended (open_ : endLine ∉ all) : decodeLines all = none := by
  have behind : all.dropWhile (· ≠ beginLine) <:+ all := List.dropWhile_suffix _
  unfold decodeLines
  split
  · rfl
  · next first inside shape =>
      rw [shape] at behind
      cases skipped : skipHeaders inside with
      | none => rfl
      | some rest =>
          have within : rest <:+ all :=
            ((skipHeaders_suffix skipped).trans (List.suffix_cons _ _)).trans behind
          have later : endLine ∉ rest := fun member => open_ (within.subset member)
          have body : (some rest >>= readBody [] none) = none := readBody_unended [] none later
          rw [body]
          rfl

end Unended

section Written

variable {headers : List (String × String)} {octets : Bytes} {part : List Char}

def beforeEnd (headers : List (String × String)) (octets : Bytes) : List Line :=
  beginLine :: (headers.map headerText ++ [] :: ((cut octets).map (Base64.encode .standard) ++
    ['=' :: Base64.encode .standard (Checksum.ofBytes octets).toBytes]))

theorem framed_eq (headers : List (String × String)) (octets : Bytes) :
    framed headers octets = beforeEnd headers octets ++ [endLine] := by
  simp [framed, beforeEnd]

theorem not_endLine_front {line : Line} (other : line.head? ≠ some '-') : ¬ endLine <+: line := by
  rintro ⟨rest, rfl⟩
  exact other (by rw [List.head?_append]; rfl)

theorem not_endLine_front_beforeEnd
    (apart : ∀ header ∈ headers, ¬ endLine <+: headerText header) :
    ∀ line ∈ beforeEnd headers octets, ¬ endLine <+: line := by
  intro line member
  simp only [beforeEnd, List.mem_cons, List.mem_append, List.mem_map, List.not_mem_nil,
    or_false] at member
  rcases member with rfl | ⟨header, among, rfl⟩ | rfl | ⟨group, among, rfl⟩ | rfl
  · decide
  · exact apart header among
  · exact not_endLine_front (by decide)
  · obtain ⟨c, chars, digits, noDash, -⟩ := unmarked_encode (ne_nil_of_mem_cut among)
    apply not_endLine_front
    rw [digits, List.head?_cons, ne_eq, Option.some.injEq]
    exact noDash
  · exact not_endLine_front (by simp)

theorem part_beforeEnd (cut : part <+: unlines (framed headers octets))
    (short : part.length + 1 < (unlines (framed headers octets)).length) :
    part <+: unlines (beforeEnd headers octets) ++ endLine.dropLast := by
  have whole : unlines (framed headers octets) =
      (unlines (beforeEnd headers octets) ++ endLine.dropLast) ++ ['-', '\n'] := by
    rw [framed_eq]
    simp only [unlines, List.flatMap_append, List.flatMap_cons, List.flatMap_nil, List.append_assoc]
    rfl
  rw [whole] at cut short
  refine List.prefix_of_prefix_length_le cut (List.prefix_append _ _) ?_
  simp only [List.length_append, List.length_cons, List.length_nil] at short ⊢
  omega

/-- Nothing is read from armor that breaks off, unless it lacks the last line feed only. -/
theorem decode_part (clean : ∀ header ∈ headers, '\n' ∉ headerText header)
    (apart : ∀ header ∈ headers, ¬ endLine <+: headerText header)
    (cut : part <+: unlines (framed headers octets))
    (short : part.length + 1 < (unlines (framed headers octets)).length) :
    decode? part = none := by
  have unbroken : ∀ line ∈ beforeEnd headers octets, '\n' ∉ line := by
    intro line member
    apply clean_framed octets clean line
    rw [framed_eq]
    exact List.mem_append_left _ member
  have pieces : splitOn '\n' (unlines (beforeEnd headers octets) ++ endLine.dropLast) =
      beforeEnd headers octets ++ [endLine.dropLast] := splitOn_lines unbroken (by decide)
  have unended : ∀ whole ∈ beforeEnd headers octets ++ [endLine.dropLast],
      ¬ endLine <+: whole := by
    intro whole member
    rcases List.mem_append.mp member with before | last
    · exact not_endLine_front_beforeEnd apart whole before
    · rw [List.mem_singleton.mp last]
      decide
  apply decodeLines_unended
  intro member
  -- Trimmed or cut, a line is the front of one that was written.
  obtain ⟨line, among, trimmed⟩ := List.mem_map.mp member
  obtain ⟨whole, written, front⟩ :=
    splitOn_part (part_beforeEnd cut short) line (mem_splitOn_of_mem_lines among)
  rw [pieces] at written
  apply unended whole written
  rw [← trimmed]
  exact (trimEnd_front line).trans front

end Written

end DeadDrop.Armor
