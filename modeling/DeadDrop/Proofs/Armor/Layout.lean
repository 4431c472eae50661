import DeadDrop.Proofs.Armor.Frame

/-!
What armor looks like, and that nothing else of how it was written can be told from it. Between the
blank line and the checksum stand rows of sixty-four columns, the last of which may be shorter; no
row begins as a checksum does. The text is a function of the headers and the octets, and the reader
gets the octets back, also where trimming takes blanks off the end of a header.
-/

namespace DeadDrop.Armor

open Text.Blank (isBlank trimEnd trimEnd_append)

section Rows

variable {octets : Bytes}

def columns : Nat := 64

structure Rowed (rows : List Line) : Prop where
  full : ∀ row ∈ rows.dropLast, row.length = columns
  last : ∀ row ∈ rows.getLast?, 4 ≤ row.length ∧ row.length ≤ columns
  plain : ∀ row ∈ rows, row.head? ≠ some '='
  unbroken : ∀ row ∈ rows, '\n' ∉ row

theorem cut_ne_nil (some : octets ≠ []) : cut octets ≠ [] := by
  rw [cut_some some]
  exact List.cons_ne_nil _ _

theorem length_of_mem_cut {group : Bytes} (member : group ∈ cut octets) :
    group.length ≤ lineOctets := by
  induction octets using cut.induct with
  | case1 =>
      rw [cut_nil] at member
      cases member
  | case2 octets some ih =>
      rw [cut_some some] at member
      rcases List.mem_cons.mp member with rfl | later
      · exact List.length_take_le _ _
      · exact ih later

theorem length_of_mem_dropLast_cut {group : Bytes} (member : group ∈ (cut octets).dropLast) :
    group.length = lineOctets := by
  induction octets using cut.induct with
  | case1 =>
      rw [cut_nil] at member
      cases member
  | case2 octets some ih =>
      rw [cut_some some] at member
      by_cases short : octets.length ≤ lineOctets
      · rw [List.drop_eq_nil_of_le short, cut_nil] at member
        cases member
      · have left : octets.drop lineOctets ≠ [] := by
          rw [ne_eq, List.drop_eq_nil_iff]
          exact short
        rw [List.dropLast_cons_of_ne_nil (cut_ne_nil left)] at member
        rcases List.mem_cons.mp member with rfl | later
        · exact List.length_take_of_le (Nat.le_of_not_le short)
        · exact ih later

theorem rowed_cut (octets : Bytes) : Rowed ((cut octets).map (Base64.encode .standard)) := by
  refine ⟨?_, ?_, ?_, ?_⟩
  · intro row member
    rw [← List.map_dropLast] at member
    obtain ⟨group, among, rfl⟩ := List.mem_map.mp member
    rw [Base64.length_encode, length_of_mem_dropLast_cut among]
    rfl
  · intro row member
    rw [List.getLast?_map] at member
    obtain ⟨group, ends, rfl⟩ := Option.map_eq_some_iff.mp member
    have among := List.mem_of_getLast? ends
    have filled := List.length_pos_iff.mpr (ne_nil_of_mem_cut among)
    have short := length_of_mem_cut among
    simp only [Base64.length_encode, columns, lineOctets] at short ⊢
    omega
  · intro row member
    obtain ⟨group, among, rfl⟩ := List.mem_map.mp member
    obtain ⟨c, chars, digits, -, noPadding⟩ := unmarked_encode (ne_nil_of_mem_cut among)
    rw [digits, List.head?_cons, ne_eq, Option.some.injEq]
    exact noPadding
  · intro row member
    obtain ⟨group, among, rfl⟩ := List.mem_map.mp member
    exact (tidy_of_shown (encode_shown group)).clean

end Rows

section Headers

/-- A header that keeps to one line and has something to say. -/
structure Fit (header : String × String) : Prop where
  name : '\n' ∉ header.1.toList
  value : '\n' ∉ header.2.toList
  shown : ∃ c ∈ header.2.toList, isBlank c = false

def trimmed (header : String × String) : String × String :=
  (header.1, String.ofList (trimEnd header.2.toList))

variable {header : String × String}

theorem Fit.clean (fit : Fit header) : '\n' ∉ headerText header := by
  simp [headerText, fit.name, fit.value]

theorem trimEnd_headerText (shown : ∃ c ∈ header.2.toList, isBlank c = false) :
    trimEnd (headerText header) = headerText (trimmed header) := by
  have shape : headerText header = (header.1.toList ++ [':', ' ']) ++ header.2.toList := by
    simp [headerText]
  rw [shape, trimEnd_append _ shown]
  simp [headerText, trimmed]

theorem Fit.trimEnd (fit : Fit header) :
    Text.Blank.trimEnd (headerText header) = headerText (trimmed header) :=
  trimEnd_headerText fit.shown

end Headers

variable {headers : List (String × String)}

theorem map_trimEnd_fit (fit : ∀ header ∈ headers, Fit header) :
    (headers.map headerText).map trimEnd = (headers.map trimmed).map headerText := by
  rw [List.map_map, List.map_map]
  exact List.map_congr_left fun header member => (fit header member).trimEnd

theorem decode_fit (octets : Bytes) (fit : ∀ header ∈ headers, Fit header) :
    decode? (unlines (framed headers octets)) = some octets :=
  decode_framed octets (fun header member => (fit header member).clean) (map_trimEnd_fit fit)

/-- Armor shows its headers and its octets, in rows, and gives the octets back. The chunks that
were written cannot be told from it. -/
theorem written_in_rows_and_read_back (fit : ∀ header ∈ headers, Fit header)
    (chunks : List Bytes) :
    (∀ others : List Bytes, others.flatten = chunks.flatten →
        write headers others = write headers chunks) ∧
      (∃ rows, Rowed rows ∧ rows.flatten = Base64.encode .standard chunks.flatten ∧
        write headers chunks = unlines (beginLine :: (headers.map headerText ++ [] ::
          (rows ++ ['=' :: Base64.encode .standard (Checksum.ofBytes chunks.flatten).toBytes,
            endLine])))) ∧
      decode? (write headers chunks) = some chunks.flatten := by
  have text (chunks : List Bytes) :
      write headers chunks = unlines (framed headers chunks.flatten) :=
    writer_computes headers chunks
  refine ⟨?_, ⟨_, rowed_cut chunks.flatten, ?_, text chunks⟩, ?_⟩
  · intro others same
    rw [text, text, same]
  · rw [← List.flatMap_def, flatMap_encode_cut]
  · rw [text, decode_fit _ fit]

/-- A header without a name, whose value ends in a blank. -/
def remark : String × String := ("", "left here ")

theorem remark_is_read_past :
    (∀ header ∈ [remark], Fit header) ∧
      write [remark] [[104], [], [105]] = write [remark] [[104, 105]] ∧
      decode? (write [remark] [[104], [], [105]]) = some [104, 105] := by
  have fit : ∀ header ∈ [remark], Fit header := by
    intro header member
    rw [List.mem_singleton.mp member]
    exact ⟨by decide, by decide, 'l', by decide, by decide⟩
  obtain ⟨same, -, read⟩ := written_in_rows_and_read_back fit [[104], [], [105]]
  exact ⟨fit, (same [[104, 105]] rfl).symm, read⟩

end DeadDrop.Armor
