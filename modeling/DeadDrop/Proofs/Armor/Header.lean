import DeadDrop.Proofs.Armor.Layout

/-!
Which headers the reader reads past. A line is trimmed before the reader looks for the colon and the
blank in it, so a value of nothing but blanks takes the blank behind the colon with it. The header
is then no header any more, unless its name has a colon and a blank of its own, and the message is
refused. All other headers make no difference, wherever they stand among the headers.
-/

namespace DeadDrop.Armor

open Text.Blank (isBlank trimEnd trimEnd_append_blank trimEnd_concat lines lines_append)

section Lasting

/-- A header that is still one when its line has been trimmed. -/
def Lasting (header : String × String) : Prop :=
  (∃ c ∈ header.2.toList, isBlank c = false) ∨ [':', ' '] <:+: header.1.toList

variable {header : String × String}

theorem trimEnd_headerText_blank (blank : ∀ c ∈ header.2.toList, isBlank c = true) :
    trimEnd (headerText header) = header.1.toList ++ [':'] := by
  have shape : headerText header = (header.1.toList ++ [':']) ++ ' ' :: header.2.toList := by
    simp [headerText]
  have back : ∀ c ∈ ' ' :: header.2.toList, isBlank c = true :=
    List.forall_mem_cons.mpr ⟨by decide, blank⟩
  rw [shape, trimEnd_append_blank _ back, trimEnd_concat _ (by decide)]

theorem separator_infix_concat {name : Line} :
    [':', ' '] <:+: name ++ [':'] ↔ [':', ' '] <:+: name := by
  rw [List.infix_concat_iff, or_iff_right]
  rintro ⟨front, same⟩
  have ends := congrArg List.getLast? same
  simp at ends

theorem holdsHeader_trimEnd :
    holdsHeader (trimEnd (headerText header)) = true ↔ Lasting header := by
  by_cases shown : ∃ c ∈ header.2.toList, isBlank c = false
  · rw [trimEnd_headerText shown]
    exact iff_of_true (holdsHeader_headerText _) (.inl shown)
  · have blank : ∀ c ∈ header.2.toList, isBlank c = true := by simpa using shown
    rw [trimEnd_headerText_blank blank, holdsHeader_iff, separator_infix_concat, Lasting,
      or_iff_right shown]

instance (header : String × String) : Decidable (Lasting header) :=
  decidable_of_iff _ holdsHeader_trimEnd

theorem trimEnd_headerText_ne_nil (header : String × String) :
    trimEnd (headerText header) ≠ [] := by
  by_cases shown : ∃ c ∈ header.2.toList, isBlank c = false
  · rw [trimEnd_headerText shown]
    exact headerText_ne_nil _
  · have blank : ∀ c ∈ header.2.toList, isBlank c = true := by simpa using shown
    rw [trimEnd_headerText_blank blank]
    exact List.append_ne_nil_of_right_ne_nil _ (List.cons_ne_nil _ _)

end Lasting

section Inserting

/-- The lines above a place among the headers: the message has begun, and no blank line has ended
its headers. -/
structure AmongHeaders (above : List Line) : Prop where
  begun : beginLine ∈ above.map trimEnd
  unended : [] ∉ (above.map trimEnd).dropWhile (· ≠ beginLine)

variable {above : List Line} {line : Line}

theorem dropWhile_strange {front : List Line} (strange : beginLine ∉ front) (rest : List Line) :
    (front ++ rest).dropWhile (· ≠ beginLine) = rest.dropWhile (· ≠ beginLine) := by
  have gone : front.dropWhile (· ≠ beginLine) = [] := by
    rw [List.dropWhile_eq_nil_iff]
    intro line member
    exact decide_eq_true fun same => strange (same ▸ member)
  rw [List.dropWhile_append, gone]
  rfl

theorem decodeLines_strange {front : List Line} (strange : beginLine ∉ front) (rest : List Line) :
    decodeLines (front ++ rest) = decodeLines rest := by
  rw [decodeLines, dropWhile_strange strange, decodeLines]

theorem decodeLines_inserted (begun : beginLine ∈ above)
    (unended : [] ∉ above.dropWhile (· ≠ beginLine)) (filled : line ≠ []) (below : List Line) :
    decodeLines (above ++ line :: below) =
      if holdsHeader line then decodeLines (above ++ below) else none := by
  obtain ⟨front, inside, rfl, strange⟩ := List.eq_append_cons_of_mem begun
  rw [dropWhile_strange strange, dropWhile_begin] at unended
  have open_ : ∀ title ∈ inside, title ≠ [] := by
    rintro title member rfl
    exact unended (List.mem_cons_of_mem _ member)
  simp only [List.append_assoc, List.cons_append]
  rw [decodeLines_strange strange, decodeLines_strange strange, decodeLines_skipping,
    decodeLines_skipping (inside ++ below), skipHeaders_append open_, skipHeaders_append open_,
    skipHeaders_cons filled]
  by_cases holds : holdsHeader line = true
  · simp only [holds, if_true]
  · simp [holds]

theorem decode_inserted (clean : ∀ title ∈ above, '\n' ∉ title) (among : AmongHeaders above)
    (oneLine : '\n' ∉ line) (filled : trimEnd line ≠ []) (below : List Char) :
    decode? (unlines above ++ (line ++ '\n' :: below)) =
      if holdsHeader (trimEnd line) then decode? (unlines above ++ below) else none := by
  have single : lines (line ++ '\n' :: below) = line :: lines below := by
    have alone := lines_append (List.forall_mem_singleton.mpr oneLine) below
    simpa using alone
  rw [decode?, decode?, unlines, lines_append clean, lines_append clean, single, List.map_append,
    List.map_append, List.map_cons]
  exact decodeLines_inserted among.begun among.unended filled _

end Inserting

section Written

variable {headers : List (String × String)}

theorem amongHeaders_begin : AmongHeaders [beginLine] := ⟨by decide, by decide⟩

theorem clean_begin : ∀ line ∈ [beginLine], '\n' ∉ line := by decide

theorem exists_write_cons (headers : List (String × String)) (chunks : List Bytes) :
    ∃ below, write headers chunks = unlines [beginLine] ++ below ∧
      ∀ header, write (header :: headers) chunks =
        unlines [beginLine] ++ (headerText header ++ '\n' :: below) := by
  have text (headers : List (String × String)) :
      write headers chunks = unlines (framed headers chunks.flatten) :=
    writer_computes headers chunks
  refine ⟨unlines (framed headers chunks.flatten).tail, ?_, fun header => ?_⟩
  · rw [text, framed, List.tail_cons, unlines, List.flatMap_cons]
    simp [unlines]
  · rw [text]
    simp [unlines, framed]

theorem decode_write (oneLine : ∀ header ∈ headers, '\n' ∉ headerText header)
    (chunks : List Bytes) :
    decode? (write headers chunks) =
      if ∀ header ∈ headers, Lasting header then some chunks.flatten else none := by
  induction headers with
  | nil =>
      have text : write [] chunks = unlines (framed [] chunks.flatten) := writer_computes [] chunks
      rw [text, decode_written _ (by simp), if_pos (by simp)]
  | cons header others ih =>
      obtain ⟨here, later⟩ := List.forall_mem_cons.mp oneLine
      obtain ⟨below, fewer, more⟩ := exists_write_cons others chunks
      have read := ih later
      rw [fewer] at read
      rw [more, decode_inserted clean_begin amongHeaders_begin here
        (trimEnd_headerText_ne_nil header), read]
      by_cases lasting : Lasting header
      · rw [if_pos (holdsHeader_trimEnd.mpr lasting)]
        exact if_congr (List.forall_mem_cons.trans (and_iff_right lasting)).symm rfl rfl
      · rw [if_neg (mt holdsHeader_trimEnd.mp lasting), if_neg]
        exact fun all => lasting (all header List.mem_cons_self)

end Written

/-- Each of some headers, put among the headers of any text, makes no difference if it lasts, and
spoils the message if it does not. So what is written with all of them is read back if they all
last, and only then. -/
theorem lasting_headers_are_read_past {headers : List (String × String)}
    (oneLine : ∀ header ∈ headers, '\n' ∉ headerText header) :
    (∀ header ∈ headers, ∀ (above : List Line) (below : List Char),
      (∀ line ∈ above, '\n' ∉ line) → AmongHeaders above →
        decode? (unlines above ++ (headerText header ++ '\n' :: below)) =
          if Lasting header then decode? (unlines above ++ below) else none) ∧
      ∀ chunks : List Bytes, decode? (write headers chunks) =
        if ∀ header ∈ headers, Lasting header then some chunks.flatten else none := by
  refine ⟨?_, decode_write oneLine⟩
  intro header member above below clean among
  rw [decode_inserted clean among (oneLine header member) (trimEnd_headerText_ne_nil header)]
  simp only [holdsHeader_trimEnd]

/-- A message behind its first line, which has no headers. -/
def greeting : List Char := "\naGk=\n-----END PGP MESSAGE-----\n".toList

/-- Two headers with nothing behind the colon, of which the first has a colon in its name. -/
def bare : List (String × String) := [("re: note", ""), ("Comment", "")]

theorem decode_greeting : decode? (unlines [beginLine] ++ greeting) = some [104, 105] := by
  decide +kernel

theorem colon_in_the_name_lasts :
    (∀ header ∈ bare, '\n' ∉ headerText header) ∧ AmongHeaders [beginLine] ∧
      decode? (unlines [beginLine] ++ (headerText ("re: note", "") ++ '\n' :: greeting)) =
        some [104, 105] ∧
      decode? (write bare [[104, 105]]) = none := by
  have oneLine : ∀ header ∈ bare, '\n' ∉ headerText header := by decide
  have lasts : Lasting ("re: note", "") := by decide +kernel
  have fades : ¬ ∀ header ∈ bare, Lasting header := by decide +kernel
  obtain ⟨inserted, written⟩ := lasting_headers_are_read_past oneLine
  have read := inserted _ List.mem_cons_self [beginLine] greeting clean_begin amongHeaders_begin
  exact ⟨oneLine, amongHeaders_begin, (read.trans (if_pos lasts)).trans decode_greeting,
    (written _).trans (if_neg fades)⟩

/-- A message that is read is refused with one header more, which has one line and an empty value,
and what is written with that header is refused as well. -/
theorem empty_value_spoils_the_message :
    '\n' ∉ headerText ("Comment", "") ∧ AmongHeaders [beginLine] ∧
      decode? (unlines [beginLine] ++ greeting) = some [104, 105] ∧
      decode? (unlines [beginLine] ++ (headerText ("Comment", "") ++ '\n' :: greeting)) = none ∧
      decode? (write [("Comment", "")] [[104, 105]]) = none := by
  have oneLine : '\n' ∉ headerText ("Comment", "") := by decide
  have fades : ¬ Lasting ("Comment", "") := by decide +kernel
  have spoiled := decode_inserted clean_begin amongHeaders_begin oneLine
    (trimEnd_headerText_ne_nil ("Comment", "")) greeting
  have refused := decode_write (List.forall_mem_singleton.mpr oneLine) [[104, 105]]
  refine ⟨oneLine, amongHeaders_begin, decode_greeting, ?_, ?_⟩
  · exact spoiled.trans (if_neg (mt holdsHeader_trimEnd.mp fades))
  · exact refused.trans (if_neg fun all => fades (all _ List.mem_cons_self))

end DeadDrop.Armor
