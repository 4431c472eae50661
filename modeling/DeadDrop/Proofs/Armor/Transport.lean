import DeadDrop.Proofs.Armor.Header
import Mathlib.Data.List.Forall2
import Mathlib.Logic.Relation

/-!
Armor in transport. On its way a message may get blanks at its line ends and text around it, its
base64 may be wrapped anew, and its checksum may be lost or moved. A copy is a message with its
parts told apart. An edit changes the parts, but it leaves in a copy all that the reader goes by,
so after any edits in any order the octets are still those that were written.
-/

namespace DeadDrop.Armor

open Text.Blank (isBlank trimEnd trimEnd_append_blank trimEnd_of_shown lines_append)

section Copies

inductive Content where
  | digits (chars : Line)
  | checksum (chars : Line)
  | blank
deriving DecidableEq

def Content.text : Content → Line
  | .digits chars => chars
  | .checksum chars => '=' :: chars
  | .blank => []

structure Row where
  content : Content
  trail : Line
deriving DecidableEq

def Row.line (row : Row) : Line := row.content.text ++ row.trail

def Row.digits? (row : Row) : Option Line :=
  match row.content with
  | .digits chars => some chars
  | _ => none

def rowDigits (body : List Row) : Line := (body.filterMap Row.digits?).flatten

def rowMarks (body : List Row) : List Row := body.filter (·.digits?.isNone)

structure Copy where
  ahead : List Line
  head : List Line
  body : List Row
  foot : Line
  behind : List Char

def Copy.lines (copy : Copy) : List Line :=
  copy.ahead ++ copy.head ++ copy.body.map Row.line ++ [copy.foot]

def Copy.text (copy : Copy) : List Char := unlines copy.lines ++ copy.behind

def checksumDigits (octets : Bytes) : Line :=
  Base64.encode .standard (Checksum.ofBytes octets).toBytes

def original (headers : List (String × String)) (octets : Bytes) : Copy where
  ahead := []
  head := beginLine :: (headers.map headerText ++ [[]])
  body := (cut octets).map (fun group => ⟨.digits (Base64.encode .standard group), []⟩) ++
    [⟨.checksum (checksumDigits octets), []⟩]
  foot := endLine
  behind := []

theorem text_original (headers : List (String × String)) (octets : Bytes) :
    (original headers octets).text = unlines (framed headers octets) := by
  simp [Copy.text, Copy.lines, original, framed, Row.line, Content.text, checksumDigits,
    Function.comp_def]

end Copies

section Edits

/-- What may stand at the end of a line. The carriage return is the one of a line that ends in
CR LF. -/
def Pad (trail : Line) : Prop := ∀ c ∈ trail, c ∈ [' ', '\t', '\r']

instance (trail : Line) : Decidable (Pad trail) := List.decidableBAll _ trail

def Padded (line longer : Line) : Prop := ∃ trail, Pad trail ∧ longer = line ++ trail

def Row.Padded (row longer : Row) : Prop :=
  longer.content = row.content ∧ Armor.Padded row.trail longer.trail

/-- A line of base64 that is cut between two groups of four digits. -/
def Whole (chars : Line) : Prop := chars ≠ [] ∧ 4 ∣ chars.length

instance (chars : Line) : Decidable (Whole chars) := inferInstanceAs (Decidable (_ ∧ _))

inductive Edit : Copy → Copy → Prop
  /-- Lines end in blanks, or in CR LF. -/
  | pad {copy : Copy} {ahead head : List Line} {body : List Row} {foot : Line}
      (aheadPadded : List.Forall₂ Padded copy.ahead ahead)
      (headPadded : List.Forall₂ Padded copy.head head)
      (bodyPadded : List.Forall₂ Row.Padded copy.body body)
      (footPadded : Padded copy.foot foot) :
      Edit copy { copy with ahead, head, body, foot }
  | prepend {copy : Copy} (more : List Line) (clean : ∀ line ∈ more, '\n' ∉ line)
      (strange : beginLine ∉ more.map trimEnd) :
      Edit copy { copy with ahead := more ++ copy.ahead }
  /-- What stands behind the end is of no concern. -/
  | append {copy : Copy} (behind : List Char) : Edit copy { copy with behind }
  | dropChecksum {copy : Copy} {front back : List Row} {chars trail : Line}
      (stands : copy.body = front ++ ⟨.checksum chars, trail⟩ :: back) :
      Edit copy { copy with body := front ++ back }
  | moveChecksum {copy : Copy} {front back front' back' : List Row} {chars trail : Line}
      (stands : copy.body = front ++ ⟨.checksum chars, trail⟩ :: back)
      (others : front' ++ back' = front ++ back) :
      Edit copy { copy with body := front' ++ ⟨.checksum chars, trail⟩ :: back' }
  | insertBlank {copy : Copy} {front back : List Row} {trail : Line}
      (parts : copy.body = front ++ back) (pad : Pad trail) :
      Edit copy { copy with body := front ++ ⟨.blank, trail⟩ :: back }
  /-- The lines that hold no base64 stay as they are. -/
  | rewrap {copy : Copy} {body : List Row} (digits : rowDigits body = rowDigits copy.body)
      (others : rowMarks body = rowMarks copy.body)
      (whole : ∀ row ∈ body, ∀ chars ∈ row.digits?, Whole chars)
      (trails : ∀ row ∈ body, Pad row.trail) :
      Edit copy { copy with body }

end Edits

section Lines

variable {all others seen more : List Line} {trail : Line}

theorem Pad.blank (pad : Pad trail) : ∀ c ∈ trail, isBlank c = true := by
  have blanks : ∀ c ∈ [' ', '\t', '\r'], isBlank c = true := Text.forall_of_all (by decide)
  exact fun c member => blanks c (pad c member)

theorem Pad.clean (pad : Pad trail) : '\n' ∉ trail :=
  fun member => absurd (pad _ member) (by decide)

theorem Pad.append {front : Line} (before : Pad front) (pad : Pad trail) : Pad (front ++ trail) :=
  List.forall_mem_append.mpr ⟨before, pad⟩

theorem trimEnd_padded {line longer : Line} (padded : Padded line longer) :
    trimEnd longer = trimEnd line := by
  obtain ⟨trail, pad, rfl⟩ := padded
  exact trimEnd_append_blank line pad.blank

theorem clean_padded {line longer : Line} (padded : Padded line longer) (clean : '\n' ∉ line) :
    '\n' ∉ longer := by
  obtain ⟨trail, pad, rfl⟩ := padded
  exact List.not_mem_append clean pad.clean

structure ReadAs (all seen : List Line) : Prop where
  clean : ∀ line ∈ all, '\n' ∉ line
  trimmed : all.map trimEnd = seen

theorem ReadAs.append (front : ReadAs all seen) (back : ReadAs others more) :
    ReadAs (all ++ others) (seen ++ more) where
  clean := List.forall_mem_append.mpr ⟨front.clean, back.clean⟩
  trimmed := by rw [List.map_append, front.trimmed, back.trimmed]

theorem ReadAs.padded {longer : List Line} (read : ReadAs all seen)
    (padded : List.Forall₂ Padded all longer) : ReadAs longer seen := by
  induction padded generalizing seen with
  | nil => exact read
  | cons first rest ih =>
      obtain ⟨here, later⟩ := List.forall_mem_cons.mp read.clean
      have others := ih ⟨later, rfl⟩
      refine ⟨List.forall_mem_cons.mpr ⟨clean_padded first here, others.clean⟩, ?_⟩
      rw [List.map_cons, trimEnd_padded first, others.trimmed, ← read.trimmed, List.map_cons]

end Lines

section Bodies

variable {octets : Bytes} {body front back : List Row}

/-- No line of whole groups begins with padding, however the digits of the octets are wrapped into
lines. -/
theorem unmarked_of_wrapped {pieces : List Line} (whole : ∀ piece ∈ pieces, Whole piece)
    (wrapped : pieces.flatten = Base64.encode .standard octets) :
    ∀ piece ∈ pieces, Unmarked piece := by
  induction pieces generalizing octets with
  | nil => simp
  | cons piece rest ih =>
      obtain ⟨⟨filled, groups, size⟩, later⟩ := List.forall_mem_cons.mp whole
      rw [List.flatten_cons] at wrapped
      -- The rest is what is written for the octets behind those of the first piece.
      have left : rest.flatten = Base64.encode .standard (octets.drop (3 * groups)) := by
        rw [← Base64.encode_drop, ← wrapped, ← size, List.drop_left]
      refine List.forall_mem_cons.mpr ⟨?_, ih later left⟩
      obtain ⟨c, chars, rfl⟩ := List.exists_cons_of_ne_nil filled
      have some : octets ≠ [] := by
        rintro rfl
        cases wrapped
      obtain ⟨first, more, digits, plain⟩ := unmarked_encode some
      rw [digits, List.cons_append] at wrapped
      obtain ⟨rfl, -⟩ := List.cons.inj wrapped
      exact ⟨c, chars, rfl, plain⟩

structure Row.Sound (octets : Bytes) (row : Row) : Prop where
  whole : ∀ chars ∈ row.digits?, Whole chars
  checksum : ∀ chars, row.content = .checksum chars → chars = checksumDigits octets
  trail : Pad row.trail

/-- A body from which the octets are read. -/
structure Bears (octets : Bytes) (body : List Row) : Prop where
  digits : rowDigits body = Base64.encode .standard octets
  sound : ∀ row ∈ body, row.Sound octets

theorem mem_pieces {row : Row} {chars : Line} (member : row ∈ body)
    (here : row.content = .digits chars) : chars ∈ body.filterMap Row.digits? :=
  List.mem_filterMap.mpr ⟨row, member, by rw [Row.digits?, here]⟩

theorem Bears.unmarked (bears : Bears octets body) {row : Row} {chars : Line}
    (member : row ∈ body) (here : row.content = .digits chars) : Unmarked chars := by
  refine unmarked_of_wrapped ?_ bears.digits chars (mem_pieces member here)
  intro piece among
  obtain ⟨row, member, holds⟩ := List.mem_filterMap.mp among
  exact (bears.sound row member).whole piece holds

theorem Bears.shown (bears : Bears octets body) {row : Row} (member : row ∈ body) :
    ∀ c ∈ row.content.text, isBlank c = false := by
  intro c inside
  cases here : row.content with
  | digits chars =>
      rw [here, Content.text] at inside
      apply encode_shown octets c
      rw [← bears.digits]
      exact List.mem_flatten.mpr ⟨chars, mem_pieces member here, inside⟩
  | checksum chars =>
      rw [here, Content.text, (bears.sound row member).checksum chars here] at inside
      rcases List.mem_cons.mp inside with rfl | digit
      · decide
      · exact encode_shown _ c digit
  | blank =>
      rw [here] at inside
      cases inside

theorem Bears.read (bears : Bears octets body) :
    ReadAs (body.map Row.line) (body.map (·.content.text)) where
  clean := by
    refine List.forall_mem_map.mpr fun row member => ?_
    exact List.not_mem_append (tidy_of_shown (bears.shown member)).clean
      (bears.sound row member).trail.clean
  trimmed := by
    rw [List.map_map]
    refine List.map_congr_left fun row member => ?_
    exact (trimEnd_append_blank _ (bears.sound row member).trail.blank).trans
      (trimEnd_of_shown (bears.shown member))

/-- The digits of a body are read together. Of its checksums, if there are any, the last counts. -/
theorem readBody_rows {own : Line} (pieces : List Line) (checksum : Option Line) (rest : List Line)
    (unmarked : ∀ row ∈ body, ∀ chars, row.content = .digits chars → Unmarked chars)
    (same : ∀ row ∈ body, ∀ chars, row.content = .checksum chars → chars = own)
    (before : ∀ chars ∈ checksum, chars = own) :
    ∃ found, readBody pieces checksum (body.map (·.content.text) ++ endLine :: rest) =
        some ⟨pieces.reverse.flatten ++ rowDigits body, found⟩ ∧
      ∀ chars ∈ found, chars = own := by
  induction body generalizing pieces checksum with
  | nil => exact ⟨checksum, by simp [readBody, rowDigits], before⟩
  | cons row others ih =>
      obtain ⟨unmarkedHere, unmarkedLater⟩ := List.forall_mem_cons.mp unmarked
      obtain ⟨sameHere, sameLater⟩ := List.forall_mem_cons.mp same
      rw [List.map_cons, List.cons_append]
      cases here : row.content with
      | digits chars =>
          obtain ⟨found, read, last⟩ :=
            ih (chars :: pieces) checksum unmarkedLater sameLater before
          refine ⟨found, ?_, last⟩
          rw [Content.text, readBody_unmarked _ _ (unmarkedHere chars here), read]
          simp [rowDigits, here, Row.digits?]
      | checksum chars =>
          have own' : ∀ found ∈ some chars, found = own := by simpa using sameHere chars here
          obtain ⟨found, read, last⟩ := ih pieces (some chars) unmarkedLater sameLater own'
          have other := ne_endLine (c := '=') (by decide) chars
          refine ⟨found, ?_, last⟩
          rw [Content.text, readBody, if_neg other, read]
          simp [rowDigits, here, Row.digits?]
      | blank =>
          have other : [] ≠ endLine := by decide
          obtain ⟨found, read, last⟩ := ih ([] :: pieces) checksum unmarkedLater sameLater before
          refine ⟨found, ?_, last⟩
          rw [Content.text, readBody, if_neg other, read]
          · simp [rowDigits, here, Row.digits?]
          · simp

theorem Bears.readBody (bears : Bears octets body) (rest : List Line) :
    ∃ found, Armor.readBody [] none (body.map (·.content.text) ++ endLine :: rest) =
        some ⟨Base64.encode .standard octets, found⟩ ∧ agrees octets found = true := by
  obtain ⟨found, read, last⟩ := readBody_rows [] none rest
    (fun row member chars here => bears.unmarked member here)
    (fun row member => (bears.sound row member).checksum) (by simp)
  refine ⟨found, ?_, ?_⟩
  · rw [read, bears.digits]
    rfl
  · cases found with
    | none => rfl
    | some chars =>
        rw [last chars rfl, checksumDigits, agrees_own]

theorem bears_original (headers : List (String × String)) (octets : Bytes) :
    Bears octets (original headers octets).body where
  digits := by
    have pieces : (original headers octets).body.filterMap Row.digits? =
        (cut octets).map (Base64.encode .standard) := by
      rw [original, List.filterMap_append, List.filterMap_map]
      change (cut octets).filterMap (some ∘ Base64.encode .standard) ++ [] = _
      rw [List.append_nil, List.filterMap_eq_map]
    rw [rowDigits, pieces, ← List.flatMap_def, flatMap_encode_cut]
  sound := by
    refine List.forall_mem_append.mpr ⟨List.forall_mem_map.mpr fun group member => ?_,
      List.forall_mem_singleton.mpr ?_⟩
    · obtain ⟨c, more, digits, -⟩ := unmarked_encode (ne_nil_of_mem_cut member)
      have whole : Whole (Base64.encode .standard group) :=
        ⟨digits ▸ List.cons_ne_nil _ _, Base64.length_encode _ group ▸ Nat.dvd_mul_right 4 _⟩
      exact ⟨by rintro _ ⟨⟩; exact whole, by rintro _ ⟨⟩, List.forall_mem_nil _⟩
    · exact ⟨by rintro _ ⟨⟩, by rintro _ ⟨⟩; rfl, List.forall_mem_nil _⟩

/-- A line without base64 is put in or taken out, and the digits stay. -/
theorem bears_silent {row : Row} (silent : row.digits? = none) :
    Bears octets (front ++ row :: back) ↔ row.Sound octets ∧ Bears octets (front ++ back) := by
  have same : rowDigits (front ++ row :: back) = rowDigits (front ++ back) := by
    rw [rowDigits, rowDigits, List.filterMap_append, List.filterMap_append,
      List.filterMap_cons_none silent]
  constructor
  · intro ⟨digits, sound⟩
    obtain ⟨before, rest⟩ := List.forall_mem_append.mp sound
    obtain ⟨here, behind⟩ := List.forall_mem_cons.mp rest
    exact ⟨here, same ▸ digits, List.forall_mem_append.mpr ⟨before, behind⟩⟩
  · intro ⟨here, digits, sound⟩
    obtain ⟨before, behind⟩ := List.forall_mem_append.mp sound
    exact ⟨same.trans digits,
      List.forall_mem_append.mpr ⟨before, List.forall_mem_cons.mpr ⟨here, behind⟩⟩⟩

theorem digits?_padded {row longer : Row} (padded : row.Padded longer) :
    longer.digits? = row.digits? := by
  rw [Row.digits?, padded.1, Row.digits?]

theorem Row.Sound.padded {row longer : Row} (sound : row.Sound octets)
    (padded : row.Padded longer) : longer.Sound octets where
  whole := digits?_padded padded ▸ sound.whole
  checksum := padded.1 ▸ sound.checksum
  trail := by
    obtain ⟨trail, pad, more⟩ := padded.2
    rw [more]
    exact sound.trail.append pad

theorem rowDigits_padded {longer : List Row} (padded : List.Forall₂ Row.Padded body longer) :
    rowDigits longer = rowDigits body := by
  induction padded with
  | nil => rfl
  | cons first rest ih =>
      simp only [rowDigits, List.filterMap_cons, digits?_padded first] at ih ⊢
      split
      · exact ih
      · rw [List.flatten_cons, List.flatten_cons, ih]

theorem Bears.padded {longer : List Row} (bears : Bears octets body)
    (padded : List.Forall₂ Row.Padded body longer) : Bears octets longer where
  digits := (rowDigits_padded padded).trans bears.digits
  sound := by
    have sound := bears.sound
    clear bears
    induction padded with
    | nil => exact sound
    | cons first rest ih =>
        obtain ⟨here, later⟩ := List.forall_mem_cons.mp sound
        exact List.forall_mem_cons.mpr ⟨here.padded first, ih later⟩

theorem Bears.rewrapped {other : List Row} (bears : Bears octets body)
    (digits : rowDigits other = rowDigits body) (others : rowMarks other = rowMarks body)
    (whole : ∀ row ∈ other, ∀ chars ∈ row.digits?, Whole chars)
    (trails : ∀ row ∈ other, Pad row.trail) : Bears octets other where
  digits := digits.trans bears.digits
  sound := by
    intro row member
    refine ⟨whole row member, ?_, trails row member⟩
    intro chars here
    have mark : row ∈ rowMarks other := List.mem_filter.mpr ⟨member, by rw [Row.digits?, here]; rfl⟩
    rw [others] at mark
    exact (bears.sound row (List.mem_filter.mp mark).1).checksum chars here

end Bodies

section Runs

variable {seen : List (String × String)} {octets : Bytes} {copy later : Copy}

/-- A copy from which the octets are read, with the headers as they are seen. -/
structure Carries (seen : List (String × String)) (octets : Bytes) (copy : Copy) : Prop where
  ahead : ∃ strangers, ReadAs copy.ahead strangers ∧ beginLine ∉ strangers
  head : ReadAs copy.head (beginLine :: (seen.map headerText ++ [[]]))
  body : Bears octets copy.body
  foot : ReadAs [copy.foot] [endLine]

theorem Carries.decode (carries : Carries seen octets copy) : decode? copy.text = some octets := by
  obtain ⟨strangers, ahead, strange⟩ := carries.ahead
  have read : ReadAs copy.lines _ :=
    ((ahead.append carries.head).append carries.body.read).append carries.foot
  obtain ⟨found, body, agreed⟩ :=
    carries.body.readBody ((Text.Blank.lines copy.behind).map trimEnd)
  rw [decode?, Copy.text, unlines, lines_append read.clean, List.map_append, read.trimmed]
  simp only [List.append_assoc, List.cons_append, List.nil_append]
  rw [decodeLines_strange strange, decodeLines_begin (skipHeaders_headers _ _) body, if_pos agreed]

/-- No edit takes anything from a copy that the reader goes by. -/
theorem Carries.edit (edit : Edit copy later) (carries : Carries seen octets copy) :
    Carries seen octets later := by
  obtain ⟨strangers, ahead, strange⟩ := carries.ahead
  have body := carries.body
  cases edit with
  | pad aheadPadded headPadded bodyPadded footPadded =>
      exact ⟨⟨strangers, ahead.padded aheadPadded, strange⟩, carries.head.padded headPadded,
        body.padded bodyPadded, carries.foot.padded (.cons footPadded .nil)⟩
  | prepend more clean others =>
      have front : ReadAs more (more.map trimEnd) := ⟨clean, rfl⟩
      exact { carries with ahead := ⟨_, front.append ahead, List.not_mem_append others strange⟩ }
  | append behind => exact { carries with }
  | dropChecksum stands =>
      rw [stands, bears_silent rfl] at body
      exact { carries with body := body.2 }
  | moveChecksum stands others =>
      rw [stands, bears_silent rfl, ← others] at body
      exact { carries with body := (bears_silent rfl).mpr body }
  | insertBlank parts pad =>
      rw [parts] at body
      have blank : Row.Sound octets ⟨.blank, _⟩ := ⟨by rintro _ ⟨⟩, by rintro _ ⟨⟩, pad⟩
      exact { carries with body := (bears_silent rfl).mpr ⟨blank, body⟩ }
  | rewrap digits others whole trails =>
      exact { carries with body := body.rewrapped digits others whole trails }

theorem Carries.edits (edits : Relation.ReflTransGen Edit copy later)
    (carries : Carries seen octets copy) : Carries seen octets later := by
  induction edits with
  | refl => exact carries
  | tail _ edit ih => exact ih.edit edit

theorem carries_original {headers : List (String × String)} (octets : Bytes)
    (fit : ∀ header ∈ headers, Fit header) :
    Carries (headers.map trimmed) octets (original headers octets) where
  ahead := ⟨[], ⟨List.forall_mem_nil _, rfl⟩, List.not_mem_nil⟩
  head := by
    have begin : ReadAs [beginLine] [beginLine] := ⟨by decide, by decide⟩
    have between : ReadAs [[]] [[]] := ⟨by decide, by decide⟩
    have titles : ReadAs (headers.map headerText) ((headers.map trimmed).map headerText) :=
      ⟨List.forall_mem_map.mpr fun header member => (fit header member).clean, map_trimEnd_fit fit⟩
    exact begin.append (titles.append between)
  body := bears_original headers octets
  foot := (⟨by decide, by decide⟩ : ReadAs [endLine] [endLine])

end Runs

/-- Armor that has been through any edits, in any order, is read as it was written. -/
theorem transport_does_not_show {headers : List (String × String)}
    (fit : ∀ header ∈ headers, Fit header) (chunks : List Bytes) :
    (original headers chunks.flatten).text = write headers chunks ∧
      decode? (write headers chunks) = some chunks.flatten ∧
      ∀ copy, Relation.ReflTransGen Edit (original headers chunks.flatten) copy →
        decode? copy.text = decode? (write headers chunks) := by
  have text : write headers chunks = unlines (framed headers chunks.flatten) :=
    writer_computes headers chunks
  have carries := carries_original chunks.flatten fit
  have read : decode? (write headers chunks) = some chunks.flatten := by
    rw [text, ← text_original, carries.decode]
  refine ⟨(text_original _ _).trans text.symm, read, fun copy edits => ?_⟩
  rw [(carries.edits edits).decode, read]

def note : String × String := ("Comment", "a note ")

def six : Bytes := [1, 2, 3, 4, 5, 6]

def oneLine : Row := ⟨.digits "AQIDBAUG".toList, []⟩
def leftLine : Row := ⟨.digits "AQID".toList, []⟩
def rightLine : Row := ⟨.digits "BAUG".toList, []⟩
def checksumRow : Row := ⟨.checksum (checksumDigits six), []⟩
def tabRow : Row := ⟨.blank, ['\t']⟩

def noted (body : List Row) : Copy := ⟨[], [beginLine, headerText note, []], body, endLine, []⟩

/-- A message with CR LF at some line ends, the checksum in front, two lines of base64 where there
was one, a blank line between these, and text around the whole. -/
def forwarded : Copy where
  ahead := ["> forwarded".toList]
  head := [beginLine ++ ['\r'], headerText note ++ ['\t', '\r'], ['\r']]
  body := [⟨.checksum (checksumDigits six), [' ']⟩, leftLine, tabRow, rightLine]
  foot := endLine ++ ['\r']
  behind := "sent twice".toList

theorem original_noted : original [note] six = noted [oneLine, checksumRow] := by
  have one : cut six = [six] := cut_short (by decide) (by decide)
  rw [original, one]
  rfl

theorem edits_forwarded : Relation.ReflTransGen Edit (original [note] six) forwarded := by
  have moved : Edit (noted [oneLine, checksumRow]) (noted [checksumRow, oneLine]) :=
    .moveChecksum (show _ = [oneLine] ++ checksumRow :: [] from rfl) (List.nil_append _)
  have wrapped : Edit (noted [checksumRow, oneLine]) (noted [checksumRow, leftLine, rightLine]) :=
    .rewrap rfl rfl (by decide) (by decide)
  have parted : Edit (noted [checksumRow, leftLine, rightLine])
      (noted [checksumRow, leftLine, tabRow, rightLine]) :=
    .insertBlank (show _ = [checksumRow, leftLine] ++ [rightLine] from rfl) (by decide)
  have padded : Edit (noted [checksumRow, leftLine, tabRow, rightLine])
      { forwarded with ahead := [], behind := [] } := by
    have same (row : Row) : row.Padded row := ⟨rfl, [], by decide, (List.append_nil _).symm⟩
    refine .pad .nil ?_ ?_ ⟨['\r'], by decide, rfl⟩
    · exact .cons ⟨['\r'], by decide, rfl⟩ (.cons ⟨['\t', '\r'], by decide, rfl⟩
        (.cons ⟨['\r'], by decide, rfl⟩ .nil))
    · exact .cons ⟨rfl, [' '], by decide, rfl⟩
        (.cons (same _) (.cons (same _) (.cons (same _) .nil)))
  have preceded : Edit { forwarded with ahead := [], behind := [] }
      { forwarded with behind := [] } :=
    .prepend ["> forwarded".toList] (by decide) (by decide)
  have followed : Edit { forwarded with behind := [] } forwarded := .append "sent twice".toList
  rw [original_noted]
  exact .head moved <| .head wrapped <| .head parted <| .head padded <| .head preceded <|
    .single followed

theorem forwarded_is_read :
    (∀ header ∈ [note], Fit header) ∧
      Relation.ReflTransGen Edit (original [note] six) forwarded ∧
      forwarded.text = ("> forwarded\n-----BEGIN PGP MESSAGE-----\r\n" ++
        "Comment: a note \t\r\n\r\n=NIu9 \nAQID\n\t\nBAUG\n-----END PGP MESSAGE-----\r\n" ++
        "sent twice").toList ∧
      decode? forwarded.text = some six := by
  have fit : ∀ header ∈ [note], Fit header := by
    refine List.forall_mem_singleton.mpr ?_
    exact ⟨by decide, by decide, 'a', by decide, by decide⟩
  obtain ⟨-, read, kept⟩ := transport_does_not_show fit [[1, 2, 3], [4, 5, 6]]
  refine ⟨fit, edits_forwarded, by decide +kernel, ?_⟩
  rw [kept forwarded edits_forwarded, read]
  rfl

end DeadDrop.Armor
