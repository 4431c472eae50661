import DeadDrop.Armor.Frame
import DeadDrop.Proofs.Armor.Base64
import DeadDrop.Proofs.Text.Blank
import DeadDrop.Proofs.Transducer

/-!
What the armor writer writes is a list of lines that depends on the octets alone, and the reader
gets the octets back from it. Every group of octets but the last is a whole number of base64
groups, so the digits of all lines together are those of all octets.
-/

namespace DeadDrop.Armor

open Text.Blank (isBlank trimEnd lines)

section Cutting

theorem lineOctets_pos : 0 < lineOctets := by decide

/-- The octets of each line: full ones, and one with the rest unless there is none. -/
def cut (octets : Bytes) : List Bytes :=
  if octets = [] then [] else octets.take lineOctets :: cut (octets.drop lineOctets)
termination_by octets.length
decreasing_by
  rename_i some
  have filled : 0 < octets.length := List.length_pos_iff.mpr some
  have positive := lineOctets_pos
  simp only [List.length_drop]
  omega

variable {octets : Bytes}

theorem cut_nil : cut [] = [] := by rw [cut, if_pos rfl]

theorem cut_some (some : octets ≠ []) :
    cut octets = octets.take lineOctets :: cut (octets.drop lineOctets) := by
  rw [cut, if_neg some]

theorem cut_short (some : octets ≠ []) (short : octets.length ≤ lineOctets) :
    cut octets = [octets] := by
  rw [cut_some some, List.take_of_length_le short, List.drop_eq_nil_of_le short, cut_nil]

theorem ne_nil_of_mem_cut {group : Bytes} (member : group ∈ cut octets) : group ≠ [] := by
  induction octets using cut.induct with
  | case1 => rw [cut_nil] at member; cases member
  | case2 octets some ih =>
      rw [cut_some some] at member
      rcases List.mem_cons.mp member with rfl | later
      · intro none
        rcases List.take_eq_nil_iff.mp none with zero | empty
        · exact absurd zero (Nat.ne_of_gt lineOctets_pos)
        · exact some empty
      · exact ih later

theorem flatMap_encode_cut (octets : Bytes) :
    (cut octets).flatMap (Base64.encode .standard) = Base64.encode .standard octets := by
  induction octets using cut.induct with
  | case1 => rw [cut_nil]; rfl
  | case2 octets some ih =>
      rw [cut_some some, List.flatMap_cons, ih]
      by_cases short : octets.length ≤ lineOctets
      · rw [List.take_of_length_le short, List.drop_eq_nil_of_le short]
        simp [Base64.encode]
      -- A full line is sixteen groups of three octets, so its digits carry no padding.
      · have full : (octets.take lineOctets).length = 3 * 16 := by
          rw [List.length_take, Nat.min_eq_left (Nat.le_of_not_le short)]
          rfl
        rw [← Base64.encode_append 16 _ full, List.take_append_drop]

end Cutting

section Write

def bodyLines (octets : Bytes) : List Char := (cut octets).flatMap bodyLine

/-- What comes after the base64 lines. -/
def closing (checksum : Checksum) : List Char :=
  '=' :: bodyLine checksum.toBytes ++ endLine ++ ['\n']

def pendingAhead (pending : Pending) (rest : Bytes) : List Char :=
  bodyLines (pending.octets ++ rest) ++ closing (pending.checksum.update rest)

theorem fullLines_rest (count : Nat) (octets : Bytes) (done : List Line) :
    (fullLines count octets done).2 = octets.drop (count * lineOctets) := by
  induction count generalizing octets done with
  | zero => simp [fullLines]
  | succ count ih => rw [fullLines, ih, List.drop_drop, Nat.succ_mul, Nat.add_comm]

theorem fullLines_ahead {count : Nat} {octets : Bytes} (done : List Line) (rest : Bytes)
    (enough : count * lineOctets ≤ octets.length) :
    (fullLines count octets done).1.flatten ++ bodyLines ((fullLines count octets done).2 ++ rest) =
      done.reverse.flatten ++ bodyLines (octets ++ rest) := by
  induction count generalizing octets done with
  | zero => rfl
  | succ count ih =>
      rw [Nat.succ_mul] at enough
      have full : lineOctets ≤ octets.length := Nat.le_trans (Nat.le_add_left _ _) enough
      have filled : octets ≠ [] :=
        List.length_pos_iff.mp (Nat.lt_of_lt_of_le lineOctets_pos full)
      have some : octets ++ rest ≠ [] := List.append_ne_nil_of_left_ne_nil filled rest
      have later : count * lineOctets ≤ (octets.drop lineOctets).length := by
        rw [List.length_drop]
        omega
      have first : bodyLines (octets ++ rest) =
          bodyLine (octets.take lineOctets) ++ bodyLines (octets.drop lineOctets ++ rest) := by
        rw [bodyLines, cut_some some, List.take_append_of_le_length full,
          List.drop_append_of_le_length full]
        rfl
      rw [fullLines, ih _ later, first]
      simp

theorem feed_ahead (pending : Pending) (chunk rest : Bytes) :
    let octets := pending.octets ++ chunk
    let sent := fullLines (octets.length / lineOctets) octets []
    pendingAhead pending (chunk ++ rest) =
      sent.1.flatten ++ pendingAhead ⟨sent.2, pending.checksum.update chunk⟩ rest := by
  intro octets sent
  have enough : octets.length / lineOctets * lineOctets ≤ octets.length :=
    Nat.div_mul_le_self _ _
  have lines := fullLines_ahead [] rest enough
  simp only [pendingAhead, Checksum.update_append, ← List.append_assoc]
  rw [lines]
  simp [octets]

theorem feed_short (pending : Pending) (chunk : Bytes) :
    let octets := pending.octets ++ chunk
    (fullLines (octets.length / lineOctets) octets []).2.length < lineOctets := by
  intro octets
  rw [fullLines_rest, List.length_drop]
  simp only [lineOctets]
  omega

theorem close_ahead (pending : Pending) (short : pending.octets.length < lineOctets) :
    pendingAhead pending [] =
      (if pending.octets = [] then [] else bodyLine pending.octets) ++
        '=' :: bodyLine pending.checksum.toBytes ++ endLine ++ ['\n'] := by
  have last : bodyLines pending.octets =
      if pending.octets = [] then [] else bodyLine pending.octets := by
    split
    · next none => rw [none, bodyLines, cut_nil]; rfl
    · next some => rw [bodyLines, cut_short some (Nat.le_of_lt short)]; simp
  rw [pendingAhead, List.append_nil, last]
  simp [closing, Checksum.update]

def headerText (header : String × String) : Line :=
  header.1.toList ++ ':' :: ' ' :: header.2.toList

def framed (headers : List (String × String)) (octets : Bytes) : List Line :=
  beginLine :: (headers.map headerText ++ [] ::
    ((cut octets).map (Base64.encode .standard) ++
      ['=' :: Base64.encode .standard (Checksum.ofBytes octets).toBytes, endLine]))

def unlines (all : List Line) : List Char := all.flatMap fun line => line ++ ['\n']

theorem unlines_framed (headers : List (String × String)) (octets : Bytes) :
    unlines (framed headers octets) =
      beginLine ++ ['\n'] ++ headers.flatMap headerLine ++ ['\n'] ++
        (bodyLines octets ++ closing (Checksum.ofBytes octets)) := by
  have texts : (headers.map headerText).flatMap (fun line => line ++ ['\n']) =
      headers.flatMap headerLine := by
    have one (header : String × String) : headerText header ++ ['\n'] = headerLine header := by
      simp [headerText, headerLine]
    rw [List.flatMap_map]
    simp only [one]
  have bodies : ((cut octets).map (Base64.encode .standard)).flatMap (fun line => line ++ ['\n']) =
      bodyLines octets := by
    rw [List.flatMap_map]
    rfl
  simp [unlines, framed, texts, bodies, closing, bodyLine]

theorem writer_computes (headers : List (String × String)) :
    (writer headers).Computes fun octets => unlines (framed headers octets) := by
  have ahead := (writer headers).computes_of_ahead
    (fun (pending : Pending) => pending.octets.length < lineOctets) pendingAhead lineOctets_pos
    (fun (pending : Pending) chunk _ => feed_short pending chunk)
    (fun (pending : Pending) chunk rest _ => feed_ahead pending chunk rest) close_ahead
  intro chunks
  exact (ahead chunks).trans (unlines_framed headers chunks.flatten).symm

end Write

section Read

/-- A line that is read as it is written. -/
structure Tidy (line : Line) : Prop where
  clean : '\n' ∉ line
  whole : trimEnd line = line

theorem tidy_of_shown {line : Line} (shown : ∀ c ∈ line, isBlank c = false) : Tidy line := by
  refine ⟨?_, Text.Blank.trimEnd_of_shown shown⟩
  intro member
  have blank := shown _ member
  simp [isBlank] at blank

theorem digit_plain : ∀ value < 64, isBlank (Base64.Alphabet.standard.digit value) = false ∧
    Base64.Alphabet.standard.digit value ≠ '-' ∧ Base64.Alphabet.standard.digit value ≠ '=' := by
  decide +kernel

theorem encode_shown (octets : Bytes) :
    ∀ c ∈ Base64.encode .standard octets, isBlank c = false := by
  intro c member
  rcases Base64.mem_encode member with rfl | ⟨value, small, rfl⟩
  · decide
  · exact (digit_plain value small).1

theorem tidy_behind_headers (octets : Bytes) (checksum : Checksum) :
    ∀ line ∈ [] :: ((cut octets).map (Base64.encode .standard) ++
      ['=' :: Base64.encode .standard checksum.toBytes, endLine]), Tidy line := by
  intro line member
  simp only [List.mem_cons, List.mem_append, List.mem_map, List.not_mem_nil, or_false] at member
  rcases member with rfl | ⟨group, member, rfl⟩ | rfl | rfl
  · exact ⟨List.not_mem_nil, rfl⟩
  · exact tidy_of_shown (encode_shown group)
  · apply tidy_of_shown
    intro c member
    rcases List.mem_cons.mp member with rfl | digit
    · decide
    · exact encode_shown _ c digit
  · exact ⟨by decide, by decide⟩

theorem clean_framed {headers : List (String × String)} (octets : Bytes)
    (clean : ∀ header ∈ headers, '\n' ∉ headerText header) :
    ∀ line ∈ framed headers octets, '\n' ∉ line := by
  intro line member
  rcases List.mem_cons.mp member with rfl | member
  · decide
  · rcases List.mem_append.mp member with title | behind
    · obtain ⟨header, among, rfl⟩ := List.mem_map.mp title
      exact clean header among
    · exact (tidy_behind_headers octets _ line behind).clean

theorem map_trimEnd_framed {headers seen : List (String × String)} (octets : Bytes)
    (trimmed : (headers.map headerText).map trimEnd = seen.map headerText) :
    (framed headers octets).map trimEnd = framed seen octets := by
  have first : trimEnd beginLine = beginLine := by decide
  rw [framed, List.map_cons, first, List.map_append, trimmed,
    List.map_congr_left fun line member => (tidy_behind_headers octets _ line member).whole,
    List.map_id', framed]

/-- A line is taken for a header if a colon and a blank stand anywhere in it. -/
theorem holdsHeader_iff {line : Line} : holdsHeader line = true ↔ [':', ' '] <:+: line := by
  fun_induction holdsHeader line with
  | case1 rest => exact iff_of_true rfl (List.prefix_append [':', ' '] rest).isInfix
  | case2 c rest other ih =>
      rw [ih, List.infix_cons_iff, or_iff_right]
      rintro ⟨after, same⟩
      cases same
      exact other after rfl rfl
  | case3 => simp

theorem holdsHeader_headerText (header : String × String) :
    holdsHeader (headerText header) = true :=
  holdsHeader_iff.mpr ⟨header.1.toList, header.2.toList, by simp [headerText]⟩

theorem skipHeaders_cons {line : Line} (filled : line ≠ []) (rest : List Line) :
    skipHeaders (line :: rest) = if holdsHeader line then skipHeaders rest else none := by
  cases line with
  | nil => exact absurd rfl filled
  | cons c chars => rw [skipHeaders]; simp

theorem skipHeaders_append {front : List Line} (filled : ∀ line ∈ front, line ≠ [])
    (rest : List Line) :
    skipHeaders (front ++ rest) =
      if ∀ line ∈ front, holdsHeader line = true then skipHeaders rest else none := by
  induction front with
  | nil => simp
  | cons line others ih =>
      obtain ⟨here, later⟩ := List.forall_mem_cons.mp filled
      rw [List.cons_append, skipHeaders_cons here, ih later]
      by_cases holds : holdsHeader line = true
      · simp [holds]
      · simp [holds]

theorem headerText_ne_nil (header : String × String) : headerText header ≠ [] := by
  simp [headerText]

theorem skipHeaders_headers (headers : List (String × String)) (rest : List Line) :
    skipHeaders (headers.map headerText ++ [] :: rest) = some rest := by
  rw [skipHeaders_append, if_pos, skipHeaders]
  · exact List.forall_mem_map.mpr fun header _ => holdsHeader_headerText header
  · exact List.forall_mem_map.mpr fun header _ => headerText_ne_nil header

theorem ne_endLine {c : Char} (other : c ≠ '-') (rest : Line) : c :: rest ≠ endLine := by
  intro same
  have heads := congrArg List.head? same
  have dash : endLine.head? = some '-' := by decide
  rw [dash] at heads
  exact other (Option.some.inj heads)

theorem readBody_checksum (pieces : List Line) (digits : Line) :
    readBody pieces none ['=' :: digits, endLine] =
      some ⟨pieces.reverse.flatten, some digits⟩ := by
  have other := ne_endLine (c := '=') (by decide) digits
  rw [readBody, if_neg other]
  simp [readBody]

/-- A line of which the reader can tell at once that it neither is a checksum nor ends a message. -/
def Unmarked (line : Line) : Prop := ∃ c chars, line = c :: chars ∧ c ≠ '-' ∧ c ≠ '='

theorem unmarked_encode {octets : Bytes} (some : octets ≠ []) :
    Unmarked (Base64.encode .standard octets) := by
  obtain ⟨value, small, chars, digits⟩ : ∃ value < 64, ∃ chars,
      Base64.encode .standard octets = Base64.Alphabet.standard.digit value :: chars :=
    Base64.encode_head some
  exact ⟨_, chars, digits, (digit_plain value small).2⟩

theorem readBody_unmarked {line : Line} (pieces : List Line) (checksum : Option Line)
    (unmarked : Unmarked line) (rest : List Line) :
    readBody pieces checksum (line :: rest) = readBody (line :: pieces) checksum rest := by
  obtain ⟨c, chars, rfl, noDash, noPadding⟩ := unmarked
  rw [readBody, if_neg (ne_endLine noDash chars)]
  intro digits same
  cases same
  exact noPadding rfl

theorem readBody_groups {groups : List Bytes} (pieces : List Line) (digits : Line)
    (filled : ∀ group ∈ groups, group ≠ []) :
    readBody pieces none (groups.map (Base64.encode .standard) ++ ['=' :: digits, endLine]) =
      some ⟨pieces.reverse.flatten ++ groups.flatMap (Base64.encode .standard), some digits⟩ := by
  induction groups generalizing pieces with
  | nil =>
      rw [List.map_nil, List.nil_append, readBody_checksum]
      simp
  | cons group rest ih =>
      obtain ⟨here, later⟩ := List.forall_mem_cons.mp filled
      rw [List.map_cons, List.cons_append, readBody_unmarked _ _ (unmarked_encode here),
        ih _ later, List.flatMap_cons]
      simp

theorem agrees_own (octets : Bytes) :
    agrees octets (some (Base64.encode .standard (Checksum.ofBytes octets).toBytes)) = true := by
  simp [agrees, Base64.decode_encode Base64.standard_sound]

theorem dropWhile_begin (inside : List Line) :
    (beginLine :: inside).dropWhile (· ≠ beginLine) = beginLine :: inside := by
  simp

theorem decodeLines_skipping (inside : List Line) :
    decodeLines (beginLine :: inside) =
      (skipHeaders inside).bind fun rest => decodeLines (beginLine :: [] :: rest) := by
  simp only [decodeLines, dropWhile_begin]
  cases skipHeaders inside <;> rfl

/-- What is read from a message is decided by its checksum, if its digits are some octets'. -/
theorem decodeLines_begin {inside rest : List Line} {octets : Bytes} {checksum : Option Line}
    (skipped : skipHeaders inside = some rest)
    (body : readBody [] none rest = some ⟨Base64.encode .standard octets, checksum⟩) :
    decodeLines (beginLine :: inside) = if agrees octets checksum then some octets else none := by
  rw [decodeLines, dropWhile_begin]
  simp [skipped, body, Base64.decode_encode Base64.standard_sound]

theorem decodeLines_framed (headers : List (String × String)) (octets : Bytes) :
    decodeLines (framed headers octets) = some octets := by
  have filled : ∀ group ∈ cut octets, group ≠ [] := fun _ member => ne_nil_of_mem_cut member
  have body := readBody_groups [] (Base64.encode .standard (Checksum.ofBytes octets).toBytes) filled
  rw [flatMap_encode_cut] at body
  rw [framed, decodeLines_begin (skipHeaders_headers _ _) body, if_pos (agrees_own octets)]

/-- Armor is read back whatever trimming leaves of the headers, as long as they are headers. -/
theorem decode_framed {headers seen : List (String × String)} (octets : Bytes)
    (clean : ∀ header ∈ headers, '\n' ∉ headerText header)
    (trimmed : (headers.map headerText).map trimEnd = seen.map headerText) :
    decode? (unlines (framed headers octets)) = some octets := by
  rw [decode?, unlines, Text.Blank.lines_flatMap (clean_framed octets clean),
    map_trimEnd_framed octets trimmed, decodeLines_framed]

theorem decode_written {headers : List (String × String)} (octets : Bytes)
    (tidy : ∀ header ∈ headers, Tidy (headerText header)) :
    decode? (unlines (framed headers octets)) = some octets := by
  apply decode_framed octets fun header member => (tidy header member).clean
  rw [List.map_map]
  exact List.map_congr_left fun header member => (tidy header member).whole

end Read

end DeadDrop.Armor
