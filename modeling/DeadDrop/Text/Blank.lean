/-!
White space and lines. Blank characters are those of the Unicode property White_Space. A text
splits into lines at line feeds; a final line feed ends the last line and opens no other.
-/

namespace DeadDrop.Text.Blank

def isBlank (c : Char) : Bool :=
  let n := c.toNat
  (9 ≤ n && n ≤ 13) || n = 32 || n = 0x85 || n = 0xA0 || n = 0x1680
    || (0x2000 ≤ n && n ≤ 0x200A) || n = 0x2028 || n = 0x2029 || n = 0x202F
    || n = 0x205F || n = 0x3000

def trimStart (chars : List Char) : List Char := chars.dropWhile isBlank

def trimEnd (chars : List Char) : List Char := (chars.reverse.dropWhile isBlank).reverse

def trim (chars : List Char) : List Char := trimEnd (trimStart chars)

/-- Pieces between separators: one more than there are separators. -/
def splitOn (separator : Char) (chars : List Char) : List (List Char) :=
  go chars [] []
where
  go : List Char → List Char → List (List Char) → List (List Char)
    | [], piece, done => (piece.reverse :: done).reverse
    | c :: rest, piece, done =>
        if c = separator then go rest [] (piece.reverse :: done)
        else go rest (c :: piece) done

def lines (chars : List Char) : List (List Char) :=
  match (splitOn '\n' chars).reverse with
  | [] :: others => others.reverse
  | all => all.reverse

end DeadDrop.Text.Blank
