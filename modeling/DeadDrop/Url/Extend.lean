import DeadDrop.Url.Parse

/-!
Extending URLs. The path of a URL is exchanged by reading another text in its place, and a slash is
put at its end in this way. A reference that is nothing but a path is read on from the last slash of
its base; query and fragment of the base fall away.
-/

namespace DeadDrop.Url

open Text.Blank (splitOn)

/-- The text of a path without segments. It does not begin with a slash. -/
def rootlessText : List Char → List Char
  | '/' :: rest => "%2F".toList ++ Percent.encode isControl rest
  | chars => Percent.encode isControl chars

/-- Another path, from a text that begins with a slash. No character ends it. -/
def setPath (url : Url) (chars : List Char) : Url :=
  let file := isFile url.scheme
  let items := readItems (isSpecial url.scheme) file (chars.filter fun c => !isBreak c)
  { url with
    path := match url.path with
      | .rootless _ => .rootless (rootlessText chars)
      | .segments _ => .segments (if file then withoutLeadingEmpty items else items) }

def closePath (url : Url) : Url :=
  if url.path.write.getLast? = some '/' then url else url.setPath (url.path.write ++ ['/'])

def join (base : Url) (reference : List Char) : Except Fault Url :=
  match base.path with
  | .rootless _ => .error .opaqueBase
  | .segments items =>
      let special := isSpecial base.scheme
      let file := isFile base.scheme
      let tail := parts special (cleaned reference)
      let kept := shorten file items.reverse
      .ok { base with
        path := .segments (walk file kept (splitOn '/' (slashed special tail.path))).reverse
        query := tail.query
        fragment := tail.fragment }

end DeadDrop.Url
