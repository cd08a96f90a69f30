/-
Replacing every occurrence of a pattern.

Occurrences are found from left to right and do not overlap: the search goes on
behind the one just replaced, and the replacement itself is never searched.
-/

namespace SqlSession.Text

/-- Replace the occurrences of `pattern`, after passing over `skip` characters of an
occurrence already replaced. -/
def replaceFrom (pattern replacement : List Char) : Nat → List Char → List Char
  | _, [] => []
  | skip + 1, _ :: rest => replaceFrom pattern replacement skip rest
  | 0, c :: rest =>
    if pattern.isPrefixOf (c :: rest) then
      replacement ++ replaceFrom pattern replacement (pattern.length - 1) rest
    else
      c :: replaceFrom pattern replacement 0 rest

/-- Replace every occurrence of a non-empty pattern. -/
def replaceAll (s pattern replacement : String) : String :=
  String.ofList (replaceFrom pattern.toList replacement.toList 0 s.toList)

end SqlSession.Text
