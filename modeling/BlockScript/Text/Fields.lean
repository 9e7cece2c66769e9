/-!
# Fields of a text

* `fields sep`: the pieces of a text between the separators `sep`.
-/

namespace BlockScript.Text

/-- The pieces of a text between separators. There is one more of them than there are
separators. -/
def fields (sep : Char) : List Char → List (List Char)
  | [] => [[]]
  | c :: cs =>
    if c = sep then [] :: fields sep cs
    else
      match fields sep cs with
      | [] => [[c]]
      | f :: fs => (c :: f) :: fs

end BlockScript.Text
