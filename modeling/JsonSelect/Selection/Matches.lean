/-
# JsonSelect.Selection.Matches -- what is done with a list of matches

* `Matches.first` keeps the first match, `Matches.unique` the first of those that
  have the same text, and `Matches.orDefault` puts a value in place of no match.
-/
import JsonSelect.Json.Rendering

namespace JsonSelect

set_option autoImplicit false

namespace Matches

def first (found : List Json) : List Json := found.take 1

/-- The matches whose text is not among `seen` or that of an earlier match. -/
def uniqueSince (seen : List String) : List Json → List Json
  | [] => []
  | v :: rest =>
      if v.compact ∈ seen then uniqueSince seen rest
      else v :: uniqueSince (v.compact :: seen) rest

def unique (found : List Json) : List Json := uniqueSince [] found

def orDefault (found : List Json) (default : Json) : List Json :=
  if found.isEmpty then [default] else found

end Matches

end JsonSelect
