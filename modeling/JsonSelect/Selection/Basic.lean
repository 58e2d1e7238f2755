/-
# JsonSelect.Selection.Basic -- the values that a path selects

A segment selects values inside a value, and a path lets its segments select one after
the other.  `Json.search` stops at the first object with the name on each way down.
-/
import JsonSelect.Path.Segment
import JsonSelect.Selection.Positions

namespace JsonSelect

set_option autoImplicit false

namespace Json

mutual

/-- The values with a name in the nearest objects that have one, in the order in which
they stand. -/
def search (name : String) : Json → List Json
  | .array items => searchItems name items
  | .object members =>
      match Keyed.get? name members with
      | some v => [v]
      | none => searchMembers name members
  | _ => []

def searchItems (name : String) : List Json → List Json
  | [] => []
  | v :: rest => v.search name ++ searchItems name rest

def searchMembers (name : String) : List (String × Json) → List Json
  | [] => []
  | (_, v) :: rest => v.search name ++ searchMembers name rest

end

/-- The member with a name. -/
def member? (name : String) : Json → Option Json
  | .object members => Keyed.get? name members
  | _ => none

/-- The items that a text between brackets selects. -/
def itemsAt (text : String) : Json → List Json
  | .array items => Positions.selectText text items
  | _ => []

end Json

/-- The values that a segment selects inside a value. -/
def Segment.select (v : Json) : Segment → List Json
  | .child name => (v.member? name).toList
  | .descendant name => v.search name
  | .index text => v.itemsAt text

/-- The values that a path selects inside a value, in the order in which they stand. -/
def Path.select (root : Json) (path : Path) : List Json :=
  path.foldl (fun current segment => current.flatMap segment.select) [root]

end JsonSelect
