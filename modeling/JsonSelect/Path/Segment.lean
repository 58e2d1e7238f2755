/-
# JsonSelect.Path.Segment -- path expressions as data

A path is a list of segments.  Its text is `$` and the texts of its segments; its
description as a JSON value keeps the segments apart, which the text does not always do.
-/
import JsonSelect.Json.Basic

namespace JsonSelect

set_option autoImplicit false

inductive Segment where
  /-- The member with this name. -/
  | child (name : String)
  /-- The nearest members with this name, at any depth. -/
  | descendant (name : String)
  /-- The items that a text between brackets selects. -/
  | index (text : String)
  deriving DecidableEq

abbrev Path := List Segment

namespace Segment

def kind : Segment → String
  | .child _ => "child"
  | .descendant _ => "descendant"
  | .index _ => "index"

/-- The name or the text between the brackets. -/
def content : Segment → String
  | .child name => name
  | .descendant name => name
  | .index text => text

/-- The text of a segment inside an expression. -/
def display : Segment → List Char
  | .child name => '.' :: name.toList
  | .descendant name => '.' :: '.' :: name.toList
  | .index text => '[' :: (text.toList ++ [']'])

def toJson (segment : Segment) : Json :=
  .object [("kind", .string segment.kind), ("text", .string segment.content)]

end Segment

namespace Path

def display (path : Path) : List Char := '$' :: path.flatMap Segment.display

def toJson (path : Path) : Json := .array (path.map Segment.toJson)

end Path

end JsonSelect
