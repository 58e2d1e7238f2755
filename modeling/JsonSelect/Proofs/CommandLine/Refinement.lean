/-
# JsonSelect.Proofs.CommandLine.Refinement -- what is shown of the matches

Matches are made unique, cut to the first and replaced by the default, in this order.  None of
the first two steps leaves nothing where something was, and both keep the first match, so the
default stands for no match alone and the other two do not meet.

* `Matches.head?_unique`, `Matches.unique_eq_nil_iff`: what making matches unique keeps.
* `Matches.firsts_iff`: it is the values of the first positions, and nothing else is.
* `Arguments.refine_of_nil`, `Arguments.refine_of_kept`: when the default is shown.
* `Arguments.at?_of_whole`, `Arguments.at?_of_drifting`: the default is read as any JSON text
  is.  Its whole numbers stay such if they fit in 64 bits, but for zero with a minus sign, and
  become doubles otherwise.
* `Arguments.reply_of_matches`: the reply of a command from the matches of its path.
-/
import Mathlib.Data.List.Sort
import JsonSelect.Proofs.CommandLine.Failure
import JsonSelect.Proofs.Json.Reading.Located
import JsonSelect.Proofs.Json.Reading.Whole
import JsonSelect.Proofs.Selection.Unique
import JsonSelect.Proofs.Strictness

namespace JsonSelect

set_option autoImplicit false

/-! ## Steps of the refinement -/

namespace Matches

variable {found : List Json}

theorem first_eq (found : List Json) : first found = found.head?.toList := by
  cases found <;> rfl

@[simp] theorem head?_unique (found : List Json) : (unique found).head? = found.head? := by
  cases found with
  | nil => rfl
  | cons v rest =>
      rw [unique, uniqueSince_of_new List.not_mem_nil]
      rfl

@[simp] theorem unique_eq_nil_iff : unique found = [] ↔ found = [] := by
  rw [← List.head?_eq_none_iff, head?_unique, List.head?_eq_none_iff]

/-- What is kept are the values of the first positions, in the order of these. -/
def Firsts (found kept : List Json) : Prop :=
  ∃ positions : List Nat, positions.Pairwise (· < ·) ∧
    (∀ i, i ∈ positions ↔ FirstAt found i) ∧ kept.map some = positions.map (found[·]?)

theorem firsts_unique (found : List Json) : Firsts found (unique found) := by
  obtain ⟨positions, sorted, members, values⟩ := exists_positions [] found
  refine ⟨positions, sorted, fun i => ?_, values⟩
  rw [members, newAt_nil_iff]

/-- There is one list of first positions in order, so nothing else can be kept. -/
theorem firsts_iff {kept : List Json} : Firsts found kept ↔ kept = unique found := by
  constructor
  · rintro ⟨positions, sorted, members, values⟩
    obtain ⟨positions', sorted', members', values'⟩ := firsts_unique found
    have same : positions = positions' :=
      sorted.eq_of_mem_iff sorted' fun i => (members i).trans (members' i).symm
    rw [← same, ← values] at values'
    exact List.map_injective_iff.2 (Option.some_injective _) values'.symm
  · rintro rfl
    exact firsts_unique found

end Matches

namespace Arguments

variable {a : Arguments} {found : List Json} {text : String} {v : Json}

/-- What the options keep of the matches. -/
def kept (a : Arguments) (found : List Json) : List Json :=
  let found := if a.unique then Matches.unique found else found
  if a.first then Matches.first found else found

/-- The first match is the same whether the matches are unique or not. -/
theorem kept_of_first (first : a.first = true) (found : List Json) :
    a.kept found = found.head?.toList := by
  rw [kept, if_pos first, Matches.first_eq]
  split
  · rw [Matches.head?_unique]
  · rfl

theorem kept_of_unique (all : a.first = false) (unique : a.unique = true) (found : List Json) :
    a.kept found = Matches.unique found := by
  simp [kept, all, unique]

theorem kept_of_neither (all : a.first = false) (repeated : a.unique = false)
    (found : List Json) : a.kept found = found := by
  simp [kept, all, repeated]

theorem kept_eq_nil_iff : a.kept found = [] ↔ found = [] := by
  cases first : a.first with
  | true =>
      rw [kept_of_first first]
      cases found <;> simp
  | false =>
      cases unique : a.unique with
      | true => rw [kept_of_unique first unique, Matches.unique_eq_nil_iff]
      | false => rw [kept_of_neither first unique]

theorem refine_eq (a : Arguments) (found : List Json) :
    a.refine found = match a.default with
      | some text => Matches.orDefault (a.kept found) (defaultValue text)
      | none => a.kept found := rfl

/-- The default is shown where it is given and nothing matches. -/
theorem refine_of_nil (given : a.default = some text) : a.refine [] = [defaultValue text] := by
  have nothing : a.kept [] = [] := kept_eq_nil_iff.2 rfl
  rw [refine_eq, given, nothing]
  rfl

/-- Otherwise what is kept of the matches is shown. -/
theorem refine_of_kept (other : a.default = none ∨ found ≠ []) :
    a.refine found = a.kept found := by
  rw [refine_eq]
  cases given : a.default with
  | none => rfl
  | some text =>
      have some : found ≠ [] := other.resolve_left (by simp [given])
      have nonempty : (a.kept found).isEmpty = false := by
        rw [List.isEmpty_eq_false_iff]
        exact mt kept_eq_nil_iff.1 some
      simp [Matches.orDefault, nonempty]

/-! ## Defaults -/

theorem defaultValue_of_parse (parsed : Json.parse (Utf8.bytes text) = .ok v) :
    defaultValue text = v := by
  rw [defaultValue, parsed]

/-- A text that is not JSON stands for itself. -/
theorem defaultValue_of_malformed (malformed : ∀ v, Json.parse (Utf8.bytes text) ≠ .ok v) :
    defaultValue text = .string text := by
  rw [defaultValue]
  cases parsed : Json.parse (Utf8.bytes text) with
  | ok v => exact absurd parsed (malformed v)
  | error e => rfl

section Whole

variable {tree : ParseTree} {l : Location} {token : List UInt8} {n : Int}
  (parsed : Json.parse (Utf8.bytes text) = .ok v) (spells : tree.SpellsText (Utf8.bytes text))
  (located : tree.at? l = some (.scalar token)) (literal : Json.IsWholeLiteral token n)
include parsed spells located literal

/-- A whole number in the text of a default that fits stays a whole number. -/
theorem at?_of_whole (stays : Json.StaysWhole token n) :
    v.at? l = some (.number (.whole n stays.fits)) := by
  obtain ⟨scalar, known, here⟩ := ParseTree.at?_of_scalar spells parsed located
  rw [Json.scalar?_of_literal literal stays] at known
  cases known
  exact here

/-- Any other one becomes a double. -/
theorem at?_of_drifting (drifts : ¬ Json.StaysWhole token n) :
    ∃ x : Double, v.at? l = some (.number (.double x)) ∧
      (n.natAbs < Json.significandLimit → x.toInt? = some (nearestWhole n)) ∧
      (n = 0 → x = ⟨true, .zero⟩) := by
  obtain ⟨scalar, known, here⟩ := ParseTree.at?_of_scalar spells parsed located
  obtain ⟨x, rfl, nearest, zero⟩ := Json.exists_double_of_literal literal drifts known
  exact ⟨x, here, nearest, zero⟩

end Whole

/-! ## Replies -/

section Reply

/-- The text that is shown for the values of an array. -/
def shownText (a : Arguments) (shown : List Json) : String :=
  String.ofList ((Json.array shown).render a.spacing) ++ "\n"

variable {read : Source → Except SourceError (List UInt8)} {input : List UInt8} {doc : Document}
  {path : Path} (selects : a.explain = false) (sourced : read a.source = .ok input)
  (decoded : Document.decode input = .ok doc)
  (compiled : Path.compileAs a.strict a.path = .ok path)
include selects sourced decoded compiled

theorem reply_eq : (Invocation.query a).reply read =
    ⟨0, a.shownText (a.refine (doc.run path)), ""⟩ := by
  have matched : (doc.withStrict a.strict).tryQuery a.path = .ok (doc.run path) := by
    show ((Path.compileAs a.strict a.path).map _).mapError _ = _
    rw [compiled]
    rfl
  have selected : a.selection input = .ok (.array (a.refine (doc.run path))) := by
    rw [selection, decoded]
    show (((doc.withStrict a.strict).tryQuery a.path).map _).mapError _ = _
    rw [matched]
    rfl
  have success : a.run read = .ok ((Json.array (a.refine (doc.run path))).render a.spacing) := by
    rw [run_of_selects selects, sourced]
    show a.selection input >>= _ = _
    rw [selected]
    rfl
  rw [Invocation.reply, success]
  rfl

/-- **Matches, refined.**  Where a document is read and the path compiles, a command shows an
array.  It holds the default alone if one is given and nothing matches, and where something
matches the default makes no difference.  Otherwise the array holds the first match, if there is
one, where only this is asked for, then the first occurrence of each match where they are to be
unique, and else all matches.  A default that is JSON is read as it is written, and any other one
is a string.  The whole numbers in it that fit in 64 bits stay such, but for zero with a minus
sign; this and all others become doubles. -/
theorem reply_of_matches :
    (∃ shown, (Invocation.query a).reply read = ⟨0, a.shownText shown, ""⟩ ∧
      (∀ text, a.default = some text → doc.run path = [] → shown = [defaultValue text]) ∧
      ((a.default = none ∨ doc.run path ≠ []) →
        (a.first = true → shown = (doc.run path).head?.toList) ∧
        (a.first = false → a.unique = true → Matches.Firsts (doc.run path) shown) ∧
        (a.first = false → a.unique = false → shown = doc.run path))) ∧
    (doc.run path ≠ [] → ∀ other,
      (Invocation.query { a with default := other }).reply read =
        (Invocation.query a).reply read) ∧
    ∀ text,
      (∀ v, Json.parse (Utf8.bytes text) = .ok v → defaultValue text = v ∧
        ∀ (tree : ParseTree) (l : Location) (token : List UInt8) (n : Int),
          tree.SpellsText (Utf8.bytes text) → tree.at? l = some (.scalar token) →
          Json.IsWholeLiteral token n →
          (∀ stays : Json.StaysWhole token n, v.at? l = some (.number (.whole n stays.fits))) ∧
          (¬ Json.StaysWhole token n → ∃ x : Double, v.at? l = some (.number (.double x)) ∧
            (n.natAbs < 2 ^ 64 → x.toInt? = some (nearestWhole n)) ∧
            (n = 0 → x = ⟨true, .zero⟩))) ∧
      ((∀ v, Json.parse (Utf8.bytes text) ≠ .ok v) → defaultValue text = .string text) := by
  refine ⟨⟨_, reply_eq selects sourced decoded compiled, ?_, fun other => ?_⟩, ?_, fun text =>
    ⟨?_, defaultValue_of_malformed⟩⟩
  · intro text given nothing
    rw [nothing, refine_of_nil given]
  · rw [refine_of_kept other]
    refine ⟨fun first => kept_of_first first _, fun all unique => ?_,
      fun all repeated => kept_of_neither all repeated _⟩
    rw [kept_of_unique all unique]
    exact Matches.firsts_unique _
  · intro some other
    have reply := @reply_eq { a with default := other } read input doc path selects sourced
      decoded compiled
    rw [reply, reply_eq selects sourced decoded compiled, refine_of_kept (.inr some),
      refine_of_kept (.inr some)]
    rfl
  · intro v parsed
    refine ⟨defaultValue_of_parse parsed, ?_⟩
    intro tree l token n spells located literal
    exact ⟨at?_of_whole parsed spells located literal,
      at?_of_drifting parsed spells located literal⟩

end Reply

end Arguments

namespace Example

open Json

/-- The member `"a"` with an array of three flags, of which two are the same. -/
def flagTwice : List UInt8 := Utf8.bytes "\x7b\"a\":[true,true,false]\x7d"

/-- The items of the member `"a"`, or else a number. -/
def itemsOrOne (first unique : Bool) : Arguments :=
  ⟨"$.a[*]", none, true, first, unique, false, true, some "1"⟩

theorem exists_flagTwice : ∃ doc, Document.decode flagTwice = .ok doc ∧
    doc.run [.child "a", .index "*"] = [.bool true, .bool true, .bool false] := by
  have items : (Document.decode flagTwice).toOption.any (fun doc =>
      (doc.run [.child "a", .index "*"]).map Json.compact =
        [.bool true, .bool true, .bool false].map Json.compact) = true := by decide +kernel
  obtain ⟨doc, decoded, items⟩ := (Option.any_eq_true _ _).1 items
  exact ⟨doc, toOption_eq_some_iff.1 decoded,
    List.map_injective_iff.2 Json.compact_injective (of_decide_eq_true items)⟩

/-- The first item, the items without the repeated one, all items, and the default where there
is none. -/
theorem items_shown :
    (Invocation.query (itemsOrOne true true)).reply (onInput flagTwice) = ⟨0, "[true]\n", ""⟩ ∧
      (Invocation.query (itemsOrOne false true)).reply (onInput flagTwice) =
        ⟨0, "[true,false]\n", ""⟩ ∧
      (Invocation.query (itemsOrOne false false)).reply (onInput flagTwice) =
        ⟨0, "[true,true,false]\n", ""⟩ ∧
      (Invocation.query (itemsOrOne true true)).reply emptyInput = ⟨0, "[1]\n", ""⟩ := by
  obtain ⟨doc, decoded, found⟩ := exists_flagTwice
  have compiled : Path.compileAs true "$.a[*]" = .ok [.child "a", .index "*"] := by
    decide +kernel
  have some : doc.run [.child "a", .index "*"] ≠ [] := by
    rw [found]
    exact List.cons_ne_nil _ _
  refine ⟨?_, ?_, ?_, ?_⟩
  · obtain ⟨⟨shown, reply, -, kept⟩, -⟩ :=
      @Arguments.reply_of_matches (itemsOrOne true true) (onInput flagTwice) _ _ _ rfl rfl decoded
        compiled
    rw [reply, (kept (.inr some)).1 rfl, found]
    rfl
  · obtain ⟨⟨shown, reply, -, kept⟩, -⟩ :=
      @Arguments.reply_of_matches (itemsOrOne false true) (onInput flagTwice) _ _ _ rfl rfl decoded
        compiled
    have once : Matches.unique [.bool true, .bool true, .bool false] =
        [.bool true, .bool false] := by rfl
    rw [reply, Matches.firsts_iff.1 ((kept (.inr some)).2.1 rfl rfl), found, once]
    rfl
  · obtain ⟨⟨shown, reply, -, kept⟩, -⟩ :=
      @Arguments.reply_of_matches (itemsOrOne false false) (onInput flagTwice) _ _ _ rfl rfl decoded
        compiled
    rw [reply, (kept (.inr some)).2.2 rfl rfl, found]
    rfl
  · have empty : Document.decode [0x7b, 0x7d] = .ok (.ofMembers ∅) := rfl
    have nothing : Document.run (.ofMembers ∅) [.child "a", .index "*"] = [] := by decide +kernel
    have parsed : Json.parse (Utf8.bytes "1") = .ok (.number (.whole 1 (by decide))) := by rfl
    obtain ⟨⟨shown, reply, default, -⟩, -, defaults⟩ :=
      @Arguments.reply_of_matches (itemsOrOne true true) emptyInput _ _ _ rfl rfl empty compiled
    obtain ⟨value, -⟩ := (defaults "1").1 _ parsed
    rw [reply, default "1" rfl nothing, value]
    rfl

/-- The least whole number that does not fit in 64 bits. -/
def twoPow64 : String := "18446744073709551616"

theorem isWhole_twoPow64 : IsWhole (Utf8.bytes twoPow64) := by
  have digits : (Utf8.bytes twoPow64).tail.all isDigit = true := by decide
  exact .digits rfl (by decide) (List.all_eq_true.1 digits)

/-- As a default this number is read as a double, and it is shown as one. -/
theorem large_default_drifts :
    ((Invocation.query ⟨"$.a", none, false, false, false, false, true, some twoPow64⟩).reply
        emptyInput).output = "[1.8446744073709552e+19]\n" ∧
      ¬ ∀ (text : String) (v : Json) (tree : ParseTree) (l : Location) (token : List UInt8)
          (n : Int), Json.parse (Utf8.bytes text) = .ok v → tree.SpellsText (Utf8.bytes text) →
        tree.at? l = some (.scalar token) → IsWholeLiteral token n →
          ∃ fits, (Arguments.defaultValue text).at? l = some (.number (.whole n fits)) := by
  constructor
  · decide +kernel
  · intro stays
    have parsed : (Json.parse (Utf8.bytes twoPow64)).toOption.isSome = true := by decide +kernel
    obtain ⟨v, parsed⟩ := Option.isSome_iff_exists.1 parsed
    have spells : (ParseTree.scalar (Utf8.bytes twoPow64)).SpellsText (Utf8.bytes twoPow64) :=
      ⟨[], _, [], by decide, ⟨.numeral (.positive isWhole_twoPow64.isUnsigned), rfl⟩, by decide,
        (List.append_nil _).symm⟩
    have literal : IsWholeLiteral (Utf8.bytes twoPow64) (2 ^ 64) := .positive isWhole_twoPow64
    obtain ⟨fits, -⟩ :=
      stays _ v _ [] _ _ (toOption_eq_some_iff.1 parsed) spells rfl literal
    exact absurd fits (by decide)

end Example

end JsonSelect
