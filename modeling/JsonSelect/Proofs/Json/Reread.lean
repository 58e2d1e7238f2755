/-
# JsonSelect.Proofs.Json.Reread -- the text of a value means the value with its numbers reread

* `Number.reread?` is the number that the text of a number is read as, if it is in range.
* `Json.value?_tree_eq_some_iff`: the tree of a value means the value with each number
  reread, and nothing if one of them is out of range.
* `Json.parse_render`: so both texts of a value whose numbers are in range are read.
-/
import JsonSelect.Proofs.Json.MemberOrder
import JsonSelect.Proofs.Json.Reading.Nested
import JsonSelect.Proofs.Json.Rendering

namespace JsonSelect

set_option autoImplicit false

/-! ## Numbers -/

namespace Number

/-- The number that the text of a number is read as. -/
def reread? (n : Number) : Option Number :=
  match Json.parse (Utf8.encode n.text) with
  | .ok (.number m) => some m
  | _ => none

theorem reread?_eq_some_iff {n m : Number} :
    n.reread? = some m ↔ Json.parse (Utf8.encode n.text) = .ok (.number m) := by
  rw [reread?]
  cases Json.parse (Utf8.encode n.text) with
  | error e => simp
  | ok v => cases v <;> simp

/-- The text of the number is in range. -/
def Rereads (n : Number) : Prop := n.reread?.isSome = true

/-- The number that takes its place where its text is in range. -/
def reread (n : Number) : Number := n.reread?.getD n

theorem scalar?_text (n : Number) :
    Json.scalar? (Utf8.encode n.text) = n.reread?.map .number := by
  have numeral := n.isNumeral_text
  have spells : (ParseTree.scalar (Utf8.encode n.text)).SpellsText (Utf8.encode n.text) :=
    ⟨[], _, [], by decide, ⟨.numeral numeral, rfl⟩, by decide, by simp⟩
  have parsed := ParseTree.parse_text spells
  obtain ⟨outcome, means⟩ := Json.exists_scalar?_numeral numeral
  rw [ParseTree.value?, means] at parsed
  rw [means, reread?]
  cases outcome with
  | none =>
      obtain ⟨e, failed⟩ := parsed
      rw [failed]
  | some m =>
      have read : Json.parse (Utf8.encode n.text) = .ok (.number m) := parsed
      rw [read]

end Number

/-! ## Values -/

namespace Json

mutual

/-- The tree of a value means the value with its numbers reread, if all of them are in
range. -/
theorem value?_tree_eq_some_iff : (v : Json) → ∀ {depth : Nat} {w : Json}, v.NestedWithin depth →
    v.Ordered →
      (v.tree.value? depth = some w ↔
        v.EveryNumber Number.Rereads ∧ v.mapNumbers Number.reread = w)
  | .null, _, w, _, _ => by
      have means : scalar? [Ascii.lowerN, 0x75, 0x6c, 0x6c] = some .null := scalar?_word rfl
      simp [tree, ParseTree.value?, means, Scalar.toJson, EveryNumber, mapNumbers]
  | .bool true, _, w, _, _ => by
      have means : scalar? [Ascii.lowerT, 0x72, 0x75, 0x65] = some (.bool true) := scalar?_word rfl
      simp [tree, ParseTree.value?, means, Scalar.toJson, EveryNumber, mapNumbers]
  | .bool false, _, w, _, _ => by
      have means : scalar? [Ascii.lowerF, 0x61, 0x6c, 0x73, 0x65] = some (.bool false) :=
        scalar?_word rfl
      simp [tree, ParseTree.value?, means, Scalar.toJson, EveryNumber, mapNumbers]
  | .string s, _, w, _, _ => by
      simp [tree, ParseTree.value?, scalar?_quoted, Scalar.toJson, EveryNumber, mapNumbers]
  | .number n, _, w, _, _ => by
      rw [tree, ParseTree.value?, n.scalar?_text, EveryNumber, mapNumbers, Number.Rereads,
        Number.reread]
      cases n.reread? <;> simp [Scalar.toJson]
  | .array _, 0, _, nested, _ => nested.elim
  | .array items, depth + 1, w, nested, ordered => by
      rw [tree, ParseTree.value?, Option.map_eq_some_iff]
      simp only [itemValues?_tree_eq_some_iff items nested ordered]
      constructor
      · rintro ⟨found, ⟨each, rfl⟩, rfl⟩
        exact ⟨each, rfl⟩
      · rintro ⟨each, rfl⟩
        exact ⟨_, ⟨each, rfl⟩, rfl⟩
  | .object _, 0, _, nested, _ => nested.elim
  | .object members, depth + 1, w, nested, ordered => by
      -- Members are sorted when they are read, but they are written in this order already.
      have sorted : Keyed.ofList (mapNumbersMembers Number.reread members) =
          mapNumbersMembers Number.reread members :=
        Keyed.ofList_of_ascending (ascending_mapNumbersMembers ordered.1)
      rw [tree, ParseTree.value?, Option.map_eq_some_iff]
      simp only [memberValues?_tree_eq_some_iff members nested ordered.2]
      constructor
      · rintro ⟨found, ⟨each, rfl⟩, rfl⟩
        rw [sorted]
        exact ⟨each, rfl⟩
      · rintro ⟨each, rfl⟩
        exact ⟨_, ⟨each, rfl⟩, by rw [sorted]; rfl⟩

theorem itemValues?_tree_eq_some_iff : (items : List Json) → ∀ {depth : Nat} {found : List Json},
    ItemsNestedWithin items depth → OrderedItems items →
      (ParseTree.itemValues? (itemTrees items) depth = some found ↔
        EveryNumberItems Number.Rereads items ∧ mapNumbersItems Number.reread items = found)
  | [], _, found, _, _ => by
      simp [itemTrees, ParseTree.itemValues?, EveryNumberItems, mapNumbersItems]
  | v :: rest, depth, found, nested, ordered => by
      rw [itemTrees, ParseTree.itemValues?, Option.bind_eq_some_iff]
      simp only [Option.map_eq_some_iff, value?_tree_eq_some_iff v nested.1 ordered.1,
        itemValues?_tree_eq_some_iff rest nested.2 ordered.2]
      constructor
      · rintro ⟨w, ⟨first, rfl⟩, found, ⟨each, rfl⟩, rfl⟩
        exact ⟨⟨first, each⟩, rfl⟩
      · rintro ⟨⟨first, each⟩, rfl⟩
        exact ⟨_, ⟨first, rfl⟩, _, ⟨each, rfl⟩, rfl⟩

theorem memberValues?_tree_eq_some_iff : (members : List (String × Json)) →
    ∀ {depth : Nat} {found : List (String × Json)},
      MembersNestedWithin members depth → OrderedMembers members →
        (ParseTree.memberValues? (memberTrees members) depth = some found ↔
          EveryNumberMembers Number.Rereads members ∧
            mapNumbersMembers Number.reread members = found)
  | [], _, found, _, _ => by
      simp [memberTrees, ParseTree.memberValues?, EveryNumberMembers, mapNumbersMembers]
  | (key, v) :: rest, depth, found, nested, ordered => by
      rw [memberTrees, ParseTree.memberValues?, key?_quoted, Option.bind_some,
        Option.bind_eq_some_iff]
      simp only [Option.map_eq_some_iff, value?_tree_eq_some_iff v nested.1 ordered.1,
        memberValues?_tree_eq_some_iff rest nested.2 ordered.2]
      constructor
      · rintro ⟨m, ⟨w, ⟨first, rfl⟩, rfl⟩, found, ⟨each, rfl⟩, rfl⟩
        exact ⟨⟨first, each⟩, rfl⟩
      · rintro ⟨⟨first, each⟩, rfl⟩
        exact ⟨_, ⟨_, ⟨first, rfl⟩, rfl⟩, _, ⟨each, rfl⟩, rfl⟩

end

/-- Both texts of a value whose numbers are in range are read, with blanks behind them too. -/
theorem parse_render {v : Json} (nested : v.NestedWithin depthLimit) (ordered : v.Ordered)
    (each : v.EveryNumber Number.Rereads) (spacing : Spacing) {blanks : List UInt8}
    (blank : AllBlank blanks) :
    parse (Utf8.encode (v.render spacing) ++ blanks) = .ok (v.mapNumbers Number.reread) := by
  have spells : v.tree.SpellsText (Utf8.encode (v.render spacing) ++ blanks) :=
    ⟨[], _, blanks, by decide, spells_textAt spacing v 0, blank, rfl⟩
  have yields := ParseTree.parse_text spells
  rw [(value?_tree_eq_some_iff v nested ordered).2 ⟨each, rfl⟩] at yields
  exact yields

end Json

end JsonSelect
