/-
# JsonSelect.Proofs.Json.Reading.Located -- where the parts of a text stand in its value

* `ParseTree.at?` is the part of a tree at a location.  Of members whose keys mean the same the
  last one counts.
* `ParseTree.exists_at?_of_value?`: what the part means stands at this location of what the
  tree means.
* `ParseTree.at?_of_scalar`, `Document.at?_of_scalar`: so a token stands in what a text of the
  tree is read as, and in the document that it is decoded to, with numbers stored as doubles.
-/
import JsonSelect.Proofs.Json.Doubles
import JsonSelect.Proofs.Json.MemberOrder

namespace JsonSelect

set_option autoImplicit false

namespace Keyed

variable {α : Type}

/-- The value of the last entry with this key. -/
def last? (key : String) : List (String × α) → Option α
  | [] => none
  | (k, value) :: rest => (last? key rest).or (if k = key then some value else none)

/-- Of entries with one key the last counts. -/
theorem get?_ofList (key : String) (entries : List (String × α)) :
    get? key (ofList entries) = last? key entries := by
  suffices general : ∀ sorted : Keyed α,
      get? key (entries.foldl (fun sorted e => insert e.1 e.2 sorted) sorted) =
        (last? key entries).or (get? key sorted) by
    have all := general []
    rw [get?, Option.or_none] at all
    exact all
  induction entries with
  | nil => exact fun sorted => rfl
  | cons e rest ih =>
      intro sorted
      obtain ⟨k, value⟩ := e
      rw [List.foldl_cons, ih, get?_insert, last?, Option.or_assoc]
      by_cases same : k = key
      · rw [if_pos same, if_pos same, Option.some_or]
      · rw [if_neg same, if_neg same, Option.none_or]

end Keyed

namespace ParseTree

open Json

/-! ## Parts of a tree -/

/-- The value of the last member whose key means the name. -/
def lastMember? (name : String) : List (List UInt8 × ParseTree) → Option ParseTree
  | [] => none
  | (key, value) :: rest =>
      (lastMember? name rest).or (if key? key = some name then some value else none)

/-- Where a hop leads. -/
def down? : ParseTree → Hop → Option ParseTree
  | .object members, .key name => lastMember? name members
  | .array items, .position i => items[i]?
  | _, _ => none

/-- The part at a location. -/
def at? : ParseTree → Location → Option ParseTree
  | tree, [] => some tree
  | tree, hop :: l => (tree.down? hop).bind fun part => part.at? l

/-! ## What the parts mean -/

variable {tree part : ParseTree} {depth : Nat} {v : Json}

/-- This is what the tree means if its containers may be nested so deep. -/
def Means (depth : Nat) (tree : ParseTree) (v : Json) : Prop := tree.value? depth = some v

theorem rel_lastMember? (name : String) {members : List (List UInt8 × ParseTree)}
    {found : List (String × Json)} (means : memberValues? members depth = some found) :
    Option.Rel (Means depth) (lastMember? name members) (Keyed.last? name found) := by
  induction members generalizing found with
  | nil =>
      cases means
      exact .none
  | cons member members ih =>
      obtain ⟨m, rest, first, others, rfl⟩ := memberValues?_cons_eq_some_iff.1 means
      obtain ⟨key, known, valued⟩ := Option.bind_eq_some_iff.1 first
      obtain ⟨w, value, rfl⟩ := Option.map_eq_some_iff.1 valued
      have behind := ih others
      rw [lastMember?, Keyed.last?, known]
      generalize lastMember? name members = later, Keyed.last? name rest = later' at behind ⊢
      cases behind with
      | some behind => exact .some behind
      | none =>
          by_cases same : key = name
          · rw [if_pos same, if_pos (congrArg some same)]
            exact .some value
          · have different : some key ≠ some name := fun h => same (Option.some.inj h)
            rw [if_neg same, if_neg different]
            exact .none

theorem rel_getElem? {items : List ParseTree} {found : List Json}
    (means : itemValues? items depth = some found) (i : Nat) :
    Option.Rel (Means depth) items[i]? found[i]? := by
  induction items generalizing found i with
  | nil =>
      cases means
      exact .none
  | cons item items ih =>
      obtain ⟨w, first, more⟩ := Option.bind_eq_some_iff.1 means
      obtain ⟨rest, others, rfl⟩ := Option.map_eq_some_iff.1 more
      cases i with
      | zero => exact .some first
      | succ i => exact ih others i

theorem exists_of_rel {found : Option Json} (rel : Option.Rel (Means depth) (some part) found) :
    ∃ w, part.value? depth = some w ∧ found = some w := by
  cases rel with
  | some means => exact ⟨_, means, rfl⟩

/-- What a part means is found where the hop leads. -/
theorem exists_down?_of_value? {hop : Hop} (means : tree.value? depth = some v)
    (down : tree.down? hop = some part) :
    ∃ inner w, part.value? inner = some w ∧ v.down? hop = some w := by
  cases tree with
  | scalar token => cases down
  | array items =>
      cases hop with
      | key => cases down
      | position i =>
          cases depth with
          | zero => cases means
          | succ depth =>
              obtain ⟨found, inside, rfl⟩ := Option.map_eq_some_iff.1 means
              have rel := rel_getElem? inside i
              rw [show items[i]? = some part from down] at rel
              exact ⟨depth, exists_of_rel rel⟩
  | object members =>
      cases hop with
      | position => cases down
      | key name =>
          cases depth with
          | zero => cases means
          | succ depth =>
              obtain ⟨found, inside, rfl⟩ := Option.map_eq_some_iff.1 means
              have rel := rel_lastMember? name inside
              rw [show lastMember? name members = some part from down] at rel
              obtain ⟨w, value, last⟩ := exists_of_rel rel
              exact ⟨depth, w, value, (Keyed.get?_ofList name found).trans last⟩

theorem exists_at?_of_value? {l : Location} (means : tree.value? depth = some v)
    (located : tree.at? l = some part) :
    ∃ inner w, part.value? inner = some w ∧ v.at? l = some w := by
  induction l generalizing tree depth v with
  | nil =>
      cases located
      exact ⟨depth, v, means, rfl⟩
  | cons hop l ih =>
      obtain ⟨next, down, located⟩ := Option.bind_eq_some_iff.1 located
      obtain ⟨inner, u, means, here⟩ := exists_down?_of_value? means down
      obtain ⟨innermost, w, value, found⟩ := ih means located
      exact ⟨innermost, w, value, at?_eq_some_cons_iff.2 ⟨u, here, found⟩⟩

/-- The root of a tree is what the tree means. -/
theorem value?_of_root? {members : Keyed Json} (root : tree.root? = some members) :
    tree.value? depthLimit = some (.object members) := by
  cases tree with
  | object ms =>
      obtain ⟨found, inside, rfl⟩ := Option.map_eq_some_iff.1 root
      exact Option.map_eq_some_iff.2 ⟨found, inside, rfl⟩
  | scalar => cases root
  | array => cases root

/-- A token of the text stands in what is read. -/
theorem at?_of_scalar {s token : List UInt8} {l : Location} (spells : tree.SpellsText s)
    (parsed : parse s = .ok v) (located : tree.at? l = some (.scalar token)) :
    ∃ scalar, scalar? token = some scalar ∧ v.at? l = some scalar.toJson := by
  have yields := parse_text spells
  cases means : tree.value? depthLimit with
  | none =>
      rw [means] at yields
      obtain ⟨e, failed⟩ := yields
      cases parsed.symm.trans failed
  | some w =>
      rw [means] at yields
      cases parsed.symm.trans yields
      obtain ⟨inner, u, value, found⟩ := exists_at?_of_value? means located
      obtain ⟨scalar, known, rfl⟩ := Option.map_eq_some_iff.1 value
      exact ⟨scalar, known, found⟩

end ParseTree

/-- A token of the text stands in the document with its number as a double. -/
theorem Document.at?_of_scalar {tree : ParseTree} {input token : List UInt8} {doc : Document}
    {l : Location} (spells : tree.SpellsText input) (decoded : decode input = .ok doc)
    (located : tree.at? l = some (.scalar token)) :
    ∃ s, Json.scalar? token = some s ∧ doc.root.at? l = some s.toJson.asDoubles := by
  cases root : tree.root? with
  | none =>
      obtain ⟨e, failed⟩ := ParseTree.decode_of_no_root spells root
      cases decoded.symm.trans failed
  | some members =>
      obtain ⟨ordered, success⟩ := ParseTree.decode_of_root? spells root
      cases decoded.symm.trans success
      obtain ⟨inner, w, value, found⟩ :=
        ParseTree.exists_at?_of_value? (ParseTree.value?_of_root? root) located
      obtain ⟨s, means, rfl⟩ := Option.map_eq_some_iff.1 value
      refine ⟨s, means, ?_⟩
      show (Json.object members).asDoubles.at? l = _
      rw [Json.asDoubles_eq_mapNumbers, Json.at?_mapNumbers, found, Option.map_some,
        Json.asDoubles_eq_mapNumbers]

end JsonSelect
