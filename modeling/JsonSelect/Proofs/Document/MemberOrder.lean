/-
# JsonSelect.Proofs.Document.MemberOrder -- documents do not show how they were written

* `Document.decode_reordered`: texts that differ in the order of members and in blanks are
  decoded to one document, or none of them is.
-/
import JsonSelect.Binding.Basic
import JsonSelect.Proofs.Json.MemberOrder
import JsonSelect.Json.Reading.Ordered
import JsonSelect.Proofs.Selection.Places

namespace JsonSelect

set_option autoImplicit false

variable {ρ : Type}

namespace Json

/-- Where no member has the name, the search goes through the members as they stand. -/
theorem search_object_of_none {name : String} {members : Keyed Json}
    (absent : Keyed.get? name members = none) :
    (object members).search name = members.flatMap fun m => m.2.search name := by
  rw [search, absent]
  exact searchMembers_eq_flatMap name members

end Json

namespace Document

/-- **The order of members does not matter.**  Texts of alike trees without repeated keys
are decoded to the same document, which answers the same to everything, or neither is
decoded.  In a decoded document the search for a name goes through the members of each
object by the bytes of their keys. -/
theorem decode_reordered {tree tree' : ParseTree} {s s' : List UInt8}
    (spells : tree.SpellsText s) (spells' : tree'.SpellsText s') (distinct : tree.DistinctKeys)
    (alike : tree.Alike tree') :
    ((∃ doc, decode s = .ok doc ∧ decode s' = .ok doc ∧
        ∀ (bindings : List (Binding ρ)) record,
          Binding.decodeAndRunAll s bindings record = Binding.decodeAndRunAll s' bindings record) ∨
      ∃ e e', decode s = .error e ∧ decode s' = .error e' ∧
        ∀ (bindings : List (Binding ρ)) record,
          Binding.decodeAndRunAll s bindings record = ⟨record, some (.query e)⟩ ∧
            Binding.decodeAndRunAll s' bindings record = ⟨record, some (.query e')⟩) ∧
      ∀ doc, decode s = .ok doc → ∀ l members, doc.root.at? l = some (.object members) →
        (members.Pairwise fun a b => Utf8.bytes a.1 < Utf8.bytes b.1) ∧
          ∀ name, Keyed.get? name members = none →
            (Json.object members).search name = members.flatMap fun m => m.2.search name := by
  have same := ParseTree.root?_of_alike alike distinct
  constructor
  · cases root : tree.root? with
    | some members =>
        obtain ⟨ordered, first⟩ := ParseTree.decode_of_root? spells root
        obtain ⟨_, second⟩ := ParseTree.decode_of_root? spells' (same.symm.trans root)
        refine .inl ⟨ofMembers ⟨members, ordered⟩, first, second, fun bindings record => ?_⟩
        rw [Binding.decodeAndRunAll, Binding.decodeAndRunAll, first, second]
    | none =>
        obtain ⟨e, first⟩ := ParseTree.decode_of_no_root spells root
        obtain ⟨e', second⟩ := ParseTree.decode_of_no_root spells' (same.symm.trans root)
        refine .inr ⟨e, e', first, second, fun bindings record => ?_⟩
        rw [Binding.decodeAndRunAll, Binding.decodeAndRunAll, first, second]
        exact ⟨rfl, rfl⟩
  · intro doc decoded l members found
    have ordered := doc.root_ordered.of_at? found
    exact ⟨(Json.ordered_object_iff.1 ordered).1, fun name => Json.search_object_of_none⟩

end Document

namespace Example

open Json

def keyA : List UInt8 := [Ascii.quote, 0x61, Ascii.quote]

def keyB : List UInt8 := [Ascii.quote, 0x62, Ascii.quote]

def one : ParseTree := .scalar [0x31]

def wordTrue : ParseTree := .scalar [Ascii.lowerT, 0x72, 0x75, 0x65]

/-- Two members without blanks. -/
def inOrder : List UInt8 :=
  Ascii.openBrace :: (keyA ++ Ascii.colon :: 0x31 :: Ascii.comma :: (keyB ++
    [Ascii.colon, Ascii.lowerT, 0x72, 0x75, 0x65, Ascii.closeBrace]))

/-- The same members the other way round, with blanks between the tokens. -/
def outOfOrder : List UInt8 :=
  0x20 :: Ascii.openBrace :: 0x0a :: (keyB ++ Ascii.colon :: 0x09 :: Ascii.lowerT :: 0x72 ::
    0x75 :: 0x65 :: 0x20 :: Ascii.comma :: (keyA ++
      [0x20, Ascii.colon, 0x31, 0x0d, Ascii.closeBrace, 0x0a]))

theorem isString_keyA : IsString keyA :=
  .content (s := [0x61]) (.plain (by decide) (by decide) (by decide) .nil)

theorem isString_keyB : IsString keyB :=
  .content (s := [0x62]) (.plain (by decide) (by decide) (by decide) .nil)

theorem isScalar_one : IsScalar [0x31] :=
  .numeral (.positive (.parts (.digits rfl (by decide) (List.forall_mem_nil _)) .missing .missing))

theorem spells_inOrder : (ParseTree.object [(keyA, one), (keyB, wordTrue)]).SpellsText inOrder := by
  have first : ParseTree.SpellsMember keyA one.Spells (keyA ++ [Ascii.colon, 0x31]) :=
    ⟨[], [], _, isString_keyA, by decide, by decide, ⟨isScalar_one, rfl⟩, rfl⟩
  have second : ParseTree.SpellsMember keyB wordTrue.Spells
      (keyB ++ [Ascii.colon, Ascii.lowerT, 0x72, 0x75, 0x65]) :=
    ⟨[], [], _, isString_keyB, by decide, by decide, ⟨.wordTrue, rfl⟩, rfl⟩
  have members : ParseTree.SpellsMembers [(keyA, one), (keyB, wordTrue)] inOrder.tail :=
    ⟨[], _, _, by decide, first, ⟨[], [], _, [Ascii.closeBrace], by decide, by decide, second,
      ⟨[], by decide, rfl⟩, rfl⟩, rfl⟩
  exact ⟨[], inOrder, [], by decide, ⟨_, members, rfl⟩, by decide, rfl⟩

theorem spells_outOfOrder :
    (ParseTree.object [(keyB, wordTrue), (keyA, one)]).SpellsText outOfOrder := by
  have first : ParseTree.SpellsMember keyB wordTrue.Spells
      (keyB ++ [Ascii.colon, 0x09, Ascii.lowerT, 0x72, 0x75, 0x65]) :=
    ⟨[], [0x09], _, isString_keyB, by decide, by decide, ⟨.wordTrue, rfl⟩, rfl⟩
  have second : ParseTree.SpellsMember keyA one.Spells (keyA ++ [0x20, Ascii.colon, 0x31]) :=
    ⟨[0x20], [], _, isString_keyA, by decide, by decide, ⟨isScalar_one, rfl⟩, rfl⟩
  have members : ParseTree.SpellsMembers [(keyB, wordTrue), (keyA, one)]
      (outOfOrder.tail.tail.dropLast) :=
    ⟨[0x0a], _, _, by decide, first, ⟨[0x20], [], _, [0x0d, Ascii.closeBrace], by decide, by decide,
      second, ⟨[0x0d], by decide, rfl⟩, rfl⟩, rfl⟩
  exact ⟨[0x20], _, [0x0a], by decide, ⟨_, members, rfl⟩, by decide, rfl⟩

/-- Both texts are decoded, and to one document. -/
theorem same_in_any_order :
    ∃ doc, Document.decode inOrder = .ok doc ∧ Document.decode outOfOrder = .ok doc := by
  have a : key? keyA = some "a" := by decide +kernel
  have b : key? keyB = some "b" := by decide +kernel
  have distinct : (ParseTree.object [(keyA, one), (keyB, wordTrue)]).DistinctKeys := by
    refine ⟨List.pairwise_pair.2 fun name same => ?_, trivial, trivial, trivial⟩
    rw [a] at same
    cases same
    rw [b]
    decide
  have alike : (ParseTree.object [(keyA, one), (keyB, wordTrue)]).Alike
      (.object [(keyB, wordTrue), (keyA, one)]) :=
    ⟨[(keyA, one), (keyB, wordTrue)], .swap .., ⟨rfl, rfl, rfl, rfl, trivial⟩⟩
  have success : (Document.decode inOrder).isOk = true := by decide +kernel
  obtain ⟨⟨doc, first, second, -⟩ | ⟨e, _, failed, -⟩, -⟩ :=
    Document.decode_reordered (ρ := Unit) spells_inOrder spells_outOfOrder distinct alike
  · exact ⟨doc, first, second⟩
  · rw [failed] at success
    cases success

end Example

end JsonSelect
