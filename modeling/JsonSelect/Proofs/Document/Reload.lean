/-
# JsonSelect.Proofs.Document.Reload -- documents that are written and read again

* `Document.decode_render`: the text of a root on a line and its indented text are decoded
  to one document, or neither is decoded.
-/
import JsonSelect.Proofs.Json.Reread

namespace JsonSelect

set_option autoImplicit false

/-- The number that a document holds in place of a number that was written and read
again. -/
def Number.reloaded (n : Number) : Number := n.reread.asDouble

namespace Document

/-- What the tree of a root means is its members with their numbers reread. -/
theorem root?_tree_eq_some_iff {doc : Document} (nested : doc.root.NestedWithin Json.depthLimit)
    {members : Keyed Json} :
    doc.root.tree.root? = some members ↔
      doc.root.EveryNumber Number.Rereads ∧
        Json.mapNumbersMembers Number.reread doc.members = members := by
  have sorted : Keyed.ofList (Json.mapNumbersMembers Number.reread doc.members) =
      Json.mapNumbersMembers Number.reread doc.members :=
    Keyed.ofList_of_ascending (Json.ascending_mapNumbersMembers doc.ordered.1)
  have inside : Json.MembersNestedWithin doc.members (Json.depthLimit - 1) := nested
  rw [root, Json.tree, ParseTree.root?, Option.map_eq_some_iff]
  simp only [Json.memberValues?_tree_eq_some_iff doc.members inside doc.ordered.2]
  constructor
  · rintro ⟨found, ⟨each, rfl⟩, rfl⟩
    rw [sorted]
    exact ⟨each, rfl⟩
  · rintro ⟨each, rfl⟩
    exact ⟨_, ⟨each, rfl⟩, sorted⟩

/-- If the numbers of a root can be read again, both its texts are decoded to one document. -/
theorem exists_reloaded {doc : Document} (nested : doc.root.NestedWithin Json.depthLimit)
    (each : doc.root.EveryNumber Number.Rereads) :
    ∃ again : Document, (∀ spacing, decode (Utf8.encode (doc.root.render spacing)) = .ok again) ∧
      again.root = doc.root.mapNumbers Number.reloaded := by
  have root := (root?_tree_eq_some_iff nested).2 ⟨each, rfl⟩
  have reads (spacing : Spacing) :=
    ParseTree.decode_of_root? (Json.spellsText_render spacing doc.root) root
  obtain ⟨ordered, -⟩ := reads .compact
  refine ⟨ofMembers ⟨_, ordered⟩, fun spacing => ?_, ?_⟩
  · obtain ⟨_, read⟩ := reads spacing
    exact read
  · show Json.object (Json.asDoublesMembers _) = .object _
    rw [Json.asDoublesMembers_eq_mapNumbers, Json.mapNumbersMembers_mapNumbers]
    rfl

/-- **Both texts of a root carry the same document.**  If the texts of all its numbers are in
range, both texts of a decoded root are decoded to one document, whose root is the same but
for its numbers, each of which is the one that its text is read as.  Otherwise neither text
is decoded. -/
theorem decode_render {input : List UInt8} {doc : Document} (decoded : decode input = .ok doc) :
    (doc.root.EveryNumber Number.Rereads ∧
        ∃ again : Document,
          (∀ spacing, decode (Utf8.encode (doc.root.render spacing)) = .ok again) ∧
            again.root = doc.root.mapNumbers Number.reloaded ∧
            (∀ l n, doc.root.at? l = some (.number n) →
              ∃ m, Json.parse (Utf8.encode n.text) = .ok (.number m) ∧
                again.root.at? l = some (.number m.asDouble)) ∧
            ∀ l, (again.root.at? l).map Json.outline = (doc.root.at? l).map Json.outline) ∨
      ¬ doc.root.EveryNumber Number.Rereads ∧
        ∀ spacing, ∃ e, decode (Utf8.encode (doc.root.render spacing)) = .error e := by
  have nested := decode_nested decoded
  by_cases each : doc.root.EveryNumber Number.Rereads
  · obtain ⟨again, reads, same⟩ := exists_reloaded nested each
    refine .inl ⟨each, again, reads, same, fun l n found => ?_, fun l => ?_⟩
    · obtain ⟨m, reread⟩ := Option.isSome_iff_exists.1 (each.of_at? found)
      refine ⟨m, Number.reread?_eq_some_iff.1 reread, ?_⟩
      rw [same, Json.at?_mapNumbers, found, Option.map_some, Json.mapNumbers, Number.reloaded,
        Number.reread, reread]
      rfl
    · rw [same, Json.outline_at?_mapNumbers]
  · have none : doc.root.tree.root? = none := by
      cases found : doc.root.tree.root? with
      | none => rfl
      | some members => exact absurd ((root?_tree_eq_some_iff nested).1 found).1 each
    exact .inr ⟨each, fun spacing =>
      ParseTree.decode_of_no_root (Json.spellsText_render spacing doc.root) none⟩

end Document

namespace Example

open Json

/-- The member `"a"` with an array of one half. -/
def half : List UInt8 :=
  [Ascii.openBrace, Ascii.quote, 0x61, Ascii.quote, Ascii.colon, Ascii.openBracket, Ascii.zero,
    Ascii.point, 0x35, Ascii.closeBracket, Ascii.closeBrace]

theorem half_survives :
    ∃ doc again, Document.decode half = .ok doc ∧ again.root = doc.root.mapNumbers Number.reloaded ∧
      ∀ spacing, Document.decode (Utf8.encode (doc.root.render spacing)) = .ok again := by
  have survives : ((Document.decode half).toOption.any fun doc =>
      (Document.decode (Utf8.encode (doc.root.render .compact))).isOk) = true := by decide +kernel
  cases decoded : Document.decode half with
  | error e =>
      rw [decoded] at survives
      cases survives
  | ok doc =>
      rw [decoded] at survives
      have success : (Document.decode (Utf8.encode (doc.root.render .compact))).isOk = true :=
        survives
      obtain ⟨-, again, reads, root, -⟩ | ⟨-, fails⟩ := Document.decode_render decoded
      · exact ⟨doc, again, rfl, root, reads⟩
      · obtain ⟨e, failed⟩ := fails .compact
        rw [failed] at success
        cases success

end Example

end JsonSelect
