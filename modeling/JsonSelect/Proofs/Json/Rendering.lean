/-
# JsonSelect.Proofs.Json.Rendering -- the texts of a value

* `Json.tree` is the tree of a value: its tokens without the blanks.
* `Json.spellsText_render`: both texts of a value, on a line and indented, are texts of this
  tree.
-/
import JsonSelect.Proofs.Json.Quoted
import JsonSelect.Proofs.Number.Text

namespace JsonSelect

set_option autoImplicit false

namespace Json

/-! ## Trees of values -/

mutual

/-- What the texts of a value have in common. -/
def tree : Json → ParseTree
  | .null => .scalar [Ascii.lowerN, 0x75, 0x6c, 0x6c]
  | .bool true => .scalar [Ascii.lowerT, 0x72, 0x75, 0x65]
  | .bool false => .scalar [Ascii.lowerF, 0x61, 0x6c, 0x73, 0x65]
  | .number n => .scalar (Utf8.encode n.text)
  | .string s => .scalar (Utf8.encode (quoted s))
  | .array items => .array (itemTrees items)
  | .object members => .object (memberTrees members)

def itemTrees : List Json → List ParseTree
  | [] => []
  | v :: rest => v.tree :: itemTrees rest

def memberTrees : List (String × Json) → List (List UInt8 × ParseTree)
  | [] => []
  | (key, v) :: rest => (Utf8.encode (quoted key), v.tree) :: memberTrees rest

end

/-! ## Blanks -/

theorem allBlank_encode {cs : List Char} (blank : ∀ c ∈ cs, c = ' ' ∨ c = '\n') :
    AllBlank (Utf8.encode cs) := by
  induction cs with
  | nil => exact List.forall_mem_nil _
  | cons c cs ih =>
      obtain ⟨first, more⟩ := List.forall_mem_cons.1 blank
      have byte : AllBlank (String.utf8EncodeChar c) := by
        rcases first with rfl | rfl <;> decide
      rw [Utf8.encode_cons]
      exact List.forall_mem_append.2 ⟨byte, ih more⟩

theorem allBlank_lineStart (spacing : Spacing) (depth : Nat) :
    AllBlank (Utf8.encode (spacing.lineStart depth)) := by
  refine allBlank_encode ?_
  cases spacing with
  | compact => exact List.forall_mem_nil _
  | indented =>
      refine List.forall_mem_cons.2 ⟨.inr rfl, fun c space => .inl ?_⟩
      exact List.eq_of_mem_replicate space

theorem allBlank_afterColon (spacing : Spacing) : AllBlank (Utf8.encode spacing.afterColon) := by
  cases spacing <;> decide

/-! ## Texts -/

theorem spellsMember_quoted {value : List UInt8 → Prop} {text : List Char}
    (valued : value (Utf8.encode text)) (spacing : Spacing) (key : String) :
    ParseTree.SpellsMember (Utf8.encode (quoted key)) value
      (Utf8.encode (quoted key ++ ':' :: (spacing.afterColon ++ text))) := by
  refine ⟨[], _, _, isString_quoted key, by decide, allBlank_afterColon spacing, valued, ?_⟩
  rw [Utf8.encode_append, Utf8.encode_cons, Utf8.encode_append]
  rfl

mutual

/-- The text of a value is one of its tree, whatever its line. -/
theorem spells_textAt (spacing : Spacing) :
    (v : Json) → (depth : Nat) → v.tree.Spells (Utf8.encode (textAt spacing depth v))
  | .null, _ => ⟨.wordNull, rfl⟩
  | .bool true, _ => ⟨.wordTrue, rfl⟩
  | .bool false, _ => ⟨.wordFalse, rfl⟩
  | .number n, _ => ⟨.numeral n.isNumeral_text, rfl⟩
  | .string s, _ => ⟨.string (isString_quoted s), rfl⟩
  | .array items, depth => ⟨_, spells_itemsText spacing items depth, rfl⟩
  | .object members, depth => ⟨_, spells_membersText spacing members depth, rfl⟩

theorem spells_itemsText (spacing : Spacing) : (items : List Json) → (depth : Nat) →
    ParseTree.SpellsItems (itemTrees items) (Utf8.encode (itemsText spacing depth items))
  | [], _ => ⟨[], by decide, rfl⟩
  | v :: rest, depth => by
      refine ⟨_, _, _, allBlank_lineStart spacing (depth + 1), spells_textAt spacing v (depth + 1),
        spells_moreItemsText spacing rest depth, ?_⟩
      rw [itemsText, Utf8.encode_append, Utf8.encode_append, List.append_assoc]

theorem spells_moreItemsText (spacing : Spacing) : (items : List Json) → (depth : Nat) →
    ParseTree.SpellsMoreItems (itemTrees items) (Utf8.encode (moreItemsText spacing depth items))
  | [], depth => by
      refine ⟨_, allBlank_lineStart spacing depth, ?_⟩
      rw [moreItemsText, Utf8.encode_append]
      rfl
  | v :: rest, depth => by
      refine ⟨[], _, _, _, by decide, allBlank_lineStart spacing (depth + 1),
        spells_textAt spacing v (depth + 1), spells_moreItemsText spacing rest depth, ?_⟩
      rw [moreItemsText, Utf8.encode_cons, Utf8.encode_append, Utf8.encode_append,
        List.append_assoc]
      rfl

theorem spells_membersText (spacing : Spacing) : (members : List (String × Json)) →
    (depth : Nat) →
      ParseTree.SpellsMembers (memberTrees members)
        (Utf8.encode (membersText spacing depth members))
  | [], _ => ⟨[], by decide, rfl⟩
  | (key, v) :: rest, depth => by
      refine ⟨_, _, _, allBlank_lineStart spacing (depth + 1),
        spellsMember_quoted (spells_textAt spacing v (depth + 1)) spacing key,
        spells_moreMembersText spacing rest depth, ?_⟩
      simp only [membersText, Utf8.encode_append, Utf8.encode_cons, List.append_assoc]

theorem spells_moreMembersText (spacing : Spacing) : (members : List (String × Json)) →
    (depth : Nat) →
      ParseTree.SpellsMoreMembers (memberTrees members)
        (Utf8.encode (moreMembersText spacing depth members))
  | [], depth => by
      refine ⟨_, allBlank_lineStart spacing depth, ?_⟩
      rw [moreMembersText, Utf8.encode_append]
      rfl
  | (key, v) :: rest, depth => by
      refine ⟨[], _, _, _, by decide, allBlank_lineStart spacing (depth + 1),
        spellsMember_quoted (spells_textAt spacing v (depth + 1)) spacing key,
        spells_moreMembersText spacing rest depth, ?_⟩
      simp only [moreMembersText, Utf8.encode_append, Utf8.encode_cons, List.append_assoc]
      rfl

end

/-- Both texts of a value are texts of its tree. -/
theorem spellsText_render (spacing : Spacing) (v : Json) :
    v.tree.SpellsText (Utf8.encode (v.render spacing)) :=
  ⟨[], _, [], by decide, spells_textAt spacing v 0, by decide, by simp [render]⟩

end Json

end JsonSelect
