/-
# JsonSelect.Proofs.Json.Distinct -- a value can be told from its text

The text of a value shows by its first character of which kind the value is, and it ends where
no character of a numeral follows.  So two texts that agree as far as they go are texts of one
value, whatever stands behind them.

* `Json.quoted_cancel`: the text of a string shows where the string ends.
* `Json.textAt_cancel`: so does the text of a value, by induction on the value.
* `Json.render_injective`: different values have different texts, on a line and indented.
-/
import JsonSelect.Proofs.Json.Quoted
import JsonSelect.Proofs.Number.Distinct

namespace JsonSelect

set_option autoImplicit false

namespace Json

variable {r r' : List Char}

/-! ## Where a token ends -/

/-- What follows does not go on with a numeral. -/
def NoMark : List Char → Prop
  | [] => True
  | c :: _ => ¬ IsMark c

/-- Numerals end at the first character that is none of theirs. -/
theorem marks_cancel {s t : List Char} (marks : ∀ c ∈ s, IsMark c) (marks' : ∀ c ∈ t, IsMark c)
    (ends : NoMark r) (ends' : NoMark r') (same : s ++ r = t ++ r') : s = t ∧ r = r' := by
  induction s generalizing t with
  | nil =>
      cases t with
      | nil => exact ⟨rfl, same⟩
      | cons c t =>
          rw [List.nil_append] at same
          subst same
          exact absurd (marks' c List.mem_cons_self) ends
  | cons c s ih =>
      cases t with
      | nil =>
          rw [List.nil_append] at same
          subst same
          exact absurd (marks c List.mem_cons_self) ends'
      | cons d t =>
          obtain ⟨rfl, behind⟩ := List.cons.inj same
          obtain ⟨rfl, rest⟩ := ih (List.forall_mem_cons.1 marks).2
            (List.forall_mem_cons.1 marks').2 behind
          exact ⟨rfl, rest⟩

/-- A string is read up to its closing quote. -/
theorem quoted_cancel {s t : String} (same : quoted s ++ r = quoted t ++ r') :
    s = t ∧ r = r' := by
  have bytes := congrArg Utf8.encode same
  simp only [Utf8.encode_append, encode_quoted, List.cons_append, List.append_assoc,
    List.nil_append] at bytes
  have read := readString_quoted s (Utf8.encode r)
  rw [(List.cons.inj bytes).2, readString_quoted t (Utf8.encode r')] at read
  obtain ⟨rfl, -⟩ := Prod.mk.inj (Except.ok.inj read)
  exact ⟨rfl, List.append_cancel_left same⟩

/-! ## How a text begins -/

/-- The kind of the values whose texts begin with this character. -/
def kindOf? (c : Char) : Option Kind :=
  if c = 'n' then some .null
  else if c = 't' ∨ c = 'f' then some .bool
  else if IsMark c then some .number
  else if c = '"' then some .string
  else if c = '[' then some .array
  else if c = '{' then some .object
  else none

theorem kindOf?_of_isMark {c : Char} (mark : IsMark c) : kindOf? c = some .number := by
  have other {d : Char} (unmarked : ¬ IsMark d) : c ≠ d := by
    rintro rfl
    exact unmarked mark
  have bool : ¬ (c = 't' ∨ c = 'f') := not_or.2 ⟨other (by decide), other (by decide)⟩
  rw [kindOf?, if_neg (other (by decide)), if_neg bool, if_pos mark]

theorem exists_textAt_eq_cons (spacing : Spacing) (depth : Nat) (v : Json) :
    ∃ c t, textAt spacing depth v = c :: t ∧ kindOf? c = some v.kind := by
  cases v with
  | null => exact ⟨_, _, rfl, by decide⟩
  | bool b => cases b <;> exact ⟨_, _, rfl, by decide⟩
  | number n =>
      obtain ⟨c, t, shape⟩ := List.exists_cons_of_ne_nil n.text_ne_nil
      refine ⟨c, t, shape, kindOf?_of_isMark (n.isMark_of_mem_text ?_)⟩
      rw [shape]
      exact List.mem_cons_self
  | string s => exact ⟨_, _, rfl, (by decide : kindOf? '"' = some .string)⟩
  | array items => exact ⟨_, _, rfl, (by decide : kindOf? '[' = some .array)⟩
  | object members => exact ⟨_, _, rfl, (by decide : kindOf? '{' = some .object)⟩

/-- Values whose texts agree are of one kind. -/
theorem kind_eq_of_textAt {spacing : Spacing} {depth : Nat} {v w : Json}
    (same : textAt spacing depth v ++ r = textAt spacing depth w ++ r') : v.kind = w.kind := by
  obtain ⟨c, t, shape, kind⟩ := exists_textAt_eq_cons spacing depth v
  obtain ⟨d, u, shape', kind'⟩ := exists_textAt_eq_cons spacing depth w
  rw [shape, shape', List.cons_append, List.cons_append] at same
  rw [(List.cons.inj same).1, kind'] at kind
  exact (Option.some.inj kind).symm

/-- Where a text begins on a new line, a line break comes first. -/
theorem lineStart_append_ne {spacing : Spacing} {depth : Nat} {c d : Char} {t u : List Char}
    (different : c ≠ d) (noBreak : d ≠ '\n') : spacing.lineStart depth ++ c :: t ≠ d :: u := by
  cases spacing with
  | compact =>
      intro same
      exact different (List.cons.inj same).1
  | indented =>
      intro same
      exact noBreak (List.cons.inj same).1.symm

/-- A value does not begin as a list of items ends. -/
theorem lineStart_textAt_ne {spacing : Spacing} {depth depth' : Nat} {v : Json}
    {t u : List Char} :
    spacing.lineStart depth ++ (textAt spacing depth' v ++ t) ≠ ']' :: u := by
  obtain ⟨c, s, shape, kind⟩ := exists_textAt_eq_cons spacing depth' v
  rw [shape, List.cons_append]
  refine lineStart_append_ne ?_ (by decide)
  rintro rfl
  exact absurd kind.symm (by simp [show kindOf? ']' = none by decide])

theorem noMark_lineStart_append {spacing : Spacing} {depth : Nat} {c : Char} {t : List Char}
    (unmarked : ¬ IsMark c) : NoMark (spacing.lineStart depth ++ c :: t) := by
  cases spacing with
  | compact => exact unmarked
  | indented => exact (by decide : ¬ IsMark '\n')

theorem noMark_moreItemsText (spacing : Spacing) (depth : Nat) (items : List Json) :
    NoMark (moreItemsText spacing depth items ++ r) := by
  cases items with
  | nil =>
      rw [moreItemsText, List.append_assoc]
      exact noMark_lineStart_append (by decide)
  | cons v rest => exact (by decide : ¬ IsMark ',')

theorem noMark_moreMembersText (spacing : Spacing) (depth : Nat) (members : List (String × Json)) :
    NoMark (moreMembersText spacing depth members ++ r) := by
  cases members with
  | nil =>
      rw [moreMembersText, List.append_assoc]
      exact noMark_lineStart_append (by decide)
  | cons m rest => exact (by decide : ¬ IsMark ',')

/-! ## Texts that agree -/

/-- A member is cancelled as its key and its value are. -/
theorem member_cancel {spacing : Spacing} {depth : Nat} {key key' : String} {v w : Json}
    (cancel : textAt spacing depth v ++ r = textAt spacing depth w ++ r' → v = w ∧ r = r')
    (same : quoted key ++ ':' :: (spacing.afterColon ++ (textAt spacing depth v ++ r)) =
      quoted key' ++ ':' :: (spacing.afterColon ++ (textAt spacing depth w ++ r'))) :
    (key, v) = (key', w) ∧ r = r' := by
  obtain ⟨rfl, value⟩ := quoted_cancel same
  obtain ⟨rfl, rest⟩ := cancel (List.append_cancel_left (List.cons.inj value).2)
  exact ⟨rfl, rest⟩

-- By recursion on the first value, with one statement for each kind of text.  A container ends
-- with its bracket, so only behind a value there has to be the end of a numeral.
mutual

theorem textAt_cancel (spacing : Spacing) : (v : Json) → ∀ {depth : Nat} {w : Json}
    {r r' : List Char}, NoMark r → NoMark r' →
      textAt spacing depth v ++ r = textAt spacing depth w ++ r' → v = w ∧ r = r'
  | .null, depth, w, r, r', _, _, same => by
      have kinds := kind_eq_of_textAt same
      cases w with
      | null => exact ⟨rfl, List.append_cancel_left same⟩
      | _ => cases kinds
  | .bool b, depth, w, r, r', _, _, same => by
      have kinds := kind_eq_of_textAt same
      cases w with
      | bool b' =>
          cases b <;> cases b'
          · exact ⟨rfl, List.append_cancel_left same⟩
          · exact absurd (List.cons.inj same).1 (by decide)
          · exact absurd (List.cons.inj same).1 (by decide)
          · exact ⟨rfl, List.append_cancel_left same⟩
      | _ => cases kinds
  | .number n, depth, w, r, r', ends, ends', same => by
      have kinds := kind_eq_of_textAt same
      cases w with
      | number m =>
          rw [textAt, textAt] at same
          obtain ⟨texts, rest⟩ := marks_cancel (fun _ => n.isMark_of_mem_text)
            (fun _ => m.isMark_of_mem_text) ends ends' same
          rw [Number.text_injective texts]
          exact ⟨rfl, rest⟩
      | _ => cases kinds
  | .string s, depth, w, r, r', _, _, same => by
      have kinds := kind_eq_of_textAt same
      cases w with
      | string t =>
          obtain ⟨rfl, rest⟩ := quoted_cancel same
          exact ⟨rfl, rest⟩
      | _ => cases kinds
  | .array items, depth, w, r, r', _, _, same => by
      have kinds := kind_eq_of_textAt same
      cases w with
      | array items' =>
          obtain ⟨rfl, rest⟩ := itemsText_cancel spacing items (List.cons.inj same).2
          exact ⟨rfl, rest⟩
      | _ => cases kinds
  | .object members, depth, w, r, r', _, _, same => by
      have kinds := kind_eq_of_textAt same
      cases w with
      | object members' =>
          obtain ⟨rfl, rest⟩ := membersText_cancel spacing members (List.cons.inj same).2
          exact ⟨rfl, rest⟩
      | _ => cases kinds

theorem itemsText_cancel (spacing : Spacing) : (items : List Json) → ∀ {depth : Nat}
    {items' : List Json} {r r' : List Char},
      itemsText spacing depth items ++ r = itemsText spacing depth items' ++ r' →
        items = items' ∧ r = r'
  | [], depth, [], r, r', same => ⟨rfl, List.append_cancel_left same⟩
  | [], depth, w :: others, r, r', same => by
      simp only [itemsText, List.append_assoc] at same
      exact absurd same.symm lineStart_textAt_ne
  | v :: rest, depth, [], r, r', same => by
      simp only [itemsText, List.append_assoc] at same
      exact absurd same lineStart_textAt_ne
  | v :: rest, depth, w :: others, r, r', same => by
      simp only [itemsText, List.append_assoc] at same
      obtain ⟨rfl, more⟩ := textAt_cancel spacing v (noMark_moreItemsText spacing depth rest)
        (noMark_moreItemsText spacing depth others) (List.append_cancel_left same)
      obtain ⟨rfl, after⟩ := moreItemsText_cancel spacing rest more
      exact ⟨rfl, after⟩

theorem moreItemsText_cancel (spacing : Spacing) : (items : List Json) → ∀ {depth : Nat}
    {items' : List Json} {r r' : List Char},
      moreItemsText spacing depth items ++ r = moreItemsText spacing depth items' ++ r' →
        items = items' ∧ r = r'
  | [], depth, [], r, r', same => ⟨rfl, List.append_cancel_left same⟩
  | [], depth, w :: others, r, r', same => by
      simp only [moreItemsText, List.append_assoc] at same
      exact absurd same (lineStart_append_ne (by decide) (by decide))
  | v :: rest, depth, [], r, r', same => by
      simp only [moreItemsText, List.append_assoc] at same
      exact absurd same.symm (lineStart_append_ne (by decide) (by decide))
  | v :: rest, depth, w :: others, r, r', same => by
      simp only [moreItemsText, List.cons_append, List.append_assoc] at same
      obtain ⟨rfl, more⟩ := textAt_cancel spacing v (noMark_moreItemsText spacing depth rest)
        (noMark_moreItemsText spacing depth others)
        (List.append_cancel_left (List.cons.inj same).2)
      obtain ⟨rfl, after⟩ := moreItemsText_cancel spacing rest more
      exact ⟨rfl, after⟩

theorem membersText_cancel (spacing : Spacing) : (members : List (String × Json)) →
    ∀ {depth : Nat} {members' : List (String × Json)} {r r' : List Char},
      membersText spacing depth members ++ r = membersText spacing depth members' ++ r' →
        members = members' ∧ r = r'
  | [], depth, [], r, r', same => ⟨rfl, List.append_cancel_left same⟩
  | [], depth, (key, w) :: others, r, r', same => by
      simp only [membersText, List.append_assoc] at same
      exact absurd same.symm (lineStart_append_ne (by decide) (by decide))
  | (key, v) :: rest, depth, [], r, r', same => by
      simp only [membersText, List.append_assoc] at same
      exact absurd same (lineStart_append_ne (by decide) (by decide))
  | (key, v) :: rest, depth, (key', w) :: others, r, r', same => by
      simp only [membersText, List.cons_append, List.append_assoc] at same
      obtain ⟨members, more⟩ := member_cancel (textAt_cancel spacing v
        (noMark_moreMembersText spacing depth rest) (noMark_moreMembersText spacing depth others))
        (List.append_cancel_left same)
      obtain ⟨rfl, after⟩ := moreMembersText_cancel spacing rest more
      rw [members]
      exact ⟨rfl, after⟩

theorem moreMembersText_cancel (spacing : Spacing) : (members : List (String × Json)) →
    ∀ {depth : Nat} {members' : List (String × Json)} {r r' : List Char},
      moreMembersText spacing depth members ++ r = moreMembersText spacing depth members' ++ r' →
        members = members' ∧ r = r'
  | [], depth, [], r, r', same => ⟨rfl, List.append_cancel_left same⟩
  | [], depth, (key, w) :: others, r, r', same => by
      simp only [moreMembersText, List.append_assoc] at same
      exact absurd same (lineStart_append_ne (by decide) (by decide))
  | (key, v) :: rest, depth, [], r, r', same => by
      simp only [moreMembersText, List.append_assoc] at same
      exact absurd same.symm (lineStart_append_ne (by decide) (by decide))
  | (key, v) :: rest, depth, (key', w) :: others, r, r', same => by
      simp only [moreMembersText, List.cons_append, List.append_assoc] at same
      obtain ⟨members, more⟩ := member_cancel (textAt_cancel spacing v
        (noMark_moreMembersText spacing depth rest) (noMark_moreMembersText spacing depth others))
        (List.append_cancel_left (List.cons.inj same).2)
      obtain ⟨rfl, after⟩ := moreMembersText_cancel spacing rest more
      rw [members]
      exact ⟨rfl, after⟩

end

/-! ## Whole texts -/

/-- Different values have different texts. -/
theorem render_injective (spacing : Spacing) : Function.Injective (render spacing) := by
  intro v w same
  have texts : textAt spacing 0 v ++ [] = textAt spacing 0 w ++ [] := by
    rw [List.append_nil, List.append_nil]
    exact same
  have ends : NoMark [] := trivial
  exact (textAt_cancel spacing v ends ends texts).1

theorem compact_injective : Function.Injective compact :=
  fun _ _ same => render_injective .compact (String.ofList_injective same)

end Json

end JsonSelect
