/-
# JsonSelect.Proofs.Json.Reading.Tree -- the meaning of a text is that of its tree

What is read from a JSON text depends on the tree of the text alone, so blanks between the
tokens make no difference.

* `ParseTree.value?` is what a tree means whose containers may still be nested a number of
  times.
* `ParseTree.readValue_spelled`: reading a text of the tree has just this outcome.
* `ParseTree.parse_text`, `ParseTree.decode_of_root?`: whole texts.
-/
import JsonSelect.Document
import JsonSelect.Proofs.Json.Reading.Token

namespace JsonSelect

set_option autoImplicit false

namespace Json

/-! ## Blanks -/

theorem skipBlanks_append {blanks : List UInt8} (blank : AllBlank blanks) (s : List UInt8) :
    skipBlanks (blanks ++ s) = skipBlanks s := by
  induction blanks with
  | nil => rfl
  | cons b blanks ih =>
      obtain ⟨first, more⟩ := List.forall_mem_cons.1 blank
      rw [List.cons_append, skipBlanks, List.dropWhile_cons_of_pos first]
      exact ih more

theorem skipBlanks_cons {b : UInt8} (notBlank : isBlank b = false) (s : List UInt8) :
    skipBlanks (b :: s) = b :: s := by
  rw [skipBlanks, List.dropWhile_cons_of_neg (by simp [notBlank])]

theorem skipBlanks_append_cons {blanks : List UInt8} {b : UInt8} (blank : AllBlank blanks)
    (notBlank : isBlank b = false) (s : List UInt8) : skipBlanks (blanks ++ b :: s) = b :: s := by
  rw [skipBlanks_append blank, skipBlanks_cons notBlank]

theorem endsNumeral_append {blanks s : List UInt8} (blank : AllBlank blanks)
    (ends : EndsNumeral s) : EndsNumeral (blanks ++ s) := by
  cases blanks with
  | nil => exact ends
  | cons b blanks =>
      have first := (List.forall_mem_cons.1 blank).1
      simp only [isBlank, Bool.or_eq_true, beq_iff_eq] at first
      rw [List.cons_append, endsNumeral_cons_iff]
      rcases first with ((rfl | rfl) | rfl) | rfl <;> decide

/-- What follows a value ends a numeral: blanks, and a comma or a closing bracket. -/
theorem endsNumeral_separated {blanks : List UInt8} {b : UInt8} (blank : AllBlank blanks)
    (separates : b ∈ [Ascii.comma, Ascii.closeBracket, Ascii.closeBrace]) (s rest : List UInt8) :
    EndsNumeral ((blanks ++ b :: s) ++ rest) := by
  rw [List.append_assoc]
  refine endsNumeral_append blank (endsNumeral_cons_iff.2 ?_)
  simp only [List.mem_cons, List.not_mem_nil, or_false] at separates
  rcases separates with rfl | rfl | rfl <;> decide

/-- A token begins with a byte that is neither blank nor a bracket. -/
theorem IsScalar.exists_first {token : List UInt8} (scalar : IsScalar token) :
    ∃ b t, token = b :: t ∧ isBlank b = false ∧ b ≠ Ascii.openBracket ∧ b ≠ Ascii.openBrace ∧
      b ≠ Ascii.closeBracket := by
  cases scalar with
  | wordNull => exact ⟨_, _, rfl, by decide⟩
  | wordTrue => exact ⟨_, _, rfl, by decide⟩
  | wordFalse => exact ⟨_, _, rfl, by decide⟩
  | string string =>
      obtain ⟨content⟩ := string
      exact ⟨_, _, rfl, by decide⟩
  | numeral numeral =>
      cases numeral with
      | positive unsigned =>
          obtain ⟨d, t, rfl, digit⟩ := unsigned.exists_digit
          refine ⟨d, t, rfl, ?_, digit_ne digit rfl, digit_ne digit rfl, digit_ne digit rfl⟩
          simp [isBlank, digit_ne digit (b := 0x20) rfl, digit_ne digit (b := 0x09) rfl,
            digit_ne digit (b := 0x0a) rfl, digit_ne digit (b := 0x0d) rfl]
      | negative => exact ⟨_, _, rfl, by decide⟩

end Json

open Json

namespace ParseTree

theorem Spells.exists_first {tree : ParseTree} {s : List UInt8} (spells : tree.Spells s) :
    ∃ b t, s = b :: t ∧ isBlank b = false ∧ b ≠ Ascii.closeBracket := by
  cases tree with
  | scalar token =>
      obtain ⟨scalar, rfl⟩ := spells
      obtain ⟨b, t, first, notBlank, -, -, opens⟩ := scalar.exists_first
      exact ⟨b, t, first, notBlank, opens⟩
  | array items =>
      obtain ⟨t, -, rfl⟩ := spells
      exact ⟨_, _, rfl, by decide⟩
  | object members =>
      obtain ⟨t, -, rfl⟩ := spells
      exact ⟨_, _, rfl, by decide⟩

/-! ## Meaning -/

mutual

/-- What a tree means whose containers may be nested `depth` deep. -/
def value? : ParseTree → (depth : Nat) → Option Json
  | .scalar token, _ => (scalar? token).map Scalar.toJson
  | .array _, 0 => none
  | .array items, depth + 1 => (itemValues? items depth).map .array
  | .object _, 0 => none
  | .object members, depth + 1 =>
      (memberValues? members depth).map fun members => .object (Keyed.ofList members)

def itemValues? : List ParseTree → (depth : Nat) → Option (List Json)
  | [], _ => some []
  | item :: rest, depth =>
      (item.value? depth).bind fun v => (itemValues? rest depth).map (v :: ·)

def memberValues? : List (List UInt8 × ParseTree) → (depth : Nat) → Option (List (String × Json))
  | [], _ => some []
  | (key, value) :: rest, depth =>
      ((key? key).bind fun name => (value.value? depth).map (name, ·)).bind fun m =>
        (memberValues? rest depth).map (m :: ·)

end

/-! ## Reading -/

theorem endsNumeral_moreItems {items : List ParseTree} {s : List UInt8}
    (spells : SpellsMoreItems items s) (rest : List UInt8) : EndsNumeral (s ++ rest) := by
  cases items with
  | nil =>
      obtain ⟨blanks, blank, rfl⟩ := spells
      exact endsNumeral_separated blank (by decide) [] rest
  | cons item items =>
      obtain ⟨before, blanks, t, u, blank, -, -, -, rfl⟩ := spells
      exact endsNumeral_separated blank (by decide) _ rest

theorem endsNumeral_moreMembers {members : List (List UInt8 × ParseTree)} {s : List UInt8}
    (spells : SpellsMoreMembers members s) (rest : List UInt8) : EndsNumeral (s ++ rest) := by
  cases members with
  | nil =>
      obtain ⟨blanks, blank, rfl⟩ := spells
      exact endsNumeral_separated blank (by decide) [] rest
  | cons member members =>
      obtain ⟨before, blanks, t, u, blank, -, -, -, rfl⟩ := spells
      exact endsNumeral_separated blank (by decide) _ rest

/-- A member is read as its value is. -/
theorem readMember_spelled {inner : Reader Json} {value : List UInt8 → Prop}
    {outcome : Option Json}
    (reads : ∀ {blanks t rest : List UInt8}, AllBlank blanks → value t → EndsNumeral rest →
      Leaves (inner.plain (blanks ++ (t ++ rest))) rest outcome)
    {key s : List UInt8} (spells : SpellsMember key value s) :
    ∃ t, s = Ascii.quote :: t ∧ ∀ rest, EndsNumeral rest →
      Leaves ((readMember inner).plain (t ++ rest)) rest
        ((key? key).bind fun name => outcome.map (name, ·)) := by
  obtain ⟨before, blanks, t, ⟨content⟩, blank, blank', valued, rfl⟩ := spells
  refine ⟨_, by rw [List.cons_append], fun rest ends => ?_⟩
  rw [plain_readMember]
  simp only [List.append_assoc, List.cons_append, List.nil_append]
  refine (readString_key content _).bind fun name _ => ?_
  simp only [skipBlanks_append_cons blank (show isBlank Ascii.colon = false by decide), if_pos]
  exact (reads blank' valued ends).map _

-- By recursion on the tree, with one statement for each kind of text in the grammar.  What
-- follows a value must end a numeral, or the digits of the value could go on there.
mutual

theorem readValue_spelled : (tree : ParseTree) → ∀ {depth : Nat} {blanks s rest : List UInt8},
    AllBlank blanks → tree.Spells s → EndsNumeral rest →
      Leaves ((readValue depth).plain (blanks ++ (s ++ rest))) rest (tree.value? depth)
  | .scalar token, depth, blanks, s, rest, blank, spells, ends => by
      obtain ⟨scalar, rfl⟩ := spells
      obtain ⟨b, t, rfl, notBlank, array, object, -⟩ := scalar.exists_first
      have starts := skipBlanks_append_cons blank notBlank (t ++ rest)
      have read := (readScalar_token scalar ends).map Scalar.toJson
      cases depth with
      | zero => exact readValueWith_of_scalar starts array object ▸ read
      | succ depth => exact readValueWith_of_scalar starts array object ▸ read
  | .array items, depth, blanks, s, rest, blank, spells, ends => by
      obtain ⟨t, inside, rfl⟩ := spells
      have starts := skipBlanks_append_cons blank
        (show isBlank Ascii.openBracket = false by decide) (t ++ rest)
      cases depth with
      | zero => exact readValueWith_tooDeep starts (.inl rfl) ▸ leaves_error _ rest
      | succ depth =>
          exact readValueWith_of_array starts ▸ (readItems_spelled items inside).map Json.array
  | .object members, depth, blanks, s, rest, blank, spells, ends => by
      obtain ⟨t, inside, rfl⟩ := spells
      have starts := skipBlanks_append_cons blank
        (show isBlank Ascii.openBrace = false by decide) (t ++ rest)
      cases depth with
      | zero => exact readValueWith_tooDeep starts (.inr rfl) ▸ leaves_error _ rest
      | succ depth =>
          exact readValueWith_of_object starts ▸ (readMembers_spelled members inside).map _

theorem readItems_spelled : (items : List ParseTree) → ∀ {depth : Nat} {s rest : List UInt8},
    SpellsItems items s →
      Leaves ((readItems (readValue depth)).plain (s ++ rest)) rest (itemValues? items depth)
  | [], depth, s, rest, spells => by
      obtain ⟨blanks, blank, rfl⟩ := spells
      rw [List.append_assoc]
      exact readItems_of_close (skipBlanks_append_cons blank (by decide) rest)
  | item :: items, depth, s, rest, spells => by
      obtain ⟨blanks, t, u, blank, first, more, rfl⟩ := spells
      obtain ⟨b, t', rfl, notBlank, opens⟩ := first.exists_first
      simp only [List.append_assoc, List.cons_append]
      rw [readItems_of_item (skipBlanks_append_cons blank notBlank _) opens]
      refine (readValue_spelled item blank first (endsNumeral_moreItems more rest)).bind
        fun v _ => ?_
      exact (readMoreItems_spelled items more).map _

theorem readMoreItems_spelled : (items : List ParseTree) → ∀ {depth : Nat} {s rest : List UInt8},
    SpellsMoreItems items s →
      Leaves ((readMoreItems (readValue depth)).plain (s ++ rest)) rest (itemValues? items depth)
  | [], depth, s, rest, spells => by
      obtain ⟨blanks, blank, rfl⟩ := spells
      rw [List.append_assoc]
      exact readMoreItems_of_close (skipBlanks_append_cons blank (by decide) rest)
  | item :: items, depth, s, rest, spells => by
      obtain ⟨before, blanks, t, u, blank, blank', next, more, rfl⟩ := spells
      obtain ⟨b, t', rfl, notBlank, opens⟩ := next.exists_first
      simp only [List.append_assoc, List.cons_append]
      rw [readMoreItems_of_comma (skipBlanks_append_cons blank (by decide) _)
        (skipBlanks_append_cons blank' notBlank _) opens]
      refine (readValue_spelled item blank' next (endsNumeral_moreItems more rest)).bind
        fun v _ => ?_
      exact (readMoreItems_spelled items more).map _

theorem readMembers_spelled : (members : List (List UInt8 × ParseTree)) →
    ∀ {depth : Nat} {s rest : List UInt8}, SpellsMembers members s →
      Leaves ((readMembers (readValue depth)).plain (s ++ rest)) rest (memberValues? members depth)
  | [], depth, s, rest, spells => by
      obtain ⟨blanks, blank, rfl⟩ := spells
      rw [List.append_assoc]
      exact readMembers_of_close (skipBlanks_append_cons blank (by decide) rest)
  | (key, value) :: members, depth, s, rest, spells => by
      obtain ⟨blanks, t, u, blank, first, more, rfl⟩ := spells
      obtain ⟨t', rfl, read⟩ := readMember_spelled (readValue_spelled value) first
      simp only [List.append_assoc, List.cons_append]
      rw [readMembers_of_member (skipBlanks_append_cons blank (by decide) _)]
      refine (read _ (endsNumeral_moreMembers more rest)).bind fun m _ => ?_
      exact (readMoreMembers_spelled members more).map _

theorem readMoreMembers_spelled : (members : List (List UInt8 × ParseTree)) →
    ∀ {depth : Nat} {s rest : List UInt8}, SpellsMoreMembers members s →
      Leaves ((readMoreMembers (readValue depth)).plain (s ++ rest)) rest
        (memberValues? members depth)
  | [], depth, s, rest, spells => by
      obtain ⟨blanks, blank, rfl⟩ := spells
      rw [List.append_assoc]
      exact readMoreMembers_of_close (skipBlanks_append_cons blank (by decide) rest)
  | (key, value) :: members, depth, s, rest, spells => by
      obtain ⟨before, blanks, t, u, blank, blank', next, more, rfl⟩ := spells
      obtain ⟨t', rfl, read⟩ := readMember_spelled (readValue_spelled value) next
      simp only [List.append_assoc, List.cons_append]
      rw [readMoreMembers_of_comma (skipBlanks_append_cons blank (by decide) _)
        (skipBlanks_append_cons blank' (by decide) _)]
      refine (read _ (endsNumeral_moreMembers more rest)).bind fun m _ => ?_
      exact (readMoreMembers_spelled members more).map _

end

/-! ## Whole texts -/

theorem endsNumeral_of_allBlank {blanks : List UInt8} (blank : AllBlank blanks) :
    EndsNumeral blanks := by
  have ends := endsNumeral_append blank endsNumeral_nil
  rwa [List.append_nil] at ends

theorem readEnd_blanks {blanks : List UInt8} (blank : AllBlank blanks) :
    readEnd blanks = .ok () := by
  have skipped := skipBlanks_append blank []
  rw [List.append_nil] at skipped
  rw [readEnd, skipped]
  rfl

/-- When nothing but blanks is left, the text is read to its end. -/
theorem yields_of_leaves {α β : Type} {result : Except Failure (α × List UInt8)}
    {blanks : List UInt8} {outcome : Option α} (leaves : Leaves result blanks outcome)
    (blank : AllBlank blanks) (f : α → β) :
    Yields (result >>= fun (a, rest) => readEnd rest >>= fun _ => .ok (f a)) (outcome.map f) := by
  cases outcome with
  | none =>
      obtain ⟨e, failed⟩ := leaves
      exact ⟨e, by rw [failed, error_bind]⟩
  | some a =>
      have read : result = .ok (a, blanks) := leaves
      rw [read, ok_bind]
      dsimp only
      rw [readEnd_blanks blank]
      rfl

/-- A text of the tree is read to what the tree means. -/
theorem parse_text {tree : ParseTree} {s : List UInt8} (spells : tree.SpellsText s) :
    Yields (parse s) (tree.value? depthLimit) := by
  obtain ⟨before, t, after, blank, spells, blank', rfl⟩ := spells
  have leaves : Leaves ((readValue depthLimit).plain _) after _ :=
    readValue_spelled tree blank spells (endsNumeral_of_allBlank blank')
  have read := yields_of_leaves leaves blank' fun v => v
  rw [Option.map_id'] at read
  refine Yields.mapError ?_ _
  rw [plain_readText]
  exact read

/-- The members of the object that a tree means. -/
def root? : ParseTree → Option (Keyed Json)
  | .object members => (memberValues? members (depthLimit - 1)).map Keyed.ofList
  | _ => none

theorem readObjectText_text {tree : ParseTree} {s : List UInt8} (spells : tree.SpellsText s) :
    Yields (readObjectText s) tree.root? := by
  obtain ⟨before, t, after, blank, spells, blank', rfl⟩ := spells
  cases tree with
  | scalar token =>
      obtain ⟨scalar, rfl⟩ := spells
      obtain ⟨b, t, rfl, notBlank, array, object, -⟩ := scalar.exists_first
      exact readObjectText_of_scalar (skipBlanks_append_cons blank notBlank _) array object
  | array items =>
      obtain ⟨u, -, rfl⟩ := spells
      exact readObjectText_of_array (skipBlanks_append_cons blank (by decide) _)
  | object members =>
      obtain ⟨u, inside, rfl⟩ := spells
      have leaves : Leaves ((readMembers (readValue (depthLimit - 1))).plain _) after _ :=
        readMembers_spelled members inside
      rw [List.cons_append, readObjectText_of_object (skipBlanks_append_cons blank (by decide) _)]
      exact yields_of_leaves leaves blank' Keyed.ofList

theorem parseObject_text {tree : ParseTree} {s : List UInt8} (spells : tree.SpellsText s) :
    Yields ((parseObject s).map OrderedObject.members) tree.root? := by
  rw [map_members_parseObject]
  exact (readObjectText_text spells).mapError _

/-- A text of the tree is decoded to the document of what the tree means. -/
theorem decode_of_root? {tree : ParseTree} {s : List UInt8} (spells : tree.SpellsText s)
    {members : Keyed Json} (root : tree.root? = some members) :
    ∃ ordered, Document.decode s = .ok (.ofMembers ⟨members, ordered⟩) := by
  have yields := parseObject_text spells
  rw [root] at yields
  obtain ⟨object, parsed, rfl⟩ := map_eq_ok_iff.1 yields
  exact ⟨object.ordered, Document.decode_eq_ok_iff.2 ⟨object, parsed, rfl⟩⟩

theorem decode_of_no_root {tree : ParseTree} {s : List UInt8} (spells : tree.SpellsText s)
    (root : tree.root? = none) : ∃ e, Document.decode s = .error e := by
  have yields := parseObject_text spells
  rw [root] at yields
  obtain ⟨e, failed⟩ := yields
  exact ⟨_, mapError_eq_error_iff.2 ⟨e, map_eq_error_iff.2 (map_eq_error_iff.1 failed), rfl⟩⟩

end ParseTree

end JsonSelect
