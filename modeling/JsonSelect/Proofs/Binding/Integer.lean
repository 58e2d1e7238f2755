/-
# JsonSelect.Proofs.Binding.Integer -- whole numbers in fields of integers

A whole number of a document is a double before a field takes it, so a field of integers gets
the number rounded to 53 bits, or none if that does not fit.

* `FieldType.convert_integer`: a double converts if it is a whole number of 64 bits with its
  sign.
* `Binding.runAll_whole_literal`: what a run of bindings makes of a whole number as it is
  written in the text.
-/
import JsonSelect.Proofs.Binding.Run
import JsonSelect.Proofs.Document.MemberOrder
import JsonSelect.Proofs.Json.Reading.Located
import JsonSelect.Proofs.Json.Reading.Whole

namespace JsonSelect

set_option autoImplicit false

open Json

variable {ρ : Type}

theorem FieldType.convert_integer {x : Double} {r : Int} (value : x.toInt? = some r) :
    FieldType.integer.convert (.number (.double x)) = SignedWord.ofInt? r := by
  show (x.toInt?.bind fun n => SignedWord.ofInt? n) = _
  rw [value, Option.bind_some]

/-- A whole number of the text is stored as the double of the number rounded to 53 bits. -/
theorem Document.at?_of_whole_literal {tree : ParseTree} {input token : List UInt8}
    {doc : Document} {l : Location} {n : Int} (spells : tree.SpellsText input)
    (decoded : decode input = .ok doc) (located : tree.at? l = some (.scalar token))
    (literal : IsWholeLiteral token n) (bits : n.natAbs < significandLimit) :
    ∃ x : Double, doc.root.at? l = some (.number (.double x)) ∧
      x.toInt? = some (nearestWhole n) := by
  obtain ⟨s, means, found⟩ := at?_of_scalar spells decoded located
  obtain ⟨k, x, number, stored, value⟩ := exists_number_of_literal literal bits
  cases means.symm.trans number
  refine ⟨x, ?_, value⟩
  rw [found, Scalar.toJson, asDoubles, stored]

namespace Binding

/-- A target takes the values at the places of the path. -/
theorem resolve_of_places {doc : Document} {b : Binding ρ}
    (accepts : ∀ e, ¬ doc.Refuses b.path e) {found : List Place}
    (places : (Path.compile b.path).places doc.root = found) {result : Except BindError (ρ → ρ)}
    (takes : b.target.Takes b.field b.path (found.map Place.value) result) :
    b.resolve doc = result := by
  rw [← places, Path.map_value_places] at takes
  exact resolve_of_resolves (.answered accepts takes)

/-- **A field of integers takes a whole number rounded to 53 bits.**  If the first match of the
path is written as a whole number of less than 2^64, it is stored as the number rounded to 53
bits if that fits in 64 bits with its sign, which can be seen from the number itself, and it is
of the wrong kind otherwise.  Numbers up to 2^53 are stored as they are, and the order of
numbers is that of what is stored for them. -/
theorem runAll_whole_literal {input : List UInt8} {tree : ParseTree} {doc : Document}
    (spells : tree.SpellsText input) (decoded : Document.decode input = .ok doc) (strict : Bool)
    {b : Binding ρ} {store : SignedWord → ρ → ρ} (target : b.target = .one .integer store)
    (accepts : ∀ e, ¬ (doc.withStrict strict).Refuses b.path e) {p : Place} {others : List Place}
    (places : (Path.compile b.path).places doc.root = p :: others) {token : List UInt8} {n : Int}
    (located : tree.at? p.location = some (.scalar token)) (literal : IsWholeLiteral token n)
    (bits : n.natAbs < 2 ^ 64) :
    ∃ r, RoundsToBits n r ∧
      (∃ x, p.value = .number (.double x) ∧ x.toInt? = some r) ∧
      (-2 ^ 63 - 1024 ≤ n ∧ n ≤ 2 ^ 63 - 513 → ∃ w : SignedWord, w.value = r ∧
        ∀ rest record, runAll (doc.withStrict strict) (b :: rest) record =
          runAll (doc.withStrict strict) rest (store w record)) ∧
      (¬ (-2 ^ 63 - 1024 ≤ n ∧ n ≤ 2 ^ 63 - 513) →
        ∀ rest record, runAll (doc.withStrict strict) (b :: rest) record =
          ⟨record, some (.wrongKind b.field .integer .number)⟩) ∧
      (n.natAbs ≤ 2 ^ 53 → r = n) ∧
      ∀ m q, RoundsToBits m q → (m ≤ n → q ≤ r) ∧ (n ≤ m → r ≤ q) := by
  obtain ⟨x, found, value⟩ := Document.at?_of_whole_literal spells decoded located literal bits
  have first : p ∈ (Path.compile b.path).places doc.root := places ▸ List.mem_cons_self
  have here := Path.at?_of_mem_places doc.root_ordered first
  have number : p.value = .number (.double x) := Option.some.inj (here.symm.trans found)
  have converts : FieldType.integer.convert p.value = SignedWord.ofInt? (nearestWhole n) := by
    rw [number]
    exact FieldType.convert_integer value
  have resolves {result : Except BindError (ρ → ρ)} :=
    @resolve_of_places ρ (doc.withStrict strict) b accepts _ places result
  rw [target] at resolves
  have rounds := roundsToBits_nearestWhole n
  refine ⟨nearestWhole n, rounds, ⟨x, number, value⟩, fun range => ?_, fun range rest record => ?_,
    fun few => ?_, fun m q rounds' => ⟨rounds'.mono rounds, rounds.mono rounds'⟩⟩
  · have fits := fitsSigned_nearestWhole_iff.2 range
    rw [SignedWord.ofInt?, dif_pos fits] at converts
    refine ⟨⟨nearestWhole n, fits⟩, rfl, fun rest record => ?_⟩
    rw [runAll, resolves (.one converts)]
  · have tooLarge := mt fitsSigned_nearestWhole_iff.1 range
    rw [SignedWord.ofInt?, dif_neg tooLarge] at converts
    rw [runAll, resolves (.wrongFirst converts), number]
    rfl
  · exact rounds.unique (roundsToBits_self few)

end Binding

namespace Example

/-- The largest whole number that fits in 64 bits with its sign when it is rounded. -/
def largestNumeral : List UInt8 :=
  [0x39, 0x32, 0x32, 0x33, 0x33, 0x37, 0x32, 0x30, 0x33, 0x36, 0x38, 0x35, 0x34, 0x37, 0x37, 0x35,
    0x32, 0x39, 0x35]

/-- The member `"a"` with this number. -/
def largest : List UInt8 :=
  Ascii.openBrace :: (keyA ++ Ascii.colon :: (largestNumeral ++ [Ascii.closeBrace]))

def largestTree : ParseTree := .object [(keyA, .scalar largestNumeral)]

theorem isWhole_largestNumeral : IsWhole largestNumeral := by
  have digits : largestNumeral.tail.all isDigit = true := by decide
  exact .digits rfl (by decide) (List.all_eq_true.1 digits)

theorem spells_largest : largestTree.SpellsText largest := by
  have scalar : IsScalar largestNumeral := .numeral (.positive isWhole_largestNumeral.isUnsigned)
  have member : ParseTree.SpellsMember keyA (ParseTree.scalar largestNumeral).Spells
      (keyA ++ Ascii.colon :: largestNumeral) :=
    ⟨[], [], _, isString_keyA, by decide, by decide, ⟨scalar, rfl⟩, rfl⟩
  have members : ParseTree.SpellsMembers [(keyA, .scalar largestNumeral)] largest.tail :=
    ⟨[], _, [Ascii.closeBrace], by decide, member, ⟨[], by decide, rfl⟩, rfl⟩
  exact ⟨[], largest, [], by decide, ⟨_, members, rfl⟩, by decide, rfl⟩

/-- A record of one integer that may be missing. -/
def integerField : Binding (Option SignedWord) := ⟨"n", "$.a", .one .integer fun w _ => some w⟩

/-- The number is stored as the largest double below 2^63. -/
theorem largest_stored :
    ∃ doc w, Document.decode largest = .ok doc ∧ w.value = 9223372036854774784 ∧
      Binding.runAll (doc.withStrict false) [integerField] none = ⟨some w, none⟩ := by
  have found : (Document.decode largest).toOption.any (fun doc =>
      ((Path.compile "$.a").places doc.root).map Place.location = [[.key "a"]]) = true := by
    decide +kernel
  obtain ⟨doc, decoded, found⟩ := (Option.any_eq_true _ _).1 found
  have decoded := toOption_eq_some_iff.1 decoded
  obtain ⟨p, places, location⟩ := List.map_eq_singleton_iff.1 (of_decide_eq_true found)
  have located : largestTree.at? p.location = some (.scalar largestNumeral) := by
    have key : key? keyA = some "a" := by decide +kernel
    rw [location]
    simp [largestTree, ParseTree.at?, ParseTree.down?, ParseTree.lastMember?, key]
  have literal : IsWholeLiteral largestNumeral 9223372036854775295 :=
    .positive isWhole_largestNumeral
  have lenient : (doc.withStrict false).strict = false := rfl
  have accepts := Document.not_refuses_of_lenient lenient integerField.path
  obtain ⟨r, rounds, -, stored, -⟩ := Binding.runAll_whole_literal spells_largest decoded false
    (b := integerField) rfl accepts places located literal (by decide)
  obtain ⟨w, value, ran⟩ := stored (by decide)
  have nearest : nearestWhole 9223372036854775295 = 9223372036854774784 := by decide +kernel
  refine ⟨doc, w, decoded, ?_, ran [] none⟩
  rw [value, roundsToBits_iff.1 rounds, nearest]

end Example

end JsonSelect
