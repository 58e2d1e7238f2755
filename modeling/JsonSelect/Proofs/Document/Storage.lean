/-
# JsonSelect.Proofs.Document.Storage -- what storing a document does to its numbers

The root of a document can always be written and read again, and only its numbers can
change.  The reader scales by rounded powers of ten, so a number may come back as a
neighbour of the one that was written.

* `Number.reread?_double`: a double is read again as what its text shows is scaled to.
* `Double.Near`: doubles of one sign that are less than four units of the last place apart.
* `Document.decode_render_near`: every number comes back near the one that was written, and
  as the same one if its numeral is exact.
-/
import JsonSelect.Proofs.Document.Reload
import JsonSelect.Proofs.Json.Doubles
import JsonSelect.Proofs.Number.Scaling

namespace JsonSelect

set_option autoImplicit false

open Json

/-! ## Doubles -/

/-- A numeral with a fraction or an exponent is a double. -/
theorem Json.Numeral.number?_of_decimal {n : Numeral} (decimal : n.whole = false)
    (negative : Bool) :
    n.number? negative =
      (Magnitude.ofDecimal? n.significand n.power).map fun m => .double ⟨negative, m⟩ := by
  rw [Numeral.number?, if_neg]
  rw [decimal]
  rintro ⟨whole, -⟩
  cases whole

/-- The text of a double means the number that its numeral is with the sign. -/
theorem Json.scalar?_text_double {x : Double} {n : Numeral} (shows_ : x.magnitude.Shows n) :
    scalar? (Utf8.encode (Number.double x).text) = (n.number? x.negative).map .number := by
  rw [Number.text_double]
  cases sign : x.negative with
  | true =>
      rw [if_pos rfl, Utf8.encode_cons]
      exact scalar?_minus shows_
  | false =>
      have unsigned : IsUnsigned (Utf8.encode x.magnitude.text) := by
        rw [Magnitude.text]
        exact DecimalFormat.json.isUnsigned_magnitude x.magnitude
      rw [if_neg Bool.false_ne_true]
      exact scalar?_unsigned unsigned shows_

/-- A double is read again as what its text shows is scaled to. -/
theorem Number.reread?_double {x : Double} {n : Numeral} (shows_ : x.magnitude.Shows n)
    (decimal : n.whole = false) :
    (Number.double x).reread? =
      (Magnitude.ofDecimal? n.significand n.power).map fun m => .double ⟨x.negative, m⟩ := by
  have means := scalar?_text_double shows_
  rw [Number.scalar?_text] at means
  rw [← Numeral.number?_of_decimal decimal]
  exact Option.map_injective (fun _ _ same => Scalar.number.inj same) means

namespace Double

/-- Doubles of one sign that are less than four units of the last place of the first one
apart. -/
def Near (x y : Double) : Prop :=
  y.negative = x.negative ∧
    ((y.magnitude.units : Int) - x.magnitude.units).natAbs < 4 * 2 ^ x.magnitude.shift

/-- **A double survives its text nearly.**  Its text is read again as the double that the
numeral is scaled to, which is near it, and the same one if the numeral is exact. -/
theorem exists_reread (x : Double) :
    ∃ y n, (Number.double x).reread? = some (.double y) ∧ x.Near y ∧ x.magnitude.Shows n ∧
      Magnitude.ofDecimal? n.significand n.power = some y.magnitude ∧ (n.Exact → y = x) := by
  obtain ⟨n, m, shows_, decimal, scaled, close, exact⟩ := x.magnitude.exists_rereads
  refine ⟨⟨x.negative, m⟩, n, ?_, ⟨rfl, close⟩, shows_, scaled, fun whole => ?_⟩
  · rw [Number.reread?_double shows_ decimal, scaled]
    rfl
  · rw [exact whole]

end Double

/-! ## Documents -/

namespace Document

/-- Every number that a document holds is a double, and the text of each is in range. -/
theorem rereads_of_decode {input : List UInt8} {doc : Document}
    (decoded : decode input = .ok doc) :
    doc.root.DoublesOnly ∧ doc.root.EveryNumber Number.Rereads := by
  obtain ⟨object, -, rfl⟩ := decode_eq_ok_iff.1 decoded
  have root : (ofMembers object).root = (Json.object object.members).asDoubles := rfl
  rw [root]
  refine ⟨doublesOnly_asDoubles _, ?_⟩
  rw [asDoubles_eq_mapNumbers]
  apply everyNumber_mapNumbers
  intro n
  obtain ⟨x, stored⟩ := n.exists_toDouble?
  obtain ⟨y, -, reread, -⟩ := x.exists_reread
  rw [Number.asDouble_of_toDouble? stored, Number.Rereads, reread]
  rfl

/-- **A document can always be written and read again, and only its numbers drift.**  Both
texts of a decoded root are decoded to one document, which is the same but for its numbers.
Each number comes back as the double of its sign that the numeral is scaled to.  It is less
than four units of the last place away, and it is the same double if the numeral is exact. -/
theorem decode_render_near {input : List UInt8} {doc : Document}
    (decoded : decode input = .ok doc) :
    ∃ again : Document, (∀ spacing, decode (Utf8.encode (doc.root.render spacing)) = .ok again) ∧
      (∀ l, (again.root.at? l).map Json.outline = (doc.root.at? l).map Json.outline) ∧
      ∀ l n, doc.root.at? l = some (.number n) →
        ∃ (x y : Double) (k : Numeral), n = .double x ∧
          again.root.at? l = some (.number (.double y)) ∧ x.Near y ∧ x.magnitude.Shows k ∧
            Magnitude.ofDecimal? k.significand k.power = some y.magnitude ∧ (k.Exact → y = x) := by
  obtain ⟨doubles, rereads⟩ := rereads_of_decode decoded
  obtain ⟨again, reads, root⟩ := exists_reloaded (decode_nested decoded) rereads
  refine ⟨again, reads, fun l => ?_, fun l n found => ?_⟩
  · rw [root, Json.outline_at?_mapNumbers]
  · obtain ⟨x, rfl⟩ := doubles.of_at? found
    obtain ⟨y, k, reread, near, scaled⟩ := x.exists_reread
    refine ⟨x, y, k, rfl, ?_, near, scaled⟩
    rw [root, Json.at?_mapNumbers, found, Option.map_some, Json.mapNumbers, Number.reloaded,
      Number.reread, reread]
    rfl

end Document

namespace Example

/-- One half is written as `0.5`, which is exact, so it comes back. -/
theorem half_comes_back :
    ∃ doc again x, Document.decode half = .ok doc ∧
      (∀ spacing, Document.decode (Utf8.encode (doc.root.render spacing)) = .ok again) ∧
        x.magnitude.units * 2 = Magnitude.unitsPerOne ∧
          doc.root.at? [.key "a", .position 0] = some (.number (.double x)) ∧
            again.root.at? [.key "a", .position 0] = some (.number (.double x)) := by
  have holds : (Document.decode half).toOption.any (fun doc =>
      ((doc.root.at? [.key "a", .position 0]).bind Json.double?).any fun x =>
        x.magnitude.units * 2 = Magnitude.unitsPerOne ∧
          (readNumeral (Utf8.encode x.magnitude.text)).toOption = some (⟨5, -1, false⟩, [])) =
      true := by
    decide +kernel
  have exact : Numeral.Exact ⟨5, -1, false⟩ :=
    Numeral.exact_of_lt (show 5 < 2 ^ 53 by decide) (show 1 ≤ 22 by decide)
  obtain ⟨doc, decoded, holds⟩ := (Option.any_eq_true _ _).1 holds
  obtain ⟨x, located, holds⟩ := (Option.any_eq_true _ _).1 holds
  obtain ⟨half, shown⟩ := of_decide_eq_true holds
  obtain ⟨v, found, number⟩ := Option.bind_eq_some_iff.1 located
  obtain ⟨n, rfl, double⟩ := Json.double?_eq_some_iff.1 number
  have decoded := toOption_eq_some_iff.1 decoded
  obtain ⟨again, reads, -, numbers⟩ := Document.decode_render_near decoded
  obtain ⟨w, y, k, rfl, kept, -, shows_, -, drift⟩ := numbers _ _ found
  cases double
  rw [shows_.unique (toOption_eq_some_iff.1 shown)] at drift
  rw [drift exact] at kept
  exact ⟨doc, again, x, decoded, reads, half, found, kept⟩

/-- The member `"a"` with a whole number just below 2^53. -/
def belowTwoPow53 : List UInt8 :=
  [Ascii.openBrace, Ascii.quote, 0x61, Ascii.quote, Ascii.colon] ++
    Utf8.encode (Decimal.figures 9007199254740988) ++ [Ascii.closeBrace]

/-- The number is a double, but the numeral that is written for it has a digit more than a
double, and it is read again as the next double. -/
theorem whole_number_drifts :
    ¬ ∀ input doc, Document.decode input = .ok doc →
      ∃ again, Document.decode (Utf8.encode (doc.root.render .compact)) = .ok again ∧
        ∀ l x, (again.root.at? l).bind Json.double? = some x →
          (doc.root.at? l).bind Json.double? = some x := by
  intro survives
  have drifts : (Document.decode belowTwoPow53).toOption.any (fun doc =>
      (Document.decode (Utf8.encode (doc.root.render .compact))).toOption.all fun again =>
        ((again.root.at? [.key "a"]).bind Json.double?).any fun x =>
          (doc.root.at? [.key "a"]).bind Json.double? ≠ some x) = true := by decide +kernel
  obtain ⟨doc, decoded, drifts⟩ := (Option.any_eq_true _ _).1 drifts
  obtain ⟨again, reloaded, same⟩ := survives _ doc (toOption_eq_some_iff.1 decoded)
  rw [toOption_eq_some_iff.2 reloaded, Option.all_some] at drifts
  obtain ⟨x, found, differs⟩ := (Option.any_eq_true _ _).1 drifts
  exact of_decide_eq_true differs (same _ x found)

end Example

end JsonSelect
