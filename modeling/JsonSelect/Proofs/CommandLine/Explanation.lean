/-
# JsonSelect.Proofs.CommandLine.Explanation -- explanations determine their paths

An explained path is shown as an array of objects, one for each segment, and what is shown can be
read back.

* `Path.ofJson?_toJson`: the description of a path describes this path.
* `Path.parse_render_toJson`: both of its texts, with blanks behind them, are read as the
  description again.
* `Arguments.explanation_determines_path`: so what a command shows of a path tells which path it
  is.
-/
import JsonSelect.CommandLine.Run
import JsonSelect.Proofs.Json.Distinct
import JsonSelect.Proofs.Json.Reread
import JsonSelect.Proofs.Path.Strict

namespace JsonSelect

set_option autoImplicit false

/-! ## Descriptions of paths -/

namespace Segment

def ofKind? (kind content : String) : Option Segment :=
  if kind = "child" then some (.child content)
  else if kind = "descendant" then some (.descendant content)
  else if kind = "index" then some (.index content)
  else none

/-- The segment that an object describes by its kind and its text. -/
def ofJson? (v : Json) : Option Segment := do
  let kind ← (← v.member? "kind").string?
  let content ← (← v.member? "text").string?
  ofKind? kind content

theorem ofJson?_toJson (segment : Segment) : ofJson? segment.toJson = some segment := by
  cases segment <;> rfl

end Segment

namespace Path

/-- The path that an array of objects describes. -/
def ofJson? : Json → Option Path
  | .array items => items.mapM Segment.ofJson?
  | _ => none

theorem ofJson?_toJson (path : Path) : ofJson? path.toJson = some path := by
  show (path.map Segment.toJson).mapM Segment.ofJson? = some path
  induction path with
  | nil => rfl
  | cons segment path ih =>
      rw [List.map_cons, List.mapM_cons, Segment.ofJson?_toJson, ih]
      rfl

theorem toJson_injective : Function.Injective toJson := by
  intro path path' same
  have described := ofJson?_toJson path
  rw [same, ofJson?_toJson path'] at described
  exact (Option.some.inj described).symm

/-! ## Texts of descriptions -/

theorem nested_toJson (path : Path) : path.toJson.NestedWithin Json.depthLimit := by
  refine Json.itemsNestedWithin_iff.2 fun v member => ?_
  obtain ⟨segment, -, rfl⟩ := List.mem_map.1 member
  exact ⟨trivial, trivial, trivial⟩

theorem ordered_toJson (path : Path) : path.toJson.Ordered := by
  refine Json.ordered_array_iff.2 fun v member => ?_
  obtain ⟨segment, -, rfl⟩ := List.mem_map.1 member
  refine ⟨List.pairwise_pair.2 ?_, trivial, trivial, trivial⟩
  show Keyed.Before "kind" "text"
  decide

theorem everyNumber_toJson {P : Number → Prop} (path : Path) : path.toJson.EveryNumber P := by
  refine Json.everyNumberItems_iff.2 fun v member => ?_
  obtain ⟨segment, -, rfl⟩ := List.mem_map.1 member
  exact ⟨trivial, trivial, trivial⟩

theorem mapNumbers_toJson (f : Number → Number) (path : Path) :
    path.toJson.mapNumbers f = path.toJson := by
  rw [toJson, Json.mapNumbers, Json.mapNumbersItems_eq_map, List.map_map]
  rfl

/-- Both texts of a description are read as the description. -/
theorem parse_render_toJson (path : Path) (spacing : Spacing) {blanks : List UInt8}
    (blank : Json.AllBlank blanks) :
    Json.parse (Utf8.encode (path.toJson.render spacing) ++ blanks) = .ok path.toJson := by
  have each : path.toJson.EveryNumber Number.Rereads := path.everyNumber_toJson
  rw [Json.parse_render path.nested_toJson path.ordered_toJson each spacing blank,
    mapNumbers_toJson]

end Path

/-! ## What is shown -/

namespace Arguments

/-- The expression compiles, which without strictness it always does. -/
def Accepts (a : Arguments) : Prop := a.strict = true → ∃ path, Path.compileStrict a.path = .ok path

def spacing (a : Arguments) : Spacing := if a.compact then .compact else .indented

theorem Accepts.compileAs_eq {a : Arguments} (accepts : a.Accepts) :
    Path.compileAs a.strict a.path = .ok (Path.compile a.path) := by
  cases strict : a.strict with
  | false => rfl
  | true =>
      obtain ⟨path, compiled⟩ := accepts strict
      rw [← Path.eq_compile_of_compileStrict compiled]
      exact compiled

/-- A command that explains its path shows the description of it, whatever could be read. -/
theorem run_explain {a : Arguments} (explains : a.explain = true) (accepts : a.Accepts)
    (read : Source → Except SourceError (List UInt8)) :
    a.run read = .ok ((Path.compile a.path).toJson.render a.spacing) := by
  rw [run, if_pos explains, explanation, accepts.compileAs_eq]
  rfl

theorem reply_explain {a : Arguments} (explains : a.explain = true) (accepts : a.Accepts)
    (read : Source → Except SourceError (List UInt8)) :
    (Invocation.query a).reply read =
      ⟨0, String.ofList ((Path.compile a.path).toJson.render a.spacing) ++ "\n", ""⟩ := by
  rw [Invocation.reply, run_explain explains accepts]

/-- **An explanation determines its path.**  Where the expression compiles, what a command
shows of it is read as an array of objects with a kind and a text each, and in their order
they describe the compiled path; another command that explains in the same layout shows the
same if and only if its path is the same. -/
theorem explanation_determines_path {a : Arguments} (explains : a.explain = true)
    (accepts : a.Accepts) (read : Source → Except SourceError (List UInt8)) :
    ∃ output items,
      (Invocation.query a).reply read = ⟨0, output, ""⟩ ∧
        Json.parse (Utf8.bytes output) = .ok (.array items) ∧
        (∀ v ∈ items, ∃ members, v = .object members ∧ members.map Prod.fst = ["kind", "text"]) ∧
        Path.ofJson? (.array items) = some (Path.compile a.path) ∧
        (a.strict = true → Path.compileStrict a.path = .ok (Path.compile a.path)) ∧
        ∀ b : Arguments, b.explain = true → b.compact = a.compact → b.Accepts →
          ∀ read', (Invocation.query b).reply read' = ⟨0, output, ""⟩ ↔
            Path.compile b.path = Path.compile a.path := by
  refine ⟨_, (Path.compile a.path).map Segment.toJson, reply_explain explains accepts read, ?_, ?_,
    Path.ofJson?_toJson _, fun strict => ?_, fun b explains' layout accepts' read' => ?_⟩
  · have newline : Json.AllBlank (Utf8.bytes "\n") := by decide
    rw [Utf8.bytes, String.toList_append, String.toList_ofList, Utf8.encode_append]
    exact (Path.compile a.path).parse_render_toJson a.spacing newline
  · intro v member
    obtain ⟨segment, -, rfl⟩ := List.mem_map.1 member
    exact ⟨_, rfl, rfl⟩
  · have compiled := accepts.compileAs_eq
    rw [strict] at compiled
    exact compiled
  · have same : b.spacing = a.spacing := by rw [spacing, spacing, layout]
    rw [reply_explain explains' accepts', same]
    constructor
    · intro shown
      have texts := congrArg String.toList (congrArg Reply.output shown)
      simp only [String.toList_append, String.toList_ofList] at texts
      exact Path.toJson_injective (Json.render_injective _ (List.append_cancel_right texts))
    · intro paths
      rw [paths]

end Arguments

namespace Example

/-- An index of a quotation mark, a backslash and a control character, before a child. -/
def bracketed : Arguments :=
  ⟨"[\"\\\x01].a", none, true, false, false, true, true, none⟩

/-- The same path behind characters that only strictness would refuse. -/
def bracketedBehindBlanks : Arguments :=
  ⟨"  [\"\\\x01].a!", none, false, true, false, true, true, some "0"⟩

theorem bracketed_explained :
    bracketed.explain = true ∧ bracketed.Accepts ∧ bracketedBehindBlanks.Accepts ∧
      ∀ read read', ∃ output items,
        (Invocation.query bracketed).reply read = ⟨0, output, ""⟩ ∧
          Json.parse (Utf8.bytes output) = .ok (.array items) ∧
          Path.ofJson? (.array items) = some [.index "\"\\\x01", .child "a"] ∧
          (Invocation.query bracketedBehindBlanks).reply read' = ⟨0, output, ""⟩ := by
  have compiled : Path.compile bracketed.path = [.index "\"\\\x01", .child "a"] := by
    decide +kernel
  have compiled' : Path.compile bracketedBehindBlanks.path = Path.compile bracketed.path := by
    decide +kernel
  have strict : Path.compileStrict bracketed.path = .ok (Path.compile bracketed.path) := by
    decide +kernel
  have accepts : bracketed.Accepts := fun _ => ⟨_, strict⟩
  have accepts' : bracketedBehindBlanks.Accepts := fun lenient => by cases lenient
  refine ⟨rfl, accepts, accepts', fun read read' => ?_⟩
  obtain ⟨output, items, shown, parsed, -, described, -, same⟩ :=
    Arguments.explanation_determines_path rfl accepts read
  have shown' := (same bracketedBehindBlanks rfl rfl accepts' read').2 compiled'
  rw [compiled] at described
  exact ⟨output, items, shown, parsed, described, shown'⟩

end Example

end JsonSelect
