/-
# JsonSelect.Proofs.Session -- what is kept over several steps

Each part of a session is changed by commands of its own kind only, and a document or a path
only by those for its own name.  So each part can be replayed by itself.

* `Session.Command.onDocument`, `Session.Command.onPath`, `Session.Command.onBindings`,
  `Session.onRecord`: what one command does to one part.
* `Session.get?_documents_play`, `Session.get?_paths_play`, `Session.bindings_play`: the parts
  after a list of commands.
* `Session.play_own`: commands for other names and other parts make no difference.
* `Session.Sound`: what is kept was loaded or compiled by one of the commands.
* `Session.run_play`: a kept path finds in a kept document what its expression finds.
-/
import JsonSelect.Proofs.Strictness
import JsonSelect.Session

namespace JsonSelect

set_option autoImplicit false

namespace Session

variable {s : Session} {history : List Command}

theorem document?_eq_ok_iff {slot : String} {doc : Document} :
    s.document? slot = .ok doc ↔ Keyed.get? slot s.documents = some doc := by
  rw [document?]
  cases Keyed.get? slot s.documents <;> simp

theorem path?_eq_ok_iff {name : String} {path : Path} :
    s.path? name = .ok path ↔ Keyed.get? name s.paths = some path := by
  rw [path?]
  cases Keyed.get? name s.paths <;> simp

/-! ## One command -/

/-- The document of a slot after a command, from the one before. -/
def Command.onDocument (slot : String) (kept : Option Document) : Command → Option Document
  | .load target strict input =>
      if target = slot then
        match Document.decode input with
        | .ok doc => some (doc.withStrict strict)
        | .error _ => kept
      else kept
  | .setStrict target strict =>
      if target = slot then kept.map fun doc => doc.withStrict strict else kept
  | _ => kept

/-- The path of a name after a command, from the one before. -/
def Command.onPath (name : String) (kept : Option Path) : Command → Option Path
  | .compile target expression strict =>
      if target = name then
        match Path.compileAs strict expression with
        | .ok path => some path
        | .error _ => kept
      else kept
  | _ => kept

def Command.onBindings (kept : List (Binding Record)) : Command → List (Binding Record)
  | .clearBindings => []
  | .addBinding b => kept ++ [b]
  | _ => kept

/-- The record after a command.  It is the only part that depends on the others. -/
def onRecord (s : Session) : Command → Record
  | .clearRecord => []
  | .bind slot =>
      match Keyed.get? slot s.documents with
      | some doc => (Binding.runAll doc s.bindings s.record).record
      | none => s.record
  | .decodeAndBind input => (Binding.decodeAndRunAll input s.bindings s.record).record
  | _ => s.record

/-- What one command leaves, part by part. -/
structure Follows (s : Session) (c : Command) (changed : Session) : Prop where
  documents (slot : String) :
    Keyed.get? slot changed.documents = c.onDocument slot (Keyed.get? slot s.documents)
  paths (name : String) : Keyed.get? name changed.paths = c.onPath name (Keyed.get? name s.paths)
  bindings : changed.bindings = c.onBindings s.bindings
  record : changed.record = s.onRecord c

theorem get?_store (s : Session) (slot key : String) (doc : Document) :
    Keyed.get? key (s.store slot doc).documents =
      if slot = key then some doc else Keyed.get? key s.documents :=
  Keyed.get?_insert ..

theorem next_of_ok {c : Command} {changed : Session} (stepped : s.step c = .ok changed) :
    s.next c = changed := by
  rw [next, stepped]

theorem next_of_error {c : Command} {e : SessionError} (failed : s.step c = .error e) :
    s.next c = s := by
  rw [next, failed]

theorem follows_load (s : Session) (slot : String) (strict : Bool) (input : List UInt8) :
    s.Follows (.load slot strict input) (s.next (.load slot strict input)) := by
  cases decoded : Document.decode input with
  | ok doc =>
      have stepped : s.step (.load slot strict input) = .ok (s.store slot (doc.withStrict strict)) := by
        rw [step, load, decoded]
        rfl
      rw [next_of_ok stepped]
      refine ⟨fun key => ?_, fun _ => rfl, rfl, rfl⟩
      rw [get?_store, Command.onDocument, decoded]
  | error e =>
      have failed : s.step (.load slot strict input) = .error (.query e) := by
        rw [step, load, decoded]
        rfl
      rw [next_of_error failed]
      refine ⟨fun key => ?_, fun _ => rfl, rfl, rfl⟩
      rw [Command.onDocument, decoded, ite_self]

theorem follows_setStrict (s : Session) (slot : String) (strict : Bool) :
    s.Follows (.setStrict slot strict) (s.next (.setStrict slot strict)) := by
  cases kept : Keyed.get? slot s.documents with
  | some doc =>
      have stepped : s.step (.setStrict slot strict) =
          .ok (s.store slot (doc.withStrict strict)) := by
        rw [step, setStrict, document?, kept]
        rfl
      rw [next_of_ok stepped]
      refine ⟨fun key => ?_, fun _ => rfl, rfl, rfl⟩
      rw [get?_store, Command.onDocument]
      split
      · rename_i same
        rw [← same, kept, Option.map_some]
      · rfl
  | none =>
      have failed : s.step (.setStrict slot strict) = .error .noDocument := by
        rw [step, setStrict, document?, kept]
        rfl
      rw [next_of_error failed]
      refine ⟨fun key => ?_, fun _ => rfl, rfl, rfl⟩
      rw [Command.onDocument]
      split
      · rename_i same
        rw [← same, kept, Option.map_none]
      · rfl

theorem follows_compile (s : Session) (name expression : String) (strict : Bool) :
    s.Follows (.compile name expression strict) (s.next (.compile name expression strict)) := by
  cases compiled : Path.compileAs strict expression with
  | ok path =>
      have stepped : s.step (.compile name expression strict) =
          .ok { s with paths := Keyed.insert name path s.paths } := by
        rw [step, compile, compiled]
        rfl
      rw [next_of_ok stepped]
      refine ⟨fun _ => rfl, fun key => ?_, rfl, rfl⟩
      rw [Keyed.get?_insert, Command.onPath, compiled]
  | error e =>
      have failed : s.step (.compile name expression strict) =
          .error (.query (.unexpected e)) := by
        rw [step, compile, compiled]
        rfl
      rw [next_of_error failed]
      refine ⟨fun _ => rfl, fun key => ?_, rfl, rfl⟩
      rw [Command.onPath, compiled, ite_self]

theorem follows_bind (s : Session) (slot : String) :
    s.Follows (.bind slot) (s.next (.bind slot)) := by
  cases kept : Keyed.get? slot s.documents with
  | some doc =>
      have stepped : s.step (.bind slot) =
          .ok { s with record := (Binding.runAll doc s.bindings s.record).record } := by
        rw [step, bind, document?, kept]
        rfl
      rw [next_of_ok stepped]
      refine ⟨fun _ => rfl, fun _ => rfl, rfl, ?_⟩
      rw [onRecord, kept]
  | none =>
      have failed : s.step (.bind slot) = .error .noDocument := by
        rw [step, bind, document?, kept]
        rfl
      rw [next_of_error failed]
      refine ⟨fun _ => rfl, fun _ => rfl, rfl, ?_⟩
      rw [onRecord, kept]

/-- **A command changes its own part and nothing else.** -/
theorem follows_next (s : Session) (c : Command) : s.Follows c (s.next c) := by
  cases c with
  | load slot strict input => exact s.follows_load slot strict input
  | setStrict slot strict => exact s.follows_setStrict slot strict
  | compile name expression strict => exact s.follows_compile name expression strict
  | bind slot => exact s.follows_bind slot
  | clearBindings | addBinding | clearRecord | decodeAndBind =>
      exact ⟨fun _ => rfl, fun _ => rfl, rfl, rfl⟩

/-! ## A list of commands -/

/-- What one can see of a session can be replayed if every command acts on it alone. -/
theorem view_play {α : Type} (view : Session → α) {act : α → Command → α}
    (acts : ∀ s c, view (s.next c) = act (view s) c) (s : Session) (commands : List Command) :
    view (s.play commands) = commands.foldl act (view s) := by
  induction commands generalizing s with
  | nil => rfl
  | cons c commands ih =>
      show view ((s.next c).play commands) = _
      rw [ih, acts, List.foldl_cons]

theorem get?_documents_play (s : Session) (commands : List Command) (slot : String) :
    Keyed.get? slot (s.play commands).documents =
      commands.foldl (Command.onDocument slot) (Keyed.get? slot s.documents) :=
  view_play (fun s => Keyed.get? slot s.documents) (fun s c => (s.follows_next c).documents slot) s
    commands

theorem get?_paths_play (s : Session) (commands : List Command) (name : String) :
    Keyed.get? name (s.play commands).paths =
      commands.foldl (Command.onPath name) (Keyed.get? name s.paths) :=
  view_play (fun s => Keyed.get? name s.paths) (fun s c => (s.follows_next c).paths name) s commands

theorem bindings_play (s : Session) (commands : List Command) :
    (s.play commands).bindings = commands.foldl Command.onBindings s.bindings :=
  view_play bindings (fun s c => (s.follows_next c).bindings) s commands

/-! ## Commands for other parts -/

/-- The slot whose document a command can change. -/
def Command.slot? : Command → Option String
  | .load slot _ _ | .setStrict slot _ => some slot
  | _ => none

/-- The name whose path a command can change. -/
def Command.name? : Command → Option String
  | .compile name _ _ => some name
  | _ => none

def Command.changesBindings : Command → Bool
  | .clearBindings | .addBinding _ => true
  | _ => false

theorem Command.onDocument_of_other {c : Command} {slot : String} (other : c.slot? ≠ some slot)
    (kept : Option Document) : c.onDocument slot kept = kept := by
  cases c with
  | load target | setStrict target =>
      have different : target ≠ slot := fun same => other (congrArg some same)
      exact if_neg different
  | _ => rfl

theorem Command.onPath_of_other {c : Command} {name : String} (other : c.name? ≠ some name)
    (kept : Option Path) : c.onPath name kept = kept := by
  cases c with
  | compile target =>
      have different : target ≠ name := fun same => other (congrArg some same)
      exact if_neg different
  | _ => rfl

theorem Command.onBindings_of_other {c : Command} (other : c.changesBindings = false)
    (kept : List (Binding Record)) : c.onBindings kept = kept := by
  cases c with
  | clearBindings | addBinding => cases other
  | _ => rfl

/-- What does nothing can be left out. -/
theorem foldl_filter_of_idle {α β : Type} {f : α → β → α} {own : β → Bool}
    (idle : ∀ b, own b = false → ∀ a, f a b = a) (bs : List β) (a : α) :
    (bs.filter own).foldl f a = bs.foldl f a := by
  have same : (fun a b => if own b then f a b else a) = f := by
    funext a b
    split
    · rfl
    · rename_i other
      exact (idle b (Bool.eq_false_iff.2 other) a).symm
  rw [List.foldl_filter, same]

/-- **Each part depends on its own commands alone**: a document on those for its slot, a path on
those for its name, and the bindings on those that clear them or add to them. -/
theorem play_own (s : Session) (commands : List Command) :
    (∀ slot, Keyed.get? slot (s.play (commands.filter fun c => c.slot? = some slot)).documents =
        Keyed.get? slot (s.play commands).documents) ∧
      (∀ name, Keyed.get? name (s.play (commands.filter fun c => c.name? = some name)).paths =
        Keyed.get? name (s.play commands).paths) ∧
      (s.play (commands.filter Command.changesBindings)).bindings = (s.play commands).bindings := by
  refine ⟨fun slot => ?_, fun name => ?_, ?_⟩
  · rw [get?_documents_play, get?_documents_play]
    exact foldl_filter_of_idle
      (fun c other => Command.onDocument_of_other (of_decide_eq_false other)) commands _
  · rw [get?_paths_play, get?_paths_play]
    exact foldl_filter_of_idle
      (fun c other => Command.onPath_of_other (of_decide_eq_false other)) commands _
  · rw [bindings_play, bindings_play]
    exact foldl_filter_of_idle (fun c other => Command.onBindings_of_other other) commands _

/-! ## Where it comes from -/

/-- All that is kept was loaded or compiled by one of the commands, under the same name. -/
structure Sound (history : List Command) (s : Session) : Prop where
  documents {slot : String} {doc : Document} (kept : Keyed.get? slot s.documents = some doc) :
    ∃ strict input loaded, Command.load slot strict input ∈ history ∧
      Document.decode input = .ok loaded ∧ loaded.withStrict doc.strict = doc
  paths {name : String} {path : Path} (kept : Keyed.get? name s.paths = some path) :
    ∃ expression strict, Command.compile name expression strict ∈ history ∧
      Path.compile expression = path

theorem Command.of_onDocument_eq_some {c : Command} {slot : String} {kept : Option Document}
    {doc : Document} (left : c.onDocument slot kept = some doc) :
    (∃ strict input loaded, c = .load slot strict input ∧ Document.decode input = .ok loaded ∧
      loaded.withStrict doc.strict = doc) ∨
    ∃ old, kept = some old ∧ old.withStrict doc.strict = doc := by
  by_cases own : c.slot? = some slot
  · cases c with
    | load target strict input =>
        cases own
        rw [onDocument, if_pos rfl] at left
        cases decoded : Document.decode input with
        | ok loaded =>
            rw [decoded] at left
            cases left
            exact .inl ⟨strict, input, loaded, rfl, decoded, rfl⟩
        | error e =>
            rw [decoded] at left
            exact .inr ⟨doc, left, rfl⟩
    | setStrict target strict =>
        cases own
        rw [onDocument, if_pos rfl] at left
        obtain ⟨old, kept, rfl⟩ := Option.map_eq_some_iff.1 left
        exact .inr ⟨old, kept, rfl⟩
    | _ => cases own
  · rw [onDocument_of_other own] at left
    exact .inr ⟨doc, left, rfl⟩

theorem Command.of_onPath_eq_some {c : Command} {name : String} {kept : Option Path} {path : Path}
    (left : c.onPath name kept = some path) :
    (∃ expression strict, c = .compile name expression strict ∧ Path.compile expression = path) ∨
      kept = some path := by
  by_cases own : c.name? = some name
  · cases c with
    | compile target expression strict =>
        cases own
        rw [onPath, if_pos rfl] at left
        cases compiled : Path.compileAs strict expression with
        | ok path =>
            rw [compiled] at left
            cases left
            have lenient := Path.compileAs_lenient compiled
            exact .inl ⟨expression, strict, rfl, Except.ok.inj lenient⟩
        | error e =>
            rw [compiled] at left
            exact .inr left
    | _ => cases own
  · rw [onPath_of_other own] at left
    exact .inr left

theorem sound_empty : Sound [] empty where
  documents kept := by cases kept
  paths kept := by cases kept

/-- A command keeps what was kept before, or what it gets itself. -/
theorem Sound.next (sound : s.Sound history) (c : Command) : (s.next c).Sound (history ++ [c]) where
  documents kept := by
    rw [(s.follows_next c).documents] at kept
    rcases Command.of_onDocument_eq_some kept with
      ⟨strict, input, loaded, rfl, decoded, same⟩ | ⟨old, before, same⟩
    · exact ⟨strict, input, loaded, List.mem_append_right _ List.mem_cons_self, decoded, same⟩
    · obtain ⟨strict, input, loaded, given, decoded, first⟩ := sound.documents before
      rw [← first] at same
      exact ⟨strict, input, loaded, List.mem_append_left _ given, decoded, same⟩
  paths kept := by
    rw [(s.follows_next c).paths] at kept
    rcases Command.of_onPath_eq_some kept with ⟨expression, strict, rfl, same⟩ | before
    · exact ⟨expression, strict, List.mem_append_right _ List.mem_cons_self, same⟩
    · obtain ⟨expression, strict, given, same⟩ := sound.paths before
      exact ⟨expression, strict, List.mem_append_left _ given, same⟩

theorem Sound.play (sound : s.Sound history) (commands : List Command) :
    (s.play commands).Sound (history ++ commands) := by
  induction commands generalizing s history with
  | nil =>
      rw [List.append_nil]
      exact sound
  | cons c commands ih =>
      have all := ih (sound.next c)
      rw [List.append_assoc] at all
      exact all

/-- **A kept path finds what its expression finds.**  Whatever was done before, the matches of a
kept path in a kept document are those of the expression that it was compiled from, strictly or
not, in the document that was loaded into the slot. -/
theorem run_play {commands : List Command} {slot name : String} {found : List Json}
    (ran : (empty.play commands).run slot name = .ok found) :
    ∃ strict input doc expression strict', Command.load slot strict input ∈ commands ∧
      Document.decode input = .ok doc ∧ Command.compile name expression strict' ∈ commands ∧
      found = doc.query expression := by
  have sound := sound_empty.play commands
  obtain ⟨path, named, ran⟩ := bind_eq_ok_iff.1 ran
  obtain ⟨doc, placed, ran⟩ := bind_eq_ok_iff.1 ran
  cases ran
  obtain ⟨expression, strict', compiles, rfl⟩ := sound.paths (path?_eq_ok_iff.1 named)
  obtain ⟨strict, input, loaded, loads, decoded, same⟩ :=
    sound.documents (document?_eq_ok_iff.1 placed)
  refine ⟨strict, input, loaded, expression, strict', loads, decoded, compiles, ?_⟩
  rw [← same]
  rfl

end Session

end JsonSelect
