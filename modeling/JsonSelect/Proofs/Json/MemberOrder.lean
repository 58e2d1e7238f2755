/-
# JsonSelect.Proofs.Json.MemberOrder -- members may be written in any order

Two trees are alike if one becomes the other by writing the members of objects in another
order, at any depth.

* `Keyed.ofList_eq_of_perm`: entries with different keys are put in one order, wherever they
  come from.
* `ParseTree.value?_of_alike`, `ParseTree.root?_of_alike`: alike trees without repeated keys
  mean the same.
-/
import JsonSelect.Proofs.Json.Reading.Tree

namespace JsonSelect

set_option autoImplicit false

namespace Keyed

variable {α : Type}

theorem insert_perm {key : String} {value : α} {entries : Keyed α}
    (fresh : ∀ e ∈ entries, e.1 ≠ key) :
    (insert key value entries).Perm ((key, value) :: entries) := by
  induction entries with
  | nil => exact .refl _
  | cons e rest ih =>
      obtain ⟨k, old⟩ := e
      obtain ⟨different, later⟩ := List.forall_mem_cons.1 fresh
      rw [insert, if_neg different]
      split
      · exact .refl _
      · exact ((ih later).cons _).trans (.swap ..)

/-- Entries with different keys are all kept. -/
theorem ofList_perm {entries : List (String × α)}
    (distinct : entries.Pairwise fun a b => a.1 ≠ b.1) : (ofList entries).Perm entries := by
  -- The fold goes through lists that are sorted already, so the statement is about any such list
  -- that shares no key with the entries still to come.
  suffices general : ∀ sorted : Keyed α, (∀ a ∈ sorted, ∀ b ∈ entries, a.1 ≠ b.1) →
      (entries.foldl (fun sorted e => insert e.1 e.2 sorted) sorted).Perm (entries ++ sorted) by
    have all := general [] (by simp)
    rw [List.append_nil] at all
    exact all
  induction entries with
  | nil => exact fun sorted _ => .refl _
  | cons e rest ih =>
      intro sorted apart
      obtain ⟨others, distinct⟩ := List.pairwise_cons.1 distinct
      have inserted : (insert e.1 e.2 sorted).Perm (e :: sorted) :=
        insert_perm fun a member => apart a member e List.mem_cons_self
      have apart' : ∀ a ∈ insert e.1 e.2 sorted, ∀ b ∈ rest, a.1 ≠ b.1 := by
        intro a member b later
        rcases List.mem_cons.1 (inserted.mem_iff.1 member) with rfl | earlier
        · exact others b later
        · exact apart a earlier b (List.mem_cons_of_mem _ later)
      exact (ih distinct _ apart').trans ((inserted.append_left rest).trans List.perm_middle)

theorem Before.asymm {a b : String} (before : Before a b) : ¬ Before b a :=
  fun after => not_before_self a (before.trans after)

/-- There is one way to put entries in order. -/
theorem Ascending.eq_of_perm {entries entries' : Keyed α} (ascending : Ascending entries)
    (ascending' : Ascending entries') (perm : entries.Perm entries') : entries = entries' :=
  perm.eq_of_pairwise (fun _ _ _ _ before after => absurd after before.asymm) ascending ascending'

theorem ofList_eq_of_perm {entries entries' : List (String × α)}
    (distinct : entries.Pairwise fun a b => a.1 ≠ b.1) (perm : entries.Perm entries') :
    ofList entries = ofList entries' := by
  have distinct' : entries'.Pairwise fun a b => a.1 ≠ b.1 :=
    (perm.pairwise_iff fun different => different.symm).1 distinct
  have both : (ofList entries).Perm (ofList entries') :=
    (ofList_perm distinct).trans (perm.trans (ofList_perm distinct').symm)
  exact (ascending_ofList entries).eq_of_perm (ascending_ofList entries') both

/-- Entries in order stay as they are. -/
theorem ofList_of_ascending {entries : Keyed α} (ascending : Ascending entries) :
    ofList entries = entries := by
  have distinct : entries.Pairwise fun a b => a.1 ≠ b.1 := by
    refine ascending.imp fun {a b} before same => ?_
    rw [Before, same] at before
    exact not_before_self b.1 before
  exact (ascending_ofList entries).eq_of_perm ascending (ofList_perm distinct)

end Keyed

namespace ParseTree

open Json

/-! ## Different keys -/

mutual

/-- No object of the tree has two members whose keys mean the same. -/
def DistinctKeys : ParseTree → Prop
  | .scalar _ => True
  | .array items => DistinctKeysItems items
  | .object members =>
      (members.Pairwise fun a b => ∀ name, key? a.1 = some name → key? b.1 ≠ some name) ∧
        DistinctKeysMembers members

def DistinctKeysItems : List ParseTree → Prop
  | [] => True
  | item :: rest => item.DistinctKeys ∧ DistinctKeysItems rest

def DistinctKeysMembers : List (List UInt8 × ParseTree) → Prop
  | [] => True
  | (_, value) :: rest => value.DistinctKeys ∧ DistinctKeysMembers rest

end

/-! ## Trees that are alike -/

mutual

/-- The trees differ at most in the order of the members of their objects, and in how they
spell tokens that mean the same. -/
def Alike : ParseTree → ParseTree → Prop
  | .scalar token, .scalar token' => scalar? token = scalar? token'
  | .array items, .array items' => AlikeItems items items'
  | .object members, .object members' =>
      ∃ reordered, reordered.Perm members' ∧ AlikeMembers members reordered
  | _, _ => False

def AlikeItems : List ParseTree → List ParseTree → Prop
  | [], [] => True
  | item :: rest, item' :: rest' => item.Alike item' ∧ AlikeItems rest rest'
  | _, _ => False

def AlikeMembers : (members members' : List (List UInt8 × ParseTree)) → Prop
  | [], [] => True
  | (key, value) :: rest, (key', value') :: rest' =>
      key? key = key? key' ∧ value.Alike value' ∧ AlikeMembers rest rest'
  | _, _ => False

end

/-! ## Members in another order -/

/-- What a member means. -/
def memberValue? (member : List UInt8 × ParseTree) (depth : Nat) : Option (String × Json) :=
  (key? member.1).bind fun name => (member.2.value? depth).map (name, ·)

theorem memberValues?_cons_eq_some_iff {member : List UInt8 × ParseTree}
    {members : List (List UInt8 × ParseTree)} {depth : Nat} {found : List (String × Json)} :
    memberValues? (member :: members) depth = some found ↔
      ∃ m rest, memberValue? member depth = some m ∧ memberValues? members depth = some rest ∧
        m :: rest = found := by
  show (memberValue? member depth).bind (fun m => (memberValues? members depth).map (m :: ·)) =
    some found ↔ _
  simp only [Option.bind_eq_some_iff, Option.map_eq_some_iff, exists_and_left]

/-- Reordered members mean reordered entries. -/
theorem memberValues?_perm {members members' : List (List UInt8 × ParseTree)}
    (perm : members.Perm members') {depth : Nat} {found : List (String × Json)}
    (means : memberValues? members depth = some found) :
    ∃ found', memberValues? members' depth = some found' ∧ found.Perm found' := by
  induction perm generalizing found with
  | nil => exact ⟨found, means, .refl _⟩
  | cons member _ ih =>
      obtain ⟨m, rest, first, others, rfl⟩ := memberValues?_cons_eq_some_iff.1 means
      obtain ⟨rest', others', perm⟩ := ih others
      exact ⟨m :: rest', memberValues?_cons_eq_some_iff.2 ⟨m, rest', first, others', rfl⟩,
        perm.cons m⟩
  | swap member member' members =>
      obtain ⟨m', tail, first, inner, rfl⟩ := memberValues?_cons_eq_some_iff.1 means
      obtain ⟨m, rest, second, others, rfl⟩ := memberValues?_cons_eq_some_iff.1 inner
      have swapped := memberValues?_cons_eq_some_iff.2 ⟨m', rest, first, others, rfl⟩
      exact ⟨m :: m' :: rest, memberValues?_cons_eq_some_iff.2 ⟨m, _, second, swapped, rfl⟩,
        .swap ..⟩
  | trans _ _ ih ih' =>
      obtain ⟨between, means, perm⟩ := ih means
      obtain ⟨found', means, perm'⟩ := ih' means
      exact ⟨found', means, perm.trans perm'⟩

theorem key?_of_memberValue? {member : List UInt8 × ParseTree} {depth : Nat} {m : String × Json}
    (means : memberValue? member depth = some m) : key? member.1 = some m.1 := by
  obtain ⟨name, key, value⟩ := Option.bind_eq_some_iff.1 means
  obtain ⟨v, -, rfl⟩ := Option.map_eq_some_iff.1 value
  exact key

/-- Every entry has the name of a member. -/
theorem exists_key?_of_mem {members : List (List UInt8 × ParseTree)} {depth : Nat}
    {found : List (String × Json)} (means : memberValues? members depth = some found) :
    ∀ e ∈ found, ∃ member ∈ members, key? member.1 = some e.1 := by
  induction members generalizing found with
  | nil =>
      cases means
      exact List.forall_mem_nil _
  | cons member members ih =>
      obtain ⟨m, rest, first, others, rfl⟩ := memberValues?_cons_eq_some_iff.1 means
      refine List.forall_mem_cons.2 ⟨⟨member, List.mem_cons_self, key?_of_memberValue? first⟩, ?_⟩
      intro e later
      obtain ⟨other, inside, key⟩ := ih others e later
      exact ⟨other, List.mem_cons_of_mem _ inside, key⟩

theorem distinct_of_memberValues? {members : List (List UInt8 × ParseTree)} {depth : Nat}
    {found : List (String × Json)} (means : memberValues? members depth = some found)
    (distinct : members.Pairwise fun a b => ∀ name, key? a.1 = some name → key? b.1 ≠ some name) :
    found.Pairwise fun a b => a.1 ≠ b.1 := by
  induction members generalizing found with
  | nil =>
      cases means
      exact .nil
  | cons member members ih =>
      obtain ⟨m, rest, first, others, rfl⟩ := memberValues?_cons_eq_some_iff.1 means
      obtain ⟨apart, distinct⟩ := List.pairwise_cons.1 distinct
      refine List.pairwise_cons.2 ⟨fun e later same => ?_, ih others distinct⟩
      obtain ⟨other, inside, key⟩ := exists_key?_of_mem others e later
      exact apart other inside m.1 (key?_of_memberValue? first) (same ▸ key)

/-- An object without repeated keys is the same in any order of its members. -/
theorem ofList_of_reordered {members reordered members' : List (List UInt8 × ParseTree)}
    {depth : Nat} (same : memberValues? members depth = memberValues? reordered depth)
    (perm : reordered.Perm members')
    (distinct : members.Pairwise fun a b => ∀ name, key? a.1 = some name → key? b.1 ≠ some name) :
    (memberValues? members depth).map Keyed.ofList =
      (memberValues? members' depth).map Keyed.ofList := by
  cases means : memberValues? members depth with
  | some found =>
      have apart := distinct_of_memberValues? means distinct
      obtain ⟨found', means', reordered⟩ := memberValues?_perm perm (same.symm.trans means)
      rw [means', Option.map_some, Option.map_some, Keyed.ofList_eq_of_perm apart reordered]
  | none =>
      cases means' : memberValues? members' depth with
      | none => rfl
      | some found' =>
          -- If the reordered members meant something, these would too.
          obtain ⟨found, means'', -⟩ := memberValues?_perm perm.symm means'
          cases means.symm.trans (same.trans means'')

/-! ## Alike trees mean the same -/

mutual

theorem value?_of_alike : (tree : ParseTree) → ∀ {tree' : ParseTree}, tree.Alike tree' →
    tree.DistinctKeys → ∀ depth, tree.value? depth = tree'.value? depth
  | .scalar token, tree', alike, _, depth => by
      cases tree' with
      | scalar token' => rw [value?, value?, show scalar? token = scalar? token' from alike]
      | array => cases alike
      | object => cases alike
  | .array items, tree', alike, distinct, depth => by
      cases tree' with
      | array items' =>
          cases depth with
          | zero => rfl
          | succ depth => rw [value?, value?, itemValues?_of_alike items alike distinct]
      | scalar => cases alike
      | object => cases alike
  | .object members, tree', alike, distinct, depth => by
      cases tree' with
      | object members' =>
          obtain ⟨reordered, perm, alike⟩ := alike
          cases depth with
          | zero => rfl
          | succ depth =>
              have same := memberValues?_of_alike members alike distinct.2 depth
              have entries := ofList_of_reordered same perm distinct.1
              have objects := congrArg (Option.map Json.object) entries
              rw [Option.map_map, Option.map_map] at objects
              exact objects
      | scalar => cases alike
      | array => cases alike

theorem itemValues?_of_alike : (items : List ParseTree) → ∀ {items' : List ParseTree},
    AlikeItems items items' → DistinctKeysItems items →
      ∀ depth, itemValues? items depth = itemValues? items' depth
  | [], items', alike, _, depth => by
      cases items' with
      | nil => rfl
      | cons => cases alike
  | item :: items, items', alike, distinct, depth => by
      cases items' with
      | nil => cases alike
      | cons item' items' =>
          rw [itemValues?, itemValues?, value?_of_alike item alike.1 distinct.1,
            itemValues?_of_alike items alike.2 distinct.2]

theorem memberValues?_of_alike : (members : List (List UInt8 × ParseTree)) →
    ∀ {reordered : List (List UInt8 × ParseTree)}, AlikeMembers members reordered →
      DistinctKeysMembers members →
        ∀ depth, memberValues? members depth = memberValues? reordered depth
  | [], reordered, alike, _, depth => by
      cases reordered with
      | nil => rfl
      | cons => cases alike
  | (key, value) :: members, reordered, alike, distinct, depth => by
      cases reordered with
      | nil => cases alike
      | cons member reordered =>
          obtain ⟨key', value'⟩ := member
          obtain ⟨sameKey, first, alike⟩ := alike
          rw [memberValues?, memberValues?, sameKey, value?_of_alike value first distinct.1,
            memberValues?_of_alike members alike distinct.2]

end

theorem root?_of_alike {tree tree' : ParseTree} (alike : tree.Alike tree')
    (distinct : tree.DistinctKeys) : tree.root? = tree'.root? := by
  cases tree with
  | object members =>
      cases tree' with
      | object members' =>
          obtain ⟨reordered, perm, alike⟩ := alike
          exact ofList_of_reordered (memberValues?_of_alike members alike distinct.2 _) perm
            distinct.1
      | scalar => cases alike
      | array => cases alike
  | scalar => cases tree' with
      | scalar => rfl
      | array => cases alike
      | object => cases alike
  | array => cases tree' with
      | array => rfl
      | scalar => cases alike
      | object => cases alike

end ParseTree

end JsonSelect
