-- SUMMARY: The order in which the constructor loads scripts: the comparison it sorts them with is no strict weak ordering on any of them, while its strict part would load native libraries first.
import NioevMqtt.Scripting.ScriptStore
import NioevMqtt.Library.Sorting

/-!
# Loading scripts at startup

The constructor sorts the rows of the table `script`, native libraries first, and executes
the requests of one row after another. The comparison does not tell rows of one kind apart,
and says that each comes before the other.
-/

namespace NioevMqtt

namespace ScriptStore

open Sorting

/-- A row of the table, under the name of the script. -/
abbrev StoredScript := Sigma fun _ : ByteString => ScriptRow

/-! ## The constructor -/

variable [ScriptNames]

/-- The comparison passed to `std::sort`. -/
def startupBefore (a b : StoredScript) : Bool :=
  if ScriptNames.getFileExtension a.1 = dotCpp then true
  else if ScriptNames.getFileExtension b.1 = dotCpp then false
  else true

omit [ScriptNames] in
/-- What the loop over the sorted rows requests for one of them. -/
def rowRequests (row : StoredScript) : List ScriptRequest :=
  .addScript row.1 row.2.code :: if row.2.active then [] else [.deactivateScript row.1]

/-- What the constructor requests, with the sorting function it calls. -/
def startupRequests (sort : (StoredScript → StoredScript → Bool) → List StoredScript →
    List StoredScript) (scripts : List StoredScript) : List ScriptRequest :=
  (sort startupBefore scripts).flatMap rowRequests

omit [ScriptNames] in
/-- The scripts that are added, in their order. -/
def addedScripts (requests : List ScriptRequest) : List (ByteString × ByteString) :=
  requests.filterMap fun
    | .addScript name code => some (name, code)
    | _ => none

/-- These are the requests the store is restarted with. -/
theorem restart_eq (s : ScriptStore) (rows : List StoredScript) :
    s.restart rows = (rows.flatMap rowRequests).foldl visit { table := s.table } := by
  rw [restart]
  generalize ({ table := s.table } : ScriptStore) = t
  induction rows generalizing t with
  | nil => rfl
  | cons row rows ih =>
      rw [List.foldl_cons, List.flatMap_cons, List.foldl_append, ih]
      congr 1
      rw [load, rowRequests]
      cases row.2.active with
      | true => rfl
      | false => rfl

/-! ## The property -/

/-- Every script is added once, and no script in JavaScript before a native library. -/
structure AddsInOrder (requests : List ScriptRequest) (scripts : List StoredScript) : Prop where
  once : (addedScripts requests).Perm (scripts.map fun row => (row.1, row.2.code))
  cpp_first : (addedScripts requests).Pairwise fun a b =>
    ¬ (ScriptNames.getFileExtension a.1 = dotJs ∧ ScriptNames.getFileExtension b.1 = dotCpp)

/-- The comparison is one that `std::sort` is defined for, and with any such function the
scripts are added in order. -/
structure StartsUp (scripts : List StoredScript) : Prop where
  ordering : StrictWeakOn startupBefore scripts
  requests : ∀ sort, IsStdSort sort → AddsInOrder (startupRequests sort scripts) scripts

/-! ## The comparison -/

/-- Native libraries before other scripts. -/
def startupRank (row : StoredScript) : Nat :=
  if ScriptNames.getFileExtension row.1 = dotCpp then 0 else 1

def strictlyBefore (a b : StoredScript) : Bool := decide (startupRank a < startupRank b)

/-- The comparison only excludes that the second comes strictly before the first. -/
theorem startupBefore_eq (a b : StoredScript) : startupBefore a b = !strictlyBefore b a := by
  rw [startupBefore, strictlyBefore, startupRank, startupRank]
  split
  · simp
  · split
    · rfl
    · rfl

/-- A script comes before itself. -/
theorem startupBefore_self (a : StoredScript) : startupBefore a a = true := by
  rw [startupBefore_eq, strictlyBefore]
  simp

omit [ScriptNames] in
/-- What a sorting function makes of the rows, in the requests. -/
theorem addedScripts_rowRequests (rows : List StoredScript) :
    addedScripts (rows.flatMap rowRequests) = rows.map fun row => (row.1, row.2.code) := by
  induction rows with
  | nil => rfl
  | cons row rows ih =>
      have hrow : addedScripts (rowRequests row) = [(row.1, row.2.code)] := by
        rw [rowRequests]
        cases row.2.active with
        | true => rfl
        | false => rfl
      rw [List.flatMap_cons, addedScripts, List.filterMap_append]
      exact congr (congrArg HAppend.hAppend hrow) ih

/-- With the strict part, every sorting function would have the scripts added in order. -/
theorem addsInOrder_of_strictlyBefore
    {sort : (StoredScript → StoredScript → Bool) → List StoredScript → List StoredScript}
    (hsort : IsStdSort sort) (scripts : List StoredScript) :
    AddsInOrder ((sort strictlyBefore scripts).flatMap rowRequests) scripts := by
  obtain ⟨hperm, hordered⟩ := hsort strictlyBefore scripts (strictWeakOn_of_key startupRank scripts)
  constructor
  case once =>
      rw [addedScripts_rowRequests]
      exact hperm.map _
  case cpp_first =>
      rw [addedScripts_rowRequests, List.pairwise_map]
      refine hordered.imp fun {a b} hnot => ?_
      rintro ⟨ha, hb⟩
      have hne : dotJs ≠ dotCpp := by decide
      simp [strictlyBefore, startupRank, ha, hb, hne] at hnot

/-! ## When the constructor meets it -/

theorem startsUp_nil : StartsUp [] where
  ordering := strictWeakOn_nil _
  requests := by
    intro sort hsort
    have hnil : sort startupBefore [] = [] :=
      (hsort startupBefore [] (strictWeakOn_nil _)).1.eq_nil
    rw [startupRequests, hnil]
    exact ⟨List.Perm.refl _, List.Pairwise.nil⟩

theorem eq_nil_of_startsUp {scripts : List StoredScript} (h : StartsUp scripts) : scripts = [] := by
  cases scripts with
  | nil => rfl
  | cons row rows =>
      have hirrefl := h.ordering.irrefl row List.mem_cons_self
      rw [startupBefore_self] at hirrefl
      cases hirrefl

/-- The scripts are loaded as they should be exactly if there is none. With the strict part of
the comparison they would always be; and the requests are those a store is restarted with. -/
theorem startsUp_iff (scripts : List StoredScript) :
    (StartsUp scripts ↔ scripts = []) ∧
      (∀ sort, IsStdSort sort →
        AddsInOrder ((sort strictlyBefore scripts).flatMap rowRequests) scripts) ∧
      ∀ s : ScriptStore,
        s.restart scripts = (scripts.flatMap rowRequests).foldl visit { table := s.table } := by
  refine ⟨⟨eq_nil_of_startsUp, ?_⟩, fun _ hsort => addsInOrder_of_strictlyBefore hsort scripts,
    fun s => s.restart_eq scripts⟩
  rintro rfl
  exact startsUp_nil

end ScriptStore

/-- With `a.js` and `b.js` stored, each of them comes before the other. -/
theorem ScriptStore.not_startsUp : ¬ ∀ (names : ScriptNames) (scripts : List StoredScript),
    @StartsUp names scripts := by
  intro hall
  obtain ⟨hordering, -⟩ := hall ScriptNames.standard
    [⟨nameOfScript, { code := [] }⟩, ⟨[0x62, 0x2E, 0x6A, 0x73], { code := [] }⟩]
  have hboth := hordering.asymm _ List.mem_cons_self _
    (List.mem_cons_of_mem _ List.mem_cons_self) (by decide)
  revert hboth
  decide

end NioevMqtt
