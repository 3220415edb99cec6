-- SUMMARY: The scripts in memory and in the database, and what the requests about scripts and a restart do to them.
import NioevMqtt.Broker.ProgramOrder

/-!
# The script store

`mScripts` and the table `script` of the database. The table is a map from the name of a
script to its code and whether it is active; inserting a row makes it active.
-/

namespace NioevMqtt

/-- What libnioev says about the names of scripts. -/
class ScriptNames where
  getFileExtension : ByteString → ByteString
  hasValidScriptExtension : ByteString → Bool

/-- `".js"` -/
def dotJs : ByteString := [0x2E, 0x6A, 0x73]

/-- `".cpp"` -/
def dotCpp : ByteString := [0x2E, 0x63, 0x70, 0x70]

/-- An extension begins with the last dot. -/
@[reducible] def ScriptNames.standard : ScriptNames where
  getFileExtension name := (name.reverse.takeWhile (· ≠ 0x2E)).reverse.insertIdx 0 0x2E
  hasValidScriptExtension name := dotJs.isSuffixOf name || dotCpp.isSuffixOf name

/-- `"a.js"` -/
def nameOfScript : ByteString := [0x61, 0x2E, 0x6A, 0x73]

inductive ScriptState where
  | unknown
  | running
  | stopping
  | deactivated
  | initFailed
deriving DecidableEq, Repr

/-- A `ScriptContainerJS`, which is known to its subscriptions by its number. -/
structure Script where
  id : Nat
  mCode : ByteString
  mState : ScriptState := .running
deriving DecidableEq, Repr

namespace Script

def activate (script : Script) : Script :=
  if script.mState = .deactivated then { script with mState := .running } else script

def deactivate (script : Script) : Script :=
  if script.mState = .running then { script with mState := .deactivated } else script

/-- The error output of `scriptThreadFunc`. -/
def initFails (script : Script) : Script := { script with mState := .initFailed }

@[simp] theorem activate_mCode (script : Script) : script.activate.mCode = script.mCode := by
  unfold activate
  split
  · rfl
  · rfl

@[simp] theorem deactivate_mCode (script : Script) : script.deactivate.mCode = script.mCode := by
  unfold deactivate
  split
  · rfl
  · rfl

@[simp] theorem activate_id (script : Script) : script.activate.id = script.id := by
  unfold activate
  split
  · rfl
  · rfl

@[simp] theorem deactivate_id (script : Script) : script.deactivate.id = script.id := by
  unfold deactivate
  split
  · rfl
  · rfl

theorem deactivate_mState_ne (script : Script) : script.deactivate.mState ≠ .running := by
  unfold deactivate
  split
  · rintro ⟨⟩
  · next hstate => exact hstate

end Script

structure ScriptRow where
  code : ByteString
  active : Bool := true
deriving DecidableEq, Repr

structure ScriptStore where
  mScripts : AList (fun _ : ByteString => Script) := ∅
  table : AList (fun _ : ByteString => ScriptRow) := ∅
  /-- What has been given to `mNativeLibManager`. -/
  nativeLibs : List (ByteString × ByteString) := []
  nextScript : Nat := 0

/-- The script a request is about. -/
def ScriptRequest.name : ScriptRequest → ByteString
  | .addScript name _ | .deleteScript name | .activateScript name | .deactivateScript name => name

namespace ScriptStore

/-! ## The table -/

/-- `INSERT OR REPLACE INTO script (name, code) VALUES (?, ?)` -/
def insertRow (s : ScriptStore) (name code : ByteString) : ScriptStore :=
  { s with table := s.table.insert name { code := code } }

/-- `UPDATE script SET active=? WHERE name=?` -/
def updateActive (s : ScriptStore) (name : ByteString) (active : Bool) : ScriptStore :=
  match s.table.lookup name with
  | none => s
  | some row => { s with table := s.table.insert name { row with active := active } }

/-- `DELETE FROM script WHERE name=?` -/
def deleteRow (s : ScriptStore) (name : ByteString) : ScriptStore :=
  { s with table := s.table.erase name }

/-! ## The scripts -/

/-- The part of `deleteScript` that concerns `mScripts`. -/
def deleteScript (s : ScriptStore) (name : ByteString) : ScriptStore :=
  { s with mScripts := s.mScripts.erase name }

def setScript (s : ScriptStore) (name : ByteString) (script : Script) : ScriptStore :=
  { s with mScripts := s.mScripts.insert name script }

variable [ScriptNames]

/-- `operator()(ChangeRequestAddScript)`. A name with another extension is an error. -/
def addScript (s : ScriptStore) (name code : ByteString) : ScriptStore :=
  -- The row is that of the new script already, and stays.
  let s := s.deleteScript name
  if ScriptNames.getFileExtension name = dotJs then
    { s.setScript name { id := s.nextScript, mCode := code } with nextScript := s.nextScript + 1 }
  else if ScriptNames.getFileExtension name = dotCpp then
    { s with nativeLibs := s.nativeLibs ++ [(name, code)] }
  else s

/-- `std::visit(*this, changeRequest)` for the requests about scripts. -/
def visit (s : ScriptStore) : ScriptRequest → ScriptStore
  | .addScript name code => s.addScript name code
  | .deleteScript name => (s.deleteScript name).deleteRow name
  | .activateScript name =>
    match s.mScripts.lookup name with
    | none => s
    | some script => (s.updateActive name true).setScript name script.activate
  | .deactivateScript name =>
    match s.mScripts.lookup name with
    | none => s
    | some script => (s.updateActive name false).setScript name script.deactivate

/-- What the constructor does with a row of the table. -/
def load (s : ScriptStore) (row : Sigma fun _ : ByteString => ScriptRow) : ScriptStore :=
  let s := s.visit (.addScript row.1 row.2.code)
  if row.2.active then s else s.visit (.deactivateScript row.1)

/-- The store after a restart that loads the rows in this order. -/
def restart (s : ScriptStore) (rows : List (Sigma fun _ : ByteString => ScriptRow)) :
    ScriptStore :=
  rows.foldl load { table := s.table }

/-! ## Agreement -/

/-- Memory and database say the same about a script. -/
structure Agrees (s : ScriptStore) (name : ByteString) : Prop where
  code : (s.mScripts.lookup name).map Script.mCode = (s.table.lookup name).map ScriptRow.code
  active : ∀ script row, s.mScripts.lookup name = some script → s.table.lookup name = some row →
    row.active = false → script.mState ≠ .running

variable {s s' : ScriptStore} {name other : ByteString} {change : ScriptRequest}

omit [ScriptNames] in
theorem Agrees.congr (h : s.Agrees name)
    (hscripts : s'.mScripts.lookup name = s.mScripts.lookup name)
    (htable : s'.table.lookup name = s.table.lookup name) : s'.Agrees name where
  code := by
    rw [hscripts, htable]
    exact h.code
  active := by
    rw [hscripts, htable]
    exact h.active

/-! ### What each operation does to a name -/

omit [ScriptNames] in
theorem lookup_updateActive (s : ScriptStore) (name : ByteString) (active : Bool) :
    (s.updateActive name active).table.lookup name =
      (s.table.lookup name).map fun row => { row with active := active } := by
  unfold updateActive
  cases hrow : s.table.lookup name with
  | none => exact hrow
  | some row => exact AList.lookup_insert _

omit [ScriptNames] in
theorem lookup_updateActive_of_ne (s : ScriptStore) (active : Bool) (hother : other ≠ name) :
    (s.updateActive name active).table.lookup other = s.table.lookup other := by
  unfold updateActive
  split
  · rfl
  · exact AList.lookup_insert_ne hother

omit [ScriptNames] in
theorem mScripts_updateActive (s : ScriptStore) (name : ByteString) (active : Bool) :
    (s.updateActive name active).mScripts = s.mScripts := by
  unfold updateActive
  split
  · rfl
  · rfl

theorem table_addScript (s : ScriptStore) (name code : ByteString) :
    (s.addScript name code).table = s.table := by
  unfold addScript
  simp only
  split
  · rfl
  · split
    · rfl
    · rfl

theorem lookup_addScript (hjs : ScriptNames.getFileExtension name = dotJs) (s : ScriptStore)
    (code : ByteString) :
    (s.addScript name code).mScripts.lookup name = some { id := s.nextScript, mCode := code } := by
  unfold addScript
  rw [if_pos hjs]
  exact AList.lookup_insert _

theorem lookup_addScript_of_ne (s : ScriptStore) (code : ByteString) (hother : other ≠ name) :
    (s.addScript name code).mScripts.lookup other = s.mScripts.lookup other := by
  have herased : (s.deleteScript name).mScripts.lookup other = s.mScripts.lookup other :=
    AList.lookup_erase_ne hother
  unfold addScript
  simp only
  split
  · exact (AList.lookup_insert_ne hother).trans herased
  · split
    · exact herased
    · exact herased

/-- A request is about one script, and leaves the others alone. -/
theorem lookup_visit_of_ne (s : ScriptStore) (hother : other ≠ change.name) :
    (s.visit change).mScripts.lookup other = s.mScripts.lookup other ∧
      (s.visit change).table.lookup other = s.table.lookup other := by
  cases change with
  | addScript name code =>
      exact ⟨lookup_addScript_of_ne s code hother,
        congrArg (AList.lookup other) (table_addScript s name code)⟩
  | deleteScript name => exact ⟨AList.lookup_erase_ne hother, AList.lookup_erase_ne hother⟩
  | activateScript name =>
      simp only [visit]
      split
      · exact ⟨rfl, rfl⟩
      · refine ⟨(AList.lookup_insert_ne hother).trans ?_, lookup_updateActive_of_ne s true hother⟩
        rw [mScripts_updateActive]
  | deactivateScript name =>
      simp only [visit]
      split
      · exact ⟨rfl, rfl⟩
      · refine ⟨(AList.lookup_insert_ne hother).trans ?_, lookup_updateActive_of_ne s false hother⟩
        rw [mScripts_updateActive]

/-! ### What keeps memory and database in agreement -/

omit [ScriptNames] in
theorem Agrees.setScript {name : ByteString} (h : s.Agrees name) {script script' : Script}
    (hscript : s.mScripts.lookup name = some script) (hcode : script'.mCode = script.mCode)
    {active : Bool} (hactive : active = false → script'.mState ≠ .running) :
    ((s.updateActive name active).setScript name script').Agrees name := by
  have htable : ((s.updateActive name active).setScript name script').table.lookup name =
      (s.table.lookup name).map fun row => { row with active := active } :=
    lookup_updateActive s name active
  have hscripts : ((s.updateActive name active).setScript name script').mScripts.lookup name =
      some script' := AList.lookup_insert _
  constructor
  · rw [hscripts, htable, Option.map_map]
    have hold := h.code
    rw [hscript] at hold
    exact (congrArg some hcode).trans hold
  · intro script'' row hscript'' hrow hrowActive
    rw [hscripts] at hscript''
    rw [htable] at hrow
    cases hscript''
    obtain ⟨old, -, rfl⟩ := Option.map_eq_some_iff.mp hrow
    exact hactive hrowActive

/-- Deleting, activating and deactivating keep a script in agreement, and so does adding it
with the code its row has. -/
theorem Agrees.visit {name : ByteString} (h : s.Agrees name) (hadd : ∀ code, change ≠ .addScript name code) :
    (s.visit change).Agrees name := by
  -- A request about another name changes neither side.
  by_cases hname : name = change.name
  · cases change with
    | addScript other code =>
        obtain rfl : name = other := hname
        exact absurd rfl (hadd code)
    | deleteScript other =>
        obtain rfl : name = other := hname
        have hscripts : ((s.deleteScript name).deleteRow name).mScripts.lookup name = none :=
          AList.lookup_erase _ _
        have htable : ((s.deleteScript name).deleteRow name).table.lookup name = none :=
          AList.lookup_erase _ _
        simp only [ScriptStore.visit]
        refine ⟨?_, fun script row hscript => ?_⟩
        · rw [hscripts, htable]
          rfl
        · rw [hscripts] at hscript
          cases hscript
    | activateScript other =>
        obtain rfl : name = other := hname
        simp only [ScriptStore.visit]
        split
        · exact h
        · next script hscript => exact h.setScript hscript script.activate_mCode (by rintro ⟨⟩)
    | deactivateScript other =>
        obtain rfl : name = other := hname
        simp only [ScriptStore.visit]
        split
        · exact h
        · next script hscript =>
            exact h.setScript hscript script.deactivate_mCode fun _ => script.deactivate_mState_ne
  · exact h.congr (lookup_visit_of_ne s hname).1 (lookup_visit_of_ne s hname).2

/-- An executed upload agrees with the row it was written to. -/
theorem agrees_addScript (hjs : ScriptNames.getFileExtension name = dotJs) {code : ByteString}
    (hrow : s.table.lookup name = some { code := code }) : (s.addScript name code).Agrees name where
  code := by
    rw [lookup_addScript hjs, table_addScript, hrow]
    rfl
  active := by
    intro script row _ htable hactive
    rw [table_addScript, hrow] at htable
    cases htable
    cases hactive

omit [ScriptNames] in
/-- Whatever agrees still does when the script has failed to start. -/
theorem Agrees.initFails (h : s.Agrees name) {script : Script}
    (hscript : s.mScripts.lookup name = some script) :
    (s.setScript name script.initFails).Agrees name := by
  have hscripts : (s.setScript name script.initFails).mScripts.lookup name =
      some script.initFails := AList.lookup_insert _
  refine ⟨?_, fun script' row hscript' _ _ => ?_⟩
  · rw [hscripts]
    have hold := h.code
    rw [hscript] at hold
    exact hold
  · rw [hscripts] at hscript'
    cases hscript'
    rintro ⟨⟩

/-! ## Restart -/

/-- Loading a row concerns its script only. -/
theorem load_of_ne (s : ScriptStore) {row : Sigma fun _ : ByteString => ScriptRow}
    (hother : other ≠ row.1) : (s.load row).mScripts.lookup other = s.mScripts.lookup other := by
  have hadded : (s.visit (.addScript row.1 row.2.code)).mScripts.lookup other =
      s.mScripts.lookup other := (lookup_visit_of_ne s hother).1
  unfold load
  simp only
  split
  · exact hadded
  · exact (lookup_visit_of_ne _ hother).1.trans hadded

theorem load_self (s : ScriptStore) {row : Sigma fun _ : ByteString => ScriptRow}
    (hjs : ScriptNames.getFileExtension row.1 = dotJs) :
    ((s.load row).mScripts.lookup row.1).map (fun script => (script.mCode, script.mState)) =
      some (row.2.code, if row.2.active then .running else .deactivated) := by
  have hadded := lookup_addScript hjs s row.2.code
  unfold load
  simp only [visit]
  split
  · rw [hadded]
    rfl
  · rw [hadded]
    simp only
    have hset : ((((s.addScript row.1 row.2.code).updateActive row.1 false).setScript row.1
        (Script.deactivate { id := s.nextScript, mCode := row.2.code })).mScripts.lookup row.1) =
        some (Script.deactivate { id := s.nextScript, mCode := row.2.code }) := AList.lookup_insert _
    rw [hset]
    rfl

theorem foldl_load_of_notMem (s : ScriptStore)
    {rows : List (Sigma fun _ : ByteString => ScriptRow)} (hother : other ∉ rows.keys) :
    (rows.foldl load s).mScripts.lookup other = s.mScripts.lookup other := by
  induction rows generalizing s with
  | nil => rfl
  | cons row rows ih =>
      rw [List.keys_cons, List.mem_cons, not_or] at hother
      exact (ih (s.load row) hother.2).trans (load_of_ne s hother.1)

/-- Of the rows of a table, one names a script. -/
theorem foldl_load_of_mem (s : ScriptStore) {rows : List (Sigma fun _ : ByteString => ScriptRow)}
    (hnodup : rows.NodupKeys) {row : ScriptRow} (hjs : ScriptNames.getFileExtension name = dotJs)
    (hrow : ⟨name, row⟩ ∈ rows) :
    ((rows.foldl load s).mScripts.lookup name).map (fun script => (script.mCode, script.mState)) =
      some (row.code, if row.active then .running else .deactivated) := by
  induction rows generalizing s with
  | nil => cases hrow
  | cons first rows ih =>
      obtain ⟨hfirst, hrest⟩ := List.nodupKeys_cons.mp hnodup
      rcases List.mem_cons.mp hrow with rfl | hmem
      · rw [List.foldl_cons, foldl_load_of_notMem _ hfirst]
        exact load_self s hjs
      · exact ih (s.load first) hrest hmem

/-- A restart brings back every script of the table, running if its row is active. -/
theorem lookup_restart (s : ScriptStore) {rows : List (Sigma fun _ : ByteString => ScriptRow)}
    (hrows : rows.Perm s.table.entries) {row : ScriptRow}
    (hjs : ScriptNames.getFileExtension name = dotJs) (hrow : s.table.lookup name = some row) :
    ((s.restart rows).mScripts.lookup name).map (fun script => (script.mCode, script.mState)) =
      some (row.code, if row.active then .running else .deactivated) := by
  have hnodup : rows.NodupKeys := (List.perm_nodupKeys hrows).mpr s.table.nodupKeys
  have hmem : ⟨name, row⟩ ∈ rows := hrows.mem_iff.mpr (AList.mem_lookup_iff.mp hrow)
  exact foldl_load_of_mem _ hnodup hjs hmem

/-- It brings back nothing else. -/
theorem lookup_restart_of_notMem (s : ScriptStore)
    {rows : List (Sigma fun _ : ByteString => ScriptRow)} (hrows : rows.Perm s.table.entries)
    (hrow : s.table.lookup name = none) : (s.restart rows).mScripts.lookup name = none := by
  refine foldl_load_of_notMem _ fun hmem => ?_
  have hkey : name ∈ s.table.entries.keys := (hrows.map Sigma.fst).mem_iff.mp hmem
  exact AList.lookup_eq_none.mp hrow hkey

/-- Loading a row writes nothing that is not in the table already. -/
theorem lookup_table_load {row : Sigma fun _ : ByteString => ScriptRow}
    (hrow : s.table.lookup row.1 = some row.2) (other : ByteString) :
    (s.load row).table.lookup other = s.table.lookup other := by
  have hadded : (s.visit (.addScript row.1 row.2.code)).table = s.table := table_addScript _ _ _
  unfold load
  simp only
  split
  · rw [hadded]
  · next hactive =>
      by_cases hother : other = row.1
      · subst hother
        simp only [visit]
        split
        · rw [table_addScript]
        · refine (lookup_updateActive _ row.1 false).trans ?_
          rw [table_addScript, hrow]
          exact congrArg some (congrArg (ScriptRow.mk row.2.code) (eq_false_of_ne_true hactive).symm)
      · exact (lookup_visit_of_ne _ hother).2.trans (congrArg (AList.lookup other) hadded)

theorem lookup_table_foldl_load {rows : List (Sigma fun _ : ByteString => ScriptRow)}
    (hrows : ∀ row ∈ rows, s.table.lookup row.1 = some row.2) (other : ByteString) :
    (rows.foldl load s).table.lookup other = s.table.lookup other := by
  induction rows generalizing s with
  | nil => rfl
  | cons row rows ih =>
      have hload := lookup_table_load (hrows row List.mem_cons_self)
      refine (ih fun x hx => ?_).trans (hload other)
      exact (hload x.1).trans (hrows x (List.mem_cons_of_mem _ hx))

/-- After a restart memory and database agree. -/
theorem agrees_restart (s : ScriptStore) {rows : List (Sigma fun _ : ByteString => ScriptRow)}
    (hrows : rows.Perm s.table.entries) (hjs : ScriptNames.getFileExtension name = dotJs) :
    (s.restart rows).Agrees name := by
  have htable : (s.restart rows).table.lookup name = s.table.lookup name := by
    refine lookup_table_foldl_load (s := { table := s.table }) (fun row hmem => ?_) name
    exact AList.mem_lookup_iff.mpr (hrows.mem_iff.mp hmem)
  cases hrow : s.table.lookup name with
  | none =>
      have hscripts := lookup_restart_of_notMem s hrows hrow
      refine ⟨?_, fun script row hscript => ?_⟩
      · rw [htable, hscripts, hrow]
        rfl
      · rw [hscripts] at hscript
        cases hscript
  | some row =>
      have hloaded := lookup_restart s hrows hjs hrow
      obtain ⟨script, hscript, hfields⟩ := Option.map_eq_some_iff.mp hloaded
      obtain ⟨hcode, hstate⟩ := Prod.mk.inj hfields
      constructor
      · rw [htable, hscript, hrow]
        exact congrArg some hcode
      · intro script' row' hscript' hrow' hactive
        rw [hscript] at hscript'
        rw [htable, hrow] at hrow'
        cases hscript'
        cases hrow'
        rw [hstate, hactive]
        rintro ⟨⟩

/-! ## Numbers -/

omit [ScriptNames] in
/-- The number of a script. -/
def idOf (s : ScriptStore) (name : ByteString) : Option Nat := (s.mScripts.lookup name).map Script.id

/-- No two scripts have the same number. -/
structure Numbered (s : ScriptStore) : Prop where
  lt : ∀ name id, s.idOf name = some id → id < s.nextScript
  injective : ∀ name name' id, s.idOf name = some id → s.idOf name' = some id → name = name'

/-- The script whose object is destroyed when a request is executed. -/
def ends (s : ScriptStore) : ScriptRequest → Option Nat
  | .addScript name _ | .deleteScript name => s.idOf name
  | _ => none

theorem idOf_visit_of_ne (s : ScriptStore) (hother : other ≠ change.name) :
    (s.visit change).idOf other = s.idOf other :=
  congrArg (Option.map Script.id) (lookup_visit_of_ne s hother).1

theorem idOf_addScript (s : ScriptStore) (name code : ByteString) :
    (s.addScript name code).idOf name = none ∨
      (s.addScript name code).idOf name = some s.nextScript ∧
        (s.addScript name code).nextScript = s.nextScript + 1 := by
  have hnone : (s.mScripts.erase name).lookup name = none := AList.lookup_erase _ _
  by_cases hjs : ScriptNames.getFileExtension name = dotJs
  · refine .inr ⟨congrArg (Option.map Script.id) (lookup_addScript hjs s code), ?_⟩
    unfold addScript
    rw [if_pos hjs]
    rfl
  · unfold addScript
    rw [if_neg hjs]
    split
    · exact .inl (congrArg (Option.map Script.id) hnone)
    · exact .inl (congrArg (Option.map Script.id) hnone)

omit [ScriptNames] in
theorem idOf_setScript (s : ScriptStore) {script script' : Script}
    (hscript : s.mScripts.lookup name = some script) (hid : script'.id = script.id) (active : Bool) :
    ((s.updateActive name active).setScript name script').idOf name = s.idOf name := by
  have hset : ((s.updateActive name active).setScript name script').mScripts.lookup name =
      some script' := AList.lookup_insert _
  unfold idOf
  rw [hset, hscript]
  exact congrArg some hid

/-- What a request does to the number of its script: it is kept, or it ends with the script,
whose place a new one may take. -/
theorem idOf_visit (s : ScriptStore) (change : ScriptRequest) :
    (s.visit change).idOf change.name = s.idOf change.name ∧ s.ends change = none ∨
      s.ends change = s.idOf change.name ∧
        ((s.visit change).idOf change.name = none ∨
          (s.visit change).idOf change.name = some s.nextScript ∧
            (s.visit change).nextScript = s.nextScript + 1) := by
  cases change with
  | addScript name code => exact .inr ⟨rfl, idOf_addScript s name code⟩
  | deleteScript name =>
      have hnone : (s.mScripts.erase name).lookup name = none := AList.lookup_erase _ _
      exact .inr ⟨rfl, .inl (congrArg (Option.map Script.id) hnone)⟩
  | activateScript name =>
      refine .inl ⟨?_, rfl⟩
      simp only [visit]
      split
      · rfl
      · next script hscript => exact idOf_setScript s hscript script.activate_id true
  | deactivateScript name =>
      refine .inl ⟨?_, rfl⟩
      simp only [visit]
      split
      · rfl
      · next script hscript => exact idOf_setScript s hscript script.deactivate_id false

theorem nextScript_le_visit (s : ScriptStore) (change : ScriptRequest) :
    s.nextScript ≤ (s.visit change).nextScript := by
  have hactive : ∀ (name : ByteString) (active : Bool),
      (s.updateActive name active).nextScript = s.nextScript := by
    intro name active
    unfold updateActive
    split
    · rfl
    · rfl
  cases change with
  | addScript name code =>
      simp only [visit, addScript]
      split
      · exact Nat.le_succ _
      · split
        · exact le_rfl
        · exact le_rfl
  | deleteScript name => exact le_rfl
  | activateScript name =>
      simp only [visit]
      split
      · exact le_rfl
      · exact (hactive name true).ge
  | deactivateScript name =>
      simp only [visit]
      split
      · exact le_rfl
      · exact (hactive name false).ge

/-- A script that is there after a request was so before, or is new. -/
theorem idOf_of_visit {id : Nat} (h : (s.visit change).idOf name = some id) :
    s.idOf name = some id ∨
      name = change.name ∧ id = s.nextScript ∧ (s.visit change).nextScript = s.nextScript + 1 := by
  by_cases hname : name = change.name
  · subst hname
    rcases idOf_visit s change with ⟨hkept, -⟩ | ⟨-, hnone | ⟨hnew, hnext⟩⟩
    · exact .inl (hkept.symm.trans h)
    · cases hnone.symm.trans h
    · cases hnew.symm.trans h
      exact .inr ⟨rfl, rfl, hnext⟩
  · exact .inl ((idOf_visit_of_ne s hname).symm.trans h)

theorem Numbered.visit (h : s.Numbered) (change : ScriptRequest) : (s.visit change).Numbered where
  lt := by
    intro name id hid
    rcases idOf_of_visit hid with hold | ⟨-, rfl, hnext⟩
    · exact Nat.lt_of_lt_of_le (h.lt name id hold) (nextScript_le_visit s change)
    · exact hnext ▸ Nat.lt_succ_self _
  injective := by
    intro name name' id hid hid'
    rcases idOf_of_visit hid with hold | ⟨hname, rfl, -⟩
    · rcases idOf_of_visit hid' with hold' | ⟨-, rfl, -⟩
      · exact h.injective name name' id hold hold'
      · exact absurd (h.lt name _ hold) (Nat.lt_irrefl _)
    · rcases idOf_of_visit hid' with hold' | ⟨hname', -, -⟩
      · exact absurd (h.lt name' _ hold') (Nat.lt_irrefl _)
      · exact hname.trans hname'.symm

/-- A script that ends is gone. -/
theorem Numbered.not_idOf_visit (h : s.Numbered) {id : Nat} (hends : s.ends change = some id)
    (name : ByteString) : (s.visit change).idOf name ≠ some id := by
  intro hid
  rcases idOf_visit s change with ⟨-, hnone⟩ | ⟨hself, hgone⟩
  · cases hnone.symm.trans hends
  · have hold := hself.symm.trans hends
    rcases idOf_of_visit hid with hstill | ⟨-, rfl, -⟩
    · have hname := h.injective name change.name id hstill hold
      subst hname
      rcases hgone with hnone | ⟨hnew, -⟩
      · cases hnone.symm.trans hid
      · cases hnew.symm.trans hid
        exact absurd (h.lt _ _ hold) (Nat.lt_irrefl _)
    · exact absurd (h.lt _ _ hold) (Nat.lt_irrefl _)

/-- The others stay. -/
theorem idOf_visit_of_not_ends {id : Nat} (h : s.idOf name = some id) (hends : s.ends change ≠ some id) :
    (s.visit change).idOf name = some id := by
  by_cases hname : name = change.name
  · subst hname
    rcases idOf_visit s change with ⟨hkept, -⟩ | ⟨hself, -⟩
    · exact hkept.trans h
    · exact absurd (hself.trans h) hends
  · exact (idOf_visit_of_ne s hname).trans h

theorem Numbered.load (h : s.Numbered) (row : Sigma fun _ : ByteString => ScriptRow) :
    (s.load row).Numbered := by
  unfold ScriptStore.load
  simp only
  split
  · exact h.visit _
  · exact (h.visit _).visit _

theorem numbered_restart (s : ScriptStore) (rows : List (Sigma fun _ : ByteString => ScriptRow)) :
    (s.restart rows).Numbered := by
  have hempty : ({ table := s.table } : ScriptStore).Numbered :=
    ⟨(by rintro _ _ ⟨⟩), (by rintro _ _ _ ⟨⟩)⟩
  exact List.foldlRecOn rows load hempty fun _ h row _ => h.load row

end ScriptStore

end NioevMqtt
