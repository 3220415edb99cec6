-- SUMMARY: Paths in a tree of directories: where they lead, which stay below a directory in every tree, and that from any directory one leads to every place.
import Mathlib.Data.List.Infix

/-!
# Paths

A place in a tree of directories is the list of the names that lead to it, the last one
first. Every step of a path but its end has to be at a directory. There are no links.
-/

namespace Paths

/-- A tree of directories, with a root. -/
structure DirectoryTree (Name : Type*) where
  isDirectory : List Name → Bool
  root : isDirectory [] = true
  parent : ∀ name place, isDirectory (name :: place) = true → isDirectory place = true

inductive Component (Name : Type*) where
  | here
  | parent
  | child (name : Name)

variable {Name : Type*}

/-- Where a component leads. The root is its own parent. -/
def Component.follow : Component Name → List Name → List Name
  | .here, place => place
  | .parent, place => place.tail
  | .child name, place => name :: place

/-- Where a path leads, if it leads anywhere. -/
def DirectoryTree.resolve (tree : DirectoryTree Name) : List (Component Name) → List Name → Option (List Name)
  | [], place => some place
  | component :: path, place =>
    if tree.isDirectory place then tree.resolve path (component.follow place) else none

/-- At no point has it more parents than names, where `depth` names may go before. -/
def StaysBelow : Nat → List (Component Name) → Prop
  | _, [] => True
  | depth, .here :: path => StaysBelow depth path
  | 0, .parent :: _ => False
  | depth + 1, .parent :: path => StaysBelow depth path
  | depth, .child _ :: path => StaysBelow (depth + 1) path

instance decidableStaysBelow :
    (depth : Nat) → (path : List (Component Name)) → Decidable (StaysBelow depth path)
  | _, [] => isTrue trivial
  | depth, .here :: path => decidableStaysBelow depth path
  | 0, .parent :: _ => isFalse id
  | depth + 1, .parent :: path => decidableStaysBelow depth path
  | depth, .child _ :: path => decidableStaysBelow (depth + 1) path

/-- The directories up to the root. -/
def climb (depth : Nat) : List (Component Name) := List.replicate depth .parent

/-- Down from the root. -/
def descend (place : List Name) : List (Component Name) := place.reverse.map .child

variable {tree : DirectoryTree Name} {path path' : List (Component Name)} {base place place' : List Name}

theorem resolve_append (path path' : List (Component Name)) (place : List Name) :
    tree.resolve (path ++ path') place = (tree.resolve path place).bind (tree.resolve path') := by
  induction path generalizing place with
  | nil => rfl
  | cons component path ih =>
      show (if tree.isDirectory place then tree.resolve (path ++ path') _ else none) =
        (if tree.isDirectory place then tree.resolve path _ else none).bind _
      split
      · exact ih _
      · rfl

/-- A path that stays below a directory leads to a place below it. -/
theorem resolve_below {depth : Nat} (hpath : StaysBelow depth path) (hbelow : base <:+ place)
    (hdepth : place.length = base.length + depth)
    (hresolve : tree.resolve path place = some place') : base <:+ place' := by
  induction path generalizing depth place with
  | nil =>
      cases hresolve
      exact hbelow
  | cons component path ih =>
      unfold DirectoryTree.resolve at hresolve
      split at hresolve
      · cases component with
        | here => exact ih hpath hbelow hdepth hresolve
        | child name =>
            refine ih hpath (hbelow.trans (List.suffix_cons name place)) ?_ hresolve
            rw [List.length_cons, hdepth]
            rfl
        | parent =>
            cases depth with
            | zero => exact hpath.elim
            | succ depth =>
                -- There is a name above the directory, and it goes.
                obtain ⟨inner, rfl⟩ := hbelow
                cases inner with
                | nil =>
                    rw [List.nil_append] at hdepth
                    omega
                | cons name inner =>
                    refine ih hpath (List.suffix_append inner base) ?_ hresolve
                    rw [List.cons_append, List.length_cons] at hdepth
                    omega
      · cases hresolve

/-- A directory has a way up to the root. -/
theorem resolve_climb (hplace : tree.isDirectory place = true) :
    tree.resolve (climb place.length) place = some [] := by
  induction place with
  | nil => rfl
  | cons name place ih =>
      show (if tree.isDirectory (name :: place) then _ else none) = _
      rw [if_pos hplace]
      exact ih (tree.parent name place hplace)

/-- And a way down to whatever lies in a directory. -/
theorem resolve_descend {name : Name} (hplace : tree.isDirectory place = true) :
    tree.resolve (descend (name :: place)) [] = some (name :: place) := by
  induction place generalizing name with
  | nil =>
      show (if tree.isDirectory [] then _ else none) = _
      rw [if_pos tree.root]
      rfl
  | cons name' place ih =>
      have hway : descend (name :: name' :: place) = descend (name' :: place) ++ [.child name] := by
        simp [descend]
      rw [hway, resolve_append, ih (tree.parent name' place hplace), Option.bind_some]
      show (if tree.isDirectory (name' :: place) then _ else none) = _
      rw [if_pos hplace]
      rfl

/-- From any directory there is a way to whatever lies in another. -/
theorem resolve_climb_descend {name : Name} (hbase : tree.isDirectory base = true)
    (hplace : tree.isDirectory place = true) :
    tree.resolve (climb base.length ++ descend (name :: place)) base = some (name :: place) := by
  rw [resolve_append, resolve_climb hbase, Option.bind_some, resolve_descend hplace]

end Paths
