-- SUMMARY: Loops that read items off an input until it is empty: what they come to, item by item, when a read may fail.
import Mathlib.Data.List.Basic

/-!
# Reading to the end

A `do`-`while` loop reads an item off the front of its input, does something with it,
and goes on as long as input is left. A read may fail, and so may what is done with an
item; what was done before is not undone.
-/

namespace Reading

variable {α β σ ε : Type*}

/-- Every read takes something. -/
def Consuming (read : List α → Except ε (β × List α)) : Prop :=
  ∀ input x rest, read input = .ok (x, rest) → rest.length < input.length

/-- The items that are read, and the failure by which it ends if it does not come to the
end of the input. -/
inductive Reads (read : List α → Except ε (β × List α)) : List α → List β → Option ε → Prop
  | last {input x} (hread : read input = .ok (x, [])) : Reads read input [x] none
  | more {input x rest xs failure} (hread : read input = .ok (x, rest)) (hne : rest ≠ [])
      (hrest : Reads read rest xs failure) : Reads read input (x :: xs) failure
  | fails {input failure} (hread : read input = .error failure) : Reads read input [] (some failure)

/-- The loop, for at most as many turns as it is given. -/
def loop (read : List α → Except ε (β × List α)) (act : β → σ → σ × Option ε) :
    Nat → List α → σ → σ × Option ε
  | 0, _, s => (s, none)
  | turns + 1, input, s =>
    match read input with
    | .error failure => (s, some failure)
    | .ok (x, rest) =>
      match act x s with
      | (s, some failure) => (s, some failure)
      | (s, none) => if rest = [] then (s, none) else loop read act turns rest s

/-- The loop, for as many turns as it can need. -/
def readItems (read : List α → Except ε (β × List α)) (act : β → σ → σ × Option ε)
    (input : List α) (s : σ) : σ × Option ε :=
  loop read act (input.length + 1) input s

variable {read : List α → Except ε (β × List α)} {act : β → σ → σ × Option ε} {input : List α}
  {xs ys : List β} {failure failure' : Option ε} {s : σ}

/-! ## What is read -/

theorem exists_reads (h : Consuming read) (input : List α) :
    ∃ xs failure, Reads read input xs failure := by
  induction hlength : input.length using Nat.strongRecOn generalizing input with
  | ind n ih =>
      cases hread : read input with
      | error failure => exact ⟨[], some failure, .fails hread⟩
      | ok result =>
          obtain ⟨x, rest⟩ := result
          by_cases hne : rest = []
          · subst hne
            exact ⟨[x], none, .last hread⟩
          · have hlt : rest.length < n := hlength ▸ h input x rest hread
            obtain ⟨xs, failure, hrest⟩ := ih _ hlt rest rfl
            exact ⟨x :: xs, failure, .more hread hne hrest⟩

theorem Reads.unique (h : Reads read input xs failure) (h' : Reads read input ys failure') :
    xs = ys ∧ failure = failure' := by
  induction h generalizing ys with
  | last hread =>
      cases h' with
      | last hread' =>
          cases hread.symm.trans hread'
          exact ⟨rfl, rfl⟩
      | more hread' hne' =>
          cases hread.symm.trans hread'
          exact absurd rfl hne'
      | fails hread' => cases hread.symm.trans hread'
  | more hread hne hrest ih =>
      cases h' with
      | last hread' =>
          cases hread.symm.trans hread'
          exact absurd rfl hne
      | more hread' hne' hrest' =>
          cases hread.symm.trans hread'
          obtain ⟨rfl, rfl⟩ := ih hrest'
          exact ⟨rfl, rfl⟩
      | fails hread' => cases hread.symm.trans hread'
  | fails hread =>
      cases h' with
      | last hread' => cases hread.symm.trans hread'
      | more hread' => cases hread.symm.trans hread'
      | fails hread' =>
          cases hread.symm.trans hread'
          exact ⟨rfl, rfl⟩

/-- Without a failure there is something to read. -/
theorem Reads.ne_nil (h : Reads read input xs none) : xs ≠ [] := by
  cases h with
  | last => exact List.cons_ne_nil _ _
  | more => exact List.cons_ne_nil _ _

/-! ## The loop -/

/-- More turns than there is input make no difference. -/
theorem loop_eq_of_lt (h : Consuming read) {turns turns' : Nat} (hturns : input.length < turns)
    (hturns' : input.length < turns') (s : σ) :
    loop read act turns input s = loop read act turns' input s := by
  induction turns generalizing turns' input s with
  | zero => exact absurd hturns (Nat.not_lt_zero _)
  | succ turns ih =>
      cases turns' with
      | zero => exact absurd hturns' (Nat.not_lt_zero _)
      | succ turns' =>
          unfold loop
          cases hread : read input with
          | error failure => rfl
          | ok result =>
              obtain ⟨x, rest⟩ := result
              have hlt := h input x rest hread
              simp only
              split
              · rfl
              · split
                · rfl
                · exact ih (by omega) (by omega) _

/-- A turn of the loop: the turns do not run out. -/
theorem readItems_eq (h : Consuming read) (input : List α) (s : σ) :
    readItems read act input s =
      match read input with
      | .error failure => (s, some failure)
      | .ok (x, rest) =>
        match act x s with
        | (s, some failure) => (s, some failure)
        | (s, none) => if rest = [] then (s, none) else readItems read act rest s := by
  unfold readItems
  rw [loop]
  cases hread : read input with
  | error failure => rfl
  | ok result =>
      obtain ⟨x, rest⟩ := result
      have hlt := h input x rest hread
      simp only
      split
      · rfl
      · split
        · rfl
        · exact loop_eq_of_lt h (by omega) (by omega) _

/-- Where no item makes it fail, the loop does what there is to do with the items read. -/
theorem readItems_of_reads (h : Consuming read) {P : σ → Prop} {f : σ → β → σ}
    (hact : ∀ x s, P s → act x s = (f s x, none) ∧ P (f s x)) (hreads : Reads read input xs failure)
    (hs : P s) : readItems read act input s = (xs.foldl f s, failure) := by
  induction hreads generalizing s with
  | last hread =>
      rw [readItems_eq h, hread]
      simp only [(hact _ s hs).1, if_true, List.foldl_cons, List.foldl_nil]
  | @more _ x _ _ _ hread hne hrest ih =>
      obtain ⟨hdone, hs'⟩ := hact x s hs
      rw [readItems_eq h, hread]
      simp only [hdone, if_neg hne, List.foldl_cons]
      exact ih hs'
  | fails hread =>
      rw [readItems_eq h, hread]
      rfl

/-- Where every item makes it fail, it fails, and what each of them leaves stays. -/
theorem readItems_of_fails (h : Consuming read) {P : σ → Prop}
    (hact : ∀ x s, P s → ∃ s' failure, act x s = (s', some failure) ∧ P s') (input : List α)
    (hs : P s) : ∃ s' failure, readItems read act input s = (s', some failure) ∧ P s' := by
  rw [readItems_eq h]
  cases hread : read input with
  | error failure => exact ⟨s, failure, rfl, hs⟩
  | ok result =>
      obtain ⟨x, rest⟩ := result
      obtain ⟨s', failure, hfails, hs'⟩ := hact x s hs
      simp only [hfails]
      exact ⟨s', failure, rfl, hs'⟩

end Reading
