-- SUMMARY: While loops with a bound on their iterations: what a computation ends with once the bound is large enough, and the rule of total correctness.
import Mathlib.Init

/-!
# While loops

A loop gets a bound on its iterations, its fuel, and gives up when it needs more. It is
over when all large enough bounds give the same result. The variant of the rule for loops
is what such a bound is found with.
-/

namespace Loops

universe u w

variable {ε : Type u} {σ α β : Type w}

/-- `while(cond) body`. Without fuel it gives up with `stuck`. -/
def whileLoop (stuck : ε) (cond : σ → Except ε Bool) (body : σ → Except ε σ) :
    Nat → σ → Except ε σ
  | 0, _ => .error stuck
  | fuel + 1, s =>
    match cond s with
    | .error e => .error e
    | .ok false => .ok s
    | .ok true => do whileLoop stuck cond body fuel (← body s)

/-! ## Computations that end -/

/-- With enough fuel the computation is over without a fault, and has the result. -/
def Ends (f : Nat → Except ε α) (a : α) : Prop := ∃ enough, ∀ fuel, enough ≤ fuel → f fuel = .ok a

theorem Ends.unique {f : Nat → Except ε α} {a b : α} (ha : Ends f a) (hb : Ends f b) : a = b := by
  obtain ⟨n, hn⟩ := ha
  obtain ⟨m, hm⟩ := hb
  have hfirst := hn (max n m) (Nat.le_max_left n m)
  rw [hm (max n m) (Nat.le_max_right n m)] at hfirst
  exact (Except.ok.inj hfirst).symm

theorem ends_ok (a : α) : Ends (fun _ => (.ok a : Except ε α)) a := ⟨0, fun _ _ => rfl⟩

theorem Ends.of_eq_ok {x : Except ε α} {a : α} (h : x = .ok a) : Ends (fun _ => x) a :=
  ⟨0, fun _ _ => h⟩

theorem Ends.bind {f : Nat → Except ε α} {g : Nat → α → Except ε β} {a : α} {b : β}
    (hf : Ends f a) (hg : Ends (fun fuel => g fuel a) b) :
    Ends (fun fuel => f fuel >>= g fuel) b := by
  obtain ⟨n, hn⟩ := hf
  obtain ⟨m, hm⟩ := hg
  refine ⟨max n m, fun fuel hfuel => ?_⟩
  simp only
  rw [hn fuel (Nat.le_trans (Nat.le_max_left n m) hfuel)]
  exact hm fuel (Nat.le_trans (Nat.le_max_right n m) hfuel)

/-- A loop over a list ends with what its parts end with, where they keep an invariant. -/
theorem Ends.foldlM {γ : Type*} {I : σ → Prop} {f : Nat → σ → γ → Except ε σ} {next : σ → γ → σ}
    {l : List γ} {s : σ} (hs : I s)
    (hnext : ∀ s x, I s → x ∈ l → Ends (fun fuel => f fuel s x) (next s x) ∧ I (next s x)) :
    Ends (fun fuel => l.foldlM (f fuel) s) (l.foldl next s) := by
  induction l generalizing s with
  | nil => exact ends_ok s
  | cons x l ih =>
      obtain ⟨hfirst, hI⟩ := hnext s x hs List.mem_cons_self
      have hrest := ih hI fun s y hs hy => hnext s y hs (List.mem_cons_of_mem _ hy)
      simp only [List.foldlM_cons, List.foldl_cons]
      exact hfirst.bind (g := fun fuel s => l.foldlM (f fuel) s) hrest

/-! ## The rule for loops -/

variable {stuck : ε} {cond : σ → Except ε Bool} {body : Nat → σ → Except ε σ}
  {s : σ}

/-- Total correctness: the body keeps the invariant and makes the variant smaller. -/
theorem ends_whileLoop (I : σ → Prop) (test : σ → Bool) (variant : σ → Nat)
    (hcond : ∀ s, I s → cond s = .ok (test s))
    (hbody : ∀ s, I s → test s = true →
      ∃ t, Ends (fun fuel => body fuel s) t ∧ I t ∧ variant t < variant s) (hs : I s) :
    ∃ t, Ends (fun fuel => whileLoop stuck cond (body fuel) fuel s) t ∧ I t ∧ test t = false := by
  -- The body has the same fuel in all iterations.
  suffices h : ∀ n, ∀ s, I s → variant s ≤ n → ∃ t enough, I t ∧ test t = false ∧
      ∀ whole fuel, enough ≤ whole → enough ≤ fuel →
        whileLoop stuck cond (body whole) fuel s = .ok t by
    obtain ⟨t, enough, hI, htest, hloop⟩ := h (variant s) s hs (Nat.le_refl _)
    exact ⟨t, ⟨enough, fun fuel hfuel => hloop fuel fuel hfuel hfuel⟩, hI, htest⟩
  intro n
  induction n with
  | zero =>
      intro s hs hvariant
      cases htest : test s with
      | true =>
          obtain ⟨t, -, -, hlt⟩ := hbody s hs htest
          omega
      | false =>
          refine ⟨s, 1, hs, htest, fun whole fuel _ hfuel => ?_⟩
          obtain ⟨fuel, rfl⟩ := Nat.exists_eq_add_of_le' hfuel
          rw [whileLoop, hcond s hs, htest]
  | succ n ih =>
      intro s hs hvariant
      cases htest : test s with
      | true =>
          obtain ⟨next, ⟨enough, hnext⟩, hI, hlt⟩ := hbody s hs htest
          obtain ⟨t, more, ht, hdone, hloop⟩ := ih next hI (by omega)
          refine ⟨t, max enough more + 1, ht, hdone, fun whole fuel hwhole hfuel => ?_⟩
          obtain ⟨fuel, rfl⟩ := Nat.exists_eq_add_of_le' (show 1 ≤ fuel by omega)
          have hbody' : body whole s = .ok next := hnext whole (by omega)
          rw [whileLoop, hcond s hs, htest, hbody']
          exact hloop whole fuel (by omega) (by omega)
      | false =>
          refine ⟨s, 1, hs, htest, fun whole fuel _ hfuel => ?_⟩
          obtain ⟨fuel, rfl⟩ := Nat.exists_eq_add_of_le' hfuel
          rw [whileLoop, hcond s hs, htest]

end Loops
