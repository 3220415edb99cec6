-- SUMMARY: Wait-for graphs: what keeps them free of cycles when somebody stops waiting, begins to wait or is waited for.
import Mathlib.Logic.Relation

/-!
# Wait-for graphs

A relation says who waits for whom. Where it has no cycle, nobody waits for himself.
-/

namespace WaitFor

open Relation

variable {α : Type*} {Waits Waits' : α → α → Prop} {p q : α}

/-- Nobody waits for himself, through however many others. -/
def Acyclic (Waits : α → α → Prop) : Prop :=
  ∀ x, ¬ TransGen Waits x x

theorem Acyclic.mono (h : Acyclic Waits) (hle : ∀ x y, Waits' x y → Waits x y) :
    Acyclic Waits' :=
  fun x hx => h x (TransGen.mono hle x x hx)

theorem acyclic_swap : Acyclic (Function.swap Waits) ↔ Acyclic Waits :=
  forall_congr' fun _ => not_congr transGen_swap

theorem transGen_of_sink (hle : ∀ x y, Waits' x y → Waits x y ∨ y = q)
    (hsink : ∀ y, ¬ Waits' q y) {x y z : α} (hxy : TransGen Waits' x y) (hyz : Waits' y z) :
    TransGen Waits x y := by
  induction hxy generalizing z with
  | single hstep =>
      rcases hle _ _ hstep with hstep | rfl
      · exact .single hstep
      · exact absurd hyz (hsink z)
  | tail _ hstep ih =>
      rcases hle _ _ hstep with hold | rfl
      · exact (ih hstep).tail hold
      · exact absurd hyz (hsink z)

/-- One who waits for nobody may be waited for. -/
theorem Acyclic.sink (h : Acyclic Waits) (hle : ∀ x y, Waits' x y → Waits x y ∨ y = q)
    (hsink : ∀ y, ¬ Waits' q y) : Acyclic Waits' := by
  intro x hx
  obtain ⟨y, hxy, -⟩ := TransGen.head'_iff.mp hx
  exact h x (transGen_of_sink hle hsink hx hxy)

/-- One for whom nobody waits may wait. -/
theorem Acyclic.source (h : Acyclic Waits) (hle : ∀ x y, Waits' x y → Waits x y ∨ x = p)
    (hsource : ∀ x, ¬ Waits' x p) : Acyclic Waits' :=
  acyclic_swap.mp ((acyclic_swap.mpr h).sink (fun x y => hle y x) hsource)

theorem transGen_of_insert (hle : ∀ x y, Waits' x y → Waits x y ∨ x = p ∧ y = q)
    (hback : ¬ ReflTransGen Waits q p) {x y : α} (hxy : TransGen Waits' x y) :
    TransGen Waits x y ∨ ReflTransGen Waits x p ∧ ReflTransGen Waits q y := by
  induction hxy with
  | single hstep =>
      rcases hle _ _ hstep with hstep | ⟨rfl, rfl⟩
      · exact .inl (.single hstep)
      · exact .inr ⟨.refl, .refl⟩
  | tail _ hstep ih =>
      rcases hle _ _ hstep with hstep | ⟨rfl, rfl⟩
      · exact ih.imp (·.tail hstep) fun hnew => ⟨hnew.1, hnew.2.tail hstep⟩
      · rcases ih with hold | ⟨-, hcycle⟩
        · exact .inr ⟨hold.to_reflTransGen, .refl⟩
        · exact absurd hcycle hback

/-- One may wait for another who does not wait for him. -/
theorem Acyclic.insert (h : Acyclic Waits) (hle : ∀ x y, Waits' x y → Waits x y ∨ x = p ∧ y = q)
    (hback : ¬ ReflTransGen Waits q p) : Acyclic Waits' := by
  intro x hx
  rcases transGen_of_insert hle hback hx with hold | ⟨hxp, hqx⟩
  · exact h x hold
  · exact hback (hqx.trans hxp)

/-- Otherwise there is a cycle. -/
theorem not_acyclic (hpq : Waits p q) (hback : ReflTransGen Waits q p) : ¬ Acyclic Waits :=
  fun h => h p (TransGen.head' hpq hback)

end WaitFor
