import SoldierOfGoons.Lib.Machine
import Mathlib.Logic.Function.Basic

/-!
Copies of a machine side by side, one for each name, which make their moves in any order. A move
changes the copy that makes it and no other; so what a copy keeps to itself, given what holds of all
copies, and what no move of another one spoils holds of every copy in every run.
-/

universe u v w

namespace Machine

variable {ι : Type u} {σ : Type v} {μ : Type w} [DecidableEq ι]

def interleaved (M : Machine σ μ) : Machine (ι → σ) (ι × μ) where
  step s m := (M.step (s m.1) m.2).map fun t => Function.update s m.1 t

variable {M : Machine σ μ}

theorem interleaved_step {s s' : ι → σ} {i : ι} {m : μ}
    : M.interleaved.step s (i, m) = some s' ↔
        ∃ t, M.step (s i) m = some t ∧ s' = Function.update s i t := by
  simp only [interleaved, Option.map_eq_some_iff, eq_comm]

theorem interleaved_keeps {K : (ι → σ) → ι → σ → Prop} {G : (ι → σ) → ι × μ → Prop}
    (hothers : ∀ {s s' : ι → σ} {m : ι × μ} {j : ι} {t : σ}, (∀ i, K s i (s i)) →
      M.interleaved.step s m = some s' → K s j t → K s' j t)
    (hown : ∀ {s : ι → σ} {i : ι} {m : μ} {t : σ}, (∀ i, K s i (s i)) → G s (i, m) →
      M.step (s i) m = some t → K s i t)
    {s s' : ι → σ} {m : ι × μ} (h : ∀ i, K s i (s i)) (hG : G s m)
    (hstep : M.interleaved.step s m = some s') (j : ι) : K s' j (s' j) := by
  obtain ⟨i, m⟩ := m
  apply hothers h hstep
  obtain ⟨t, ht, rfl⟩ := interleaved_step.mp hstep
  by_cases hj : j = i
  . subst hj
    rw [Function.update_self]
    exact hown h hG ht
  . rw [Function.update_of_ne hj]
    exact h j

end Machine
