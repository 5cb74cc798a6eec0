import SoldierOfGoons.Lib.Machine
import Mathlib.Data.Prod.Lex

/-!
What a machine comes to, whatever it does, as long as it makes moves of one kind only. It inevitably
comes to `P` where it cannot make such moves for ever, nor run out of them, before it is there. A rank
that goes down with each of them in a well-founded order shows the first, and the second is a matter
of single states.
-/

universe u v w

namespace Machine

variable {σ : Type u} {μ : Type v}

inductive Inevitably (M : Machine σ μ) (G : μ → Prop) (P : σ → Prop) : σ → Prop where
  | here {s : σ} (hP : P s) : Inevitably M G P s
  | next {s t : σ} {m : μ} (hG : G m) (hstep : M.step s m = some t)
      (hall : ∀ {m t}, G m → M.step s m = some t → Inevitably M G P t) : Inevitably M G P s

theorem inevitably_of_rank {M : Machine σ μ} {G : μ → Prop} {I P : σ → Prop} {ρ : Type w} [LT ρ]
    [WellFoundedLT ρ] (rank : σ → ρ)
    (hI : ∀ {s m t}, I s → G m → M.step s m = some t → I t)
    (hrank : ∀ {s m t}, I s → G m → M.step s m = some t → rank t < rank s)
    (hnext : ∀ {s}, I s → P s ∨ ∃ m t, G m ∧ M.step s m = some t) {s : σ} (hs : I s)
    : M.Inevitably G P s := by
  induction h : rank s using WellFoundedLT.induction generalizing s with
  | ind r ih =>
    subst h
    rcases hnext hs with hP | ⟨m, t, hG, hstep⟩
    . exact .here hP
    . apply Inevitably.next hG hstep
      intro m t hG hstep
      exact ih (rank t) (hrank hs hG hstep) (hI hs hG hstep) rfl

end Machine
