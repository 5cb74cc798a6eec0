import Mathlib.Algebra.Order.Ring.Defs
import Mathlib.Tactic.Ring

/-!
Phases that a contraction ends. While a system is in the phase each step scales a measure by at most
`q`, and the phase cannot go on with a measure below `ε`; so it ends after as many steps as take the
first bound below `ε`.
-/

universe u v w

namespace Contraction

variable {σ : Type u} {μ : Type v} {R : Type w} [CommRing R] [LinearOrder R] [IsStrictOrderedRing R]

structure Contracts (f : σ → μ → σ) (G : μ → Prop) (phase : σ → Prop) (measure : σ → R) (q ε : R)
    : Prop where
  nonneg : 0 ≤ q
  step : ∀ {s m}, phase s → G m → measure (f s m) ≤ q * measure s
  low : ∀ {s m}, phase s → G m → phase (f s m) → ε ≤ measure (f s m)

variable {f : σ → μ → σ} {G : μ → Prop} {phase : σ → Prop} {measure : σ → R} {q ε : R}

theorem Contracts.ends (h : Contracts f G phase measure q ε) {s : σ} {ms : List μ} {bound : R}
    (hms : ∀ m ∈ ms, G m) (hs : phase s) (hbound : measure s ≤ bound) (hne : ms ≠ [])
    (hsmall : bound * q ^ ms.length < ε)
    : ∃ ns m rest, ms = ns ++ m :: rest ∧ phase (ns.foldl f s) ∧ ¬phase (f (ns.foldl f s) m) := by
  induction ms generalizing s bound with
  | nil => exact absurd rfl hne
  | cons m ms ih =>
    have hm : G m := hms m (by simp)
    by_cases hphase : phase (f s m)
    . have hstep : measure (f s m) ≤ bound * q := by
        calc measure (f s m) ≤ q * measure s := h.step hs hm
          _ ≤ q * bound := mul_le_mul_of_nonneg_left hbound h.nonneg
          _ = bound * q := mul_comm q bound
      have hrest : ms ≠ [] := by
        rintro rfl
        rw [List.length_singleton, pow_one] at hsmall
        exact absurd (h.low hs hm hphase) (not_le_of_gt (lt_of_le_of_lt hstep hsmall))
      have hlength : bound * q * q ^ ms.length < ε := by
        rw [List.length_cons] at hsmall
        calc bound * q * q ^ ms.length = bound * q ^ (ms.length + 1) := by ring
          _ < ε := hsmall
      obtain ⟨ns, n, rest, rfl, hin, hout⟩ :=
        ih (fun n hn => hms n (List.mem_cons_of_mem m hn)) hphase hstep hrest hlength
      exact ⟨m :: ns, n, rest, rfl, hin, hout⟩
    . exact ⟨[], m, ms, rfl, hs, hphase⟩

end Contraction
