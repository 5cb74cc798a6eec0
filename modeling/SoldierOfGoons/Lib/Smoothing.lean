import SoldierOfGoons.Lib.Machine
import Mathlib.Algebra.Order.ToIntervalMod
import Mathlib.Algebra.Order.Field.Basic
import Mathlib.Algebra.BigOperators.Group.List.Basic
import Mathlib.Tactic.Linarith
import Mathlib.Tactic.Ring

/-!
Values that go a share of the way to their target in each step. What is left of the way then is scaled
by at most what the share leaves over, and never changes its side. On a line the values may be held
between two bounds, and then come to the target as it is held between them. On a circle the way is
the short one.
-/

universe u v w

namespace Smoothing

variable {K : Type w} [Field K] [LinearOrder K] [IsStrictOrderedRing K]

def Scales (bound x y : K) : Prop :=
  ∃ r, 0 ≤ r ∧ r ≤ bound ∧ y = r * x

theorem Scales.refl (x : K) : Scales 1 x x :=
  ⟨1, zero_le_one, le_refl 1, (one_mul x).symm⟩

omit [IsStrictOrderedRing K] in
theorem Scales.of_eq_mul {q x y : K} (hq : 0 ≤ q) (h : y = q * x) : Scales q x y :=
  ⟨q, hq, le_refl q, h⟩

omit [IsStrictOrderedRing K] in
theorem Scales.of_eq_zero {q x y : K} (hq : 0 ≤ q) (h : y = 0) : Scales q x y :=
  ⟨0, le_refl 0, hq, by rw [h, zero_mul]⟩

theorem Scales.of_nonneg {q x y : K} (hq : 0 ≤ q) (hx : 0 ≤ x) (hy : 0 ≤ y) (hle : y ≤ q * x)
    : Scales q x y := by
  rcases eq_or_lt_of_le hx with hzero | hpos
  . rw [← hzero, mul_zero] at hle
    apply Scales.of_eq_zero hq (le_antisymm hle hy)
  . refine ⟨y / x, div_nonneg hy hx, ?_, (div_mul_cancel₀ y (ne_of_gt hpos)).symm⟩
    apply (div_le_iff₀ hpos).mpr hle

theorem Scales.of_nonpos {q x y : K} (hq : 0 ≤ q) (hx : x ≤ 0) (hy : y ≤ 0) (hle : q * x ≤ y)
    : Scales q x y := by
  obtain ⟨r, hr, hrq, heq⟩ : Scales q (-x) (-y) :=
    Scales.of_nonneg hq (by linarith) (by linarith) (by linarith)
  exact ⟨r, hr, hrq, by linarith⟩

theorem Scales.trans {p q x y z : K} (hxy : Scales p x y) (hyz : Scales q y z)
    : Scales (p * q) x z := by
  obtain ⟨r, hr, hrp, rfl⟩ := hxy
  obtain ⟨t, ht, htq, rfl⟩ := hyz
  refine ⟨r * t, mul_nonneg hr ht, mul_le_mul hrp htq ht (hr.trans hrp), ?_⟩
  ring

section Run

variable {σ : Type u} {μ : Type v} {M : Machine σ μ} {I : σ → Prop} {G : σ → μ → Prop}

-- What each step scales by its own share, a run scales by the product of the shares.
theorem scales_run (left : σ → K) (share : μ → K)
    (hI : ∀ {s m s'}, I s → M.step s m = some s' → I s')
    (hstep : ∀ {s m s'}, I s → G s m → M.step s m = some s' → Scales (share m) (left s) (left s'))
    {s s' : σ} {ms : List μ} (hs : I s) (hG : M.Along G s ms) (hrun : M.run s ms = some s')
    : Scales (ms.map share).prod (left s) (left s') := by
  induction ms generalizing s with
  | nil =>
    simp only [Machine.run_nil, Option.some.injEq] at hrun
    rw [List.map_nil, List.prod_nil, hrun]
    apply Scales.refl
  | cons m ms ih =>
    obtain ⟨t, ht, hrest⟩ := M.run_cons.mp hrun
    obtain ⟨hGs, hGt⟩ := hG t ht
    rw [List.map_cons, List.prod_cons]
    exact (hstep hs hGs ht).trans (ih (hI hs ht) hGt hrest)

end Run

section Line

variable {lo hi x target q : K}

theorem scales_held_up (hlo : lo ≤ x) (hhi : x ≤ hi) (hup : x ≤ target) (hpos : 0 ≤ q) (hle : q ≤ 1)
    : Scales (1 - q) (max (min target hi) lo - x)
        (max (min target hi) lo - max (min (x + (target - x) * q) hi) lo) := by
  have hgoal : x ≤ min target hi := le_min hup hhi
  have hmove : x ≤ x + (target - x) * q := by
    have := mul_nonneg (sub_nonneg.mpr hup) hpos
    linarith
  have hshare : (min target hi - x) * q ≤ (target - x) * q :=
    mul_le_mul_of_nonneg_right (by linarith [min_le_left target hi]) hpos
  have hpart : (min target hi - x) * q ≤ min target hi - x :=
    mul_le_of_le_one_right (by linarith) hle
  have hwhole : (target - x) * q ≤ target - x := mul_le_of_le_one_right (by linarith) hle
  have hreach : x + (min target hi - x) * q ≤ min (x + (target - x) * q) hi :=
    le_min (by linarith) (by linarith [min_le_right target hi])
  rw [max_eq_left (hlo.trans hgoal), max_eq_left (hlo.trans (le_min hmove hhi))]
  apply Scales.of_nonneg
  . linarith
  . linarith
  . have : min (x + (target - x) * q) hi ≤ min target hi := min_le_min_right hi (by linarith)
    linarith
  . linarith

theorem scales_held_down (hlo : lo ≤ x) (hhi : x ≤ hi) (hdown : target ≤ x) (hpos : 0 ≤ q)
    (hle : q ≤ 1)
    : Scales (1 - q) (max (min target hi) lo - x)
        (max (min target hi) lo - max (min (x + (target - x) * q) hi) lo) := by
  have hmove : x + (target - x) * q ≤ x := by
    have := mul_nonneg (sub_nonneg.mpr hdown) hpos
    linarith
  have hgoal : max target lo ≤ x := max_le hdown hlo
  have hshare : (x - max target lo) * q ≤ (x - target) * q :=
    mul_le_mul_of_nonneg_right (by linarith [le_max_left target lo]) hpos
  have hpart : (x - max target lo) * q ≤ x - max target lo :=
    mul_le_of_le_one_right (by linarith) hle
  have hwhole : (x - target) * q ≤ x - target := mul_le_of_le_one_right (by linarith) hle
  have hreach : max (x + (target - x) * q) lo ≤ x - (x - max target lo) * q :=
    max_le (by linarith) (by linarith [le_max_right target lo])
  rw [min_eq_left (hdown.trans hhi), min_eq_left (hmove.trans hhi)]
  apply Scales.of_nonpos
  . linarith
  . linarith
  . have : max target lo ≤ max (x + (target - x) * q) lo := max_le_max_right lo (by linarith)
    linarith
  . linarith

theorem scales_held (hlo : lo ≤ x) (hhi : x ≤ hi) (hpos : 0 ≤ q) (hle : q ≤ 1)
    : Scales (1 - q) (max (min target hi) lo - x)
        (max (min target hi) lo - max (min (x + (target - x) * q) hi) lo) := by
  rcases le_total x target with hup | hdown
  . apply scales_held_up hlo hhi hup hpos hle
  . apply scales_held_down hlo hhi hdown hpos hle

end Line

section Circle

variable [Archimedean K] {p : K} (hp : 0 < p)

-- The short way from `a` to `b` on a circle of length `p`, half of it at most.
noncomputable def way (a b : K) : K :=
  toIocMod hp (-(p / 2)) (b - a)

theorem way_eq_iff {a b c : K}
    : way hp a b = c ↔ (-(p / 2) < c ∧ c ≤ p / 2) ∧ ∃ z : ℤ, b - a = c + z * p := by
  have hend : -(p / 2) + p = p / 2 := by ring
  unfold way
  rw [toIocMod_eq_iff, hend, Set.mem_Ioc]
  simp only [zsmul_eq_mul]

theorem way_self (a : K) : way hp a a = 0 := by
  apply (way_eq_iff hp).mpr
  exact ⟨⟨by linarith, by linarith⟩, 0, by simp⟩

theorem way_toIocMod (a b c : K) : way hp (toIocMod hp c a) b = way hp a b := by
  obtain ⟨hrange, z, hz⟩ := (way_eq_iff hp).mp (Eq.refl (way hp a b))
  have hturns := toIocMod_add_toIocDiv_mul hp c a
  apply (way_eq_iff hp).mpr
  refine ⟨hrange, z + toIocDiv hp c a, ?_⟩
  rw [Int.cast_add]
  linarith

-- The rest of the way is the short way from where a share of it has led to.
theorem way_add_mul {q : K} (a b : K) (hpos : 0 ≤ q) (hle : q ≤ 1)
    : way hp (a + way hp a b * q) b = (1 - q) * way hp a b := by
  obtain ⟨⟨hlt, hhalf⟩, z, hz⟩ := (way_eq_iff hp).mp (Eq.refl (way hp a b))
  apply (way_eq_iff hp).mpr
  refine ⟨?_, z, by linarith⟩
  rcases le_total 0 (way hp a b) with hright | hleft
  . have hrest : 0 ≤ (1 - q) * way hp a b := mul_nonneg (by linarith) hright
    have := mul_nonneg hpos hright
    exact ⟨by linarith, by linarith⟩
  . have hrest : (1 - q) * way hp a b ≤ 0 := mul_nonpos_of_nonneg_of_nonpos (by linarith) hleft
    have := mul_nonpos_of_nonneg_of_nonpos hpos hleft
    exact ⟨by linarith, by linarith⟩

end Circle

end Smoothing
