import Mathlib.Logic.Basic
import Mathlib.Data.Option.Basic

/-!
Machines given by a partial step function, where `none` means that a move cannot be made, and their
finite runs. `Along G` says that each step made starts in a state, and makes a move, that meet `G`;
`Always P` says that each state reached, the first included, satisfies `P`. The rules are those for
invariants under a condition on the steps, for the exact condition under which a property holds
along a whole run, and for an abstract machine that the past of a state is a run of.
-/

universe u v w x

structure Machine (σ : Type u) (μ : Type v) where
  step : σ → μ → Option σ

namespace Machine

variable {σ : Type u} {μ : Type v} (M : Machine σ μ)

def run : σ → List μ → Option σ
  | s, [] => some s
  | s, m :: ms => (M.step s m).bind fun s' => run s' ms

def Along (G : σ → μ → Prop) : σ → List μ → Prop
  | _, [] => True
  | s, m :: ms => ∀ s' ∈ M.step s m, G s m ∧ Along G s' ms

def Always (P : σ → Prop) : σ → List μ → Prop
  | s, [] => P s
  | s, m :: ms => P s ∧ ∀ s' ∈ M.step s m, Always P s' ms

instance decidableAlong (G : σ → μ → Prop) [∀ s m, Decidable (G s m)]
    : ∀ s ms, Decidable (M.Along G s ms)
  | _, [] => inferInstanceAs (Decidable True)
  | s, m :: ms =>
    match h : M.step s m with
    | none => decidable_of_iff True (by simp [Along, h])
    | some s' =>
      have := decidableAlong G s' ms
      decidable_of_iff (G s m ∧ M.Along G s' ms) (by simp [Along, h])

instance decidableAlways (P : σ → Prop) [∀ s, Decidable (P s)]
    : ∀ s ms, Decidable (M.Always P s ms)
  | s, [] => inferInstanceAs (Decidable (P s))
  | s, m :: ms =>
    match h : M.step s m with
    | none => decidable_of_iff (P s) (by simp [Always, h])
    | some s' =>
      have := decidableAlways P s' ms
      decidable_of_iff (P s ∧ M.Always P s' ms) (by simp [Always, h])

@[simp]
theorem run_nil (s : σ) : M.run s [] = some s := rfl

theorem run_cons {s s' : σ} {m : μ} {ms : List μ}
    : M.run s (m :: ms) = some s' ↔ ∃ t, M.step s m = some t ∧ M.run t ms = some s' := by
  simp [run, Option.bind_eq_some_iff]

theorem run_append {s s' : σ} {ms ns : List μ}
    : M.run s (ms ++ ns) = some s' ↔ ∃ t, M.run s ms = some t ∧ M.run t ns = some s' := by
  induction ms generalizing s with
  | nil => simp
  | cons m ms ih =>
    simp only [List.cons_append, run_cons, ih]
    constructor
    . rintro ⟨t, ht, r, hr, hs⟩
      exact ⟨r, ⟨t, ht, hr⟩, hs⟩
    . rintro ⟨r, ⟨t, ht, hr⟩, hs⟩
      exact ⟨t, ht, r, hr, hs⟩

theorem along_true (s : σ) (ms : List μ) : M.Along (fun _ _ => True) s ms := by
  induction ms generalizing s with
  | nil => trivial
  | cons m ms ih =>
    intro s' _
    exact ⟨trivial, ih s'⟩

theorem along_of_forall {G : μ → Prop} {ms : List μ} (h : ∀ m ∈ ms, G m) (s : σ)
    : M.Along (fun _ m => G m) s ms := by
  induction ms generalizing s with
  | nil => trivial
  | cons m ms ih =>
    intro s' _
    exact ⟨h m (by simp), ih (fun n hn => h n (List.mem_cons_of_mem m hn)) s'⟩

variable {M}

theorem Along.and {G H : σ → μ → Prop} {s : σ} {ms : List μ} (hG : M.Along G s ms)
    (hH : M.Along H s ms) : M.Along (fun s m => G s m ∧ H s m) s ms := by
  induction ms generalizing s with
  | nil => trivial
  | cons m ms ih =>
    intro s' hs'
    obtain ⟨hGs, hGrest⟩ := hG s' hs'
    obtain ⟨hHs, hHrest⟩ := hH s' hs'
    exact ⟨⟨hGs, hHs⟩, ih hGrest hHrest⟩

theorem Always.head {P : σ → Prop} {s : σ} {ms : List μ} (h : M.Always P s ms) : P s := by
  cases ms with
  | nil => exact h
  | cons m ms => exact h.1

theorem Always.last {P : σ → Prop} {s s' : σ} {ms : List μ} (h : M.Always P s ms)
    (hrun : M.run s ms = some s') : P s' := by
  induction ms generalizing s with
  | nil =>
    simp only [run_nil, Option.some.injEq] at hrun
    apply hrun ▸ h
  | cons m ms ih =>
    obtain ⟨t, ht, hrest⟩ := M.run_cons.mp hrun
    apply ih (h.2 t ht) hrest

theorem Always.exists_map {β : Type w} {P : σ → Prop} {s : σ} {ms : List μ} (h : M.Always P s ms)
    (f : σ → β) {b : β} (hrun : (M.run s ms).map f = some b) : ∃ s', P s' ∧ f s' = b := by
  obtain ⟨s', hs', hb⟩ := Option.map_eq_some_iff.mp hrun
  exact ⟨s', h.last hs', hb⟩

section Invariant

variable {G : σ → μ → Prop} {I P : σ → Prop}
  (hstep : ∀ {s m s'}, I s → G s m → M.step s m = some s' → I s')

include hstep

theorem run_invariant {s s' : σ} {ms : List μ} (hI : I s) (hG : M.Along G s ms)
    (hrun : M.run s ms = some s') : I s' := by
  induction ms generalizing s with
  | nil =>
    simp only [run_nil, Option.some.injEq] at hrun
    apply hrun ▸ hI
  | cons m ms ih =>
    obtain ⟨t, ht, hrest⟩ := M.run_cons.mp hrun
    obtain ⟨hGs, hGt⟩ := hG t ht
    apply ih (hstep hI hGs ht) hGt hrest

theorem always_of_along (hP : ∀ {s}, I s → P s) {s : σ} {ms : List μ} (hI : I s)
    (hG : M.Along G s ms) : M.Always P s ms := by
  induction ms generalizing s with
  | nil => exact hP hI
  | cons m ms ih =>
    refine ⟨hP hI, ?_⟩
    intro t ht
    obtain ⟨hGs, hGt⟩ := hG t ht
    apply ih (hstep hI hGs ht) hGt

theorem along_of_along {H : σ → μ → Prop}
    (hH : ∀ {s m s'}, I s → G s m → M.step s m = some s' → H s m) {s : σ} {ms : List μ} (hI : I s)
    (hG : M.Along G s ms) : M.Along H s ms := by
  induction ms generalizing s with
  | nil => trivial
  | cons m ms ih =>
    intro t ht
    obtain ⟨hGs, hGt⟩ := hG t ht
    exact ⟨hH hI hGs ht, ih (hstep hI hGs ht) hGt⟩

theorem always_iff_along (hP : ∀ {s}, I s → P s)
    (hbad : ∀ {s m s'}, I s → ¬G s m → M.step s m = some s' → ¬P s') {s : σ} {ms : List μ}
    (hI : I s) : M.Always P s ms ↔ M.Along G s ms := by
  constructor
  . intro h
    induction ms generalizing s with
    | nil => trivial
    | cons m ms ih =>
      intro t ht
      have hG : G s m := by
        by_contra hG
        apply hbad hI hG ht (h.2 t ht).head
      exact ⟨hG, ih (hstep hI hG ht) (h.2 t ht)⟩
  . apply always_of_along hstep hP hI

end Invariant

theorem along_of_not_bad_along {G H : σ → μ → Prop} {I B : σ → Prop}
    (hstep : ∀ {s m s'}, I s → H s m → M.step s m = some s' → I s')
    (hbad : ∀ {s m s'}, I s → H s m → ¬G s m → M.step s m = some s' → B s')
    (hstable : ∀ {s m s'}, I s → H s m → B s → M.step s m = some s' → B s')
    {s s' : σ} {ms : List μ} (hI : I s) (hH : M.Along H s ms) (hrun : M.run s ms = some s')
    (hend : ¬B s') : M.Along G s ms := by
  have hkeep {s s' : σ} {ms : List μ} (hI : I s) (hs : B s) (hH : M.Along H s ms)
      (hrun : M.run s ms = some s') : B s' := by
    induction ms generalizing s with
    | nil =>
      simp only [run_nil, Option.some.injEq] at hrun
      apply hrun ▸ hs
    | cons m ms ih =>
      obtain ⟨t, ht, hrest⟩ := M.run_cons.mp hrun
      obtain ⟨hHs, hHt⟩ := hH t ht
      apply ih (hstep hI hHs ht) (hstable hI hHs hs ht) hHt hrest
  induction ms generalizing s with
  | nil => trivial
  | cons m ms ih =>
    obtain ⟨t, ht, hrest⟩ := M.run_cons.mp hrun
    obtain ⟨hHs, hHt⟩ := hH t ht
    intro t' ht'
    have : t' = t := by simpa [ht] using ht'.symm
    subst this
    refine ⟨?_, ih (hstep hI hHs ht) hHt hrest⟩
    by_contra hG
    apply hend (hkeep (hstep hI hHs ht) (hbad hI hHs hG ht) hHt hrest)

theorem along_of_not_bad {G : σ → μ → Prop} {I B : σ → Prop}
    (hstep : ∀ {s m s'}, I s → M.step s m = some s' → I s')
    (hbad : ∀ {s m s'}, I s → ¬G s m → M.step s m = some s' → B s')
    (hstable : ∀ {s m s'}, I s → B s → M.step s m = some s' → B s')
    {s s' : σ} {ms : List μ} (hI : I s) (hrun : M.run s ms = some s') (hend : ¬B s')
    : M.Along G s ms :=
  along_of_not_bad_along (H := fun _ _ => True) (fun h _ ht => hstep h ht)
    (fun h _ hG ht => hbad h hG ht) (fun h _ hB ht => hstable h hB ht) hI (M.along_true s ms) hrun
    hend

theorem run_invariant_of_step {I : σ → Prop} (hstep : ∀ {s m s'}, I s → M.step s m = some s' → I s')
    {s s' : σ} {ms : List μ} (hI : I s) (hrun : M.run s ms = some s') : I s' :=
  run_invariant (G := fun _ _ => True) (fun hI _ h => hstep hI h) hI (M.along_true s ms) hrun

/-!
The visible part of the past of a state is a run of an abstract machine, which ends in a state that
describes it.
-/

def Follows {τ : Type w} {ν : Type x} (A : Machine τ ν) (a₀ : τ) (trace : σ → List ν)
    (R : τ → σ → Prop) (s : σ) : Prop :=
  ∃ a, A.run a₀ (trace s) = some a ∧ R a s

theorem Follows.extend {τ : Type w} {ν : Type x} {A : Machine τ ν} {a₀ : τ} {trace : σ → List ν}
    {R : τ → σ → Prop} {s s' : σ} (h : A.Follows a₀ trace R s) (ns : List ν)
    (htrace : trace s' = trace s ++ ns) (hR : ∀ {a}, R a s → ∃ a', A.run a ns = some a' ∧ R a' s')
    : A.Follows a₀ trace R s' := by
  obtain ⟨a, hrun, hs⟩ := h
  obtain ⟨a', hrun', hs'⟩ := hR hs
  refine ⟨a', ?_, hs'⟩
  rw [htrace]
  exact A.run_append.mpr ⟨a, hrun, hrun'⟩

/-!
Runs in which each state may be replaced by a related one before the next move. Where the moves
respect an equivalence, such a run ends in a state related to that of the run itself.
-/

inductive RunUpTo (M : Machine σ μ) (R : σ → σ → Prop) : σ → List μ → σ → Prop where
  | nil {s t : σ} (hR : R s t) : RunUpTo M R s [] t
  | cons {s r t u : σ} {m : μ} {ms : List μ} (hR : R s r) (hstep : M.step r m = some t)
      (hrest : RunUpTo M R t ms u) : RunUpTo M R s (m :: ms) u

theorem RunUpTo.run {R : σ → σ → Prop} (hR : Equivalence R)
    (hstep : ∀ {s s' t m}, R s s' → M.step s m = some t → ∃ t', M.step s' m = some t' ∧ R t t')
    {s s' t : σ} {ms : List μ} (h : RunUpTo M R s ms t) (hs : R s s')
    : ∃ t', M.run s' ms = some t' ∧ R t t' := by
  induction h generalizing s' with
  | nil hst => exact ⟨s', rfl, hR.trans (hR.symm hst) hs⟩
  | cons hsr hm _ ih =>
    obtain ⟨r', hr', hrel⟩ := hstep (hR.trans (hR.symm hsr) hs) hm
    obtain ⟨t', ht', hend⟩ := ih hrel
    exact ⟨t', M.run_cons.mpr ⟨r', hr', ht'⟩, hend⟩

end Machine
