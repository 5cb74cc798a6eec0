import SoldierOfGoons.Lib.Machine

/-!
What a machine takes in and gives out along a run. Of a conduit each step gives out what it held
first, keeps the rest in order and adds what it takes in; so along a whole run nothing is lost,
doubled or overtaken. Conduits compose where one takes what another gives, and a machine that is run
by another one carries its conduits over.
-/

universe u v w x y

namespace Machine

variable {σ : Type u} {μ : Type v} {α : Type w} (M : Machine σ μ)

def collected (f : σ → μ → List α) : σ → List μ → List α
  | _, [] => []
  | s, m :: ms =>
    match M.step s m with
    | some s' => f s m ++ collected f s' ms
    | none => []

@[simp]
theorem collected_nil (f : σ → μ → List α) (s : σ) : M.collected f s [] = [] := rfl

variable {M}

theorem collected_singleton {f : σ → μ → List α} {s s' : σ} {m : μ} (h : M.step s m = some s')
    : M.collected f s [m] = f s m := by
  simp [collected, h]

theorem collected_cons {f : σ → μ → List α} {s s' : σ} {m : μ} (ms : List μ)
    (h : M.step s m = some s') : M.collected f s (m :: ms) = f s m ++ M.collected f s' ms := by
  simp [collected, h]

-- A view of the state that each step extends by what it gives out collects the output of the run.
theorem view_run {f : σ → μ → List α} (view : σ → List α) {I : σ → Prop} {G : σ → μ → Prop}
    (hI : ∀ {s m s'}, I s → G s m → M.step s m = some s' → I s')
    (hview : ∀ {s m s'}, I s → G s m → M.step s m = some s' → view s' = view s ++ f s m)
    {s s' : σ} {ms : List μ} (hs : I s) (hG : M.Along G s ms) (hrun : M.run s ms = some s')
    : view s' = view s ++ M.collected f s ms := by
  induction ms generalizing s with
  | nil =>
    simp only [run_nil, Option.some.injEq] at hrun
    simp [hrun]
  | cons m ms ih =>
    obtain ⟨t, ht, hrest⟩ := M.run_cons.mp hrun
    obtain ⟨hGs, hGt⟩ := hG t ht
    rw [collected_cons ms ht, ih (hI hs hGs ht) hGt hrest, hview hs hGs ht, List.append_assoc]

-- A machine that makes the moves another one gives out stays in a state that describes it.
theorem run_collected {τ : Type x} {A : Machine τ α} (view : σ → τ) {f : σ → μ → List α}
    {I : σ → Prop} (hI : ∀ {s m s'}, I s → M.step s m = some s' → I s')
    (hview : ∀ {s m s'}, I s → M.step s m = some s' → A.run (view s) (f s m) = some (view s'))
    {s s' : σ} {ms : List μ} (hs : I s) (hrun : M.run s ms = some s')
    : A.run (view s) (M.collected f s ms) = some (view s') := by
  induction ms generalizing s with
  | nil =>
    simp only [run_nil, Option.some.injEq] at hrun
    simp [hrun]
  | cons m ms ih =>
    obtain ⟨t, ht, hrest⟩ := M.run_cons.mp hrun
    rw [collected_cons ms ht]
    exact A.run_append.mpr ⟨view t, hview hs ht, ih (hI hs ht) hrest⟩

section AlwaysCollected

variable (M) in
-- At each state reached, the first one included, `P` holds of what was collected on the way there.
def AlwaysCollected (f : σ → μ → List α) (P : List α → σ → Prop) : List α → σ → List μ → Prop
  | acc, s, [] => P acc s
  | acc, s, m :: ms => P acc s ∧ ∀ s' ∈ M.step s m, AlwaysCollected f P (acc ++ f s m) s' ms

theorem alwaysCollected_of_along {f : σ → μ → List α} {P J : List α → σ → Prop} {G : σ → μ → Prop}
    (hstep : ∀ {acc s m s'}, J acc s → G s m → M.step s m = some s' → J (acc ++ f s m) s')
    (hP : ∀ {acc s}, J acc s → P acc s) {acc : List α} {s : σ} {ms : List μ} (hJ : J acc s)
    (hG : M.Along G s ms) : M.AlwaysCollected f P acc s ms := by
  induction ms generalizing acc s with
  | nil => exact hP hJ
  | cons m ms ih =>
    refine ⟨hP hJ, ?_⟩
    intro t ht
    obtain ⟨hGs, hGt⟩ := hG t ht
    exact ih (hstep hJ hGs ht) hGt

end AlwaysCollected

structure Conduit (M : Machine σ μ) (I : σ → Prop) (G : σ → μ → Prop) (held : σ → List α)
    (takes gives : σ → μ → List α) : Prop where
  step : ∀ {s m s'}, I s → G s m → M.step s m = some s' →
    held s ++ takes s m = gives s m ++ held s'

namespace Conduit

variable {I : σ → Prop} {G : σ → μ → Prop} {held : σ → List α} {takes gives : σ → μ → List α}

theorem run (h : Conduit M I G held takes gives)
    (hI : ∀ {s m s'}, I s → G s m → M.step s m = some s' → I s') {s s' : σ} {ms : List μ}
    (hs : I s) (hG : M.Along G s ms) (hrun : M.run s ms = some s')
    : held s ++ M.collected takes s ms = M.collected gives s ms ++ held s' := by
  induction ms generalizing s with
  | nil =>
    simp only [run_nil, Option.some.injEq] at hrun
    simp [hrun]
  | cons m ms ih =>
    obtain ⟨t, ht, hrest⟩ := M.run_cons.mp hrun
    obtain ⟨hGs, hGt⟩ := hG t ht
    rw [collected_cons ms ht, collected_cons ms ht, ← List.append_assoc, h.step hs hGs ht,
      List.append_assoc, ih (hI hs hGs ht) hGt hrest, List.append_assoc]

-- What was taken in before a state is what was given out before it, and what the state holds.
theorem keeps (h : Conduit M I G held takes gives) {ins : List α} (outs : σ → List α) {s s' : σ}
    {m : μ} (hI : I s) (hG : G s m) (hstep : M.step s m = some s')
    (houts : outs s' = outs s ++ gives s m) (heq : ins = outs s ++ held s)
    : ins ++ takes s m = outs s' ++ held s' := by
  calc ins ++ takes s m = outs s ++ (held s ++ takes s m) := by rw [heq, List.append_assoc]
    _ = outs s ++ (gives s m ++ held s') := by rw [h.step hI hG hstep]
    _ = outs s' ++ held s' := by rw [houts, List.append_assoc]

theorem congr {takes' gives' : σ → μ → List α} (h : Conduit M I G held takes gives)
    (htakes : ∀ {s m s'}, I s → G s m → M.step s m = some s' → takes' s m = takes s m)
    (hgives : ∀ {s m s'}, I s → G s m → M.step s m = some s' → gives' s m = gives s m)
    : Conduit M I G held takes' gives' := by
  constructor
  intro s m s' hI hG hstep
  rw [htakes hI hG hstep, hgives hI hG hstep]
  exact h.step hI hG hstep

theorem comp {held' : σ → List α} {mid : σ → μ → List α} (h : Conduit M I G held takes mid)
    (h' : Conduit M I G held' mid gives)
    : Conduit M I G (fun s => held' s ++ held s) takes gives := by
  constructor
  intro s m s' hI hG hstep
  rw [List.append_assoc, h.step hI hG hstep, ← List.append_assoc, h'.step hI hG hstep,
    List.append_assoc]

theorem filterMap {β : Type x} (h : Conduit M I G held takes gives) (f : α → Option β)
    : Conduit M I G (fun s => (held s).filterMap f) (fun s m => (takes s m).filterMap f)
        (fun s m => (gives s m).filterMap f) := by
  constructor
  intro s m s' hI hG hstep
  rw [← List.filterMap_append, h.step hI hG hstep, List.filterMap_append]

theorem simulate {τ : Type x} {ν : Type y} {A : Machine τ ν} {J : τ → Prop} {H : τ → ν → Prop}
    {held : τ → List α} {takes gives : τ → ν → List α} (h : Conduit A J H held takes gives)
    (hJ : ∀ {s m s'}, J s → H s m → A.step s m = some s' → J s')
    (f : σ → τ) (moves : σ → μ → List ν)
    (hsim : ∀ {s m s'}, I s → G s m → M.step s m = some s' →
      J (f s) ∧ A.Along H (f s) (moves s m) ∧ A.run (f s) (moves s m) = some (f s'))
    : Conduit M I G (fun s => held (f s)) (fun s m => A.collected takes (f s) (moves s m))
        (fun s m => A.collected gives (f s) (moves s m)) := by
  constructor
  intro s m s' hI hG hstep
  obtain ⟨hs, hH, hrun⟩ := hsim hI hG hstep
  exact h.run hJ hs hH hrun

end Conduit

end Machine
