import SoldierOfGoons.Combat.Wielding

/-!
`OverlappedWeapon` against the spheres the character is inside. `OnSphereEndOverlap` clears the
pointer whichever sphere was left, so it is right as long as nobody leaves a sphere while inside
another one.
-/

universe u v

namespace Combat

variable {C : Type u} {W : Type v} [DecidableEq C] [DecidableEq W]

structure Tracked (s : World C W) : Prop where
  one_of_inside : ∀ c w, c ∈ s.overlaps w →
    ∃ v, (s.character c).overlappedWeapon = some v ∧ c ∈ s.overlaps v
  none_outside : ∀ c, (∀ w, c ∉ s.overlaps w) → (s.character c).overlappedWeapon = none
  can_equip : ∀ c w, c ∈ s.overlaps w →
    ∃ v, c ∈ s.overlaps v ∧ ((equipButtonPressed c s).character c).equippedWeapon = some v

def InsideOnly (s : World C W) (w : W) (c : C) : Prop :=
  ∀ v, v ≠ w → c ∉ s.overlaps v

-- An equip makes everybody inside the sphere leave it.
def LeavesLast (s : World C W) : PickupMove C W → Prop
  | .beginOverlap _ _ => True
  | .endOverlap w c => InsideOnly s w c
  | .equipButtonPressed c =>
    ∀ w ∈ (s.character c).overlappedWeapon, ∀ d ∈ s.overlaps w, InsideOnly s w d
  | .serverEquipButtonPressed c =>
    ∀ w ∈ (s.character c).overlappedWeapon, ∀ d ∈ s.overlaps w, InsideOnly s w d

def Covered (s : World C W) : Prop :=
  ∀ c w, c ∈ s.overlaps w → (s.character c).overlappedWeapon ≠ none

theorem Covered.tracked {s : World C W} (h : Covered s) (hkept : Kept s) : Tracked s := by
  have hone (c : C) (w : W) (hin : c ∈ s.overlaps w)
      : ∃ v, (s.character c).overlappedWeapon = some v ∧ c ∈ s.overlaps v := by
    obtain ⟨v, hv⟩ := Option.ne_none_iff_exists'.mp (h c w hin)
    exact ⟨v, hv, hkept.inside c v hv⟩
  constructor
  . exact hone
  . intro c hout
    cases hover : (s.character c).overlappedWeapon with
    | none => rfl
    | some w => exact absurd (hkept.inside c w hover) (hout w)
  . intro c w hin
    obtain ⟨v, hv, hinside⟩ := hone c w hin
    refine ⟨v, hinside, ?_⟩
    simp [equipButtonPressed, hv, character_equipWeapon]

omit [DecidableEq C] [DecidableEq W] in
theorem leavesLast_of_equips {s : World C W} {m : PickupMove C W} {c : C} (hm : m.equips = some c)
    : LeavesLast s m ↔
        ∀ w ∈ (s.character c).overlappedWeapon, ∀ d ∈ s.overlaps w, InsideOnly s w d := by
  cases m <;> cases hm <;> rfl

theorem Covered.enter {s : World C W} (h : Covered s) (w : W) (c : C) : Covered (enter w c s) := by
  intro d v hin
  simp only [Combat.enter, onSphereOverlap, character_setOverlappingWeapon,
    overlaps_setOverlappingWeapon] at hin ⊢
  split
  . simp
  . next hd =>
    apply h d v
    by_cases hv : v = w
    . subst hv
      rw [Function.update_self] at hin
      apply List.mem_of_ne_of_mem hd hin
    . rwa [Function.update_of_ne hv] at hin

theorem Covered.exit {s : World C W} (h : Covered s) {w : W} {c : C} (honly : InsideOnly s w c)
    : Covered (exit w c s) := by
  intro d v hin
  simp only [Combat.exit, onSphereEndOverlap, character_setOverlappingWeapon,
    overlaps_setOverlappingWeapon] at hin ⊢
  by_cases hv : v = w
  . subst hv
    rw [Function.update_self, List.mem_filter] at hin
    rw [if_neg (by simpa using hin.2)]
    apply h d v hin.1
  . rw [Function.update_of_ne hv] at hin
    rw [if_neg]
    . apply h d v hin
    . rintro rfl
      exact honly v hv hin

theorem Covered.equip {s : World C W} (h : Covered s) {w : W} {c : C}
    (honly : ∀ d ∈ s.overlaps w, InsideOnly s w d) : Covered (equipWeapon (some w) c s) := by
  intro d v hin
  simp only [character_equipWeapon, overlaps_equipWeapon] at hin ⊢
  by_cases hv : v = w
  . subst hv
    simp at hin
  . rw [Function.update_of_ne hv] at hin
    rw [if_neg]
    . apply h d v hin
    . intro hd
      exact honly d hd v hv hin

theorem Covered.step {s s' : World C W} {m : PickupMove C W} (h : Covered s)
    (hlast : LeavesLast s m) (hstep : pickupMachine.step s m = some s') : Covered s' := by
  cases pickupTransition_of_step hstep with
  | enter w c hcollision hout => exact h.enter w c
  | exit w c hin => exact h.exit hlast
  | equip _ c w hm hover =>
    apply h.equip
    exact (leavesLast_of_equips hm).mp hlast w hover
  | nothing _ c hm hover => exact h

-- Who leaves a sphere inside another one has no `OverlappedWeapon` any more.
theorem not_tracked_of_inside {s s' : World C W} {m : PickupMove C W} (hlast : ¬LeavesLast s m)
    (hstep : pickupMachine.step s m = some s') : ¬Tracked s' := by
  have hlost {c : C} {v : W} {t : World C W} (hin : c ∈ t.overlaps v)
      (hnone : (t.character c).overlappedWeapon = none) : ¬Tracked t := by
    intro h
    obtain ⟨_, hsome, _⟩ := h.one_of_inside c v hin
    rw [hnone] at hsome
    cases hsome
  cases pickupTransition_of_step hstep with
  | enter w c hcollision hout => exact absurd trivial hlast
  | exit w c hin =>
    simp only [LeavesLast, InsideOnly, not_forall, not_not] at hlast
    obtain ⟨v, hv, hinside⟩ := hlast
    apply hlost (c := c) (v := v)
    . simpa [exit, onSphereEndOverlap, Function.update_of_ne hv] using hinside
    . simp [exit, onSphereEndOverlap, character_setOverlappingWeapon]
  | equip _ c w hm hover =>
    rw [leavesLast_of_equips hm] at hlast
    simp only [InsideOnly, not_forall, not_not] at hlast
    obtain ⟨w', hw', d, hd, v, hv, hinside⟩ := hlast
    have : w' = w := by
      rw [Option.mem_def, hover] at hw'
      exact (Option.some.inj hw').symm
    subst this
    apply hlost (c := d) (v := v)
    . rwa [overlaps_equipWeapon, Function.update_of_ne hv]
    . simp [character_equipWeapon, hd]
  | nothing _ c hm hover =>
    rw [leavesLast_of_equips hm] at hlast
    simp [hover] at hlast

theorem tracked_iff_leavesLast (isLocallyControlled rightHandSocket : C → Bool)
    (ms : List (PickupMove C W))
    : pickupMachine.Always Tracked (World.initial true isLocallyControlled rightHandSocket) ms
        ↔
      pickupMachine.Along LeavesLast
        (World.initial true isLocallyControlled rightHandSocket) ms := by
  apply Machine.always_iff_along (I := fun s => Kept s ∧ Covered s)
  . rintro s m s' ⟨hkept, h⟩ hlast hstep
    exact ⟨hkept.step hstep, h.step hlast hstep⟩
  . rintro s ⟨hkept, h⟩
    apply h.tracked hkept
  . rintro s m s' _ hlast hstep
    apply not_tracked_of_inside hlast hstep
  . refine ⟨kept_initial isLocallyControlled rightHandSocket, ?_⟩
    intro c w hin
    cases hin

-- Into the sphere of one weapon, into that of another, and out of the first.
theorem not_tracked
    : ¬∀ (C W : Type) [DecidableEq C] [DecidableEq W] (isLocallyControlled rightHandSocket : C → Bool)
        (ms : List (PickupMove C W)),
        pickupMachine.Always Tracked
          (World.initial true isLocallyControlled rightHandSocket) ms := by
  intro h
  have hrun := h Unit Bool (fun _ => true) (fun _ => true)
    [.beginOverlap false (), .beginOverlap true (), .endOverlap false ()]
  obtain ⟨s, hs, heq⟩ := hrun.exists_map
    (fun s => (s.overlaps true, (s.character ()).overlappedWeapon)) (b := ([()], none)) (by decide)
  simp only [Prod.mk.injEq] at heq
  obtain ⟨_, hsome, _⟩ := hs.one_of_inside () true (by simp [heq.1])
  rw [heq.2] at hsome
  cases hsome

end Combat
