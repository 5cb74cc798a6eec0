import SoldierOfGoons.Combat.Pickup
import SoldierOfGoons.Lib.Machine

/-!
The server while characters walk in and out of area spheres and press equip. An equipped weapon has
one owner, who wields it, and nobody overlaps it. It stays that way for the owner's first weapon
only: `EquipWeapon` does not put down the weapon that was wielded before.
-/

universe u v

namespace Combat

inductive PickupMove (C : Type u) (W : Type v) where
  | beginOverlap (w : W) (c : C)
  | endOverlap (w : W) (c : C)
  | equipButtonPressed (c : C)
  | serverEquipButtonPressed (c : C)
  deriving DecidableEq, Repr

def PickupMove.equips {C : Type u} {W : Type v} : PickupMove C W → Option C
  | .equipButtonPressed c => some c
  | .serverEquipButtonPressed c => some c
  | _ => none

variable {C : Type u} {W : Type v} [DecidableEq C] [DecidableEq W]

def enter (w : W) (c : C) (s : World C W) : World C W :=
  onSphereOverlap w c { s with overlaps := Function.update s.overlaps w (c :: s.overlaps w) }

def exit (w : W) (c : C) (s : World C W) : World C W :=
  onSphereEndOverlap c
    { s with overlaps := Function.update s.overlaps w ((s.overlaps w).filter (· ≠ c)) }

def pickupStep (s : World C W) : PickupMove C W → Option (World C W)
  | .beginOverlap w c =>
    if (s.weapon w).areaSphereCollision = true ∧ c ∉ s.overlaps w then
      some (enter w c s)
    else
      none
  | .endOverlap w c =>
    if c ∈ s.overlaps w then
      some (exit w c s)
    else
      none
  | .equipButtonPressed c => some (equipButtonPressed c s)
  | .serverEquipButtonPressed c => some (serverEquipButtonPressed c s)

def pickupMachine : Machine (World C W) (PickupMove C W) := ⟨pickupStep⟩

inductive PickupTransition (s : World C W) : PickupMove C W → World C W → Prop where
  | enter (w : W) (c : C) (hcollision : (s.weapon w).areaSphereCollision = true)
      (hout : c ∉ s.overlaps w)
    : PickupTransition s (.beginOverlap w c) (enter w c s)
  | exit (w : W) (c : C) (hin : c ∈ s.overlaps w)
    : PickupTransition s (.endOverlap w c) (exit w c s)
  | equip (m : PickupMove C W) (c : C) (w : W) (hm : m.equips = some c)
      (hover : (s.character c).overlappedWeapon = some w)
    : PickupTransition s m (equipWeapon (some w) c s)
  | nothing (m : PickupMove C W) (c : C) (hm : m.equips = some c)
      (hover : (s.character c).overlappedWeapon = none)
    : PickupTransition s m s

theorem equip_transition {s : World C W} {m : PickupMove C W} {c : C} (hm : m.equips = some c)
    : PickupTransition s m (equipWeapon (s.character c).overlappedWeapon c s) := by
  cases hover : (s.character c).overlappedWeapon with
  | none => exact .nothing m c hm hover
  | some w => exact .equip m c w hm hover

theorem pickupTransition_of_step {s s' : World C W} {m : PickupMove C W}
    (h : pickupMachine.step s m = some s') : PickupTransition s m s' := by
  simp only [pickupMachine] at h
  cases m with
  | beginOverlap w c =>
    simp only [pickupStep, Option.ite_none_right_eq_some, Option.some.injEq] at h
    obtain ⟨⟨hcollision, hout⟩, rfl⟩ := h
    exact .enter w c hcollision hout
  | endOverlap w c =>
    simp only [pickupStep, Option.ite_none_right_eq_some, Option.some.injEq] at h
    obtain ⟨hin, rfl⟩ := h
    exact .exit w c hin
  | equipButtonPressed c =>
    cases h
    apply equip_transition rfl
  | serverEquipButtonPressed c =>
    cases h
    apply equip_transition rfl

/-!
The pointers to weapons, the characters inside the spheres and the states of the weapons agree.
-/

structure Kept (s : World C W) : Prop where
  inside : ∀ c w, (s.character c).overlappedWeapon = some w → c ∈ s.overlaps w
  open_of_inside : ∀ c w, c ∈ s.overlaps w → (s.weapon w).areaSphereCollision = true
  open_iff : ∀ w, (s.weapon w).areaSphereCollision = true ↔ (s.weapon w).weaponState ≠ .equipped
  wielded : ∀ c w, (s.character c).equippedWeapon = some w →
    (s.weapon w).weaponState = .equipped ∧ (s.weapon w).owner = some c

omit [DecidableEq C] [DecidableEq W] in
theorem Kept.not_equipped {s : World C W} (h : Kept s) {c : C} {w : W}
    (hover : (s.character c).overlappedWeapon = some w) : (s.weapon w).weaponState ≠ .equipped :=
  (h.open_iff w).mp (h.open_of_inside c w (h.inside c w hover))

omit [DecidableEq C] [DecidableEq W] in
theorem kept_initial (isLocallyControlled rightHandSocket : C → Bool)
    : Kept (World.initial true isLocallyControlled rightHandSocket : World C W) := by
  constructor
  . intro c w h
    cases h
  . intro c w h
    cases h
  . intro w
    simp [World.initial, Weapon.beginPlay, Weapon.constructed]
  . intro c w h
    cases h

theorem Kept.enter {s : World C W} (h : Kept s) {w : W} {c : C}
    (hcollision : (s.weapon w).areaSphereCollision = true) : Kept (enter w c s) := by
  unfold Combat.enter onSphereOverlap
  constructor
  . intro d v hover
    simp only [character_setOverlappingWeapon, overlaps_setOverlappingWeapon] at hover ⊢
    by_cases hv : v = w
    . subst hv
      simp only [Function.update_self, List.mem_cons]
      by_cases hd : d = c
      . exact Or.inl hd
      . rw [if_neg hd] at hover
        exact Or.inr (h.inside d v hover)
    . rw [Function.update_of_ne hv]
      split at hover
      . cases hover
        exact absurd rfl hv
      . apply h.inside d v hover
  . intro d v hin
    simp only [weapon_setOverlappingWeapon, overlaps_setOverlappingWeapon] at hin ⊢
    by_cases hv : v = w
    . rw [hv]
      exact hcollision
    . rw [Function.update_of_ne hv] at hin
      apply h.open_of_inside d v hin
  . intro v
    simp only [weapon_setOverlappingWeapon]
    apply h.open_iff v
  . intro d v hequipped
    simp only [character_setOverlappingWeapon, weapon_setOverlappingWeapon] at hequipped ⊢
    apply h.wielded d v hequipped

theorem Kept.exit {s : World C W} (h : Kept s) {w : W} {c : C} : Kept (exit w c s) := by
  unfold Combat.exit onSphereEndOverlap
  constructor
  . intro d v hover
    simp only [character_setOverlappingWeapon, overlaps_setOverlappingWeapon] at hover ⊢
    split at hover
    . cases hover
    . next hd =>
      have hin := h.inside d v hover
      by_cases hv : v = w
      . subst hv
        simp [hin, hd]
      . rwa [Function.update_of_ne hv]
  . intro d v hin
    simp only [weapon_setOverlappingWeapon, overlaps_setOverlappingWeapon] at hin ⊢
    apply h.open_of_inside d v
    by_cases hv : v = w
    . subst hv
      rw [Function.update_self] at hin
      apply List.mem_of_mem_filter hin
    . rwa [Function.update_of_ne hv] at hin
  . intro v
    simp only [weapon_setOverlappingWeapon]
    apply h.open_iff v
  . intro d v hequipped
    simp only [character_setOverlappingWeapon, weapon_setOverlappingWeapon] at hequipped ⊢
    apply h.wielded d v hequipped

-- The end events that re-enter `EquipWeapon` take the weapon away from everybody near it.
theorem Kept.equip {s : World C W} (h : Kept s) {w : W} {c : C}
    (hover : (s.character c).overlappedWeapon = some w) : Kept (equipWeapon (some w) c s) := by
  constructor
  . intro d v hd
    simp only [character_equipWeapon, overlaps_equipWeapon] at hd ⊢
    split at hd
    . cases hd
    . next hout =>
      have hin := h.inside d v hd
      rw [Function.update_of_ne]
      . exact hin
      . rintro rfl
        apply hout hin
  . intro d v hin
    simp only [overlaps_equipWeapon, weapon_equipWeapon] at hin ⊢
    by_cases hv : v = w
    . subst hv
      simp at hin
    . rw [Function.update_of_ne hv] at hin
      rw [if_neg hv]
      apply h.open_of_inside d v hin
  . intro v
    simp only [weapon_equipWeapon]
    by_cases hv : v = w
    . simp [hv]
    . rw [if_neg hv, if_neg hv]
      apply h.open_iff v
  . intro d v hequipped
    simp only [character_equipWeapon, weapon_equipWeapon] at hequipped ⊢
    by_cases hv : v = w
    . subst hv
      by_cases hd : d = c
      . simp [hd]
      . rw [if_neg hd] at hequipped
        exact absurd (h.wielded d v hequipped).1 (h.not_equipped hover)
    . rw [if_neg hv, if_neg hv]
      split at hequipped
      . cases hequipped
        exact absurd rfl hv
      . apply h.wielded d v hequipped

theorem Kept.step {s s' : World C W} {m : PickupMove C W} (h : Kept s)
    (hstep : pickupMachine.step s m = some s') : Kept s' := by
  cases pickupTransition_of_step hstep with
  | enter w c hcollision hout => exact h.enter hcollision
  | exit w c hin => exact h.exit
  | equip _ c w hm hover => exact h.equip hover
  | nothing _ c hm hover => exact h

structure Unshared (s : World C W) : Prop where
  equipped : ∀ c w, (s.character c).equippedWeapon = some w →
    (s.weapon w).weaponState = .equipped ∧ (s.weapon w).owner = some c ∧
      (s.weapon w).areaSphereCollision = false
  one_wielder : ∀ c d w, (s.character c).equippedWeapon = some w →
    (s.character d).equippedWeapon = some w → d = c
  not_overlapped : ∀ c d w, (s.character c).equippedWeapon = some w →
    (s.character d).overlappedWeapon ≠ some w

omit [DecidableEq C] [DecidableEq W] in
theorem Kept.unshared {s : World C W} (h : Kept s) : Unshared s := by
  constructor
  . intro c w hequipped
    obtain ⟨hstate, howner⟩ := h.wielded c w hequipped
    refine ⟨hstate, howner, ?_⟩
    rw [← Bool.not_eq_true, h.open_iff w, hstate]
    simp
  . intro c d w hc hd
    have howner := (h.wielded c w hc).2
    rw [(h.wielded d w hd).2] at howner
    apply Option.some.inj howner
  . intro c d w hequipped hover
    apply h.not_equipped hover (h.wielded c w hequipped).1

theorem unshared_of_run (isLocallyControlled rightHandSocket : C → Bool) (ms : List (PickupMove C W))
    : pickupMachine.Always Unshared (World.initial true isLocallyControlled rightHandSocket) ms :=
  Machine.always_of_along (G := fun _ _ => True) (fun h _ hstep => h.step hstep) Kept.unshared
    (kept_initial isLocallyControlled rightHandSocket) (pickupMachine.along_true _ ms)

/-!
A weapon is lost when its owner equips another one.
-/

structure NoneLost (s : World C W) : Prop where
  wielded : ∀ w, (s.weapon w).weaponState = .equipped →
    ∃ c, (s.weapon w).owner = some c ∧ (s.character c).equippedWeapon = some w
  reachable : ∀ w, (s.weapon w).areaSphereCollision = true ∨
    ∃ c, (s.character c).equippedWeapon = some w

def FirstWeapon (s : World C W) (m : PickupMove C W) : Prop :=
  ∀ c ∈ m.equips, (s.character c).equippedWeapon.isSome → (s.character c).overlappedWeapon = none

omit [DecidableEq C] [DecidableEq W] in
theorem noneLost_of_wielded {s : World C W} (h : Kept s)
    (hwielded : ∀ w, (s.weapon w).weaponState = .equipped →
      ∃ c, (s.weapon w).owner = some c ∧ (s.character c).equippedWeapon = some w)
    : NoneLost s := by
  refine ⟨hwielded, ?_⟩
  intro w
  by_cases hstate : (s.weapon w).weaponState = .equipped
  . obtain ⟨c, _, hc⟩ := hwielded w hstate
    exact Or.inr ⟨c, hc⟩
  . exact Or.inl ((h.open_iff w).mpr hstate)

theorem NoneLost.step {s s' : World C W} {m : PickupMove C W} (hkept : Kept s) (h : NoneLost s)
    (hfirst : FirstWeapon s m) (hstep : pickupMachine.step s m = some s') : NoneLost s' := by
  apply noneLost_of_wielded (hkept.step hstep)
  cases pickupTransition_of_step hstep with
  | enter w c hcollision hout =>
    intro v
    simp only [enter, onSphereOverlap, weapon_setOverlappingWeapon, character_setOverlappingWeapon]
    apply h.wielded v
  | exit w c hin =>
    intro v
    simp only [exit, onSphereEndOverlap, weapon_setOverlappingWeapon,
      character_setOverlappingWeapon]
    apply h.wielded v
  | equip _ c w hm hover =>
    intro v hv
    simp only [weapon_equipWeapon, character_equipWeapon] at hv ⊢
    by_cases hvw : v = w
    . exact ⟨c, by simp [hvw]⟩
    . rw [if_neg hvw] at hv ⊢
      obtain ⟨d, howner, hd⟩ := h.wielded v hv
      refine ⟨d, howner, ?_⟩
      rw [if_neg]
      . exact hd
      . rintro rfl
        have := hfirst d hm (by simp [hd])
        simp [hover] at this
  | nothing _ c hm hover => exact h.wielded

-- The weapon that was wielded before keeps its owner and its state, and nobody wields it.
theorem not_noneLost_of_second {s s' : World C W} {m : PickupMove C W} (hkept : Kept s)
    (hfirst : ¬FirstWeapon s m) (hstep : pickupMachine.step s m = some s') : ¬NoneLost s' := by
  intro h
  simp only [FirstWeapon, not_forall] at hfirst
  obtain ⟨c, hc, hequipped, hover⟩ := hfirst
  obtain ⟨v, hv⟩ := Option.isSome_iff_exists.mp hequipped
  cases pickupTransition_of_step hstep with
  | enter w d hcollision hout => cases hc
  | exit w d hin => cases hc
  | equip _ d w hm hover' =>
    have : d = c := by simpa [hm] using hc
    subst this
    obtain ⟨hstate, howner⟩ := hkept.wielded d v hv
    have hvw : v ≠ w := by
      rintro rfl
      apply hkept.not_equipped hover' hstate
    obtain ⟨e, he, hwields⟩ := h.wielded v (by simpa [weapon_equipWeapon, hvw] using hstate)
    simp only [weapon_equipWeapon, if_neg hvw, howner, Option.some.injEq] at he
    subst he
    simp only [character_equipWeapon, if_true, Option.some.injEq] at hwields
    apply hvw hwields.symm
  | nothing _ d hm hover' =>
    have : d = c := by simpa [hm] using hc
    subst this
    apply hover hover'

theorem noneLost_iff_firstWeapon (isLocallyControlled rightHandSocket : C → Bool)
    (ms : List (PickupMove C W))
    : pickupMachine.Always NoneLost (World.initial true isLocallyControlled rightHandSocket) ms
        ↔
      pickupMachine.Along FirstWeapon
        (World.initial true isLocallyControlled rightHandSocket) ms := by
  apply Machine.always_iff_along (I := fun s => Kept s ∧ NoneLost s)
  . rintro s m s' ⟨hkept, h⟩ hfirst hstep
    exact ⟨hkept.step hstep, h.step hkept hfirst hstep⟩
  . rintro s ⟨_, h⟩
    exact h
  . rintro s m s' ⟨hkept, _⟩ hfirst hstep
    apply not_noneLost_of_second hkept hfirst hstep
  . have hkept := kept_initial (W := W) isLocallyControlled rightHandSocket
    refine ⟨hkept, noneLost_of_wielded hkept ?_⟩
    intro w hw
    cases hw

-- One character takes two weapons, one after the other.
theorem not_noneLost
    : ¬∀ (C W : Type) [DecidableEq C] [DecidableEq W] (isLocallyControlled rightHandSocket : C → Bool)
        (ms : List (PickupMove C W)),
        pickupMachine.Always NoneLost
          (World.initial true isLocallyControlled rightHandSocket) ms := by
  intro h
  have hrun := h Unit Bool (fun _ => true) (fun _ => true)
    [.beginOverlap false (), .equipButtonPressed (), .beginOverlap true (), .equipButtonPressed ()]
  obtain ⟨s, hs, heq⟩ := hrun.exists_map
    (fun s => ((s.weapon false).weaponState, (s.character ()).equippedWeapon))
    (b := (.equipped, some true)) (by decide)
  simp only [Prod.mk.injEq] at heq
  obtain ⟨c, _, hc⟩ := hs.wielded false heq.1
  rw [heq.2] at hc
  cases hc

end Combat
