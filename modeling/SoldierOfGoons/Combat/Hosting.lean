import SoldierOfGoons.Combat.Network

/-!
What the server shows, where the host plays. The widget that is up is that of the weapon the host's
character overlaps, and a character faces its controller where it has a weapon equipped.
-/

universe u v

namespace Combat

variable {C : Type u} {W : Type v}

-- The rotation flags are those of the constructor until a weapon is equipped.
def Facing (c : Character W) : Prop :=
  c.bUseControllerRotationYaw = c.equippedWeapon.isSome ∧
    c.bOrientRotationToMovement = c.equippedWeapon.isNone

def Displays (pawn : C) (s : World C W) : Prop :=
  ∀ w, (s.weapon w).pickupWidgetVisible = true ↔ (s.character pawn).overlappedWeapon = some w

structure Hosting (host : C) (s : World C W) : Prop where
  kept : Kept s
  controls : ∀ c, (s.character c).isLocallyControlled = true ↔ c = host
  displays : Displays host s
  facing : ∀ c, Facing (s.character c)

variable [DecidableEq C]

theorem facing_tick {s : World C W} (h : ∀ d, Facing (s.character d)) (c : C) (t : Tick) (d : C)
    : Facing ((s.tick c t).character d) := by
  rw [character_tick]
  split
  . obtain ⟨huse, horient⟩ := h d
    simp [Facing, huse, horient]
  . apply h d

theorem hosting_initial (host : C) (rightHandSocket : C → Bool)
    : Hosting host
        (World.initial true (fun c => c = host) rightHandSocket : World C W) := by
  constructor
  . apply kept_initial _ _
  . intro c
    simp [World.initial, Character.constructed]
  . intro w
    simp [World.initial, Character.constructed, Weapon.beginPlay, Weapon.constructed]
  . intro c
    simp [World.initial, Character.constructed, Facing]

theorem Hosting.tick {host : C} {s : World C W} (h : Hosting host s) (c : C) (t : Tick)
    : Hosting host (s.tick c t) := by
  constructor
  . constructor
    . intro d w hover
      rw [overlappedWeapon_tick] at hover
      apply h.kept.inside d w hover
    . apply h.kept.open_of_inside
    . apply h.kept.open_iff
    . intro d w hequipped
      rw [equippedWeapon_tick] at hequipped
      apply h.kept.wielded d w hequipped
  . intro d
    rw [isLocallyControlled_tick]
    apply h.controls d
  . intro w
    rw [overlappedWeapon_tick]
    apply h.displays w
  . apply facing_tick h.facing c t

variable [DecidableEq W]

theorem Displays.setOverlappingWeapon {host c : C} {s s' : World C W} {weapon : Option W}
    (h : Displays host s) (hcontrols : (s.character c).isLocallyControlled = true ↔ c = host)
    (hcharacter : s'.character = s.character) (hweapon : s'.weapon = s.weapon)
    : Displays host (setOverlappingWeapon weapon c s') := by
  intro v
  have hv := h v
  simp only [weapon_setOverlappingWeapon, character_setOverlappingWeapon, Shows, hcharacter,
    hweapon, hcontrols]
  by_cases hc : c = host
  . subst hc
    by_cases hshown : weapon = some v
    . simp [hshown]
    . simp only [hshown, and_false, if_false, if_true, true_and, iff_false]
      by_cases hover : (s.character c).overlappedWeapon = some v
      . simp [hover]
      . rw [if_neg hover, hv]
        exact hover
  . simp [hc, Ne.symm hc, hv]

theorem Displays.equipWeapon {host c : C} {s : World C W} {w : W} (h : Displays host s)
    (hcontrols : ∀ c, (s.character c).isLocallyControlled = true ↔ c = host) (hkept : Kept s)
    : Displays host (equipWeapon (some w) c s) := by
  intro v
  have hv := h v
  have hshows (d : C) : Shows s d v ↔ d = host ∧ (s.character host).overlappedWeapon = some v := by
    unfold Shows
    rw [hcontrols d]
    constructor
    . rintro ⟨rfl, hover⟩
      exact ⟨rfl, hover⟩
    . rintro ⟨rfl, hover⟩
      exact ⟨rfl, hover⟩
  simp only [weapon_equipWeapon, character_equipWeapon, hshows]
  by_cases hin : host ∈ s.overlaps w
  . rw [if_pos hin]
    by_cases hover : (s.character host).overlappedWeapon = some v
    . simp [hin, hover]
    . have : (s.weapon v).pickupWidgetVisible = false := by
        rw [← Bool.not_eq_true, hv]
        exact hover
      simp [this]
  . rw [if_neg hin]
    by_cases hvw : v = w
    . subst hvw
      have hnot : (s.character host).overlappedWeapon ≠ some v := by
        intro hover
        apply hin (hkept.inside host v hover)
      simp [hnot]
    . rw [if_neg]
      . exact hv
      . rintro (hvw' | ⟨d, hd, rfl, _⟩)
        . apply hvw hvw'
        . apply hin hd

theorem Hosting.pickup {host : C} {s s' : World C W} {m : PickupMove C W} (h : Hosting host s)
    (hstep : pickupMachine.step s m = some s') : Hosting host s' := by
  have hkept := h.kept.step hstep
  cases pickupTransition_of_step hstep with
  | enter w c hcollision hout =>
    refine ⟨hkept, ?_, h.displays.setOverlappingWeapon (h.controls c) rfl rfl, ?_⟩
    . intro d
      simp only [enter, onSphereOverlap, character_setOverlappingWeapon]
      apply h.controls d
    . intro d
      simp only [enter, onSphereOverlap, character_setOverlappingWeapon]
      apply h.facing d
  | exit w c hin =>
    refine ⟨hkept, ?_, h.displays.setOverlappingWeapon (h.controls c) rfl rfl, ?_⟩
    . intro d
      simp only [exit, onSphereEndOverlap, character_setOverlappingWeapon]
      apply h.controls d
    . intro d
      simp only [exit, onSphereEndOverlap, character_setOverlappingWeapon]
      apply h.facing d
  | equip _ c w hm hover =>
    refine ⟨hkept, ?_, h.displays.equipWeapon h.controls h.kept, ?_⟩
    . intro d
      simp only [character_equipWeapon]
      apply h.controls d
    . intro d
      have hfacing := h.facing d
      simp only [Facing, character_equipWeapon] at hfacing ⊢
      by_cases hd : d = c
      . simp [hd]
      . simp [hd, hfacing]
  | nothing _ c hm hover => exact h

-- On the server a weapon is equipped once and for all, and a character never has none again.
theorem weaponState_pickup {s s' : World C W} {m : PickupMove C W}
    (hstep : pickupMachine.step s m = some s') (w : W)
    : (s'.weapon w).weaponState = (s.weapon w).weaponState ∨
        (s'.weapon w).weaponState = .equipped := by
  cases pickupTransition_of_step hstep with
  | enter v c hcollision hout =>
    left
    simp [enter, onSphereOverlap, weapon_setOverlappingWeapon]
  | exit v c hin =>
    left
    simp [exit, onSphereEndOverlap, weapon_setOverlappingWeapon]
  | equip _ c v hm hover =>
    simp only [weapon_equipWeapon]
    split
    . exact Or.inr rfl
    . exact Or.inl rfl
  | nothing _ c hm hover => exact Or.inl rfl

theorem equippedWeapon_pickup {s s' : World C W} {m : PickupMove C W}
    (hstep : pickupMachine.step s m = some s') (c : C)
    : (s'.character c).equippedWeapon = (s.character c).equippedWeapon ∨
        (s'.character c).equippedWeapon.isSome := by
  cases pickupTransition_of_step hstep with
  | enter w d hcollision hout =>
    left
    simp [enter, onSphereOverlap, character_setOverlappingWeapon]
  | exit w d hin =>
    left
    simp [exit, onSphereEndOverlap, character_setOverlappingWeapon]
  | equip _ d w hm hover =>
    simp only [character_equipWeapon]
    split
    . exact Or.inr rfl
    . exact Or.inl rfl
  | nothing _ d hm hover => exact Or.inl rfl

end Combat
