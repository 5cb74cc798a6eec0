import SoldierOfGoons.Combat.Basic
import Mathlib.Data.List.Basic

/-!
What the functions about picking up do to each character, to each weapon and to the characters
inside each sphere.
-/

universe u v

namespace Combat

variable {C : Type u} {W : Type v}

-- The widget of `w` is the one that is up for the character, if this machine controls it.
def Shows (s : World C W) (c : C) (w : W) : Prop :=
  (s.character c).isLocallyControlled = true ∧ (s.character c).overlappedWeapon = some w

section Widget

variable [DecidableEq W]

instance (s : World C W) (c : C) (w : W) : Decidable (Shows s c w) := by
  unfold Shows
  infer_instance

variable (b : Bool) (c : C) (w v : W) (s : World C W)

@[simp]
theorem character_showPickupWidget : (showPickupWidget b w s).character = s.character := rfl

@[simp]
theorem overlaps_showPickupWidget : (showPickupWidget b w s).overlaps = s.overlaps := rfl

theorem weapon_showPickupWidget
    : (showPickupWidget b w s).weapon v
        =
      { s.weapon v with
        pickupWidgetVisible := if v = w then b else (s.weapon v).pickupWidgetVisible } := by
  unfold showPickupWidget World.setWeapon
  by_cases hv : v = w
  . subst hv
    simp
  . simp [hv]

@[simp]
theorem character_showOverlapped : (showOverlapped b c s).character = s.character := by
  unfold showOverlapped
  split <;> rfl

@[simp]
theorem overlaps_showOverlapped : (showOverlapped b c s).overlaps = s.overlaps := by
  unfold showOverlapped
  split <;> rfl

theorem weapon_showOverlapped
    : (showOverlapped b c s).weapon v
        =
      { s.weapon v with
        pickupWidgetVisible := if Shows s c v then b else (s.weapon v).pickupWidgetVisible } := by
  unfold showOverlapped
  split
  . next w hlocal hover =>
    rw [weapon_showPickupWidget]
    simp [Shows, hlocal, hover, eq_comm]
  . next hnot =>
    have : ¬Shows s c v := by
      intro hshows
      exact hnot v hshows.1 hshows.2
    simp [this]

end Widget

variable [DecidableEq C] [DecidableEq W]

section Overlap

variable (weapon : Option W) (c d : C) (v w : W) (s : World C W)

theorem character_setOverlappingWeapon
    : (setOverlappingWeapon weapon c s).character d
        =
      { s.character d with
        overlappedWeapon := if d = c then weapon else (s.character d).overlappedWeapon } := by
  simp only [setOverlappingWeapon, World.setCharacter, character_showOverlapped]
  by_cases hd : d = c
  . subst hd
    simp
  . simp [hd]

@[simp]
theorem overlaps_setOverlappingWeapon
    : (setOverlappingWeapon weapon c s).overlaps = s.overlaps := by
  simp [setOverlappingWeapon, World.setCharacter]

theorem shows_setOverlappingWeapon
    : Shows (setOverlappingWeapon weapon c s) d v ↔
        if d = c then (s.character c).isLocallyControlled = true ∧ weapon = some v
        else Shows s d v := by
  unfold Shows
  rw [character_setOverlappingWeapon]
  split
  . next hd => rw [hd]
  . rfl

theorem weapon_setOverlappingWeapon
    : (setOverlappingWeapon weapon c s).weapon v
        =
      { s.weapon v with
        pickupWidgetVisible :=
          if (s.character c).isLocallyControlled = true ∧ weapon = some v then true
          else if Shows s c v then false
          else (s.weapon v).pickupWidgetVisible } := by
  unfold setOverlappingWeapon
  simp only [weapon_showOverlapped]
  simp only [Shows, World.setCharacter, Function.update_self, character_showOverlapped,
    weapon_showOverlapped]

end Overlap

/-!
The characters leave a sphere one after the other, and all that matters is which of them were inside.
-/

section Leaving

variable (cs : List C) (c d : C) (v : W) (s : World C W)

def leave (cs : List C) (s : World C W) : World C W :=
  cs.foldl (fun s c => onSphereEndOverlap c s) s

theorem character_leave
    : (leave cs s).character d
        =
      { s.character d with
        overlappedWeapon := if d ∈ cs then none else (s.character d).overlappedWeapon } := by
  induction cs generalizing s with
  | nil => rfl
  | cons c cs ih =>
    specialize ih (onSphereEndOverlap c s)
    unfold leave at ih ⊢
    rw [List.foldl_cons, ih]
    simp only [onSphereEndOverlap, character_setOverlappingWeapon, List.mem_cons]
    by_cases hd : d = c
    . simp [hd]
    . simp [hd]

theorem overlaps_leave : (leave cs s).overlaps = s.overlaps := by
  induction cs generalizing s with
  | nil => rfl
  | cons c cs ih =>
    specialize ih (onSphereEndOverlap c s)
    unfold leave at ih ⊢
    rw [List.foldl_cons, ih]
    simp [onSphereEndOverlap]

theorem exists_shows_cons
    : (∃ d ∈ c :: cs, Shows s d v) ↔
        Shows s c v ∨ ∃ d ∈ cs, Shows (onSphereEndOverlap c s) d v := by
  simp only [onSphereEndOverlap, shows_setOverlappingWeapon]
  constructor
  . rintro ⟨d, hd, hshows⟩
    by_cases hdc : d = c
    . left
      rwa [← hdc]
    . right
      refine ⟨d, List.mem_of_ne_of_mem hdc hd, ?_⟩
      rwa [if_neg hdc]
  . rintro (hshows | ⟨d, hd, hshows⟩)
    . exact ⟨c, List.mem_cons_self, hshows⟩
    . split at hshows
      . cases hshows.2
      . exact ⟨d, List.mem_cons_of_mem c hd, hshows⟩

theorem weapon_leave
    : (leave cs s).weapon v
        =
      { s.weapon v with
        pickupWidgetVisible :=
          if ∃ d ∈ cs, Shows s d v then false else (s.weapon v).pickupWidgetVisible } := by
  induction cs generalizing s with
  | nil => simp [leave]
  | cons c cs ih =>
    specialize ih (onSphereEndOverlap c s)
    unfold leave at ih ⊢
    rw [List.foldl_cons, ih]
    rw [onSphereEndOverlap, weapon_setOverlappingWeapon, ← onSphereEndOverlap]
    simp only [exists_shows_cons]
    by_cases hc : Shows s c v
    . simp [hc]
    . by_cases hrest : ∃ d ∈ cs, Shows (onSphereEndOverlap c s) d v
      . simp only [hrest, or_true, if_true]
      . simp [hc, hrest]

end Leaving

section Equip

variable (c d : C) (v w : W) (s : World C W)

theorem character_disableCollision
    : (disableCollision w s).character d
        =
      { s.character d with
        overlappedWeapon := if d ∈ s.overlaps w then none else (s.character d).overlappedWeapon } :=
  character_leave _ _ _

theorem overlaps_disableCollision
    : (disableCollision w s).overlaps = Function.update s.overlaps w [] :=
  overlaps_leave _ _

theorem weapon_disableCollision
    : (disableCollision w s).weapon v
        =
      { s.weapon v with
        areaSphereCollision := if v = w then false else (s.weapon v).areaSphereCollision
        pickupWidgetVisible :=
          if ∃ d ∈ s.overlaps w, Shows s d v then false else (s.weapon v).pickupWidgetVisible } := by
  refine (weapon_leave _ _ _).trans ?_
  by_cases hv : v = w
  . subst hv
    simp only [World.setWeapon, Function.update_self, if_true]
    rfl
  . simp only [World.setWeapon, Function.update_of_ne hv, if_neg hv]
    rfl

theorem character_handOver
    : (handOver c w s).character d
        =
      { s.character d with
        bUseControllerRotationYaw := d = c || (s.character d).bUseControllerRotationYaw
        bOrientRotationToMovement := d ≠ c && (s.character d).bOrientRotationToMovement } := by
  unfold handOver
  by_cases hd : d = c
  . subst hd
    split <;> simp [faceController, setOwner, attachActor, World.setCharacter, World.setWeapon]
  . split <;> simp [faceController, setOwner, attachActor, World.setCharacter, World.setWeapon, hd]

theorem overlaps_handOver : (handOver c w s).overlaps = s.overlaps := by
  unfold handOver
  split <;> rfl

theorem weapon_handOver
    : (handOver c w s).weapon v
        =
      { s.weapon v with
        owner := if v = w then some c else (s.weapon v).owner
        attachParent :=
          if v = w ∧ (s.character c).rightHandSocket then some c
          else (s.weapon v).attachParent } := by
  unfold handOver
  by_cases hv : v = w
  . subst hv
    split
    . next hsocket =>
      simp [faceController, setOwner, attachActor, World.setCharacter, World.setWeapon, hsocket]
    . next hsocket =>
      simp [faceController, setOwner, World.setCharacter, World.setWeapon, hsocket]
  . split <;> simp [faceController, setOwner, attachActor, World.setCharacter, World.setWeapon, hv]

theorem equipWeapon_eq
    : equipWeapon (some w) c s
        =
      handOver c w (setWeaponState .equipped w
        (s.setCharacter c { s.character c with equippedWeapon := some w })) := rfl

theorem character_equipWeapon
    : (equipWeapon (some w) c s).character d
        =
      { s.character d with
        overlappedWeapon := if d ∈ s.overlaps w then none else (s.character d).overlappedWeapon
        equippedWeapon := if d = c then some w else (s.character d).equippedWeapon
        bUseControllerRotationYaw := d = c || (s.character d).bUseControllerRotationYaw
        bOrientRotationToMovement := d ≠ c && (s.character d).bOrientRotationToMovement } := by
  rw [equipWeapon_eq, character_handOver, setWeaponState, character_disableCollision]
  by_cases hd : d = c
  . subst hd
    simp [World.setCharacter, World.setWeapon]
  . simp [World.setCharacter, World.setWeapon, hd]

theorem overlaps_equipWeapon
    : (equipWeapon (some w) c s).overlaps = Function.update s.overlaps w [] := by
  rw [equipWeapon_eq, overlaps_handOver, setWeaponState, overlaps_disableCollision]
  rfl

theorem weapon_equipWeapon
    : (equipWeapon (some w) c s).weapon v
        =
      { s.weapon v with
        weaponState := if v = w then .equipped else (s.weapon v).weaponState
        owner := if v = w then some c else (s.weapon v).owner
        attachParent :=
          if v = w ∧ (s.character c).rightHandSocket then some c else (s.weapon v).attachParent
        areaSphereCollision := if v = w then false else (s.weapon v).areaSphereCollision
        pickupWidgetVisible :=
          if v = w ∨ ∃ d ∈ s.overlaps w, Shows s d v then false
          else (s.weapon v).pickupWidgetVisible } := by
  rw [equipWeapon_eq, weapon_handOver, setWeaponState]
  simp only [weapon_disableCollision, character_disableCollision]
  have hshows (d : C) (weapon : Weapon C)
      : Shows (showPickupWidget false w
          ((s.setCharacter c { s.character c with equippedWeapon := some w }).setWeapon w weapon)) d v
          ↔
        Shows s d v := by
    unfold Shows
    by_cases hd : d = c
    . subst hd
      simp [World.setCharacter, World.setWeapon]
    . simp [World.setCharacter, World.setWeapon, hd]
  simp only [hshows, weapon_showPickupWidget]
  by_cases hv : v = w
  . subst hv
    simp [World.setCharacter, World.setWeapon]
  . simp [World.setCharacter, World.setWeapon, hv]

end Equip

end Combat
