import SoldierOfGoons.Combat.AimOffset
import Mathlib.Logic.Function.Basic

/-!
Characters and weapons as one machine sees them, and the functions of `AWeapon`,
`ASupergoonCharacter` and `UCombatComponent` about picking weapons up. The subobjects that the
constructors make (`AreaSphere`, `PickupWidget`, `CombatComponent`) are never null.

Of a weapon, `areaSphereCollision` is off for `NoCollision`, `attachParent` is the character whose
socket it hangs on, and `overlaps` are the characters inside its sphere. Of a character,
`equippedWeapon` is the field of its `CombatComponent`, and the last two fields are those of the
environment: whether this machine controls it and whether its mesh has the `RightHandSocket`.
-/

universe u v

namespace Combat

inductive EWeaponState where
  | initial
  | equipped
  | dropped
  | max
  deriving DecidableEq, Repr

structure Weapon (C : Type u) where
  weaponState : EWeaponState
  owner : Option C
  attachParent : Option C
  areaSphereCollision : Bool
  pickupWidgetVisible : Bool

structure Character (W : Type v) extends Aim where
  overlappedWeapon : Option W
  equippedWeapon : Option W
  bUseControllerRotationYaw : Bool
  bOrientRotationToMovement : Bool
  isLocallyControlled : Bool
  rightHandSocket : Bool

structure World (C : Type u) (W : Type v) where
  character : C → Character W
  weapon : W → Weapon C
  overlaps : W → List C

variable {C : Type u} {W : Type v}

def Weapon.constructed : Weapon C where
  weaponState := .initial
  owner := none
  attachParent := none
  areaSphereCollision := false
  pickupWidgetVisible := true

def Weapon.beginPlay (hasAuthority : Bool) (w : Weapon C) : Weapon C :=
  let w := if hasAuthority then { w with areaSphereCollision := true } else w
  { w with pickupWidgetVisible := false }

def Character.constructed (isLocallyControlled rightHandSocket : Bool) : Character W where
  toAim := .initial
  overlappedWeapon := none
  equippedWeapon := none
  bUseControllerRotationYaw := false
  bOrientRotationToMovement := true
  isLocallyControlled := isLocallyControlled
  rightHandSocket := rightHandSocket

def World.initial (hasAuthority : Bool) (isLocallyControlled rightHandSocket : C → Bool)
    : World C W where
  character c := .constructed (isLocallyControlled c) (rightHandSocket c)
  weapon _ := Weapon.constructed.beginPlay hasAuthority
  overlaps _ := []

def Character.aimOffset (t : Tick) (c : Character W) : Character W :=
  if c.equippedWeapon.isNone then
    c
  else
    let c := if t.isStanding then
        { c with toAim := c.toAim.standing t, bUseControllerRotationYaw := true }
      else
        c
    let c := if t.isMoving then
        { c with toAim := c.toAim.moving t, bUseControllerRotationYaw := true }
      else
        c
    { c with toAim := c.toAim.pitched t c.isLocallyControlled }

section AimOffset

variable (t : Tick) (c : Character W)

@[simp]
theorem overlappedWeapon_aimOffset : (c.aimOffset t).overlappedWeapon = c.overlappedWeapon := by
  unfold Character.aimOffset
  split
  . rfl
  . cases t.isStanding <;> cases t.isMoving <;> rfl

@[simp]
theorem equippedWeapon_aimOffset : (c.aimOffset t).equippedWeapon = c.equippedWeapon := by
  unfold Character.aimOffset
  split
  . rfl
  . cases t.isStanding <;> cases t.isMoving <;> rfl

@[simp]
theorem bOrientRotationToMovement_aimOffset
    : (c.aimOffset t).bOrientRotationToMovement = c.bOrientRotationToMovement := by
  unfold Character.aimOffset
  split
  . rfl
  . cases t.isStanding <;> cases t.isMoving <;> rfl

@[simp]
theorem isLocallyControlled_aimOffset
    : (c.aimOffset t).isLocallyControlled = c.isLocallyControlled := by
  unfold Character.aimOffset
  split
  . rfl
  . cases t.isStanding <;> cases t.isMoving <;> rfl

-- With a weapon equipped one of the two branches is taken, and both face the controller.
@[simp]
theorem bUseControllerRotationYaw_aimOffset
    : (c.aimOffset t).bUseControllerRotationYaw
        =
      (c.equippedWeapon.isSome || c.bUseControllerRotationYaw) := by
  unfold Character.aimOffset
  rw [isMoving_eq_not_isStanding]
  cases hequipped : c.equippedWeapon with
  | none => simp
  | some w => cases t.isStanding <;> simp

end AimOffset

section Functions

variable [DecidableEq C] [DecidableEq W]

def World.setCharacter (c : C) (character : Character W) (s : World C W) : World C W :=
  { s with character := Function.update s.character c character }

def World.setWeapon (w : W) (weapon : Weapon C) (s : World C W) : World C W :=
  { s with weapon := Function.update s.weapon w weapon }

def showPickupWidget (bShowWidget : Bool) (w : W) (s : World C W) : World C W :=
  s.setWeapon w { s.weapon w with pickupWidgetVisible := bShowWidget }

-- `ShowPickupWidget` through a pointer that may be null, where the character is controlled locally.
def showOverlapped (bShowWidget : Bool) (c : C) (s : World C W) : World C W :=
  match (s.character c).isLocallyControlled, (s.character c).overlappedWeapon with
  | true, some w => showPickupWidget bShowWidget w s
  | _, _ => s

def setOverlappingWeapon (weapon : Option W) (c : C) (s : World C W) : World C W :=
  let s := showOverlapped false c s
  let s := s.setCharacter c { s.character c with overlappedWeapon := weapon }
  showOverlapped true c s

def onSphereOverlap (w : W) (c : C) (s : World C W) : World C W :=
  setOverlappingWeapon (some w) c s

def onSphereEndOverlap (c : C) (s : World C W) : World C W :=
  setOverlappingWeapon none c s

-- `SetCollisionEnabled(NoCollision)`: the characters inside leave one after the other.
def disableCollision (w : W) (s : World C W) : World C W :=
  let inside := s.overlaps w
  let s := s.setWeapon w { s.weapon w with areaSphereCollision := false }
  inside.foldl (fun s c => onSphereEndOverlap c s)
    { s with overlaps := Function.update s.overlaps w [] }

def setWeaponState (state : EWeaponState) (w : W) (s : World C W) : World C W :=
  let s := s.setWeapon w { s.weapon w with weaponState := state }
  match state with
  | .equipped => disableCollision w (showPickupWidget false w s)
  | _ => s

def setOwner (owner : C) (w : W) (s : World C W) : World C W :=
  s.setWeapon w { s.weapon w with owner := some owner }

def attachActor (c : C) (w : W) (s : World C W) : World C W :=
  s.setWeapon w { s.weapon w with attachParent := some c }

def faceController (c : C) (s : World C W) : World C W :=
  s.setCharacter c { s.character c with
    bUseControllerRotationYaw := true
    bOrientRotationToMovement := false }

-- The part of `EquipWeapon` after `SetWeaponState`.
def handOver (c : C) (w : W) (s : World C W) : World C W :=
  let s :=
    if (s.character c).rightHandSocket then
      faceController c (setOwner c w (attachActor c w s))
    else
      s
  faceController c (setOwner c w s)

def equipWeapon (weaponToEquip : Option W) (c : C) (s : World C W) : World C W :=
  match weaponToEquip with
  | none => s
  | some w =>
    let s := s.setCharacter c { s.character c with equippedWeapon := some w }
    handOver c w (setWeaponState .equipped w s)

-- With authority. Without, `EquipButtonPressed` only sends the RPC.
def equipButtonPressed (c : C) (s : World C W) : World C W :=
  equipWeapon (s.character c).overlappedWeapon c s

def serverEquipButtonPressed (c : C) (s : World C W) : World C W :=
  equipWeapon (s.character c).overlappedWeapon c s

end Functions

end Combat
