import SoldierOfGoons.Combat.Aiming
import SoldierOfGoons.Combat.Network
import SoldierOfGoons.Combat.Turning
import SoldierOfGoons.Lib.Smoothing

/-!
`USupergoonAnimInstance`, which draws a character from what it last read of it. A `Scene` is what the
server has of each character: the character itself, its `CombatComponent` and the animation instance
of its mesh. An `AnimFrame` is what an update reads from the engine: `leftHand` gives for a weapon
the transform of its `LeftHandSocket` in the space of the bone `hand_r`, and `speed` and
`acceleration` are sizes.
-/

universe u v w

namespace Combat

def Rotator.isNearlyZero (r : Rotator) (tolerance : ℚ) : Bool :=
  |normalizeAxis r.pitch| ≤ tolerance ∧ |normalizeAxis r.yaw| ≤ tolerance ∧
    |normalizeAxis r.roll| ≤ tolerance

def Rotator.normalized (r : Rotator) : Rotator where
  pitch := normalizeAxis r.pitch
  yaw := normalizeAxis r.yaw
  roll := normalizeAxis r.roll

def rInterpTo (current target : Rotator) (deltaTime interpSpeed : ℚ) : Rotator :=
  if deltaTime = 0 ∨ current = target then
    current
  else if interpSpeed ≤ 0 then
    target
  else
    let delta := normalizedDeltaRotator target current
    if delta.isNearlyZero (1 / 10 ^ 4) then
      target
    else
      let alpha := clamp (interpSpeed * deltaTime) 0 1
      Rotator.normalized
        ⟨current.pitch + delta.pitch * alpha, current.yaw + delta.yaw * alpha,
          current.roll + delta.roll * alpha⟩

structure AnimInstance (C : Type u) (W : Type v) (T : Type w) where
  supergoonCharacter : Option C
  speed : ℚ
  bIsInAir : Bool
  bIsAccelerating : Bool
  bWeaponEquipped : Bool
  equippedWeapon : Option W
  bIsCrouched : Bool
  bIsAiming : Bool
  yawOffset : ℚ
  lean : ℚ
  aoYaw : ℚ
  aoPitch : ℚ
  turningInPlace : ETurningInPlace
  characterRotationLastFrame : Rotator
  characterRotation : Rotator
  deltaRotation : Rotator
  leftHandTransform : T

structure AnimFrame (C : Type u) (W : Type v) (T : Type w) where
  tryGetPawnOwner : Option C
  deltaSeconds : ℚ
  deltaSeconds_pos : 0 < deltaSeconds
  speed : ℚ
  isFalling : Bool
  acceleration : ℚ
  bIsCrouched : Bool
  baseAimRotation : Rotator
  movementRotation : Rotator
  actorRotation : Rotator
  leftHand : W → T

structure Scene (C : Type u) (W : Type v) (T : Type w) where
  world : World C W
  combat : C → CombatComponent
  anim : C → AnimInstance C W T

variable {C : Type u} {W : Type v} {T : Type w}

def Character.isWeaponEquipped (c : Character W) : Bool :=
  c.equippedWeapon.isSome

def Character.getEquippedWeapon (c : Character W) : Option W :=
  c.equippedWeapon

namespace AnimInstance

-- The first enumerator of `ETurningInPlace` is what the field starts as.
def constructed (identity : T) : AnimInstance C W T where
  supergoonCharacter := none
  speed := 0
  bIsInAir := false
  bIsAccelerating := false
  bWeaponEquipped := false
  equippedWeapon := none
  bIsCrouched := false
  bIsAiming := false
  yawOffset := 0
  lean := 0
  aoYaw := 0
  aoPitch := 0
  turningInPlace := .left
  characterRotationLastFrame := ⟨0, 0, 0⟩
  characterRotation := ⟨0, 0, 0⟩
  deltaRotation := ⟨0, 0, 0⟩
  leftHandTransform := identity

def nativeInitializeAnimation (tryGetPawnOwner : Option C) (a : AnimInstance C W T)
    : AnimInstance C W T :=
  { a with supergoonCharacter := tryGetPawnOwner }

-- The part of `NativeUpdateAnimation` that copies what the character shows.
def copy (f : AnimFrame C W T) (character : Character W) (combat : CombatComponent)
    (a : AnimInstance C W T) : AnimInstance C W T :=
  { a with
    speed := f.speed
    bIsInAir := f.isFalling
    bIsAccelerating := f.acceleration > 0
    bWeaponEquipped := character.isWeaponEquipped
    equippedWeapon := character.getEquippedWeapon
    turningInPlace := character.turningInPlace
    bIsCrouched := f.bIsCrouched
    bIsAiming := combat.bIsAiming
    aoYaw := character.aoYaw
    aoPitch := character.aoPitch }

def offsetYaw (f : AnimFrame C W T) (a : AnimInstance C W T) : AnimInstance C W T :=
  let frameDeltaRot := normalizedDeltaRotator f.movementRotation f.baseAimRotation
  let a := { a with deltaRotation := rInterpTo a.deltaRotation frameDeltaRot f.deltaSeconds 6 }
  { a with yawOffset := a.deltaRotation.yaw }

def leanOver (f : AnimFrame C W T) (a : AnimInstance C W T) : AnimInstance C W T :=
  let a := { a with characterRotationLastFrame := a.characterRotation }
  let a := { a with characterRotation := f.actorRotation }
  let deltaRotation := normalizedDeltaRotator a.characterRotation a.characterRotationLastFrame
  let target := deltaRotation.yaw / f.deltaSeconds
  let interp := fInterpTo a.lean target f.deltaSeconds 6
  { a with lean := clamp interp (-90) 90 }

def holdWeapon (f : AnimFrame C W T) (a : AnimInstance C W T) : AnimInstance C W T :=
  if a.bWeaponEquipped then
    match a.equippedWeapon with
    | some w => { a with leftHandTransform := f.leftHand w }
    | none => a
  else
    a

def nativeUpdateAnimation (f : AnimFrame C W T) (s : Scene C W T) (a : AnimInstance C W T)
    : AnimInstance C W T :=
  let a :=
    if a.supergoonCharacter.isNone then
      { a with supergoonCharacter := f.tryGetPawnOwner }
    else
      a
  match a.supergoonCharacter with
  | none => a
  | some c => (((a.copy f (s.world.character c) (s.combat c)).offsetYaw f).leanOver f).holdWeapon f

-- The character that an update draws, if it finds one.
def draws (f : AnimFrame C W T) (a : AnimInstance C W T) : Option C :=
  a.supergoonCharacter.or f.tryGetPawnOwner

variable {f : AnimFrame C W T} {s : Scene C W T} {a : AnimInstance C W T}

theorem holdWeapon_eq (harmed : a.bWeaponEquipped = a.equippedWeapon.isSome)
    : ∃ t, a.holdWeapon f = { a with leftHandTransform := t } ∧
        ∀ w, a.equippedWeapon = some w → t = f.leftHand w := by
  unfold holdWeapon
  split
  . split
    . next w hw =>
      refine ⟨f.leftHand w, rfl, ?_⟩
      intro v hv
      rw [Option.some.inj (hw.symm.trans hv)]
    . next hw => exact ⟨a.leftHandTransform, rfl, by simp [hw]⟩
  . next hnone =>
    refine ⟨a.leftHandTransform, rfl, ?_⟩
    intro w hw
    simp [harmed, hw] at hnone

theorem nativeUpdateAnimation_of_none (h : a.draws f = none)
    : a.nativeUpdateAnimation f s = a := by
  unfold draws at h
  rw [Option.or_eq_none_iff] at h
  obtain ⟨hnone, howner⟩ := h
  cases a
  simp only at hnone
  simp [nativeUpdateAnimation, hnone, howner]

theorem nativeUpdateAnimation_of_some {c : C} (h : a.draws f = some c)
    : ∃ t, a.nativeUpdateAnimation f s
        =
      { ((({ a with supergoonCharacter := some c }.copy f (s.world.character c)
          (s.combat c)).offsetYaw f).leanOver f) with leftHandTransform := t } ∧
        ∀ w, (s.world.character c).equippedWeapon = some w → t = f.leftHand w := by
  have hfound : a.nativeUpdateAnimation f s
      = ((({ a with supergoonCharacter := some c }.copy f (s.world.character c)
          (s.combat c)).offsetYaw f).leanOver f).holdWeapon f := by
    unfold draws at h
    cases ha : a.supergoonCharacter with
    | none =>
      rw [ha, Option.none_or] at h
      simp [nativeUpdateAnimation, ha, h]
    | some d =>
      rw [ha, Option.some_or, Option.some.injEq] at h
      subst h
      cases a
      simp only at ha
      simp [nativeUpdateAnimation, ha]
  rw [hfound]
  exact holdWeapon_eq rfl

end AnimInstance

-- The yaw that `RInterpTo` comes to stays in the range of a normalized rotator.
theorem rInterpTo_range {current target : Rotator} (hcurrent : -180 < current.yaw ∧ current.yaw ≤ 180)
    (htarget : -180 < target.yaw ∧ target.yaw ≤ 180) (deltaTime interpSpeed : ℚ)
    : -180 < (rInterpTo current target deltaTime interpSpeed).yaw ∧
        (rInterpTo current target deltaTime interpSpeed).yaw ≤ 180 := by
  unfold rInterpTo
  split
  . exact hcurrent
  . split
    . exact htarget
    . dsimp only
      split
      . exact htarget
      . apply normalizeAxis_range

/-!
An axis is normalized to the half-open circle around zero, and `RInterpTo` goes the short way on it.
-/

theorem turn_pos : (0 : ℚ) < 360 := by norm_num

theorem normalizeAxis_eq (angle : ℚ) : normalizeAxis angle = toIocMod turn_pos (-180) angle := by
  obtain ⟨hlt, hle⟩ := normalizeAxis_range angle
  symm
  rw [toIocMod_eq_iff]
  refine ⟨⟨hlt, by linarith⟩, ?_⟩
  unfold normalizeAxis clampAxis
  split
  . refine ⟨⌊angle / 360⌋ + 1, ?_⟩
    rw [zsmul_eq_mul, Int.cast_add, Int.cast_one]
    ring
  . refine ⟨⌊angle / 360⌋, ?_⟩
    rw [zsmul_eq_mul]
    ring

-- What is left of the short way from one yaw to another.
noncomputable def yawWay (a b : ℚ) : ℚ :=
  Smoothing.way turn_pos a b

theorem yawWay_eq (a b : ℚ) : yawWay a b = normalizeAxis (b - a) := by
  have hhalf : -((360 : ℚ) / 2) = -180 := by norm_num
  rw [normalizeAxis_eq, yawWay, Smoothing.way, hhalf]

end Combat
