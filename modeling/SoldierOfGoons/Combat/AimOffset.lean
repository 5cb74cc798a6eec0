import Mathlib.Data.Rat.Floor

/-!
The aim offset of a character: `AimOffset` and `TurnInPlace` of `ASupergoonCharacter` with the
functions of `FMath`, `FRotator` and `UKismetMathLibrary` they call, over exact rationals. `Aim` are
the fields that only they write, a tick is what they read from the engine. The branch of `AimOffset`
for a character that stands still on the ground is `standing`, the one for a character that moves or
is in the air `moving`.
-/

namespace Combat

inductive ETurningInPlace where
  | left
  | right
  | notTurning
  | max
  deriving DecidableEq, Repr

structure Rotator where
  pitch : ℚ
  yaw : ℚ
  roll : ℚ
  deriving DecidableEq

def clamp (value min max : ℚ) : ℚ :=
  Max.max (Min.min value max) min

def clampAxis (angle : ℚ) : ℚ :=
  angle - 360 * ⌊angle / 360⌋

def normalizeAxis (angle : ℚ) : ℚ :=
  if clampAxis angle > 180 then
    clampAxis angle - 360
  else
    clampAxis angle

def normalizedDeltaRotator (a b : Rotator) : Rotator where
  pitch := normalizeAxis (a.pitch - b.pitch)
  yaw := normalizeAxis (a.yaw - b.yaw)
  roll := normalizeAxis (a.roll - b.roll)

def fInterpTo (current target deltaTime interpSpeed : ℚ) : ℚ :=
  if interpSpeed ≤ 0 then
    target
  else if (target - current) ^ 2 < 1 / 10 ^ 8 then
    target
  else
    current + (target - current) * clamp (deltaTime * interpSpeed) 0 1

def getMappedRangeValueClamped (inMin inMax outMin outMax value : ℚ) : ℚ :=
  outMin + clamp ((value - inMin) / (inMax - inMin)) 0 1 * (outMax - outMin)

structure Aim where
  aoYaw : ℚ
  interpAOYaw : ℚ
  aoPitch : ℚ
  startingAimRotation : Rotator
  turningInPlace : ETurningInPlace

structure Tick where
  deltaTime : ℚ
  velocityX : ℚ
  velocityY : ℚ
  isFalling : Bool
  baseAimRotation : Rotator

-- The speed is only compared with zero, so its square will do.
def Tick.speedSquared (t : Tick) : ℚ :=
  t.velocityX ^ 2 + t.velocityY ^ 2

def turnInPlace (t : Tick) (a : Aim) : Aim :=
  let a :=
    if a.aoYaw > 90 then
      { a with turningInPlace := .right }
    else if a.aoYaw < -90 then
      { a with turningInPlace := .left }
    else
      a
  if a.turningInPlace ≠ .notTurning then
    let interpAOYaw := fInterpTo a.interpAOYaw 0 t.deltaTime 6
    let a := { a with interpAOYaw := interpAOYaw, aoYaw := interpAOYaw }
    if |a.aoYaw| < 15 then
      { a with
        turningInPlace := .notTurning
        startingAimRotation := ⟨0, t.baseAimRotation.yaw, 0⟩ }
    else
      a
  else
    a

def Aim.standing (t : Tick) (a : Aim) : Aim :=
  let currentAimRotation : Rotator := ⟨0, t.baseAimRotation.yaw, 0⟩
  let deltaAimRotation := normalizedDeltaRotator currentAimRotation a.startingAimRotation
  let a := { a with aoYaw := deltaAimRotation.yaw }
  let a := if a.turningInPlace = .notTurning then { a with interpAOYaw := a.aoYaw } else a
  turnInPlace t a

def Aim.moving (t : Tick) (a : Aim) : Aim :=
  { a with
    startingAimRotation := ⟨0, t.baseAimRotation.yaw, 0⟩
    aoYaw := 0
    turningInPlace := .notTurning }

def Aim.pitched (t : Tick) (isLocallyControlled : Bool) (a : Aim) : Aim :=
  let aoPitch := t.baseAimRotation.pitch
  if aoPitch > 90 ∧ !isLocallyControlled then
    -- Pitches from 270 to 360 are the negative ones, the engine has compressed them.
    { a with aoPitch := getMappedRangeValueClamped 270 360 (-90) 0 aoPitch }
  else
    { a with aoPitch := aoPitch }

-- Which of the two branches of `AimOffset` are taken: both test the same speed.
def Tick.isStanding (t : Tick) : Bool :=
  t.speedSquared = 0 ∧ !t.isFalling

def Tick.isMoving (t : Tick) : Bool :=
  t.speedSquared > 0 ∨ t.isFalling

theorem isMoving_eq_not_isStanding (t : Tick) : t.isMoving = !t.isStanding := by
  have hpos : 0 ≤ t.speedSquared := add_nonneg (sq_nonneg _) (sq_nonneg _)
  unfold Tick.isMoving Tick.isStanding
  by_cases hzero : t.speedSquared = 0
  . cases t.isFalling <;> simp [hzero]
  . have : 0 < t.speedSquared := lt_of_le_of_ne hpos (Ne.symm hzero)
    simp [hzero, this]

-- The members that no constructor sets are zero.
def Aim.initial : Aim where
  aoYaw := 0
  interpAOYaw := 0
  aoPitch := 0
  startingAimRotation := ⟨0, 0, 0⟩
  turningInPlace := .notTurning

end Combat
