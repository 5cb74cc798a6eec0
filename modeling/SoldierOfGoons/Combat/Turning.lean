import SoldierOfGoons.Combat.Basic
import SoldierOfGoons.Lib.Machine
import Mathlib.Tactic.Linarith

/-!
What a tick of `AimOffset` does to the aim of a character, and the ranges in which the aim stays. On
the ground the aim is measured from `StartingAimRotation`; the yaw that is measured picks the
direction of a turn in every tick, but the turn goes on from the yaw that is unwound already.
-/

universe v

namespace Combat

theorem clampAxis_range (angle : ℚ) : 0 ≤ clampAxis angle ∧ clampAxis angle < 360 := by
  have hle := Int.floor_le (angle / 360)
  have hlt := Int.lt_floor_add_one (angle / 360)
  have hangle : angle / 360 * 360 = angle := by ring
  unfold clampAxis
  constructor <;> linarith

theorem normalizeAxis_range (angle : ℚ) : -180 < normalizeAxis angle ∧ normalizeAxis angle ≤ 180 := by
  obtain ⟨hpos, hlt⟩ := clampAxis_range angle
  unfold normalizeAxis
  split
  . constructor <;> linarith
  . constructor <;> linarith

theorem clamp_zero_one (value : ℚ) : 0 ≤ clamp value 0 1 ∧ clamp value 0 1 ≤ 1 := by
  unfold clamp
  constructor
  . apply le_max_right
  . apply max_le
    . apply min_le_right
    . exact zero_le_one

theorem fInterpTo_zero (current deltaTime : ℚ)
    : fInterpTo current 0 deltaTime 6
        =
      if current ^ 2 < 1 / 10 ^ 8 then 0 else current * (1 - clamp (deltaTime * 6) 0 1) := by
  have hsq : (0 - current) ^ 2 = current ^ 2 := by ring
  unfold fInterpTo
  rw [if_neg (by norm_num), hsq]
  split
  . rfl
  . ring

theorem fInterpTo_scales (current deltaTime : ℚ)
    : ∃ q, 0 ≤ q ∧ q ≤ 1 - clamp (deltaTime * 6) 0 1 ∧
        fInterpTo current 0 deltaTime 6 = q * current := by
  have hle := (clamp_zero_one (deltaTime * 6)).2
  rw [fInterpTo_zero]
  split
  . exact ⟨0, le_refl 0, by linarith, by ring⟩
  . exact ⟨1 - clamp (deltaTime * 6) 0 1, by linarith, le_refl _, by ring⟩

theorem abs_fInterpTo_le (current deltaTime : ℚ)
    : |fInterpTo current 0 deltaTime 6| ≤ (1 - clamp (deltaTime * 6) 0 1) * |current| := by
  obtain ⟨q, hpos, hle, heq⟩ := fInterpTo_scales current deltaTime
  rw [heq, abs_mul, abs_of_nonneg hpos]
  apply mul_le_mul_of_nonneg_right hle (abs_nonneg current)

theorem abs_fInterpTo_le_abs (current deltaTime : ℚ)
    : |fInterpTo current 0 deltaTime 6| ≤ |current| := by
  have hpos := (clamp_zero_one (deltaTime * 6)).1
  calc |fInterpTo current 0 deltaTime 6|
      ≤ (1 - clamp (deltaTime * 6) 0 1) * |current| := abs_fInterpTo_le current deltaTime
    _ ≤ 1 * |current| := mul_le_mul_of_nonneg_right (by linarith) (abs_nonneg current)
    _ = |current| := one_mul |current|

namespace Aim

variable (t : Tick) (a : Aim)

-- The yaw of the aim against `StartingAimRotation`.
def rawYaw : ℚ :=
  (normalizedDeltaRotator ⟨0, t.baseAimRotation.yaw, 0⟩ a.startingAimRotation).yaw

def turnsTo : ETurningInPlace :=
  if a.rawYaw t > 90 then .right else if a.rawYaw t < -90 then .left else a.turningInPlace

def unwound : ℚ :=
  fInterpTo (if a.turningInPlace = .notTurning then a.rawYaw t else a.interpAOYaw) 0 t.deltaTime 6

theorem abs_rawYaw_le : |a.rawYaw t| ≤ 180 := by
  obtain ⟨hlt, hle⟩ := normalizeAxis_range (t.baseAimRotation.yaw - a.startingAimRotation.yaw)
  apply abs_le.mpr
  exact ⟨le_of_lt hlt, hle⟩

theorem abs_rawYaw_le_of_turnsTo (h : a.turnsTo t = .notTurning)
    : a.turningInPlace = .notTurning ∧ |a.rawYaw t| ≤ 90 := by
  unfold turnsTo at h
  split at h
  . cases h
  . split at h
    . cases h
    . exact ⟨h, abs_le.mpr ⟨by linarith, by linarith⟩⟩

theorem standing_eq
    : a.standing t
        =
      if a.turnsTo t = .notTurning then
        { a with aoYaw := a.rawYaw t, interpAOYaw := a.rawYaw t }
      else if |a.unwound t| < 15 then
        { a with
          aoYaw := a.unwound t
          interpAOYaw := a.unwound t
          turningInPlace := .notTurning
          startingAimRotation := ⟨0, t.baseAimRotation.yaw, 0⟩ }
      else
        { a with
          aoYaw := a.unwound t
          interpAOYaw := a.unwound t
          turningInPlace := a.turnsTo t } := by
  have hraw : (normalizedDeltaRotator ⟨0, t.baseAimRotation.yaw, 0⟩ a.startingAimRotation).yaw
      = a.rawYaw t := rfl
  unfold Aim.standing turnInPlace turnsTo unwound
  simp only [hraw]
  by_cases hturning : a.turningInPlace = .notTurning
  . by_cases hright : a.rawYaw t > 90
    . simp [hturning, hright]
    . by_cases hleft : a.rawYaw t < -90
      . simp [hturning, hright, hleft]
      . simp [hturning, hright, hleft]
  . by_cases hright : a.rawYaw t > 90
    . simp [hturning, hright]
    . by_cases hleft : a.rawYaw t < -90
      . simp [hturning, hright, hleft]
      . simp [hturning, hright, hleft]

theorem unwound_of_turning (h : a.turningInPlace ≠ .notTurning)
    : a.unwound t = fInterpTo a.interpAOYaw 0 t.deltaTime 6 := by
  unfold unwound
  rw [if_neg h]

theorem standing_of_turning (h : a.turningInPlace ≠ .notTurning)
    : (a.standing t).aoYaw = fInterpTo a.interpAOYaw 0 t.deltaTime 6 ∧
        (a.standing t).interpAOYaw = fInterpTo a.interpAOYaw 0 t.deltaTime 6 ∧
        ((a.standing t).turningInPlace = .notTurning ∧
            (a.standing t).startingAimRotation.yaw = t.baseAimRotation.yaw ∨
          (a.standing t).turningInPlace ≠ .notTurning ∧
            15 ≤ |fInterpTo a.interpAOYaw 0 t.deltaTime 6|) := by
  have hturns : a.turnsTo t ≠ .notTurning := by
    intro hnot
    apply h (a.abs_rawYaw_le_of_turnsTo t hnot).1
  rw [standing_eq, if_neg hturns, a.unwound_of_turning t h]
  split
  . exact ⟨rfl, rfl, Or.inl ⟨rfl, rfl⟩⟩
  . next hlarge => exact ⟨rfl, rfl, Or.inr ⟨hturns, by linarith⟩⟩

structure InRange : Prop where
  facing : a.turningInPlace = .notTurning → |a.aoYaw| ≤ 90
  turning : a.turningInPlace ≠ .notTurning →
    15 ≤ |a.aoYaw| ∧ |a.aoYaw| ≤ 180 ∧ a.aoYaw = a.interpAOYaw

variable {t a}

theorem InRange.abs_unwound_le (h : a.InRange) : |a.unwound t| ≤ 180 := by
  unfold unwound
  split
  . exact (abs_fInterpTo_le_abs _ _).trans (a.abs_rawYaw_le t)
  . next hturning =>
    obtain ⟨_, hle, heq⟩ := h.turning hturning
    rw [heq] at hle
    exact (abs_fInterpTo_le_abs _ _).trans hle

theorem InRange.standing (h : a.InRange) : (a.standing t).InRange := by
  rw [standing_eq]
  split
  . next hturns =>
    obtain ⟨hnot, hle⟩ := a.abs_rawYaw_le_of_turnsTo t hturns
    exact ⟨fun _ => hle, fun hturning => absurd hnot hturning⟩
  . next hturns =>
    split
    . next hsmall => exact ⟨fun _ => by simp only; linarith, fun hturning => absurd rfl hturning⟩
    . next hlarge =>
      constructor
      . exact fun hnot => absurd hnot hturns
      . exact fun _ => ⟨by simp only; linarith, h.abs_unwound_le, rfl⟩

theorem inRange_moving : (a.moving t).InRange := by
  constructor
  . simp [moving]
  . exact fun hturning => absurd rfl hturning

section Pitched

variable (t : Tick) (isLocallyControlled : Bool) (a : Aim)

@[simp]
theorem aoYaw_pitched : (a.pitched t isLocallyControlled).aoYaw = a.aoYaw := by
  dsimp only [pitched]
  split <;> rfl

@[simp]
theorem interpAOYaw_pitched : (a.pitched t isLocallyControlled).interpAOYaw = a.interpAOYaw := by
  dsimp only [pitched]
  split <;> rfl

@[simp]
theorem turningInPlace_pitched
    : (a.pitched t isLocallyControlled).turningInPlace = a.turningInPlace := by
  dsimp only [pitched]
  split <;> rfl

@[simp]
theorem startingAimRotation_pitched
    : (a.pitched t isLocallyControlled).startingAimRotation = a.startingAimRotation := by
  dsimp only [pitched]
  split <;> rfl

end Pitched

theorem InRange.pitched (h : a.InRange) (isLocallyControlled : Bool)
    : (a.pitched t isLocallyControlled).InRange := by
  constructor
  . simpa using h.facing
  . simpa using h.turning

end Aim

variable {W : Type v}

theorem aimOffset_cases (c : Character W) (t : Tick)
    : c.equippedWeapon.isNone ∧ c.aimOffset t = c ∨
      c.equippedWeapon.isSome ∧ t.isStanding ∧
        (c.aimOffset t).toAim = (c.toAim.standing t).pitched t c.isLocallyControlled ∨
      c.equippedWeapon.isSome ∧ t.isMoving ∧
        (c.aimOffset t).toAim = (c.toAim.moving t).pitched t c.isLocallyControlled := by
  unfold Character.aimOffset
  rw [isMoving_eq_not_isStanding]
  cases hequipped : c.equippedWeapon with
  | none => simp
  | some w => cases t.isStanding <;> simp

/-!
A character between the ticks gets weapons, which changes nothing about its aim.
-/

inductive TurnMove (W : Type v) where
  | equipWeapon (w : W)
  | aimOffset (t : Tick)

def Character.equipWeapon (w : W) (c : Character W) : Character W :=
  { c with
    equippedWeapon := some w
    bUseControllerRotationYaw := true
    bOrientRotationToMovement := false }

def turnStep (c : Character W) : TurnMove W → Option (Character W)
  | .equipWeapon w => some (c.equipWeapon w)
  | .aimOffset t => some (c.aimOffset t)

def turnMachine : Machine (Character W) (TurnMove W) := ⟨turnStep⟩

def Character.unturned (c : Character W) : Character W :=
  { c with aoYaw := 0, interpAOYaw := 0, turningInPlace := .notTurning }

structure Turnable (c : Character W) : Prop where
  inRange : c.toAim.InRange
  not_max : c.turningInPlace ≠ .max
  equipped : c.turningInPlace ≠ .notTurning → c.equippedWeapon.isSome

theorem turnable_unturned (c : Character W) : Turnable c.unturned := by
  constructor
  . constructor
    . simp [Character.unturned]
    . exact fun hturning => absurd rfl hturning
  . simp [Character.unturned]
  . exact fun hturning => absurd rfl hturning

theorem turnsTo_ne_max {a : Aim} (h : a.turningInPlace ≠ .max) (t : Tick) : a.turnsTo t ≠ .max := by
  unfold Aim.turnsTo
  split
  . simp
  . split
    . simp
    . exact h

theorem turningInPlace_standing (t : Tick) (a : Aim)
    : (a.standing t).turningInPlace = a.turnsTo t ∨ (a.standing t).turningInPlace = .notTurning := by
  rw [Aim.standing_eq]
  split
  . next hturns => exact Or.inr (a.abs_rawYaw_le_of_turnsTo t hturns).1
  . split
    . exact Or.inr rfl
    . exact Or.inl rfl

theorem Turnable.aimOffset {c : Character W} (h : Turnable c) (t : Tick)
    : Turnable (c.aimOffset t) := by
  rcases aimOffset_cases c t with ⟨_, heq⟩ | ⟨hequipped, _, heq⟩ | ⟨hequipped, _, heq⟩
  . rwa [heq]
  . constructor
    . rw [heq]
      apply h.inRange.standing.pitched
    . rw [heq, Aim.turningInPlace_pitched]
      rcases turningInPlace_standing t c.toAim with hturns | hturns
      . rw [hturns]
        apply turnsTo_ne_max h.not_max t
      . simp [hturns]
    . intro _
      rwa [equippedWeapon_aimOffset]
  . constructor
    . rw [heq]
      apply Aim.inRange_moving.pitched
    . simp [heq, Aim.moving]
    . intro _
      rwa [equippedWeapon_aimOffset]

theorem Turnable.step {c c' : Character W} {m : TurnMove W} (h : Turnable c)
    (hstep : turnMachine.step c m = some c') : Turnable c' := by
  cases m with
  | equipWeapon w =>
    cases hstep
    exact ⟨⟨h.inRange.facing, h.inRange.turning⟩, h.not_max, fun _ => rfl⟩
  | aimOffset t =>
    cases hstep
    apply h.aimOffset t

-- A character that moves or is in the air has its aim straight ahead.
def Straightens (c : Character W) : TurnMove W → Prop
  | .equipWeapon _ => True
  | .aimOffset t =>
    c.equippedWeapon.isSome → t.isMoving →
      (c.aimOffset t).aoYaw = 0 ∧ (c.aimOffset t).turningInPlace = .notTurning ∧
        (c.aimOffset t).startingAimRotation.yaw = t.baseAimRotation.yaw

theorem straightens (c : Character W) (m : TurnMove W) : Straightens c m := by
  cases m with
  | equipWeapon w => trivial
  | aimOffset t =>
    intro hequipped hmoving
    rcases aimOffset_cases c t with ⟨hnone, _⟩ | ⟨_, hstanding, _⟩ | ⟨_, _, heq⟩
    . simp [Option.isNone_iff_eq_none.mp hnone] at hequipped
    . simp [isMoving_eq_not_isStanding, hstanding] at hmoving
    . rw [heq]
      simp [Aim.moving]

theorem inRange_of_run (c : Character W) (ms : List (TurnMove W))
    : turnMachine.Always (fun c => c.toAim.InRange) c.unturned ms ∧
        turnMachine.Along Straightens c.unturned ms := by
  constructor
  . exact Machine.always_of_along (G := fun _ _ => True) (fun h _ hstep => h.step hstep)
      Turnable.inRange (turnable_unturned c) (turnMachine.along_true _ ms)
  . exact Machine.along_of_along (G := fun _ _ => True) (I := fun _ => True)
      (fun _ _ _ => trivial) (fun _ _ _ => straightens _ _) trivial (turnMachine.along_true _ ms)

end Combat
