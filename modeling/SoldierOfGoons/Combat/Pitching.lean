import SoldierOfGoons.Combat.Animating

/-!
The pitch of the aim. Other machines read the pitch of a character as the engine has sent it, an angle
between 0 and 360 that is off by a small error, and `AimOffset` maps the angles past 90 degrees back
below zero.
-/

universe u v w

namespace Combat

variable {C : Type u} {W : Type v} {T : Type w}

theorem getMappedRangeValueClamped_pitch (pitch : ℚ)
    : getMappedRangeValueClamped 270 360 (-90) 0 pitch = max (min (pitch - 360) 0) (-90) := by
  have hscale (value : ℚ) : -90 + clamp value 0 1 * 90 = max (min (value * 90 - 90) 0) (-90) := by
    have hnonneg : (0 : ℚ) ≤ 90 := by norm_num
    unfold clamp
    rw [max_mul_of_nonneg _ _ hnonneg, min_mul_of_nonneg _ _ hnonneg, ← max_add_add_left,
      ← min_add_add_left]
    ring_nf
  have hvalue : (pitch - 270) / (360 - 270) * 90 - 90 = pitch - 360 := by ring
  have hrange : (0 : ℚ) - (-90) = 90 := by norm_num
  unfold getMappedRangeValueClamped
  rw [hrange, hscale, hvalue]

-- The pitch that `AimOffset` comes to.
def seenPitch (isLocallyControlled : Bool) (pitch : ℚ) : ℚ :=
  if pitch > 90 ∧ !isLocallyControlled then max (min (pitch - 360) 0) (-90) else pitch

theorem aoPitch_pitched (t : Tick) (isLocallyControlled : Bool) (a : Aim)
    : (a.pitched t isLocallyControlled).aoPitch
        =
      seenPitch isLocallyControlled t.baseAimRotation.pitch := by
  unfold Aim.pitched seenPitch
  dsimp only
  split
  . apply getMappedRangeValueClamped_pitch
  . rfl

theorem aoPitch_aimOffset (c : Character W) (t : Tick)
    : (c.aimOffset t).aoPitch
        =
      if c.equippedWeapon.isNone then c.aoPitch
      else seenPitch c.isLocallyControlled t.baseAimRotation.pitch := by
  rcases aimOffset_cases c t with ⟨hnone, heq⟩ | ⟨hsome, _, heq⟩ | ⟨hsome, _, heq⟩
  . rw [heq, if_pos hnone]
  . rw [heq, aoPitch_pitched]
    simp [Option.isSome_iff_ne_none.mp hsome]
  . rw [heq, aoPitch_pitched]
    simp [Option.isSome_iff_ne_none.mp hsome]

theorem seenPitch_range {isLocallyControlled : Bool} {pitch : ℚ} (hlow : -90 ≤ pitch)
    (hhigh : isLocallyControlled → pitch ≤ 90)
    : -90 ≤ seenPitch isLocallyControlled pitch ∧ seenPitch isLocallyControlled pitch ≤ 90 := by
  unfold seenPitch
  split
  . exact ⟨le_max_right _ _, max_le ((min_le_right _ _).trans (by norm_num)) (by norm_num)⟩
  . next hnot =>
    refine ⟨hlow, ?_⟩
    cases isLocallyControlled with
    | true => exact hhigh rfl
    | false =>
      by_contra hpast
      apply hnot
      exact ⟨by linarith, rfl⟩

/-!
What is sent is off by `e` at most, on the circle.
-/

theorem sent_cases {pitch sent e : ℚ} (hpitch : -90 ≤ pitch ∧ pitch ≤ 90)
    (hsent : 0 ≤ sent ∧ sent < 360) (hnear : |yawWay sent pitch| ≤ e) (he : e < 90)
    : |sent - pitch| ≤ e ∨ |sent - 360 - pitch| ≤ e := by
  obtain ⟨_, z, hz⟩ := (Smoothing.way_eq_iff turn_pos).mp (Eq.refl (yawWay sent pitch))
  obtain ⟨hlow, hhigh⟩ := abs_le.mp hnear
  have hz₁ : z < 1 := by
    by_contra hle
    have : (1 : ℚ) ≤ z := by exact_mod_cast not_lt.mp hle
    linarith [hpitch.2, hsent.1]
  have hz₂ : -2 < z := by
    by_contra hle
    have : (z : ℚ) ≤ -2 := by exact_mod_cast not_lt.mp hle
    linarith [hpitch.1, hsent.2]
  have hcases : z = 0 ∨ z = -1 := by omega
  rcases hcases with rfl | rfl
  . left
    rw [Int.cast_zero] at hz
    apply abs_le.mpr
    exact ⟨by linarith, by linarith⟩
  . right
    rw [Int.cast_neg, Int.cast_one] at hz
    apply abs_le.mpr
    exact ⟨by linarith, by linarith⟩

theorem seenPitch_past {pitch : ℚ} (h : 90 < pitch) (hlt : pitch < 360)
    : seenPitch false pitch = max (pitch - 360) (-90) := by
  unfold seenPitch
  rw [if_pos ⟨h, rfl⟩, min_eq_left (by linarith)]

-- An angle just past 90 degrees is taken for one straight down.
theorem seenPitch_just_past {pitch : ℚ} (h : 90 < pitch) (hlt : pitch < 180)
    : seenPitch false pitch = -90 := by
  rw [seenPitch_past h (by linarith)]
  apply max_eq_right
  linarith

theorem seenPitch_near_iff {pitch sent e : ℚ} (hpitch : -90 ≤ pitch ∧ pitch ≤ 90)
    (hsent : 0 ≤ sent ∧ sent < 360) (hnear : |yawWay sent pitch| ≤ e) (he : e < 90)
    : |seenPitch false sent - pitch| ≤ e ↔ sent ≤ 90 ∨ 180 ≤ sent := by
  rcases sent_cases hpitch hsent hnear he with habove | hbelow
  . by_cases hpast : sent ≤ 90
    . have hstays : seenPitch false sent = sent := if_neg (by simp [hpast])
      rw [hstays]
      exact iff_of_true habove (Or.inl hpast)
    . obtain ⟨hlow, hhigh⟩ := abs_le.mp habove
      rw [seenPitch_just_past (by linarith) (by linarith)]
      apply iff_of_false
      . intro hle
        have := (abs_le.mp hle).1
        linarith
      . rintro (hle | hle)
        . exact hpast hle
        . linarith
  . obtain ⟨hlow, hhigh⟩ := abs_le.mp hbelow
    have hover : 180 ≤ sent := by linarith
    rw [seenPitch_past (by linarith) hsent.2]
    apply iff_of_true _ (Or.inr hover)
    apply abs_le.mpr
    constructor
    . linarith [le_max_left (sent - 360) (-90)]
    . have : max (sent - 360) (-90) ≤ pitch + e := max_le (by linarith) (by linarith)
      linarith

/--
The others see the pitch of an armed character as well as it is sent, exactly if sending it has not
pushed it past 90 degrees; one that it has pushed past them is seen as straight down.
-/
theorem aoPitch_near_iff {c : Character W} {t : Tick} (hequipped : c.equippedWeapon.isSome)
    (hremote : c.isLocallyControlled = false) {pitch e : ℚ} (hpitch : -90 ≤ pitch ∧ pitch ≤ 90)
    (hsent : 0 ≤ t.baseAimRotation.pitch ∧ t.baseAimRotation.pitch < 360)
    (hnear : |yawWay t.baseAimRotation.pitch pitch| ≤ e) (he : e < 90)
    : (|(c.aimOffset t).aoPitch - pitch| ≤ e ↔
          t.baseAimRotation.pitch ≤ 90 ∨ 180 ≤ t.baseAimRotation.pitch) ∧
        (90 < t.baseAimRotation.pitch → t.baseAimRotation.pitch < 180 →
          (c.aimOffset t).aoPitch = -90) := by
  have hseen : (c.aimOffset t).aoPitch = seenPitch false t.baseAimRotation.pitch := by
    rw [aoPitch_aimOffset, hremote]
    simp [Option.isSome_iff_ne_none.mp hequipped]
  rw [hseen]
  exact ⟨seenPitch_near_iff hpitch hsent hnear he, seenPitch_just_past⟩

-- A byte sends 45 degrees down as 224 of 256 steps, and may send straight up as 65.
theorem aoPitch_near_byte
    : let c := (Character.constructed false true : Character Unit).equipWeapon ()
      let t (steps : ℚ) : Tick := ⟨1 / 60, 0, 0, false, ⟨steps * 360 / 256, 0, 0⟩⟩
      |(c.aimOffset (t 224)).aoPitch - (-45)| ≤ 360 / 256 ∧
        ¬|(c.aimOffset (t 65)).aoPitch - 90| ≤ 360 / 256 ∧ (c.aimOffset (t 65)).aoPitch = -90 := by
  intro c t
  have hnear₁ : |yawWay (t 224).baseAimRotation.pitch (-45)| ≤ 360 / 256 := by
    rw [yawWay_eq]
    decide +kernel
  have hnear₂ : |yawWay (t 65).baseAimRotation.pitch 90| ≤ 360 / 256 := by
    rw [yawWay_eq]
    decide +kernel
  have hdown := aoPitch_near_iff (c := c) (t := t 224) rfl rfl ⟨by norm_num, by norm_num⟩
    (by decide +kernel) hnear₁ (by norm_num)
  have hup := aoPitch_near_iff (c := c) (t := t 65) rfl rfl ⟨by norm_num, by norm_num⟩
    (by decide +kernel) hnear₂ (by norm_num)
  refine ⟨hdown.1.mpr (by decide +kernel), ?_, hup.2 (by decide +kernel) (by decide +kernel)⟩
  rw [hup.1]
  decide +kernel

/-!
Whatever is read where, no pitch leaves the range from straight down to straight up.
-/

def PitchRead (s : Scene C W T) : SceneMove C W T → Prop
  | .tick c t =>
    -90 ≤ t.baseAimRotation.pitch ∧
      ((s.world.character c).isLocallyControlled → t.baseAimRotation.pitch ≤ 90)
  | _ => True

instance decidablePitchRead (s : Scene C W T) : ∀ m, Decidable (PitchRead s m)
  | .tick c t =>
    inferInstanceAs (Decidable (-90 ≤ t.baseAimRotation.pitch ∧
      ((s.world.character c).isLocallyControlled → t.baseAimRotation.pitch ≤ 90)))
  | .pickup _ => inferInstanceAs (Decidable True)
  | .setAiming _ _ => inferInstanceAs (Decidable True)
  | .serverSetAiming _ _ => inferInstanceAs (Decidable True)
  | .nativeInitializeAnimation _ _ => inferInstanceAs (Decidable True)
  | .nativeUpdateAnimation _ _ => inferInstanceAs (Decidable True)

structure Levelled (s : Scene C W T) : Prop where
  character : ∀ c, -90 ≤ (s.world.character c).aoPitch ∧ (s.world.character c).aoPitch ≤ 90
  anim : ∀ c, -90 ≤ (s.anim c).aoPitch ∧ (s.anim c).aoPitch ≤ 90

theorem Levelled.update {s : Scene C W T} (h : Levelled s) (f : AnimFrame C W T) (c : C)
    : -90 ≤ ((s.anim c).nativeUpdateAnimation f s).aoPitch ∧
        ((s.anim c).nativeUpdateAnimation f s).aoPitch ≤ 90 := by
  cases hdraws : (s.anim c).draws f with
  | none =>
    rw [AnimInstance.nativeUpdateAnimation_of_none hdraws]
    exact h.anim c
  | some d =>
    obtain ⟨t, heq, _⟩ := AnimInstance.nativeUpdateAnimation_of_some (s := s) hdraws
    rw [heq]
    exact h.character d

variable [DecidableEq C] [DecidableEq W]

theorem Levelled.step {speeds : WalkSpeeds} {s s' : Scene C W T} {m : SceneMove C W T}
    (h : Levelled s) (hread : PitchRead s m) (hstep : (sceneMachine speeds).step s m = some s')
    : Levelled s' := by
  cases sceneTransition_of_step hstep with
  | pickup m world hpickup =>
    refine ⟨?_, h.anim⟩
    intro c
    rw [toAim_pickup hpickup c]
    exact h.character c
  | tick c t =>
    refine ⟨?_, h.anim⟩
    intro d
    rw [character_tick]
    split
    . next hd =>
      subst hd
      rw [aoPitch_aimOffset]
      split
      . exact h.character d
      . exact seenPitch_range hread.1 hread.2
    . exact h.character d
  | aiming m c bAiming combat hm => exact ⟨h.character, h.anim⟩
  | initialized c owner howner =>
    refine ⟨h.character, ?_⟩
    intro d
    rw [anim_setAnim]
    split
    . exact h.anim c
    . exact h.anim d
  | updated c f howner =>
    refine ⟨h.character, ?_⟩
    intro d
    rw [anim_setAnim]
    split
    . exact h.update f c
    . exact h.anim d

theorem levelled_of_run (speeds : WalkSpeeds) (identity : T)
    (isLocallyControlled rightHandSocket : C → Bool) (ms : List (SceneMove C W T))
    (hread : (sceneMachine speeds).Along PitchRead
      (Scene.initial speeds identity isLocallyControlled rightHandSocket) ms)
    : (sceneMachine speeds).Always Levelled
        (Scene.initial speeds identity isLocallyControlled rightHandSocket) ms := by
  apply Machine.always_of_along Levelled.step id _ hread
  have hzero : (-90 : ℚ) ≤ 0 ∧ (0 : ℚ) ≤ 90 := by norm_num
  exact ⟨fun _ => hzero, fun _ => hzero⟩

-- A character of another machine looks down, and is drawn so.
theorem levelled_looks_down
    : (sceneMachine .constructed).Always Levelled
        (Scene.initial .constructed () (fun _ => false) (fun _ => true) : Scene Unit Unit Unit)
        [.pickup (.beginOverlap () ()), .pickup (.serverEquipButtonPressed ()),
          .tick () ⟨1 / 60, 0, 0, false, ⟨300, 0, 0⟩⟩] := by
  apply levelled_of_run
  decide +kernel

end Combat
