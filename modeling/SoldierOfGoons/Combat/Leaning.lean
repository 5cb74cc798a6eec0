import SoldierOfGoons.Combat.Animating

/-!
How the animation of a character follows it. While the character turns at a steady rate its `Lean`
comes to that rate, as far as 90 degrees a second; while the movement keeps to one side of the aim
`YawOffset` comes to that side the short way round. Each update takes the same share of what is left,
whatever else the server does in between.
-/

universe u v w

namespace Combat

variable {C : Type u} {W : Type v} {T : Type w}

theorem scales_fInterpTo_clamp {current lo hi : ℚ} (hlo : lo ≤ current) (hhi : current ≤ hi)
    (target deltaTime : ℚ)
    : Smoothing.Scales (1 - clamp (deltaTime * 6) 0 1) (clamp target lo hi - current)
        (clamp target lo hi - clamp (fInterpTo current target deltaTime 6) lo hi) := by
  obtain ⟨hpos, hle⟩ := clamp_zero_one (deltaTime * 6)
  unfold fInterpTo
  rw [if_neg (by norm_num)]
  split
  . apply Smoothing.Scales.of_eq_zero (by linarith) (sub_self _)
  . apply Smoothing.scales_held hlo hhi hpos hle

theorem scales_rInterpTo (current target : Rotator) (deltaTime : ℚ)
    : Smoothing.Scales (1 - clamp (deltaTime * 6) 0 1) (yawWay current.yaw target.yaw)
        (yawWay (rInterpTo current target deltaTime 6).yaw target.yaw) := by
  obtain ⟨hpos, hle⟩ := clamp_zero_one (deltaTime * 6)
  have hleft : 0 ≤ 1 - clamp (deltaTime * 6) 0 1 := by linarith
  have hthere (yaw : ℚ) : yawWay yaw yaw = 0 := Smoothing.way_self _ yaw
  unfold rInterpTo
  split
  . next hstays =>
    rcases hstays with rfl | rfl
    . apply Smoothing.Scales.of_eq_mul hleft
      norm_num [clamp]
    . apply Smoothing.Scales.of_eq_zero hleft (hthere _)
  . rw [if_neg (by norm_num)]
    dsimp only
    split
    . apply Smoothing.Scales.of_eq_zero hleft (hthere _)
    . apply Smoothing.Scales.of_eq_mul hleft
      have hdelta : (normalizedDeltaRotator target current).yaw = yawWay current.yaw target.yaw :=
        (yawWay_eq current.yaw target.yaw).symm
      simp only [Rotator.normalized]
      rw [hdelta, mul_comm 6 deltaTime, normalizeAxis_eq, yawWay, Smoothing.way_toIocMod]
      exact Smoothing.way_add_mul _ _ _ hpos hle

variable [DecidableEq C]

-- What an update of the character leaves over of the way to the target.
def leftOver (c : C) : SceneMove C W T → ℚ
  | .nativeUpdateAnimation d f => if d = c then 1 - clamp (f.deltaSeconds * 6) 0 1 else 1
  | _ => 1

def TurnsAt (c : C) (rate : ℚ) (s : Scene C W T) : SceneMove C W T → Prop
  | .nativeUpdateAnimation d f =>
    d = c → (s.anim c).draws f = some c ∧
      (normalizedDeltaRotator f.actorRotation (s.anim c).characterRotation).yaw
        = rate * f.deltaSeconds
  | _ => True

def MovesTo (c : C) (side : Rotator) (s : Scene C W T) : SceneMove C W T → Prop
  | .nativeUpdateAnimation d f =>
    d = c → (s.anim c).draws f = some c ∧
      normalizedDeltaRotator f.movementRotation f.baseAimRotation = side
  | _ => True

instance decidableTurnsAt (c : C) (rate : ℚ) (s : Scene C W T)
    : ∀ m, Decidable (TurnsAt c rate s m)
  | .nativeUpdateAnimation d f =>
    inferInstanceAs (Decidable (d = c → (s.anim c).draws f = some c ∧
      (normalizedDeltaRotator f.actorRotation (s.anim c).characterRotation).yaw
        = rate * f.deltaSeconds))
  | .pickup _ => inferInstanceAs (Decidable True)
  | .tick _ _ => inferInstanceAs (Decidable True)
  | .setAiming _ _ => inferInstanceAs (Decidable True)
  | .serverSetAiming _ _ => inferInstanceAs (Decidable True)
  | .nativeInitializeAnimation _ _ => inferInstanceAs (Decidable True)

instance decidableMovesTo (c : C) (side : Rotator) (s : Scene C W T)
    : ∀ m, Decidable (MovesTo c side s m)
  | .nativeUpdateAnimation d f =>
    inferInstanceAs (Decidable (d = c → (s.anim c).draws f = some c ∧
      normalizedDeltaRotator f.movementRotation f.baseAimRotation = side))
  | .pickup _ => inferInstanceAs (Decidable True)
  | .tick _ _ => inferInstanceAs (Decidable True)
  | .setAiming _ _ => inferInstanceAs (Decidable True)
  | .serverSetAiming _ _ => inferInstanceAs (Decidable True)
  | .nativeInitializeAnimation _ _ => inferInstanceAs (Decidable True)

section Step

variable [DecidableEq W] {speeds : WalkSpeeds} {s s' : Scene C W T} {m : SceneMove C W T} {c : C}

-- A step that does not update the character leaves its instance alone, and takes no share.
theorem leftOver_cases (hstep : (sceneMachine speeds).step s m = some s') (c : C)
    : leftOver c m = 1 ∧ (s'.anim c).lean = (s.anim c).lean ∧
          (s'.anim c).yawOffset = (s.anim c).yawOffset ∨
        ∃ f, m = .nativeUpdateAnimation c f ∧ leftOver c m = 1 - clamp (f.deltaSeconds * 6) 0 1 ∧
          s'.anim c = (s.anim c).nativeUpdateAnimation f s := by
  cases sceneTransition_of_step hstep with
  | pickup m world hpickup => exact Or.inl ⟨rfl, rfl, rfl⟩
  | tick d t => exact Or.inl ⟨rfl, rfl, rfl⟩
  | aiming m d bAiming combat hm =>
    left
    rcases hm with rfl | rfl
    . exact ⟨rfl, rfl, rfl⟩
    . exact ⟨rfl, rfl, rfl⟩
  | initialized d owner howner =>
    left
    rw [anim_setAnim]
    split
    . next hc =>
      subst hc
      exact ⟨rfl, rfl, rfl⟩
    . exact ⟨rfl, rfl, rfl⟩
  | updated d f howner =>
    rw [anim_setAnim]
    by_cases hc : c = d
    . subst hc
      right
      exact ⟨f, rfl, by simp [leftOver], by rw [if_pos rfl]⟩
    . left
      rw [if_neg hc]
      exact ⟨by simp [leftOver, Ne.symm hc], rfl, rfl⟩

theorem scales_lean {rate : ℚ} (h : Staged s) (hrate : TurnsAt c rate s m)
    (hstep : (sceneMachine speeds).step s m = some s')
    : Smoothing.Scales (leftOver c m) (clamp rate (-90) 90 - (s.anim c).lean)
        (clamp rate (-90) 90 - (s'.anim c).lean) := by
  rcases leftOver_cases hstep c with ⟨hone, hlean, _⟩ | ⟨f, rfl, hshare, hanim⟩
  . rw [hone, hlean]
    apply Smoothing.Scales.refl
  . obtain ⟨hdraws, hturns⟩ := hrate rfl
    obtain ⟨t, heq, _⟩ := AnimInstance.nativeUpdateAnimation_of_some (s := s) hdraws
    have hlean : (s'.anim c).lean
        = clamp (fInterpTo (s.anim c).lean rate f.deltaSeconds 6) (-90) 90 := by
      rw [hanim, heq]
      have htarget : (normalizedDeltaRotator f.actorRotation (s.anim c).characterRotation).yaw
          / f.deltaSeconds = rate := by
        rw [hturns]
        apply mul_div_cancel_right₀ rate (ne_of_gt f.deltaSeconds_pos)
      simp only [AnimInstance.leanOver, AnimInstance.offsetYaw, AnimInstance.copy, htarget]
    obtain ⟨hlo, hhi⟩ := (h.posed c).lean
    rw [hshare, hlean]
    apply scales_fInterpTo_clamp hlo hhi

theorem scales_yawOffset {side : Rotator} (h : Staged s) (hside : MovesTo c side s m)
    (hstep : (sceneMachine speeds).step s m = some s')
    : Smoothing.Scales (leftOver c m) (yawWay (s.anim c).yawOffset side.yaw)
        (yawWay (s'.anim c).yawOffset side.yaw) := by
  rcases leftOver_cases hstep c with ⟨hone, _, hyaw⟩ | ⟨f, rfl, hshare, hanim⟩
  . rw [hone, hyaw]
    apply Smoothing.Scales.refl
  . obtain ⟨hdraws, hmoves⟩ := hside rfl
    obtain ⟨t, heq, _⟩ := AnimInstance.nativeUpdateAnimation_of_some (s := s) hdraws
    have hyaw : (s'.anim c).yawOffset
        = (rInterpTo (s.anim c).deltaRotation side f.deltaSeconds 6).yaw := by
      rw [hanim, heq]
      simp only [AnimInstance.leanOver, AnimInstance.offsetYaw, AnimInstance.copy, hmoves]
    rw [hshare, hyaw, (h.posed c).yawOffset]
    apply scales_rInterpTo

end Step

variable [DecidableEq W]

theorem staged_of_run {speeds : WalkSpeeds} {identity : T} {isLocallyControlled rightHandSocket : C → Bool}
    {ms : List (SceneMove C W T)} {s : Scene C W T}
    (hs : (sceneMachine speeds).run
      (Scene.initial speeds identity isLocallyControlled rightHandSocket) ms = some s) : Staged s :=
  Machine.run_invariant_of_step (fun h hstep => h.step hstep)
    (staged_initial speeds identity isLocallyControlled rightHandSocket) hs

/--
While a character turns at one rate, what its `Lean` is short of that rate, held between -90 and 90,
is scaled by each update and never changes its side.
-/
theorem lean_of_run {speeds : WalkSpeeds} {identity : T} {isLocallyControlled rightHandSocket : C → Bool}
    {ms ns : List (SceneMove C W T)} {s t : Scene C W T}
    (hs : (sceneMachine speeds).run
      (Scene.initial speeds identity isLocallyControlled rightHandSocket) ms = some s)
    (ht : (sceneMachine speeds).run s ns = some t) {c : C} {rate : ℚ}
    (hrate : (sceneMachine speeds).Along (TurnsAt c rate) s ns)
    : Smoothing.Scales (ns.map (leftOver c)).prod (clamp rate (-90) 90 - (s.anim c).lean)
        (clamp rate (-90) 90 - (t.anim c).lean) :=
  Smoothing.scales_run (fun s => clamp rate (-90) 90 - (s.anim c).lean) (leftOver c)
    (fun h hstep => h.step hstep) scales_lean (staged_of_run hs) hrate ht

def turningFrame (yaw : ℚ) : AnimFrame Unit Unit Unit where
  tryGetPawnOwner := some ()
  deltaSeconds := 1 / 10
  deltaSeconds_pos := by norm_num
  speed := 0
  isFalling := false
  acceleration := 0
  bIsCrouched := false
  baseAimRotation := ⟨0, yaw, 0⟩
  movementRotation := ⟨0, 190, 0⟩
  actorRotation := ⟨0, yaw, 0⟩
  leftHand _ := ()

-- A character that turns faster than the animation leans.
theorem lean_turns_fast
    : let s : Scene Unit Unit Unit := .initial .constructed () (fun _ => true) (fun _ => true)
      let ns : List (SceneMove Unit Unit Unit) := [.nativeUpdateAnimation () (turningFrame 10),
        .setAiming () true, .nativeUpdateAnimation () (turningFrame 20),
        .nativeUpdateAnimation () (turningFrame 30)]
      ∃ t, (sceneMachine .constructed).run s ns = some t ∧
        Smoothing.Scales (ns.map (leftOver ())).prod (clamp 100 (-90) 90 - (s.anim ()).lean)
          (clamp 100 (-90) 90 - (t.anim ()).lean) := by
  intro s ns
  have hs : (sceneMachine .constructed).run s [] = some s := rfl
  have hrate : (sceneMachine .constructed).Along (TurnsAt () 100) s ns := by
    decide +kernel
  exact ⟨_, rfl, lean_of_run hs rfl hrate⟩

/--
While the movement of a character keeps to one side of its aim, the short way from `YawOffset` to that
side is scaled by each update and never changes its direction.
-/
theorem yawOffset_of_run {speeds : WalkSpeeds} {identity : T}
    {isLocallyControlled rightHandSocket : C → Bool} {ms ns : List (SceneMove C W T)}
    {s t : Scene C W T}
    (hs : (sceneMachine speeds).run
      (Scene.initial speeds identity isLocallyControlled rightHandSocket) ms = some s)
    (ht : (sceneMachine speeds).run s ns = some t) {c : C} {side : Rotator}
    (hside : (sceneMachine speeds).Along (MovesTo c side) s ns)
    : Smoothing.Scales (ns.map (leftOver c)).prod (yawWay (s.anim c).yawOffset side.yaw)
        (yawWay (t.anim c).yawOffset side.yaw) :=
  Smoothing.scales_run (fun s => yawWay (s.anim c).yawOffset side.yaw) (leftOver c)
    (fun h hstep => h.step hstep) scales_yawOffset (staged_of_run hs) hside ht

-- The movement is behind the aim, and the short way there goes to the left.
theorem yawOffset_behind
    : let s : Scene Unit Unit Unit := .initial .constructed () (fun _ => true) (fun _ => true)
      let ns : List (SceneMove Unit Unit Unit) := [.nativeUpdateAnimation () (turningFrame 0),
        .setAiming () true, .nativeUpdateAnimation () (turningFrame 0)]
      ∃ t, (sceneMachine .constructed).run s ns = some t ∧
        Smoothing.Scales (ns.map (leftOver ())).prod (yawWay (s.anim ()).yawOffset (-170))
          (yawWay (t.anim ()).yawOffset (-170)) := by
  intro s ns
  have hs : (sceneMachine .constructed).run s [] = some s := rfl
  have hside : (sceneMachine .constructed).Along (MovesTo () ⟨0, -170, 0⟩) s ns := by
    decide +kernel
  exact ⟨_, rfl, yawOffset_of_run hs rfl hside⟩

end Combat
