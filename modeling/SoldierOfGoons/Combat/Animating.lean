import SoldierOfGoons.Combat.AnimInstance
import SoldierOfGoons.Combat.Claiming
import SoldierOfGoons.Combat.Hosting
import SoldierOfGoons.Lib.Conduit

/-!
The server with the animation instances of its characters, where pick-ups, ticks, aiming and updates
of the animations come in any order. An instance draws what it read in its last update, while the
character has gone on; what it draws was true at once then, and the weapon it holds still belongs to
its character. The last update is found in the history of the run, which has each move with the state
before it.
-/

universe u v w

namespace Combat

variable {C : Type u} {W : Type v} {T : Type w}

inductive SceneMove (C : Type u) (W : Type v) (T : Type w) where
  | pickup (m : PickupMove C W)
  | tick (c : C) (t : Tick)
  | setAiming (c : C) (bAiming : Bool)
  | serverSetAiming (c : C) (bAiming : Bool)
  | nativeInitializeAnimation (c : C) (tryGetPawnOwner : Option C)
  | nativeUpdateAnimation (c : C) (f : AnimFrame C W T)

def Scene.initial (speeds : WalkSpeeds) (identity : T) (isLocallyControlled rightHandSocket : C → Bool)
    : Scene C W T where
  world := .initial true isLocallyControlled rightHandSocket
  combat _ := .beginPlay speeds
  anim _ := .constructed identity

section Machine

variable [DecidableEq C] [DecidableEq W]

def Scene.setCombat (c : C) (combat : CombatComponent) (s : Scene C W T) : Scene C W T :=
  { s with combat := Function.update s.combat c combat }

def Scene.setAnim (c : C) (anim : AnimInstance C W T) (s : Scene C W T) : Scene C W T :=
  { s with anim := Function.update s.anim c anim }

-- The pawn that owns the mesh is the character, as soon as there is one.
def sceneStep (speeds : WalkSpeeds) (s : Scene C W T) : SceneMove C W T → Option (Scene C W T)
  | .pickup m => (pickupMachine.step s.world m).map fun world => { s with world }
  | .tick c t => some { s with world := s.world.tick c t }
  | .setAiming c bAiming => some (s.setCombat c ((s.combat c).setAiming speeds bAiming))
  | .serverSetAiming c bAiming => some (s.setCombat c ((s.combat c).serverSetAiming speeds bAiming))
  | .nativeInitializeAnimation c owner =>
    if owner.all (· = c) then
      some (s.setAnim c ((s.anim c).nativeInitializeAnimation owner))
    else
      none
  | .nativeUpdateAnimation c f =>
    if f.tryGetPawnOwner.all (· = c) then
      some (s.setAnim c ((s.anim c).nativeUpdateAnimation f s))
    else
      none

def sceneMachine (speeds : WalkSpeeds) : Machine (Scene C W T) (SceneMove C W T) :=
  ⟨sceneStep speeds⟩

inductive SceneTransition (s : Scene C W T) : SceneMove C W T → Scene C W T → Prop where
  | pickup (m : PickupMove C W) (world : World C W) (hstep : pickupMachine.step s.world m = some world)
    : SceneTransition s (.pickup m) { s with world }
  | tick (c : C) (t : Tick) : SceneTransition s (.tick c t) { s with world := s.world.tick c t }
  | aiming (m : SceneMove C W T) (c : C) (bAiming : Bool) (combat : CombatComponent)
      (hm : m = .setAiming c bAiming ∨ m = .serverSetAiming c bAiming)
    : SceneTransition s m (s.setCombat c combat)
  | initialized (c : C) (owner : Option C) (howner : ∀ d, owner = some d → d = c)
    : SceneTransition s (.nativeInitializeAnimation c owner)
        (s.setAnim c ((s.anim c).nativeInitializeAnimation owner))
  | updated (c : C) (f : AnimFrame C W T) (howner : ∀ d, f.tryGetPawnOwner = some d → d = c)
    : SceneTransition s (.nativeUpdateAnimation c f)
        (s.setAnim c ((s.anim c).nativeUpdateAnimation f s))

theorem sceneTransition_of_step {speeds : WalkSpeeds} {s s' : Scene C W T} {m : SceneMove C W T}
    (h : (sceneMachine speeds).step s m = some s') : SceneTransition s m s' := by
  simp only [sceneMachine] at h
  cases m with
  | pickup m =>
    simp only [sceneStep, Option.map_eq_some_iff] at h
    obtain ⟨world, hstep, rfl⟩ := h
    exact .pickup m world hstep
  | tick c t =>
    cases h
    exact .tick c t
  | setAiming c bAiming =>
    cases h
    exact .aiming _ c bAiming _ (Or.inl rfl)
  | serverSetAiming c bAiming =>
    cases h
    exact .aiming _ c bAiming _ (Or.inr rfl)
  | nativeInitializeAnimation c owner =>
    simp only [sceneStep, Option.ite_none_right_eq_some, Option.some.injEq] at h
    obtain ⟨hall, rfl⟩ := h
    apply SceneTransition.initialized c owner
    rintro d rfl
    simpa using hall
  | nativeUpdateAnimation c f =>
    simp only [sceneStep, Option.ite_none_right_eq_some, Option.some.injEq] at h
    obtain ⟨hall, rfl⟩ := h
    apply SceneTransition.updated c f
    intro d hd
    simpa [hd] using hall

end Machine

-- What an instance has copied from its character fits together.
structure AnimInstance.Consistent (a : AnimInstance C W T) : Prop where
  armed : a.bWeaponEquipped = a.equippedWeapon.isSome
  unarmed : a.bWeaponEquipped = false → a.aoYaw = 0 ∧ a.aoPitch = 0 ∧ a.turningInPlace = .notTurning
  facing : a.turningInPlace = .notTurning → |a.aoYaw| ≤ 90
  turning : a.turningInPlace ≠ .notTurning → 15 ≤ |a.aoYaw| ∧ |a.aoYaw| ≤ 180
  not_max : a.turningInPlace ≠ .max

structure AnimInstance.Posed (a : AnimInstance C W T) : Prop where
  lean : -90 ≤ a.lean ∧ a.lean ≤ 90
  yawOffset : a.yawOffset = a.deltaRotation.yaw
  range : -180 < a.deltaRotation.yaw ∧ a.deltaRotation.yaw ≤ 180

-- Nothing was read of a character yet.
def AnimInstance.Unread (identity : T) (a : AnimInstance C W T) : Prop :=
  ({ a with supergoonCharacter := none } : AnimInstance C W T) = constructed identity

-- What there was to read in an update.
structure Shot (C : Type u) (W : Type v) (T : Type w) where
  character : Character W
  combat : CombatComponent
  frame : AnimFrame C W T

/--
What the moves say of the instance of one character: whether its pawn has been found, and what its
last update found there.
-/
structure Watch (C : Type u) (W : Type v) (T : Type w) where
  bound : Bool
  shot : Option (Shot C W T)

def Watch.see [DecidableEq C] (c : C) (h : Watch C W T)
    : Scene C W T × SceneMove C W T → Watch C W T
  | (_, .nativeInitializeAnimation d owner) => if d = c then { h with bound := owner.isSome } else h
  | (s, .nativeUpdateAnimation d f) =>
    if d = c ∧ (h.bound || f.tryGetPawnOwner.isSome) then
      ⟨true, some ⟨s.world.character c, s.combat c, f⟩⟩
    else
      h
  | _ => h

def watch [DecidableEq C] (c : C) (history : List (Scene C W T × SceneMove C W T)) : Watch C W T :=
  history.foldl (Watch.see c) ⟨false, none⟩

structure AnimInstance.Shows (a : AnimInstance C W T) (x : Shot C W T) : Prop where
  speed : a.speed = x.frame.speed
  bIsInAir : a.bIsInAir = x.frame.isFalling
  bIsAccelerating : a.bIsAccelerating = true ↔ 0 < x.frame.acceleration
  bIsCrouched : a.bIsCrouched = x.frame.bIsCrouched
  bIsAiming : a.bIsAiming = x.combat.bIsAiming
  equippedWeapon : a.equippedWeapon = x.character.equippedWeapon
  turningInPlace : a.turningInPlace = x.character.turningInPlace
  aoYaw : a.aoYaw = x.character.aoYaw
  aoPitch : a.aoPitch = x.character.aoPitch
  characterRotation : a.characterRotation = x.frame.actorRotation
  leftHandTransform : ∀ w, x.character.equippedWeapon = some w →
    a.leftHandTransform = x.frame.leftHand w

structure Watched (identity : T) (h : Watch C W T) (a : AnimInstance C W T) : Prop where
  bound : a.supergoonCharacter.isSome = h.bound
  unread : h.shot = none → a.Unread identity
  drawn : ∀ x, h.shot = some x → a.Shows x ∧ a.Consistent

structure Staged (s : Scene C W T) : Prop where
  kept : Kept s.world
  turnable : ∀ c, Turnable (s.world.character c)
  unarmed : ∀ c, (s.world.character c).equippedWeapon = none →
    (s.world.character c).toAim = .initial
  draws : ∀ c d, (s.anim c).supergoonCharacter = some d → d = c
  posed : ∀ c, (s.anim c).Posed
  owned : ∀ c w, (s.anim c).equippedWeapon = some w → s.world.claims.owner w = some c

theorem watched_constructed (identity : T)
    : Watched identity ⟨false, none⟩ (AnimInstance.constructed identity : AnimInstance C W T) := by
  constructor
  . rfl
  . intro _
    rfl
  . rintro x ⟨⟩

theorem AnimInstance.posed_constructed (identity : T)
    : (constructed identity : AnimInstance C W T).Posed := by
  constructor
  . norm_num [constructed]
  . rfl
  . norm_num [constructed]

theorem turnable_constructed (isLocallyControlled rightHandSocket : Bool)
    : Turnable (Character.constructed isLocallyControlled rightHandSocket : Character W) :=
  turnable_unturned (Character.constructed isLocallyControlled rightHandSocket)

section Copy

variable {f : AnimFrame C W T} {s : Scene C W T} {a : AnimInstance C W T} {c : C}

theorem AnimInstance.consistent_update (hdraws : a.draws f = some c)
    (hturnable : Turnable (s.world.character c))
    (hunarmed : (s.world.character c).equippedWeapon = none →
      (s.world.character c).toAim = .initial)
    : (a.nativeUpdateAnimation f s).Consistent := by
  obtain ⟨t, heq, _⟩ := nativeUpdateAnimation_of_some (s := s) hdraws
  rw [heq]
  constructor
  . rfl
  . intro hnone
    have hequipped : (s.world.character c).equippedWeapon.isSome = false := hnone
    have : (s.world.character c).toAim = .initial := hunarmed (by simpa using hequipped)
    simp [copy, offsetYaw, leanOver, this, Aim.initial]
  . exact hturnable.inRange.facing
  . intro hturning
    obtain ⟨hlow, hhigh, _⟩ := hturnable.inRange.turning hturning
    exact ⟨hlow, hhigh⟩
  . exact hturnable.not_max

theorem AnimInstance.shows_update (hdraws : a.draws f = some c)
    : (a.nativeUpdateAnimation f s).Shows ⟨s.world.character c, s.combat c, f⟩ := by
  obtain ⟨t, heq, hhand⟩ := nativeUpdateAnimation_of_some (s := s) hdraws
  rw [heq]
  constructor
  . rfl
  . rfl
  . simp [leanOver, offsetYaw, copy]
  . rfl
  . rfl
  . rfl
  . rfl
  . rfl
  . rfl
  . rfl
  . exact hhand

theorem clamp_range {lo hi : ℚ} (h : lo ≤ hi) (value : ℚ)
    : lo ≤ clamp value lo hi ∧ clamp value lo hi ≤ hi :=
  ⟨le_max_right _ _, max_le (min_le_right _ _) h⟩

theorem AnimInstance.Posed.update (h : a.Posed) : (a.nativeUpdateAnimation f s).Posed := by
  cases hdraws : a.draws f with
  | none => rwa [nativeUpdateAnimation_of_none hdraws]
  | some c =>
    obtain ⟨t, heq, _⟩ := nativeUpdateAnimation_of_some (s := s) hdraws
    rw [heq]
    constructor
    . apply clamp_range (by norm_num)
    . rfl
    . apply rInterpTo_range h.range
      apply normalizeAxis_range

end Copy

section World

variable [DecidableEq C] [DecidableEq W] {s s' : World C W}

theorem toAim_pickup {m : PickupMove C W} (hstep : pickupMachine.step s m = some s') (c : C)
    : (s'.character c).toAim = (s.character c).toAim := by
  cases pickupTransition_of_step hstep with
  | enter w d hcollision hout => simp [enter, onSphereOverlap, character_setOverlappingWeapon]
  | exit w d hin => simp [exit, onSphereEndOverlap, character_setOverlappingWeapon]
  | equip _ d w hm hover => simp [character_equipWeapon]
  | nothing _ d hm hover => rfl

theorem Turnable.pickup {m : PickupMove C W} {c : C} (h : Turnable (s.character c))
    (hstep : pickupMachine.step s m = some s') : Turnable (s'.character c) := by
  have haim := toAim_pickup hstep c
  constructor
  . rw [haim]
    exact h.inRange
  . rw [haim]
    exact h.not_max
  . intro hturning
    rw [haim] at hturning
    have hequipped := h.equipped hturning
    rcases equippedWeapon_pickup hstep c with heq | hsome
    . rwa [heq]
    . exact hsome

theorem owner_pickup (h : Kept s) {m : PickupMove C W} (hstep : pickupMachine.step s m = some s')
    {w : W} {c : C} (howner : s.claims.owner w = some c) : s'.claims.owner w = some c :=
  (claimedOnce_of_run (claims_step h hstep)).kept w c howner

omit [DecidableEq W] in
theorem Kept.tick (h : Kept s) (c : C) (t : Tick) : Kept (s.tick c t) := by
  constructor
  . intro d w hover
    rw [overlappedWeapon_tick] at hover
    exact h.inside d w hover
  . exact h.open_of_inside
  . exact h.open_iff
  . intro d w hequipped
    rw [equippedWeapon_tick] at hequipped
    exact h.wielded d w hequipped

omit [DecidableEq W] in
theorem Turnable.tick {d : C} (h : Turnable (s.character d)) (c : C) (t : Tick)
    : Turnable ((s.tick c t).character d) := by
  rw [character_tick]
  split
  . exact h.aimOffset t
  . exact h

omit [DecidableEq W] in
theorem toAim_tick_of_unarmed {d : C} (h : (s.character d).equippedWeapon = none) (c : C) (t : Tick)
    : ((s.tick c t).character d).toAim = (s.character d).toAim := by
  rw [character_tick]
  split
  . simp [Character.aimOffset, h]
  . rfl

end World

variable [DecidableEq C]

section Staged

variable {s s' : Scene C W T}

theorem anim_setAnim (c d : C) (a : AnimInstance C W T)
    : (s.setAnim c a).anim d = if d = c then a else s.anim d := by
  unfold Scene.setAnim
  by_cases hd : d = c
  . subst hd
    simp
  . simp [hd]

omit [DecidableEq C] in
theorem staged_initial (speeds : WalkSpeeds) (identity : T)
    (isLocallyControlled rightHandSocket : C → Bool)
    : Staged (Scene.initial speeds identity isLocallyControlled rightHandSocket
        : Scene C W T) := by
  constructor
  . apply kept_initial
  . intro c
    apply turnable_constructed
  . intro c _
    rfl
  . intro c d h
    cases h
  . intro c
    apply AnimInstance.posed_constructed
  . intro c w h
    cases h

theorem Staged.pickup [DecidableEq W] (h : Staged s) {m : PickupMove C W} {world : World C W}
    (hstep : pickupMachine.step s.world m = some world) : Staged { s with world } := by
  constructor
  . exact h.kept.step hstep
  . intro c
    exact (h.turnable c).pickup hstep
  . intro c hnone
    rw [toAim_pickup hstep c]
    apply h.unarmed c
    rcases equippedWeapon_pickup hstep c with heq | hsome
    . rwa [← heq]
    . rw [hnone] at hsome
      cases hsome
  . exact h.draws
  . exact h.posed
  . intro c w hw
    exact owner_pickup h.kept hstep (h.owned c w hw)

theorem Staged.tick (h : Staged s) (c : C) (t : Tick)
    : Staged { s with world := s.world.tick c t } := by
  constructor
  . exact h.kept.tick c t
  . intro d
    exact (h.turnable d).tick c t
  . intro d hnone
    rw [equippedWeapon_tick] at hnone
    rw [toAim_tick_of_unarmed hnone]
    exact h.unarmed d hnone
  . exact h.draws
  . exact h.posed
  . exact h.owned

-- An instance that keeps to the rules may take the place of any other.
theorem Staged.setAnim (h : Staged s) {c : C} {a : AnimInstance C W T}
    (hdraws : ∀ d, a.supergoonCharacter = some d → d = c) (hposed : a.Posed)
    (howned : ∀ w, a.equippedWeapon = some w → s.world.claims.owner w = some c)
    : Staged (s.setAnim c a) := by
  constructor
  . exact h.kept
  . exact h.turnable
  . exact h.unarmed
  . intro d e
    rw [anim_setAnim]
    split
    . next hd =>
      rw [hd]
      exact hdraws e
    . exact h.draws d e
  . intro d
    rw [anim_setAnim]
    split
    . exact hposed
    . exact h.posed d
  . intro d w
    rw [anim_setAnim]
    split
    . next hd =>
      rw [hd]
      exact howned w
    . exact h.owned d w

theorem Staged.initialized (h : Staged s) {c : C} {owner : Option C}
    (howner : ∀ d, owner = some d → d = c)
    : Staged (s.setAnim c ((s.anim c).nativeInitializeAnimation owner)) := by
  apply h.setAnim
  . exact howner
  . exact ⟨(h.posed c).lean, (h.posed c).yawOffset, (h.posed c).range⟩
  . exact h.owned c

omit [DecidableEq C] in
theorem Staged.eq_of_draws (h : Staged s) {c d : C} {f : AnimFrame C W T}
    (howner : ∀ d, f.tryGetPawnOwner = some d → d = c) (hdraws : (s.anim c).draws f = some d)
    : d = c := by
  rcases Option.or_eq_some_iff.mp hdraws with hfound | ⟨_, hfound⟩
  . exact h.draws c d hfound
  . exact howner d hfound

theorem Staged.updated (h : Staged s) {c : C} {f : AnimFrame C W T}
    (howner : ∀ d, f.tryGetPawnOwner = some d → d = c)
    : Staged (s.setAnim c ((s.anim c).nativeUpdateAnimation f s)) := by
  have hposed : ((s.anim c).nativeUpdateAnimation f s).Posed := (h.posed c).update
  cases hdraws : (s.anim c).draws f with
  | none =>
    rw [AnimInstance.nativeUpdateAnimation_of_none hdraws] at hposed ⊢
    exact h.setAnim (h.draws c) hposed (h.owned c)
  | some d =>
    have hd := h.eq_of_draws howner hdraws
    subst hd
    obtain ⟨t, heq, _⟩ := AnimInstance.nativeUpdateAnimation_of_some (s := s) hdraws
    apply h.setAnim _ hposed
    . intro w hw
      rw [heq] at hw
      obtain ⟨hstate, hof⟩ := h.kept.wielded d w hw
      simp [World.claims, hstate, hof]
    . intro e he
      rw [heq] at he
      exact (Option.some.inj he).symm

theorem Staged.step [DecidableEq W] (h : Staged s) {speeds : WalkSpeeds} {m : SceneMove C W T}
    (hstep : (sceneMachine speeds).step s m = some s') : Staged s' := by
  cases sceneTransition_of_step hstep with
  | pickup m world hpickup => exact h.pickup hpickup
  | tick c t => exact h.tick c t
  | aiming m c bAiming combat hm =>
    exact ⟨h.kept, h.turnable, h.unarmed, h.draws, h.posed, h.owned⟩
  | initialized c owner howner => exact h.initialized howner
  | updated c f howner => exact h.updated howner

omit [DecidableEq C] in
theorem Watched.initialized {identity : T} {h : Watch C W T} {a : AnimInstance C W T}
    (hwatched : Watched identity h a) (owner : Option C)
    : Watched identity { h with bound := owner.isSome } (a.nativeInitializeAnimation owner) := by
  constructor
  . rfl
  . exact hwatched.unread
  . intro x hx
    obtain ⟨hs, hc⟩ := hwatched.drawn x hx
    constructor
    . exact ⟨hs.speed, hs.bIsInAir, hs.bIsAccelerating, hs.bIsCrouched, hs.bIsAiming,
        hs.equippedWeapon, hs.turningInPlace, hs.aoYaw, hs.aoPitch, hs.characterRotation,
        hs.leftHandTransform⟩
    . exact ⟨hc.armed, hc.unarmed, hc.facing, hc.turning, hc.not_max⟩

theorem Watched.updated {identity : T} {h : Watch C W T} {c : C}
    (hwatched : Watched identity h (s.anim c)) (hstaged : Staged s) {f : AnimFrame C W T}
    (howner : ∀ d, f.tryGetPawnOwner = some d → d = c)
    : Watched identity (h.see c (s, .nativeUpdateAnimation c f))
        ((s.anim c).nativeUpdateAnimation f s) := by
  have hfinds : (h.bound || f.tryGetPawnOwner.isSome) = ((s.anim c).draws f).isSome := by
    rw [← hwatched.bound, AnimInstance.draws, Option.isSome_or]
  simp only [Watch.see, hfinds, true_and]
  cases hdraws : (s.anim c).draws f with
  | none =>
    rw [AnimInstance.nativeUpdateAnimation_of_none hdraws]
    exact hwatched
  | some d =>
    have hd := hstaged.eq_of_draws howner hdraws
    subst hd
    constructor
    . obtain ⟨t, heq, _⟩ := AnimInstance.nativeUpdateAnimation_of_some (s := s) hdraws
      rw [heq]
      rfl
    . rintro ⟨⟩
    . rintro x ⟨⟩
      exact ⟨AnimInstance.shows_update hdraws,
        AnimInstance.consistent_update hdraws (hstaged.turnable d) (hstaged.unarmed d)⟩

theorem Watched.step [DecidableEq W] {identity : T} {h : Watch C W T} {c : C}
    (hwatched : Watched identity h (s.anim c)) (hstaged : Staged s) {speeds : WalkSpeeds}
    {m : SceneMove C W T} (hstep : (sceneMachine speeds).step s m = some s')
    : Watched identity (h.see c (s, m)) (s'.anim c) := by
  cases sceneTransition_of_step hstep with
  | pickup m world hpickup => exact hwatched
  | tick d t => exact hwatched
  | aiming m d bAiming combat hm =>
    rcases hm with rfl | rfl
    . exact hwatched
    . exact hwatched
  | initialized d owner howner =>
    rw [anim_setAnim]
    by_cases hd : d = c
    . subst hd
      simpa [Watch.see] using hwatched.initialized owner
    . simpa [Watch.see, hd, Ne.symm hd] using hwatched
  | updated d f howner =>
    rw [anim_setAnim]
    by_cases hd : d = c
    . subst hd
      simpa using hwatched.updated hstaged howner
    . simpa [Watch.see, hd, Ne.symm hd] using hwatched

end Staged

-- What an instance shows, and what is true of the weapon that it draws.
structure Pictured (identity : T) (h : Watch C W T) (s : Scene C W T) (c : C) : Prop where
  watched : Watched identity h (s.anim c)
  posed : (s.anim c).Posed
  owned : ∀ w, (s.anim c).equippedWeapon = some w →
    (s.world.weapon w).weaponState = .equipped ∧ (s.world.weapon w).owner = some c

omit [DecidableEq C] in
theorem Staged.pictured {s : Scene C W T} (h : Staged s) {identity : T} {c : C} {seen : Watch C W T}
    (hwatched : Watched identity seen (s.anim c)) : Pictured identity seen s c := by
  refine ⟨hwatched, h.posed c, ?_⟩
  intro w hw
  have howner := h.owned c w hw
  simpa [World.claims] using howner

/--
In whatever order pick-ups, ticks, aiming and updates come, each instance shows what its character was
like in the last update that found it, with a yaw, a turn and a weapon that fit together; before the
first such update it has read nothing. It stays within the ranges of the animation, and the weapon is
still equipped by the character it draws.
-/
theorem pictured_of_run [DecidableEq W] (speeds : WalkSpeeds) (identity : T)
    (isLocallyControlled rightHandSocket : C → Bool) (ms : List (SceneMove C W T))
    : (sceneMachine speeds).AlwaysCollected (fun s m => [(s, m)])
        (fun history s => ∀ c, Pictured identity (watch c history) s c)
        [] (Scene.initial speeds identity isLocallyControlled rightHandSocket) ms := by
  apply Machine.alwaysCollected_of_along (G := fun _ _ => True)
    (J := fun history s => Staged s ∧ ∀ c, Watched identity (watch c history) (s.anim c))
  . rintro history s m s' ⟨hstaged, hwatched⟩ _ hstep
    refine ⟨hstaged.step hstep, ?_⟩
    intro c
    rw [watch, List.foldl_append]
    exact (hwatched c).step hstaged hstep
  . rintro history s ⟨hstaged, hwatched⟩ c
    exact hstaged.pictured (hwatched c)
  . constructor
    . exact staged_initial speeds identity isLocallyControlled rightHandSocket
    . intro c
      exact watched_constructed identity
  . exact (sceneMachine speeds).along_true _ ms

end Combat
