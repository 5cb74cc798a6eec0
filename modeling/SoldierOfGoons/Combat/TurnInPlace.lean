import SoldierOfGoons.Combat.Turning
import SoldierOfGoons.Lib.Contraction

/-!
A turn in place. The yaw that is left to unwind shrinks with each tick whatever the aim does, so that
the turn ends. Its direction is picked anew in each tick from the aim, and a flick of the aim past 90
degrees on the other side makes it disagree with the yaw that is unwound.
-/

universe v

namespace Combat

variable {W : Type v}

theorem fInterpTo_nonneg {current : ℚ} (h : 0 ≤ current) (deltaTime : ℚ)
    : 0 ≤ fInterpTo current 0 deltaTime 6 := by
  obtain ⟨q, hpos, _, heq⟩ := fInterpTo_scales current deltaTime
  rw [heq]
  apply mul_nonneg hpos h

theorem fInterpTo_nonpos {current : ℚ} (h : current ≤ 0) (deltaTime : ℚ)
    : fInterpTo current 0 deltaTime 6 ≤ 0 := by
  obtain ⟨q, hpos, _, heq⟩ := fInterpTo_scales current deltaTime
  rw [heq]
  apply mul_nonpos_of_nonneg_of_nonpos hpos h

structure Aim.Directed (a : Aim) : Prop where
  right : a.turningInPlace = .right → 0 < a.aoYaw
  left : a.turningInPlace = .left → a.aoYaw < 0

-- The aim is past 90 degrees on the other side of a turn that goes on.
def Aim.Flicked (t : Tick) (a : Aim) : Prop :=
  (a.turningInPlace = .right ∧ a.rawYaw t < -90 ∨ a.turningInPlace = .left ∧ a.rawYaw t > 90) ∧
    15 ≤ |fInterpTo a.interpAOYaw 0 t.deltaTime 6|

def NotFlicked (c : Character W) : TurnMove W → Prop
  | .equipWeapon _ => True
  | .aimOffset t => c.equippedWeapon.isSome → t.isStanding → ¬c.toAim.Flicked t

def KeepsDirection (c : Character W) : TurnMove W → Prop
  | .equipWeapon _ => True
  | .aimOffset t =>
    c.turningInPlace ≠ .notTurning → (c.aimOffset t).turningInPlace ≠ .notTurning →
      (c.aimOffset t).turningInPlace = c.turningInPlace

theorem pos_of_large {x : ℚ} (h : 0 ≤ x) (hlarge : 15 ≤ |x|) : 0 < x := by
  rw [abs_of_nonneg h] at hlarge
  linarith

theorem neg_of_large {x : ℚ} (h : x ≤ 0) (hlarge : 15 ≤ |x|) : x < 0 := by
  rw [abs_of_nonpos h] at hlarge
  linarith

namespace Aim

variable {a : Aim} {t : Tick}

theorem turnsTo_eq_of_not_flicked (hturning : a.turningInPlace ≠ .notTurning)
    (hmax : a.turningInPlace ≠ .max) (hflick : ¬a.Flicked t)
    (hlarge : 15 ≤ |fInterpTo a.interpAOYaw 0 t.deltaTime 6|) : a.turnsTo t = a.turningInPlace := by
  have hright : a.turningInPlace = .right → ¬a.rawYaw t < -90 :=
    fun hdir hraw => hflick ⟨Or.inl ⟨hdir, hraw⟩, hlarge⟩
  have hleft : a.turningInPlace = .left → ¬a.rawYaw t > 90 :=
    fun hdir hraw => hflick ⟨Or.inr ⟨hdir, hraw⟩, hlarge⟩
  unfold turnsTo
  cases hdir : a.turningInPlace with
  | left => simp [hleft hdir]
  | right => simp [hright hdir]
  | notTurning => exact absurd hdir hturning
  | max => exact absurd hdir hmax

-- A turn starts from the yaw that picks its direction.
theorem directed_of_start (hturning : a.turningInPlace = .notTurning) (hlarge : 15 ≤ |a.unwound t|)
    : (a.turnsTo t = .right → 0 < a.unwound t) ∧ (a.turnsTo t = .left → a.unwound t < 0) := by
  unfold turnsTo
  unfold unwound at hlarge ⊢
  rw [if_pos hturning] at hlarge ⊢
  rw [hturning]
  constructor
  . split
    . next hright =>
      intro _
      apply pos_of_large _ hlarge
      apply fInterpTo_nonneg (by linarith)
    . split <;> simp
  . split
    . simp
    . split
      . next hleft =>
        intro _
        apply neg_of_large _ hlarge
        apply fInterpTo_nonpos (by linarith)
      . simp

theorem Directed.of_turning (h : a.Directed) (hrange : a.InRange)
    (hturning : a.turningInPlace ≠ .notTurning)
    (hlarge : 15 ≤ |fInterpTo a.interpAOYaw 0 t.deltaTime 6|)
    : (a.turningInPlace = .right → 0 < fInterpTo a.interpAOYaw 0 t.deltaTime 6) ∧
        (a.turningInPlace = .left → fInterpTo a.interpAOYaw 0 t.deltaTime 6 < 0) := by
  obtain ⟨_, _, heq⟩ := hrange.turning hturning
  constructor
  . intro hdir
    have := h.right hdir
    apply pos_of_large _ hlarge
    apply fInterpTo_nonneg (by linarith)
  . intro hdir
    have := h.left hdir
    apply neg_of_large _ hlarge
    apply fInterpTo_nonpos (by linarith)

theorem Directed.standing (h : a.Directed) (hrange : a.InRange) (hmax : a.turningInPlace ≠ .max)
    (hflick : ¬a.Flicked t) : (a.standing t).Directed := by
  rw [standing_eq]
  split
  . next hturns =>
    have hnot := (a.abs_rawYaw_le_of_turnsTo t hturns).1
    constructor <;> simp [hnot]
  . split
    . constructor <;> simp
    . next hlarge =>
      replace hlarge : 15 ≤ |a.unwound t| := by linarith
      by_cases hturning : a.turningInPlace = .notTurning
      . obtain ⟨hright, hleft⟩ := directed_of_start hturning hlarge
        exact ⟨hright, hleft⟩
      . rw [a.unwound_of_turning t hturning] at hlarge ⊢
        obtain ⟨hright, hleft⟩ := h.of_turning hrange hturning hlarge
        rw [turnsTo_eq_of_not_flicked hturning hmax hflick hlarge]
        exact ⟨hright, hleft⟩

theorem Flicked.undirected (hflick : a.Flicked t) (h : a.Directed) (hrange : a.InRange)
    : ¬(a.standing t).Directed := by
  obtain ⟨hside, hlarge⟩ := hflick
  have hturning : a.turningInPlace ≠ .notTurning := by
    rcases hside with ⟨hdir, _⟩ | ⟨hdir, _⟩ <;> simp [hdir]
  have hturns : a.turnsTo t ≠ .notTurning := by
    intro hnot
    apply hturning (a.abs_rawYaw_le_of_turnsTo t hnot).1
  obtain ⟨hright, hleft⟩ := h.of_turning hrange hturning hlarge
  rw [standing_eq, if_neg hturns, a.unwound_of_turning t hturning, if_neg (by linarith)]
  intro hdirected
  rcases hside with ⟨hdir, hraw⟩ | ⟨hdir, hraw⟩
  . have hturned : a.turnsTo t = .left := by
      unfold turnsTo
      rw [if_neg (by linarith), if_pos hraw]
    have := hdirected.left hturned
    have := hright hdir
    linarith
  . have hturned : a.turnsTo t = .right := by
      unfold turnsTo
      rw [if_pos hraw]
    have := hdirected.right hturned
    have := hleft hdir
    linarith

theorem Directed.pitched (h : a.Directed) (isLocallyControlled : Bool)
    : (a.pitched t isLocallyControlled).Directed := by
  constructor
  . simpa using h.right
  . simpa using h.left

end Aim

theorem directed_step {c c' : Character W} {m : TurnMove W} (hturnable : Turnable c)
    (h : c.toAim.Directed) (hflick : NotFlicked c m) (hstep : turnMachine.step c m = some c')
    : c'.toAim.Directed := by
  cases m with
  | equipWeapon w =>
    cases hstep
    exact ⟨h.right, h.left⟩
  | aimOffset t =>
    cases hstep
    rcases aimOffset_cases c t with ⟨_, heq⟩ | ⟨hequipped, hstanding, heq⟩ | ⟨_, _, heq⟩
    . rwa [heq]
    . rw [heq]
      exact (h.standing hturnable.inRange hturnable.not_max
        (hflick hequipped hstanding)).pitched c.isLocallyControlled
    . rw [heq]
      constructor <;> simp [Aim.moving]

theorem not_directed_of_flicked {c c' : Character W} {m : TurnMove W} (hturnable : Turnable c)
    (h : c.toAim.Directed) (hflick : ¬NotFlicked c m) (hstep : turnMachine.step c m = some c')
    : ¬c'.toAim.Directed := by
  cases m with
  | equipWeapon w => exact absurd trivial hflick
  | aimOffset t =>
    cases hstep
    simp only [NotFlicked, not_forall, not_not] at hflick
    obtain ⟨hequipped, hstanding, hflick⟩ := hflick
    rcases aimOffset_cases c t with ⟨hnone, _⟩ | ⟨_, _, heq⟩ | ⟨_, hmoving, _⟩
    . simp [Option.isNone_iff_eq_none.mp hnone] at hequipped
    . have hnot := hflick.undirected h hturnable.inRange
      intro hdirected
      rw [heq] at hdirected
      apply hnot
      constructor
      . simpa using hdirected.right
      . simpa using hdirected.left
    . simp [isMoving_eq_not_isStanding, hstanding] at hmoving

theorem keepsDirection {c : Character W} {m : TurnMove W} (hturnable : Turnable c)
    (hflick : NotFlicked c m) : KeepsDirection c m := by
  cases m with
  | equipWeapon w => trivial
  | aimOffset t =>
    intro hturning hturning'
    rcases aimOffset_cases c t with ⟨_, heq⟩ | ⟨hequipped, hstanding, heq⟩ | ⟨_, _, heq⟩
    . rw [heq]
    . rw [heq, Aim.turningInPlace_pitched] at hturning' ⊢
      obtain ⟨_, _, ⟨hends, _⟩ | ⟨_, hlarge⟩⟩ := c.toAim.standing_of_turning t hturning
      . exact absurd hends hturning'
      . rcases turningInPlace_standing t c.toAim with hturns | hends
        . rw [hturns]
          exact Aim.turnsTo_eq_of_not_flicked hturning hturnable.not_max
            (hflick hequipped hstanding) hlarge
        . exact absurd hends hturning'
    . simp [heq, Aim.moving] at hturning'

/--
The direction agrees with the yaw that is left, and stays the same through each turn, exactly if the
aim is not flicked to the other side during a turn.
-/
theorem directed_iff_notFlicked (c : Character W) (ms : List (TurnMove W))
    : turnMachine.Always (fun c => c.toAim.Directed) c.unturned ms ∧
          turnMachine.Along KeepsDirection c.unturned ms
        ↔
      turnMachine.Along NotFlicked c.unturned ms := by
  have hdirected : c.unturned.toAim.Directed := by
    constructor <;> simp [Character.unturned]
  have hiff : turnMachine.Always (fun c => c.toAim.Directed) c.unturned ms ↔
      turnMachine.Along NotFlicked c.unturned ms := by
    apply Machine.always_iff_along (I := fun c => Turnable c ∧ c.toAim.Directed)
    . rintro c m c' ⟨hturnable, h⟩ hflick hstep
      exact ⟨hturnable.step hstep, directed_step hturnable h hflick hstep⟩
    . rintro c ⟨_, h⟩
      exact h
    . rintro c m c' ⟨hturnable, h⟩ hflick hstep
      apply not_directed_of_flicked hturnable h hflick hstep
    . exact ⟨turnable_unturned c, hdirected⟩
  constructor
  . rintro ⟨h, _⟩
    apply hiff.mp h
  . intro hflick
    refine ⟨hiff.mpr hflick, ?_⟩
    apply Machine.along_of_along (I := Turnable) (G := NotFlicked)
    . intro c m c' h _ hstep
      apply h.step hstep
    . intro c m c' h hflick _
      apply keepsDirection h hflick
    . apply turnable_unturned c
    . exact hflick

-- A turn to the right goes on while the aim is flicked to the left.
theorem not_directed
    : ¬∀ (W : Type) (c : Character W) (ms : List (TurnMove W)),
        turnMachine.Always (fun c => c.toAim.Directed) c.unturned ms ∧
          turnMachine.Along KeepsDirection c.unturned ms := by
  intro h
  have hrun := (h Unit (Character.constructed true true) [.equipWeapon (),
    .aimOffset ⟨1 / 60, 0, 0, false, ⟨0, 100, 0⟩⟩, .aimOffset ⟨1 / 60, 0, 0, false, ⟨0, 260, 0⟩⟩]).1
  obtain ⟨c, hc, heq⟩ := hrun.exists_map (fun c => (c.turningInPlace, c.aoYaw))
    (b := (.left, 81)) (by decide +kernel)
  simp only [Prod.mk.injEq] at heq
  have := hc.left heq.1
  rw [heq.2] at this
  norm_num at this

/-!
However the aim moves, each tick of a turn scales what is left to unwind.
-/

def Character.aimOffsets (ts : List Tick) (c : Character W) : Character W :=
  ts.foldl (fun c t => c.aimOffset t) c

structure Unwinds (d : ℚ) (c c' : Character W) : Prop where
  aoYaw : c'.aoYaw = c'.interpAOYaw
  same_side : c'.interpAOYaw = 0 ∨ 0 < c.interpAOYaw * c'.interpAOYaw
  shrinks : |c'.interpAOYaw| ≤ (1 - min 1 (6 * d)) * |c.interpAOYaw|

theorem aimOffset_of_turning {c : Character W} {t : Tick} (hequipped : c.equippedWeapon.isSome)
    (hturning : c.turningInPlace ≠ .notTurning) (hstanding : t.isStanding)
    : (c.aimOffset t).aoYaw = fInterpTo c.interpAOYaw 0 t.deltaTime 6 ∧
        (c.aimOffset t).interpAOYaw = fInterpTo c.interpAOYaw 0 t.deltaTime 6 ∧
        ((c.aimOffset t).turningInPlace = .notTurning ∧
            (c.aimOffset t).startingAimRotation.yaw = t.baseAimRotation.yaw ∨
          (c.aimOffset t).turningInPlace ≠ .notTurning ∧
            15 ≤ |fInterpTo c.interpAOYaw 0 t.deltaTime 6|) := by
  rcases aimOffset_cases c t with ⟨hnone, _⟩ | ⟨_, _, heq⟩ | ⟨_, hmoving, _⟩
  . simp [Option.isNone_iff_eq_none.mp hnone] at hequipped
  . rw [heq]
    simpa using c.toAim.standing_of_turning t hturning
  . simp [isMoving_eq_not_isStanding, hstanding] at hmoving

theorem min_le_clamp {d deltaTime : ℚ} (h : d ≤ deltaTime)
    : min 1 (6 * d) ≤ clamp (deltaTime * 6) 0 1 := by
  unfold clamp
  apply le_max_of_le_left
  apply le_min
  . exact (min_le_right _ _).trans (by linarith)
  . apply min_le_left

theorem abs_fInterpTo_le_of_le {d deltaTime : ℚ} (h : d ≤ deltaTime) (current : ℚ)
    : |fInterpTo current 0 deltaTime 6| ≤ (1 - min 1 (6 * d)) * |current| := by
  have hclamp := min_le_clamp h
  calc |fInterpTo current 0 deltaTime 6|
      ≤ (1 - clamp (deltaTime * 6) 0 1) * |current| := abs_fInterpTo_le current deltaTime
    _ ≤ (1 - min 1 (6 * d)) * |current| :=
      mul_le_mul_of_nonneg_right (by linarith) (abs_nonneg current)

theorem fInterpTo_same_side (current deltaTime : ℚ)
    : fInterpTo current 0 deltaTime 6 = 0 ∨ 0 < current * fInterpTo current 0 deltaTime 6 := by
  obtain ⟨q, hpos, _, heq⟩ := fInterpTo_scales current deltaTime
  rw [heq]
  rcases eq_or_lt_of_le hpos with rfl | hpos
  . left
    ring
  . by_cases hzero : current = 0
    . left
      rw [hzero, mul_zero]
    . right
      have hsq : 0 < current ^ 2 := by positivity
      calc 0 < q * current ^ 2 := mul_pos hpos hsq
        _ = current * (q * current) := by ring

theorem unwinds_aimOffset {c : Character W} {t : Tick} {d : ℚ} (hequipped : c.equippedWeapon.isSome)
    (hturning : c.turningInPlace ≠ .notTurning) (hstanding : t.isStanding) (hd : d ≤ t.deltaTime)
    : Unwinds d c (c.aimOffset t) := by
  obtain ⟨hao, hinterp, _⟩ := aimOffset_of_turning hequipped hturning hstanding
  constructor
  . rw [hao, hinterp]
  . rw [hinterp]
    apply fInterpTo_same_side
  . rw [hinterp]
    apply abs_fInterpTo_le_of_le hd

theorem contracts_aimOffset (d : ℚ)
    : Contraction.Contracts (fun (c : Character W) (t : Tick) => c.aimOffset t)
        (fun t => t.isStanding ∧ d ≤ t.deltaTime)
        (fun c => c.equippedWeapon.isSome ∧ c.turningInPlace ≠ .notTurning)
        (fun c => |c.interpAOYaw|) (1 - min 1 (6 * d)) 15 := by
  constructor
  . have := min_le_left 1 (6 * d)
    linarith
  . rintro c t ⟨hequipped, hturning⟩ ⟨hstanding, hd⟩
    exact (unwinds_aimOffset hequipped hturning hstanding hd).shrinks
  . rintro c t ⟨hequipped, hturning⟩ ⟨hstanding, _⟩ ⟨_, hturning'⟩
    obtain ⟨_, hinterp, ⟨hends, _⟩ | ⟨_, hlarge⟩⟩ :=
      aimOffset_of_turning hequipped hturning hstanding
    . exact absurd hends hturning'
    . rwa [hinterp]

theorem aimOffsets_append_singleton (c : Character W) (ts : List Tick) (t : Tick)
    : c.aimOffsets (ts ++ [t]) = (c.aimOffsets ts).aimOffset t := by
  simp [Character.aimOffsets]

theorem equippedWeapon_aimOffsets (c : Character W) (ts : List Tick)
    : (c.aimOffsets ts).equippedWeapon = c.equippedWeapon := by
  unfold Character.aimOffsets
  induction ts generalizing c with
  | nil => rfl
  | cons t ts ih =>
    rw [List.foldl_cons, ih]
    apply equippedWeapon_aimOffset

theorem Turnable.ends {c : Character W} (h : Turnable c) (hturning : c.turningInPlace ≠ .notTurning)
    {d : ℚ} {ts : List Tick} (hts : ∀ t ∈ ts, t.isStanding ∧ d ≤ t.deltaTime) (hne : ts ≠ [])
    (hsmall : 180 * (1 - min 1 (6 * d)) ^ ts.length < 15)
    : ∃ us t vs, ts = us ++ t :: vs ∧ (c.aimOffsets us).turningInPlace ≠ .notTurning ∧
        (c.aimOffsets (us ++ [t])).turningInPlace = .notTurning ∧
        (c.aimOffsets (us ++ [t])).startingAimRotation.yaw = t.baseAimRotation.yaw := by
  obtain ⟨_, hle, heq⟩ := h.inRange.turning hturning
  rw [heq] at hle
  obtain ⟨us, t, vs, hsplit, ⟨hequipped, hin⟩, hout⟩ :=
    (contracts_aimOffset d).ends hts ⟨h.equipped hturning, hturning⟩ hle hne hsmall
  have hstanding := (hts t (by simp [hsplit])).1
  refine ⟨us, t, vs, hsplit, hin, ?_⟩
  rw [aimOffsets_append_singleton]
  obtain ⟨_, _, hends | ⟨hgoes, _⟩⟩ := aimOffset_of_turning hequipped hin hstanding
  . exact hends
  . refine absurd ⟨?_, hgoes⟩ hout
    rwa [equippedWeapon_aimOffset]

/--
From a turn that any run has come to, ticks of at least `d` seconds each unwind a fixed part of what
is left, and as many as bring 180 degrees below 15 end it.
-/
theorem turn_ends (c c' : Character W) (ms : List (TurnMove W))
    (hrun : turnMachine.run c.unturned ms = some c')
    (hturning : c'.turningInPlace = .left ∨ c'.turningInPlace = .right) (d : ℚ) (ts : List Tick)
    (hts : ∀ t ∈ ts, t.isStanding ∧ d ≤ t.deltaTime)
    : (∀ us t vs, ts = us ++ t :: vs → (c'.aimOffsets us).turningInPlace ≠ .notTurning →
          Unwinds d (c'.aimOffsets us) (c'.aimOffsets (us ++ [t]))) ∧
        ∀ N, 1 ≤ N → N ≤ ts.length → 180 * (1 - min 1 (6 * d)) ^ N < 15 →
          ∃ us t vs, ts = us ++ t :: vs ∧ us.length < N ∧
            (c'.aimOffsets us).turningInPlace ≠ .notTurning ∧
            (c'.aimOffsets (us ++ [t])).turningInPlace = .notTurning ∧
            (c'.aimOffsets (us ++ [t])).startingAimRotation.yaw = t.baseAimRotation.yaw := by
  have hturnable : Turnable c' :=
    Machine.run_invariant_of_step (fun h hstep => h.step hstep) (turnable_unturned c) hrun
  have hgoes : c'.turningInPlace ≠ .notTurning := by
    rcases hturning with hdir | hdir <;> simp [hdir]
  have hequipped := hturnable.equipped hgoes
  constructor
  . intro us t vs hsplit hus
    obtain ⟨hstanding, hd⟩ := hts t (by simp [hsplit])
    rw [aimOffsets_append_singleton]
    apply unwinds_aimOffset _ hus hstanding hd
    rwa [equippedWeapon_aimOffsets]
  . intro N hpos hle hsmall
    have hlength : (ts.take N).length = N := by
      rw [List.length_take]
      omega
    have htake (t : Tick) (ht : t ∈ ts.take N) : t.isStanding ∧ d ≤ t.deltaTime :=
      hts t (List.mem_of_mem_take ht)
    have hne : ts.take N ≠ [] := by
      rw [← List.length_pos_iff, hlength]
      omega
    obtain ⟨us, t, vs, hsplit, hends⟩ := hturnable.ends hgoes htake hne (by rwa [hlength])
    have hshort : us.length < N := by
      have := congrArg List.length hsplit
      rw [hlength, List.length_append, List.length_cons] at this
      omega
    refine ⟨us, t, vs ++ ts.drop N, ?_, hshort, hends⟩
    calc ts = ts.take N ++ ts.drop N := (List.take_append_drop N ts).symm
      _ = us ++ t :: (vs ++ ts.drop N) := by simp [hsplit]

def turningRight : Character Unit :=
  ((Character.constructed true true).unturned.equipWeapon ()).aimOffset
    ⟨1 / 60, 0, 0, false, ⟨0, 175, 0⟩⟩

-- Ticks of a twelfth of a second take one half of the turn each, so four of them end it.
theorem turn_ends_in_four_ticks
    : ∃ us t vs, List.replicate 4 ⟨1 / 12, 0, 0, false, ⟨0, 175, 0⟩⟩ = us ++ t :: vs ∧ us.length < 4 ∧
        (turningRight.aimOffsets us).turningInPlace ≠ .notTurning ∧
        (turningRight.aimOffsets (us ++ [t])).turningInPlace = .notTurning ∧
        (turningRight.aimOffsets (us ++ [t])).startingAimRotation.yaw = t.baseAimRotation.yaw :=
  (turn_ends (Character.constructed true true) turningRight
    [.equipWeapon (), .aimOffset ⟨1 / 60, 0, 0, false, ⟨0, 175, 0⟩⟩] rfl (by decide +kernel)
    (1 / 12) (List.replicate 4 ⟨1 / 12, 0, 0, false, ⟨0, 175, 0⟩⟩)
    (by simp [Tick.isStanding, Tick.speedSquared])).2 4 (by decide) (le_refl 4) (by norm_num)

end Combat
