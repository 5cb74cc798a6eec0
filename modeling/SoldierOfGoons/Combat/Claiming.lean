import SoldierOfGoons.Combat.Wielding
import SoldierOfGoons.Lib.Conduit

/-!
Two views of the server that leave something out. Without the order in which the characters are inside
a sphere: the engine may keep it as it likes, and let the characters leave a disabled sphere in any
order. Without positions and widgets: all that is left is who has claimed which weapon, and a weapon
is claimed once.
-/

universe u v

namespace Combat

variable {C : Type u} {W : Type v}

structure Reordered (s s' : World C W) : Prop where
  character : s'.character = s.character
  weapon : s'.weapon = s.weapon
  overlaps : ∀ w, (s'.overlaps w).Perm (s.overlaps w)

theorem reordered_equivalence : Equivalence (@Reordered C W) := by
  constructor
  . intro s
    exact ⟨rfl, rfl, fun w => .refl _⟩
  . intro s s' h
    exact ⟨h.character.symm, h.weapon.symm, fun w => (h.overlaps w).symm⟩
  . intro s s' s'' h h'
    exact ⟨h'.character.trans h.character, h'.weapon.trans h.weapon,
      fun w => (h'.overlaps w).trans (h.overlaps w)⟩

theorem Reordered.shows {s s' : World C W} (h : Reordered s s') (c : C) (w : W)
    : Shows s' c w ↔ Shows s c w := by
  unfold Shows
  rw [h.character]

variable [DecidableEq C] [DecidableEq W]

theorem Reordered.setOverlappingWeapon {s s' : World C W} (h : Reordered s s') (weapon : Option W)
    (c : C) : Reordered (setOverlappingWeapon weapon c s) (setOverlappingWeapon weapon c s') := by
  constructor
  . funext d
    rw [character_setOverlappingWeapon, character_setOverlappingWeapon, h.character]
  . funext v
    simp only [weapon_setOverlappingWeapon, h.shows, h.character, h.weapon]
  . intro w
    rw [overlaps_setOverlappingWeapon, overlaps_setOverlappingWeapon]
    exact h.overlaps w

omit [DecidableEq C] in
theorem Reordered.setOverlaps {s s' : World C W} (h : Reordered s s') {w : W} {cs cs' : List C}
    (hcs : cs'.Perm cs)
    : Reordered { s with overlaps := Function.update s.overlaps w cs }
        { s' with overlaps := Function.update s'.overlaps w cs' } := by
  refine ⟨h.character, h.weapon, ?_⟩
  intro v
  by_cases hv : v = w
  . subst hv
    simpa using hcs
  . simpa [hv] using h.overlaps v

theorem Reordered.equipWeapon {s s' : World C W} (h : Reordered s s') (weapon : Option W) (c : C)
    : Reordered (equipWeapon weapon c s) (equipWeapon weapon c s') := by
  cases weapon with
  | none => exact h
  | some w =>
    have hmem (d : C) : d ∈ s'.overlaps w ↔ d ∈ s.overlaps w := (h.overlaps w).mem_iff
    constructor
    . funext d
      simp only [character_equipWeapon, h.character, hmem]
    . funext v
      simp only [weapon_equipWeapon, h.character, h.weapon, h.shows, hmem]
    . intro v
      rw [overlaps_equipWeapon, overlaps_equipWeapon]
      by_cases hv : v = w
      . subst hv
        simp
      . simpa [hv] using h.overlaps v

theorem Reordered.step {s s' t : World C W} {m : PickupMove C W} (h : Reordered s s')
    (hstep : pickupMachine.step s m = some t)
    : ∃ t', pickupMachine.step s' m = some t' ∧ Reordered t t' := by
  have hmem (w : W) (c : C) : c ∈ s'.overlaps w ↔ c ∈ s.overlaps w := (h.overlaps w).mem_iff
  simp only [pickupMachine] at hstep ⊢
  cases m with
  | beginOverlap w c =>
    simp only [pickupStep, Option.ite_none_right_eq_some, Option.some.injEq] at hstep ⊢
    obtain ⟨⟨hcollision, hout⟩, rfl⟩ := hstep
    refine ⟨_, ⟨⟨by rw [h.weapon]; exact hcollision, by rwa [hmem]⟩, rfl⟩, ?_⟩
    exact (h.setOverlaps ((h.overlaps w).cons c)).setOverlappingWeapon (some w) c
  | endOverlap w c =>
    simp only [pickupStep, Option.ite_none_right_eq_some, Option.some.injEq] at hstep ⊢
    obtain ⟨hin, rfl⟩ := hstep
    refine ⟨_, ⟨by rwa [hmem], rfl⟩, ?_⟩
    exact (h.setOverlaps ((h.overlaps w).filter _)).setOverlappingWeapon none c
  | equipButtonPressed c =>
    cases hstep
    refine ⟨_, rfl, ?_⟩
    unfold equipButtonPressed
    rw [h.character]
    exact h.equipWeapon _ c
  | serverEquipButtonPressed c =>
    cases hstep
    refine ⟨_, rfl, ?_⟩
    unfold serverEquipButtonPressed
    rw [h.character]
    exact h.equipWeapon _ c

/--
Whatever order the engine keeps the characters inside the spheres in, and changes it to before any
event, each character and each weapon ends up as in the run that never changes it.
-/
theorem run_of_reordered {s t : World C W} {ms : List (PickupMove C W)}
    (h : pickupMachine.RunUpTo Reordered s ms t)
    : ∃ u, pickupMachine.run s ms = some u ∧ Reordered t u :=
  h.run reordered_equivalence Reordered.step (reordered_equivalence.refl s)

-- The second of two characters inside leaves first when the other one takes the weapon.
theorem run_of_reordered_two_inside
    : let s : World Bool Unit := .initial true (fun c => c) (fun _ => true)
      let inside := enter () false (enter () true s)
      ∃ u, pickupMachine.run s
          [.beginOverlap () true, .beginOverlap () false, .equipButtonPressed true] = some u ∧
        Reordered (equipButtonPressed true { inside with overlaps := fun _ => [true, false] }) u := by
  intro s inside
  have hkeep (t : World Bool Unit) : Reordered t t := reordered_equivalence.refl t
  have hswap : Reordered inside { inside with overlaps := fun _ => [true, false] } :=
    ⟨rfl, rfl, fun _ => .swap false true []⟩
  have hrun : pickupMachine.RunUpTo Reordered s
      [.beginOverlap () true, .beginOverlap () false, .equipButtonPressed true]
      (equipButtonPressed true { inside with overlaps := fun _ => [true, false] }) :=
    .cons (hkeep s) rfl (.cons (hkeep _) rfl (.cons hswap rfl (.nil (hkeep _))))
  exact run_of_reordered hrun

/-!
Who has claimed which weapon, and which one each character wields.
-/

structure Claims (C : Type u) (W : Type v) where
  owner : W → Option C
  wielded : C → Option W

def Claims.claim (a : Claims C W) (m : C × W) : Option (Claims C W) :=
  if (a.owner m.2).isNone then
    some ⟨Function.update a.owner m.2 (some m.1), Function.update a.wielded m.1 (some m.2)⟩
  else
    none

def claimMachine : Machine (Claims C W) (C × W) := ⟨Claims.claim⟩

theorem owner_claim {a b : Claims C W} {m : C × W} (h : claimMachine.step a m = some b)
    : a.owner m.2 = none ∧ b.owner = Function.update a.owner m.2 (some m.1) := by
  simp only [claimMachine, Claims.claim, Option.ite_none_right_eq_some, Option.isNone_iff_eq_none,
    Option.some.injEq] at h
  obtain ⟨hnone, rfl⟩ := h
  exact ⟨hnone, rfl⟩

-- What is claimed stays claimed by the same character, and nothing is claimed twice.
structure ClaimedOnce (a b : Claims C W) (ms : List (C × W)) : Prop where
  kept : ∀ w c, a.owner w = some c → b.owner w = some c
  free : ∀ m ∈ ms, a.owner m.2 = none
  once : (ms.map Prod.snd).Nodup

theorem claimedOnce_of_run {a b : Claims C W} {ms : List (C × W)}
    (hrun : claimMachine.run a ms = some b) : ClaimedOnce a b ms := by
  induction ms generalizing a with
  | nil =>
    simp only [Machine.run_nil, Option.some.injEq] at hrun
    subst hrun
    exact ⟨fun _ _ h => h, by simp, by simp⟩
  | cons m ms ih =>
    obtain ⟨t, ht, hrest⟩ := claimMachine.run_cons.mp hrun
    obtain ⟨hnone, howner⟩ := owner_claim ht
    have h := ih hrest
    have hold {w : W} {c : C} (hw : a.owner w = some c) : t.owner w = some c := by
      have hne : w ≠ m.2 := by
        rintro rfl
        rw [hnone] at hw
        cases hw
      rw [howner, Function.update_of_ne hne]
      exact hw
    constructor
    . intro w c hw
      exact h.kept w c (hold hw)
    . intro n hn
      rcases List.mem_cons.mp hn with rfl | hn
      . exact hnone
      . cases hn' : a.owner n.2 with
        | none => rfl
        | some c =>
          have := h.free n hn
          rw [hold hn'] at this
          cases this
    . rw [List.map_cons, List.nodup_cons]
      refine ⟨?_, h.once⟩
      intro hmem
      obtain ⟨n, hn, hsnd⟩ := List.mem_map.mp hmem
      have hfree := h.free n hn
      rw [hsnd, howner, Function.update_self] at hfree
      cases hfree

def World.claims (s : World C W) : Claims C W where
  owner w := if (s.weapon w).weaponState = .equipped then (s.weapon w).owner else none
  wielded c := (s.character c).equippedWeapon

theorem claims_setOverlappingWeapon (weapon : Option W) (c : C) (s : World C W)
    : (setOverlappingWeapon weapon c s).claims = s.claims := by
  unfold World.claims
  simp only [weapon_setOverlappingWeapon, character_setOverlappingWeapon]

theorem claims_equipWeapon {s : World C W} {c : C} {w : W}
    (hfree : (s.weapon w).weaponState ≠ .equipped)
    : claimMachine.step s.claims (c, w) = some (equipWeapon (some w) c s).claims := by
  simp only [claimMachine, Claims.claim, World.claims, hfree, if_false, Option.isNone_none, if_true,
    Option.some.injEq, Claims.mk.injEq]
  constructor
  . funext v
    by_cases hv : v = w
    . subst hv
      simp [weapon_equipWeapon]
    . simp [weapon_equipWeapon, hv]
  . funext d
    by_cases hd : d = c
    . subst hd
      simp [character_equipWeapon]
    . simp [character_equipWeapon, hd]

-- A press of equip claims the weapon that the character overlaps.
def claimedBy (s : World C W) (m : PickupMove C W) : List (C × W) :=
  match m.equips with
  | some c => ((s.character c).overlappedWeapon.map (c, ·)).toList
  | none => []

theorem claims_step {s s' : World C W} {m : PickupMove C W} (h : Kept s)
    (hstep : pickupMachine.step s m = some s')
    : claimMachine.run s.claims (claimedBy s m) = some s'.claims := by
  cases pickupTransition_of_step hstep with
  | enter w c hcollision hout =>
    rw [Combat.enter, onSphereOverlap, claims_setOverlappingWeapon]
    rfl
  | exit w c hin =>
    rw [Combat.exit, onSphereEndOverlap, claims_setOverlappingWeapon]
    rfl
  | equip m c w hm hover =>
    simp [claimedBy, hm, hover, Machine.run, claims_equipWeapon (h.not_equipped hover)]
  | nothing m c hm hover => simp [claimedBy, hm, hover]

/--
From any state reached on, the presses of equip that reach a weapon are a run of claims: none of them
is lost, nothing else changes hands, each weapon is claimed at most once, only while nobody has
claimed it, and whoever has claimed it stays its owner.
-/
theorem claims_of_run {isLocallyControlled rightHandSocket : C → Bool}
    {ms ns : List (PickupMove C W)} {s t : World C W}
    (hs : pickupMachine.run (World.initial true isLocallyControlled rightHandSocket) ms = some s)
    (ht : pickupMachine.run s ns = some t)
    : claimMachine.run s.claims (pickupMachine.collected claimedBy s ns) = some t.claims ∧
        ClaimedOnce s.claims t.claims (pickupMachine.collected claimedBy s ns) := by
  have hkept : Kept s := Machine.run_invariant_of_step (fun h hstep => h.step hstep)
    (kept_initial isLocallyControlled rightHandSocket) hs
  have hclaims := Machine.run_collected World.claims (fun h hstep => h.step hstep) claims_step hkept
    ht
  exact ⟨hclaims, claimedOnce_of_run hclaims⟩

-- A character takes one weapon and then another one, the first one stays its own.
theorem claims_two_weapons
    : let s : World Unit Bool := .initial true (fun _ => true) (fun _ => true)
      let first := equipButtonPressed () (enter true () s)
      let second := equipButtonPressed () (enter false () first)
      claimMachine.run first.claims [((), false)] = some second.claims ∧
        ClaimedOnce first.claims second.claims [((), false)] := by
  intro s first second
  have hs : pickupMachine.run s [.beginOverlap true (), .equipButtonPressed ()] = some first := rfl
  have ht : pickupMachine.run first [.beginOverlap false (), .equipButtonPressed ()]
      = some second := rfl
  exact claims_of_run hs ht

end Combat
