import SoldierOfGoons.Lib.Machine
import SoldierOfGoons.Lib.Replication
import Mathlib.Data.Rat.Defs

/-!
Aiming of a character that a remote client owns. The owner sets `bIsAiming` ahead of the server, by
a reliable RPC the server follows, and replication brings the server's value back to every client,
the owner included. Nothing sets the walk speed where a replicated value arrives. The `rpcs` are the
`ServerSetAiming` calls under way. `lastInput` is what the player did last; no function of the program
reads or writes it.
-/

universe x

namespace Combat

structure WalkSpeeds where
  baseWalkSpeed : ℚ
  aimWalkSpeed : ℚ

def WalkSpeeds.constructed : WalkSpeeds where
  baseWalkSpeed := 600
  aimWalkSpeed := 450

def WalkSpeeds.speed (speeds : WalkSpeeds) (bIsAiming : Bool) : ℚ :=
  if bIsAiming then speeds.aimWalkSpeed else speeds.baseWalkSpeed

structure CombatComponent where
  bIsAiming : Bool
  maxWalkSpeed : ℚ

namespace CombatComponent

def beginPlay (speeds : WalkSpeeds) : CombatComponent where
  bIsAiming := false
  maxWalkSpeed := speeds.baseWalkSpeed

-- The RPC that is sent between the two assignments is part of the step below.
def setAiming (speeds : WalkSpeeds) (bAiming : Bool) (c : CombatComponent) : CombatComponent :=
  let c := { c with bIsAiming := bAiming }
  { c with
    maxWalkSpeed := if c.bIsAiming then speeds.aimWalkSpeed else speeds.baseWalkSpeed }

def serverSetAiming (speeds : WalkSpeeds) (bAiming : Bool) (c : CombatComponent) : CombatComponent :=
  let c := { c with bIsAiming := bAiming }
  { c with
    maxWalkSpeed := if c.bIsAiming then speeds.aimWalkSpeed else speeds.baseWalkSpeed }

-- `bIsAiming` is replicated without an `OnRep` function.
def replicated (bIsAiming : Bool) (c : CombatComponent) : CombatComponent :=
  { c with bIsAiming }

end CombatComponent

structure Aiming (K : Type x) where
  owner : CombatComponent
  server : CombatComponent
  other : K → CombatComponent
  rpcs : List Bool
  ownerLink : Link Bool
  otherLink : K → Link Bool
  lastInput : Bool

inductive AimMove (K : Type x) where
  | aimButtonPressed
  | aimButtonReleased
  | serverSetAiming
  | sendOwner
  | deliverOwner
  | send (k : K)
  | deliver (k : K)
  deriving DecidableEq, Repr

-- What the player does, pressing or releasing the button.
def AimMove.input {K : Type x} : AimMove K → Option Bool
  | .aimButtonPressed => some true
  | .aimButtonReleased => some false
  | _ => none

namespace Aiming

variable {K : Type x} [DecidableEq K]

def initial (K : Type x) (speeds : WalkSpeeds) : Aiming K where
  owner := .beginPlay speeds
  server := .beginPlay speeds
  other _ := .beginPlay speeds
  rpcs := []
  ownerLink := .initial false
  otherLink _ := .initial false
  lastInput := false

def setAiming (speeds : WalkSpeeds) (bAiming : Bool) (s : Aiming K) : Aiming K :=
  { s with
    owner := s.owner.setAiming speeds bAiming
    rpcs := s.rpcs ++ [bAiming] }

def step (speeds : WalkSpeeds) (s : Aiming K) : AimMove K → Option (Aiming K)
  | .aimButtonPressed => some { s.setAiming speeds true with lastInput := true }
  | .aimButtonReleased => some { s.setAiming speeds false with lastInput := false }
  | .serverSetAiming =>
    match s.rpcs with
    | [] => none
    | b :: rpcs => some { s with server := s.server.serverSetAiming speeds b, rpcs }
  | .sendOwner => (s.ownerLink.send s.server.bIsAiming).map fun l => { s with ownerLink := l }
  | .deliverOwner =>
    s.ownerLink.receive.map fun (b, l) => { s with owner := s.owner.replicated b, ownerLink := l }
  | .send k =>
    ((s.otherLink k).send s.server.bIsAiming).map fun l =>
      { s with otherLink := Function.update s.otherLink k l }
  | .deliver k =>
    (s.otherLink k).receive.map fun (b, l) =>
      { s with
        other := Function.update s.other k ((s.other k).replicated b)
        otherLink := Function.update s.otherLink k l }

def machine (speeds : WalkSpeeds) : Machine (Aiming K) (AimMove K) := ⟨step speeds⟩

inductive Transition (speeds : WalkSpeeds) (s : Aiming K) : AimMove K → Aiming K → Prop where
  | input (m : AimMove K) (bAiming : Bool) (hm : m.input = some bAiming)
    : Transition speeds s m { s.setAiming speeds bAiming with lastInput := bAiming }
  | rpc (b : Bool) (rpcs : List Bool) (hrpcs : s.rpcs = b :: rpcs)
    : Transition speeds s .serverSetAiming
        { s with server := s.server.serverSetAiming speeds b, rpcs }
  | sendOwner (l : Link Bool) (hl : s.ownerLink.send s.server.bIsAiming = some l)
    : Transition speeds s .sendOwner { s with ownerLink := l }
  | deliverOwner (b : Bool) (l : Link Bool) (hl : s.ownerLink.receive = some (b, l))
    : Transition speeds s .deliverOwner
        { s with owner := s.owner.replicated b, ownerLink := l }
  | send (k : K) (l : Link Bool) (hl : (s.otherLink k).send s.server.bIsAiming = some l)
    : Transition speeds s (.send k) { s with otherLink := Function.update s.otherLink k l }
  | deliver (k : K) (b : Bool) (l : Link Bool) (hl : (s.otherLink k).receive = some (b, l))
    : Transition speeds s (.deliver k)
        { s with
          other := Function.update s.other k ((s.other k).replicated b)
          otherLink := Function.update s.otherLink k l }

theorem transition_of_step {speeds : WalkSpeeds} {s s' : Aiming K} {m : AimMove K}
    (h : (machine speeds).step s m = some s') : Transition speeds s m s' := by
  simp only [machine] at h
  cases m with
  | aimButtonPressed =>
    cases h
    exact .input _ true rfl
  | aimButtonReleased =>
    cases h
    exact .input _ false rfl
  | serverSetAiming =>
    simp only [step] at h
    split at h
    . cases h
    . next b rpcs hrpcs =>
      cases h
      exact .rpc b rpcs hrpcs
  | sendOwner =>
    simp only [step, Option.map_eq_some_iff] at h
    obtain ⟨l, hl, rfl⟩ := h
    exact .sendOwner l hl
  | deliverOwner =>
    simp only [step, Option.map_eq_some_iff] at h
    obtain ⟨⟨b, l⟩, hl, rfl⟩ := h
    exact .deliverOwner b l hl
  | send k =>
    simp only [step, Option.map_eq_some_iff] at h
    obtain ⟨l, hl, rfl⟩ := h
    exact .send k l hl
  | deliver k =>
    simp only [step, Option.map_eq_some_iff] at h
    obtain ⟨⟨b, l⟩, hl, rfl⟩ := h
    exact .deliver k b l hl

/-!
The last RPC under way is the last input. The owner holds the last input, or is about to get the
last value sent, or has it.
-/

structure Tracked (speeds : WalkSpeeds) (s : Aiming K) : Prop where
  rpcs : s.rpcs.getLastD s.server.bIsAiming = s.lastInput
  server_speed : s.server.maxWalkSpeed = speeds.speed s.server.bIsAiming
  owner_speed : s.owner.maxWalkSpeed = speeds.speed s.lastInput
  owner_link : s.ownerLink.Carries s.ownerLink.lastSent
  owner : s.owner.bIsAiming = s.lastInput ∨ s.ownerLink.Carries s.owner.bIsAiming
  other : ∀ k, (s.otherLink k).Carries (s.other k).bIsAiming

omit [DecidableEq K] in
theorem tracked_initial (speeds : WalkSpeeds) : Tracked speeds (initial K speeds) := by
  constructor
  . rfl
  . rfl
  . rfl
  . apply Link.carries_initial false
  . exact Or.inl rfl
  . intro k
    apply Link.carries_initial false

theorem Tracked.step {speeds : WalkSpeeds} {s s' : Aiming K} {m : AimMove K}
    (h : Tracked speeds s) (hstep : (machine speeds).step s m = some s') : Tracked speeds s' := by
  cases transition_of_step hstep with
  | input _ bAiming hm =>
    refine { h with rpcs := ?_, owner_speed := rfl, owner := Or.inl rfl }
    simp [setAiming, List.getLastD_eq_getLast?]
  | rpc b rpcs hrpcs =>
    have hlast := h.rpcs
    rw [hrpcs, List.getLastD_cons] at hlast
    exact { h with rpcs := hlast, server_speed := rfl }
  | sendOwner l hl =>
    exact { h with
      owner_link := Link.Carries.send _ hl
      owner := Or.inr (Link.Carries.send _ hl) }
  | deliverOwner b l hl =>
    have hcarries := h.owner_link.receive hl
    exact { h with owner_link := hcarries.lastSent, owner := Or.inr hcarries }
  | send k l hl =>
    refine { h with other := ?_ }
    intro j
    by_cases hj : j = k
    . subst hj
      simpa using Link.Carries.send _ hl
    . simpa [hj] using h.other j
  | deliver k b l hl =>
    refine { h with other := ?_ }
    intro j
    by_cases hj : j = k
    . subst hj
      simpa [CombatComponent.replicated] using (h.other j).receive hl
    . simpa [hj] using h.other j

structure AtRest (s : Aiming K) : Prop where
  rpcs : s.rpcs = []
  owner : s.ownerLink.Quiet s.server.bIsAiming
  other : ∀ k, (s.otherLink k).Quiet s.server.bIsAiming

structure Converged (speeds : WalkSpeeds) (s : Aiming K) : Prop where
  server : s.server.bIsAiming = s.lastInput
  owner : s.owner.bIsAiming = s.lastInput
  other : ∀ k, (s.other k).bIsAiming = s.lastInput
  server_speed : s.server.maxWalkSpeed = speeds.speed s.lastInput
  owner_speed : s.owner.maxWalkSpeed = speeds.speed s.lastInput

omit [DecidableEq K] in
theorem Tracked.converged {speeds : WalkSpeeds} {s : Aiming K} (h : Tracked speeds s)
    (hrest : AtRest s) : Converged speeds s := by
  have hserver : s.server.bIsAiming = s.lastInput := by
    have hlast := h.rpcs
    rw [hrest.rpcs] at hlast
    exact hlast
  constructor
  . exact hserver
  . rcases h.owner with howner | hcarries
    . exact howner
    . rw [hcarries.view_eq hrest.owner, hserver]
  . intro k
    rw [(h.other k).view_eq (hrest.other k), hserver]
  . rw [h.server_speed, hserver]
  . apply h.owner_speed

theorem converged_of_run (speeds : WalkSpeeds) (ms : List (AimMove K))
    : (machine speeds).Always (fun s => AtRest s → Converged speeds s) (initial K speeds) ms :=
  Machine.always_of_along (G := fun _ _ => True) (fun h _ hstep => h.step hstep) Tracked.converged
    (tracked_initial speeds) ((machine speeds).along_true _ ms)

/-!
What the owner has set ahead of the server is undone by a value that is older than the last input.
-/

structure Predicted (speeds : WalkSpeeds) (s : Aiming K) : Prop where
  speed : s.owner.maxWalkSpeed = speeds.speed s.owner.bIsAiming
  input : s.owner.bIsAiming = s.lastInput

-- The value that arrives at the owner is the last input.
def Current (s : Aiming K) : AimMove K → Prop
  | .deliverOwner => s.ownerLink.inFlight.head? = some s.lastInput
  | _ => True

theorem Predicted.step {speeds : WalkSpeeds} {s s' : Aiming K} {m : AimMove K}
    (h : Predicted speeds s) (hcurrent : Current s m)
    (hstep : (machine speeds).step s m = some s') : Predicted speeds s' := by
  cases transition_of_step hstep with
  | input _ bAiming hm => exact ⟨rfl, rfl⟩
  | deliverOwner b l hl =>
    have hb : b = s.lastInput := by
      simpa [Current, (Link.receive_eq_some.mp hl).1] using hcurrent
    subst hb
    refine ⟨?_, rfl⟩
    rw [← h.input]
    apply h.speed
  | _ => exact ⟨h.speed, h.input⟩

theorem not_predicted_of_stale {speeds : WalkSpeeds} {s s' : Aiming K} {m : AimMove K}
    (hstale : ¬Current s m) (hstep : (machine speeds).step s m = some s')
    : ¬Predicted speeds s' := by
  intro h
  cases transition_of_step hstep with
  | deliverOwner b l hl =>
    have hb : b = s.lastInput := h.input
    apply hstale
    simp [Current, (Link.receive_eq_some.mp hl).1, hb]
  | input m bAiming hm =>
    cases m with
    | deliverOwner => cases hm
    | _ => exact hstale trivial
  | _ => exact hstale trivial

theorem predicted_iff_current (speeds : WalkSpeeds) (ms : List (AimMove K))
    : (machine speeds).Always (Predicted speeds) (initial K speeds) ms
        ↔
      (machine speeds).Along Current (initial K speeds) ms := by
  apply Machine.always_iff_along (I := Predicted speeds)
  . intro s m s' h hcurrent hstep
    apply h.step hcurrent hstep
  . intro s h
    exact h
  . intro s m s' _ hstale hstep
    apply not_predicted_of_stale hstale hstep
  . exact ⟨rfl, rfl⟩

-- A quick press and release: the echo of the press arrives after the release.
theorem not_predicted
    : ¬∀ (K : Type) [DecidableEq K] (speeds : WalkSpeeds) (ms : List (AimMove K)),
        (machine speeds).Always (Predicted speeds) (initial K speeds) ms := by
  intro h
  have hrun := h Empty .constructed
    [.aimButtonPressed, .serverSetAiming, .sendOwner, .aimButtonReleased, .deliverOwner]
  obtain ⟨s, hs, heq⟩ := hrun.exists_map
    (fun s => (s.owner.bIsAiming, s.lastInput)) (b := (true, false)) (by decide)
  have := hs.input
  simp only [Prod.mk.injEq] at heq
  rw [heq.1, heq.2] at this
  cases this

end Aiming

end Combat
