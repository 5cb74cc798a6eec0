import SoldierOfGoons.Combat.Animating
import SoldierOfGoons.Combat.Convergence

/-!
Who holds what, on all machines at once. A client may show a weapon that its character has put away
long ago, but never one that another character owns: the server hands each weapon out once, and all
that is replicated is what the server once had.
-/

universe u v x

namespace Combat

variable {K : Type x} {C : Type u} {W : Type v}

-- A pointer to a weapon that the character owns on the server.
def Holds (server : World C W) (c : C) (weapon : Option W) : Prop :=
  ∀ w, weapon = some w → server.claims.owner w = some c

def Handed (server : World C W) (w : W) (weaponState : EWeaponState) : Prop :=
  weaponState = .equipped → ∃ c, server.claims.owner w = some c

structure Lags (server : World C W) (client : Client C W) : Prop where
  equippedWeapon : ∀ c, (client.equippedWeapon c).Within (Holds server c)
  weaponState : ∀ w, (client.weaponState w).Within (Handed server w)
  wielded : ∀ c, Holds server c (client.world.character c).equippedWeapon
  equipped : ∀ w, Handed server w (client.world.weapon w).weaponState

theorem Kept.holds {s : World C W} (h : Kept s) (c : C) : Holds s c (s.character c).equippedWeapon := by
  intro w hw
  obtain ⟨hstate, howner⟩ := h.wielded c w hw
  simp [World.claims, hstate, howner]

theorem lags_initial [DecidableEq C] (host pawn : C) (rightHandSocket : C → Bool)
    : Lags (World.initial true (fun c => c = host) rightHandSocket : World C W)
        (.initial pawn rightHandSocket) := by
  have hnone (s : World C W) (c : C) : Holds s c none := by
    intro w hw
    cases hw
  have hinitial (s : World C W) (w : W) : Handed s w .initial := by
    intro hstate
    cases hstate
  constructor
  . exact fun c => Link.Within.initial (hnone _ c)
  . exact fun w => Link.Within.initial (hinitial _ w)
  . exact fun c => hnone _ c
  . exact fun w => hinitial _ w

section Server

variable {server server' : World C W} {client : Client C W}

theorem Lags.mono (h : Lags server client)
    (howner : ∀ w c, server.claims.owner w = some c → server'.claims.owner w = some c)
    : Lags server' client := by
  have hholds (c : C) (weapon : Option W) (hweapon : Holds server c weapon)
      : Holds server' c weapon := by
    intro w hw
    exact howner w c (hweapon w hw)
  have hhanded (w : W) (weaponState : EWeaponState) (hstate : Handed server w weaponState)
      : Handed server' w weaponState := by
    intro hequipped
    obtain ⟨c, hc⟩ := hstate hequipped
    exact ⟨c, howner w c hc⟩
  constructor
  . exact fun c => (h.equippedWeapon c).mono (hholds c)
  . exact fun w => (h.weaponState w).mono (hhanded w)
  . exact fun c => hholds c _ (h.wielded c)
  . exact fun w => hhanded w _ (h.equipped w)

end Server

section Client

variable [DecidableEq C] [DecidableEq W] {pawn : C} {server : World C W} {client client' : Client C W}

omit [DecidableEq W] in
theorem Lags.clientTick (h : Lags server client) (c : C) (t : Tick)
    : Lags server { client with world := client.world.tick c t } := by
  refine { h with wielded := ?_ }
  intro d
  rw [equippedWeapon_tick]
  exact h.wielded d

theorem Lags.send (h : Lags server client) (hkept : Kept server)
    (hstates : ∀ w, Handed server w (server.weapon w).weaponState) {p : Property C W}
    (hsend : client.send pawn server p = some client') : Lags server client' := by
  cases p with
  | weaponState w =>
    simp only [Client.send, Option.map_eq_some_iff] at hsend
    obtain ⟨l, hl, rfl⟩ := hsend
    refine { h with weaponState := ?_ }
    intro v
    by_cases hv : v = w
    . subst hv
      simpa using (h.weaponState v).send (hstates v) hl
    . simpa [hv] using h.weaponState v
  | equippedWeapon c =>
    simp only [Client.send, Option.map_eq_some_iff] at hsend
    obtain ⟨l, hl, rfl⟩ := hsend
    refine { h with equippedWeapon := ?_ }
    intro d
    by_cases hd : d = c
    . subst hd
      simpa using (h.equippedWeapon d).send (hkept.holds d) hl
    . simpa [hd] using h.equippedWeapon d
  | overlappedWeapon =>
    simp only [Client.send, Option.map_eq_some_iff] at hsend
    obtain ⟨l, hl, rfl⟩ := hsend
    exact { h with }

theorem Lags.deliver (h : Lags server client) {p : Property C W}
    (hdeliver : client.deliver pawn p = some client') : Lags server client' := by
  cases p with
  | weaponState w =>
    simp only [Client.deliver, Option.map_eq_some_iff] at hdeliver
    obtain ⟨⟨weaponState, l⟩, hl, rfl⟩ := hdeliver
    obtain ⟨harrived, hrest⟩ := (h.weaponState w).receive hl
    constructor
    . exact h.equippedWeapon
    . intro v
      by_cases hv : v = w
      . subst hv
        simpa using hrest
      . simpa [hv] using h.weaponState v
    . intro c
      simp only [character_arriveWeaponState]
      exact h.wielded c
    . intro v
      simp only [weapon_arriveWeaponState]
      split
      . next hv =>
        rw [hv]
        exact harrived
      . exact h.equipped v
  | equippedWeapon c =>
    simp only [Client.deliver, Option.map_eq_some_iff] at hdeliver
    obtain ⟨⟨equippedWeapon, l⟩, hl, rfl⟩ := hdeliver
    obtain ⟨harrived, hrest⟩ := (h.equippedWeapon c).receive hl
    constructor
    . intro d
      by_cases hd : d = c
      . subst hd
        simpa using hrest
      . simpa [hd] using h.equippedWeapon d
    . exact h.weaponState
    . intro d
      simp only [equippedWeapon_arriveEquippedWeapon]
      split
      . next hd =>
        rw [hd]
        exact harrived
      . exact h.wielded d
    . intro v
      simp only [weapon_arriveEquippedWeapon]
      exact h.equipped v
  | overlappedWeapon =>
    simp only [Client.deliver, Option.map_eq_some_iff] at hdeliver
    obtain ⟨⟨overlappedWeapon, l⟩, hl, rfl⟩ := hdeliver
    refine { h with wielded := ?_, equipped := ?_ }
    . intro d
      simp only [character_arriveOverlappedWeapon]
      exact h.wielded d
    . intro v
      by_cases hsame : (client.world.character pawn).overlappedWeapon = overlappedWeapon
      . simp only [Client.arriveOverlappedWeapon, hsame, if_true]
        exact h.equipped v
      . simp only [weapon_arriveOverlappedWeapon _ _ _ _ hsame]
        exact h.equipped v

end Client

section Pickup

variable [DecidableEq C] [DecidableEq W] {server server' : World C W} {m : PickupMove C W}

theorem handed_pickup (h : ∀ w, Handed server w (server.weapon w).weaponState)
    (hstep : pickupMachine.step server m = some server') (w : W)
    : Handed server' w (server'.weapon w).weaponState := by
  cases pickupTransition_of_step hstep with
  | enter v c hcollision hout =>
    simpa [Handed, World.claims, enter, onSphereOverlap, weapon_setOverlappingWeapon] using h w
  | exit v c hin =>
    simpa [Handed, World.claims, exit, onSphereEndOverlap, weapon_setOverlappingWeapon] using h w
  | equip _ c v hm hover =>
    by_cases hw : w = v
    . subst hw
      intro _
      exact ⟨c, by simp [World.claims, weapon_equipWeapon]⟩
    . simpa [Handed, World.claims, weapon_equipWeapon, hw] using h w
  | nothing _ c hm hover => exact h w

end Pickup

-- What one move of the network can do.
inductive NetTransition [DecidableEq K] [DecidableEq C] [DecidableEq W] (pawn : K → C) (n : Net K C W)
    : NetMove K C W → Net K C W → Prop where
  | pickup (m : PickupMove C W) (server : World C W)
      (hserver : pickupMachine.step n.server m = some server)
    : NetTransition pawn n (.pickup m) { n with server }
  | serverTick (c : C) (t : Tick)
    : NetTransition pawn n (.serverTick c t) { n with server := n.server.tick c t }
  | clientTick (k : K) (c : C) (t : Tick)
    : NetTransition pawn n (.clientTick k c t)
        (n.setClient k { n.client k with world := (n.client k).world.tick c t })
  | send (k : K) (p : Property C W) (client : Client C W)
      (hsend : (n.client k).send (pawn k) n.server p = some client)
    : NetTransition pawn n (.send k p) (n.setClient k client)
  | deliver (k : K) (p : Property C W) (client : Client C W)
      (hdeliver : (n.client k).deliver (pawn k) p = some client)
    : NetTransition pawn n (.deliver k p) (n.setClient k client)

theorem netTransition_of_step [DecidableEq K] [DecidableEq C] [DecidableEq W] {pawn : K → C}
    {n n' : Net K C W} {m : NetMove K C W} (h : (Net.machine pawn).step n m = some n')
    : NetTransition pawn n m n' := by
  simp only [Net.machine] at h
  cases m with
  | pickup m =>
    simp only [Net.step, Option.map_eq_some_iff] at h
    obtain ⟨server, hserver, rfl⟩ := h
    exact .pickup m server hserver
  | serverTick c t =>
    cases h
    exact .serverTick c t
  | clientTick k c t =>
    cases h
    exact .clientTick k c t
  | send k p =>
    simp only [Net.step, Option.map_eq_some_iff] at h
    obtain ⟨client, hsend, rfl⟩ := h
    exact .send k p client hsend
  | deliver k p =>
    simp only [Net.step, Option.map_eq_some_iff] at h
    obtain ⟨client, hdeliver, rfl⟩ := h
    exact .deliver k p client hdeliver

structure Shared (n : Net K C W) : Prop where
  kept : Kept n.server
  handed : ∀ w, Handed n.server w (n.server.weapon w).weaponState
  lags : ∀ k, Lags n.server (n.client k)

theorem Shared.setClient [DecidableEq K] {n : Net K C W} (h : Shared n) (k : K) {client : Client C W}
    (hclient : Lags n.server client) : Shared (n.setClient k client) := by
  refine ⟨h.kept, h.handed, ?_⟩
  intro j
  by_cases hj : j = k
  . subst hj
    simpa [Net.setClient] using hclient
  . simpa [Net.setClient, hj] using h.lags j

-- What a machine shows, the server being none of the clients.
def Net.view (n : Net K C W) : Option K → World C W
  | none => n.server
  | some k => (n.client k).world

theorem Shared.holds {n : Net K C W} (h : Shared n) (i : Option K) (c : C)
    : Holds n.server c ((n.view i).character c).equippedWeapon := by
  cases i with
  | none => exact h.kept.holds c
  | some k => exact (h.lags k).wielded c

theorem Shared.handed_view {n : Net K C W} (h : Shared n) (i : Option K) (w : W)
    : Handed n.server w ((n.view i).weapon w).weaponState := by
  cases i with
  | none => exact h.handed w
  | some k => exact (h.lags k).equipped w

structure Agreed (n : Net K C W) : Prop where
  owner : ∀ i c w, ((n.view i).character c).equippedWeapon = some w →
    (n.server.weapon w).weaponState = .equipped ∧ (n.server.weapon w).owner = some c
  unshared : ∀ i j c d w, ((n.view i).character c).equippedWeapon = some w →
    ((n.view j).character d).equippedWeapon = some w → c = d
  equipped : ∀ i w, ((n.view i).weapon w).weaponState = .equipped →
    (n.server.weapon w).weaponState = .equipped

theorem owner_claims {s : World C W} {w : W} {c : C}
    : s.claims.owner w = some c ↔ (s.weapon w).weaponState = .equipped ∧ (s.weapon w).owner = some c := by
  simp [World.claims]

theorem Shared.agreed {n : Net K C W} (h : Shared n) : Agreed n := by
  constructor
  . intro i c w hw
    exact owner_claims.mp (h.holds i c w hw)
  . intro i j c d w hc hd
    have hsame := (h.holds i c w hc).symm.trans (h.holds j d w hd)
    exact Option.some.inj hsame
  . intro i w hw
    obtain ⟨c, hc⟩ := h.handed_view i w hw
    exact (owner_claims.mp hc).1

variable [DecidableEq K] [DecidableEq C] [DecidableEq W]

theorem Shared.step {pawn : K → C} {n n' : Net K C W} {m : NetMove K C W} (h : Shared n)
    (hstep : (Net.machine pawn).step n m = some n') : Shared n' := by
  cases netTransition_of_step hstep with
  | pickup m server hserver =>
    refine ⟨h.kept.step hserver, handed_pickup h.handed hserver, ?_⟩
    intro k
    exact (h.lags k).mono fun w c => owner_pickup h.kept hserver
  | serverTick c t =>
    exact ⟨h.kept.tick c t, h.handed, fun k => (h.lags k).mono fun w c howner => howner⟩
  | clientTick k c t => exact h.setClient k ((h.lags k).clientTick c t)
  | send k p client hsend => exact h.setClient k ((h.lags k).send h.kept h.handed hsend)
  | deliver k p client hdeliver => exact h.setClient k ((h.lags k).deliver hdeliver)

/--
However replication lags, a weapon that any machine shows in the hands of a character is equipped and
owned by that character on the server; so no two machines show it in different hands.
-/
theorem agreed_of_run (host : C) (pawn : K → C) (rightHandSocket : C → Bool)
    (ms : List (NetMove K C W))
    : (Net.machine pawn).Always Agreed (Net.initial host pawn rightHandSocket) ms := by
  apply Machine.always_of_along (I := Shared) (G := fun _ _ => True)
  . intro n m n' h _ hstep
    exact h.step hstep
  . intro n h
    exact h.agreed
  . refine ⟨kept_initial _ rightHandSocket, ?_, fun k => lags_initial host (pawn k) rightHandSocket⟩
    intro w hstate
    cases hstate
  . exact (Net.machine pawn).along_true _ ms

end Combat
