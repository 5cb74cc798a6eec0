import SoldierOfGoons.Combat.Ownership
import SoldierOfGoons.Lib.Conduit

/-!
What a client sees of a character over time. The server equips one weapon after another, replication
may skip some of them and brings the others late; a client sees them in the order in which they were
equipped, and none of them again after another one.
-/

universe u v x

namespace Combat

inductive Seen (W : Type v) where
  | equipped (w : W)
  | arrived (weapon : Option W)

variable {K : Type x} {C : Type u} {W : Type v}

def Seen.weapon? : Seen W → Option (Option W)
  | .equipped w => some (some w)
  | .arrived _ => none

def Seen.arrival? : Seen W → Option (Option W)
  | .equipped _ => none
  | .arrived weapon => some weapon

def equippedWeapons (history : List (Seen W)) : List (Option W) :=
  history.filterMap Seen.weapon?

def arrivedWeapons (history : List (Seen W)) : List (Option W) :=
  history.filterMap Seen.arrival?

section Equip

theorem claimedBy_cases (s : World C W) (m : PickupMove C W)
    : claimedBy s m = [] ∨ ∃ c w, claimedBy s m = [(c, w)] := by
  unfold claimedBy
  split
  . next c hc =>
    cases (s.character c).overlappedWeapon with
    | none => exact Or.inl rfl
    | some w => exact Or.inr ⟨c, w, rfl⟩
  . exact Or.inl rfl

variable [DecidableEq C] [DecidableEq W] {s s' : World C W} {m : PickupMove C W}

theorem claims_cases (h : Kept s) (hstep : pickupMachine.step s m = some s')
    : claimedBy s m = [] ∧ s'.claims = s.claims ∨
        ∃ d w, claimedBy s m = [(d, w)] ∧ s.claims.owner w = none ∧
          s'.claims = ⟨Function.update s.claims.owner w (some d),
            Function.update s.claims.wielded d (some w)⟩ := by
  have hclaims := claims_step h hstep
  rcases claimedBy_cases s m with hnone | ⟨d, w, hone⟩
  . rw [hnone, Machine.run_nil, Option.some.injEq] at hclaims
    exact Or.inl ⟨hnone, hclaims.symm⟩
  . right
    rw [hone, Machine.run_cons] at hclaims
    obtain ⟨t, ht, hrest⟩ := hclaims
    rw [Machine.run_nil, Option.some.injEq] at hrest
    subst hrest
    simp only [claimMachine, Claims.claim, Option.ite_none_right_eq_some, Option.isNone_iff_eq_none,
      Option.some.injEq] at ht
    exact ⟨d, w, hone, ht.1, ht.2.symm⟩

omit [DecidableEq W] in
theorem claims_tick (s : World C W) (c : C) (t : Tick) : (s.tick c t).claims = s.claims := by
  have hwielded : (s.tick c t).claims.wielded = s.claims.wielded := by
    funext d
    apply equippedWeapon_tick
  unfold World.claims at hwielded ⊢
  rw [Claims.mk.injEq]
  exact ⟨rfl, hwielded⟩

end Equip

section Seeing

variable [DecidableEq W] {c : C} {history : List (Seen W)} {claims claims' : Claims C W}
  {client client' : Client C W}

structure Seeing (c : C) (history : List (Seen W)) (claims : Claims C W) (client : Client C W)
    : Prop where
  owned : ∀ w, some w ∈ equippedWeapons history → claims.owner w = some c
  once : (equippedWeapons history).Nodup
  ordered : (arrivedWeapons history ++ (client.equippedWeapon c).ahead (claims.wielded c)).Sublist
    (equippedWeapons history)
  shown : (client.world.character c).equippedWeapon = (arrivedWeapons history).getLastD none

theorem Seeing.congr (h : Seeing c history claims client)
    (hlink : client'.equippedWeapon c = client.equippedWeapon c)
    (hworld : (client'.world.character c).equippedWeapon
      = (client.world.character c).equippedWeapon)
    : Seeing c history claims client' := by
  refine ⟨h.owned, h.once, ?_, ?_⟩
  . rw [hlink]
    exact h.ordered
  . rw [hworld]
    exact h.shown

theorem Seeing.equip [DecidableEq C] (h : Seeing c history claims client) {w : W}
    (hfree : claims.owner w = none)
    : Seeing c (history ++ [.equipped w])
        ⟨Function.update claims.owner w (some c), Function.update claims.wielded c (some w)⟩
        client := by
  have hequipped : equippedWeapons (history ++ [.equipped w]) = equippedWeapons history ++ [some w] := by
    simp [equippedWeapons, Seen.weapon?]
  have harrived : arrivedWeapons (history ++ [.equipped w]) = arrivedWeapons history := by
    simp [arrivedWeapons, Seen.arrival?]
  have hnew : some w ∉ equippedWeapons history := by
    intro hmem
    rw [h.owned w hmem] at hfree
    cases hfree
  have hchange : ((client.equippedWeapon c).ahead (some w)).Sublist
      ((client.equippedWeapon c).ahead (claims.wielded c) ++ [some w]) :=
    Link.ahead_change (some w)
  constructor
  . intro v hv
    rw [hequipped, List.mem_append, List.mem_singleton, Option.some.injEq] at hv
    dsimp only
    by_cases heq : v = w
    . rw [heq, Function.update_self]
    . rw [Function.update_of_ne heq]
      exact h.owned v (hv.resolve_right heq)
  . rw [hequipped]
    exact h.once.append (List.nodup_singleton _) (by simpa using hnew)
  . rw [hequipped, harrived]
    dsimp only
    rw [Function.update_self]
    have hall := hchange.append_left (arrivedWeapons history)
    rw [← List.append_assoc] at hall
    exact hall.trans (h.ordered.append_right [some w])
  . rw [harrived]
    exact h.shown

theorem Seeing.equipOther [DecidableEq C] (h : Seeing c history claims client) {d : C} {w : W}
    (hfree : claims.owner w = none) (hd : d ≠ c)
    : Seeing c history
        ⟨Function.update claims.owner w (some d), Function.update claims.wielded d (some w)⟩
        client := by
  refine ⟨?_, h.once, ?_, h.shown⟩
  . intro v hv
    have howner := h.owned v hv
    have hne : v ≠ w := by
      rintro rfl
      rw [hfree] at howner
      cases howner
    dsimp only
    rwa [Function.update_of_ne hne]
  . dsimp only
    rw [Function.update_of_ne hd.symm]
    exact h.ordered

theorem Seeing.arrive [DecidableEq C] (h : Seeing c history claims client) {weapon : Option W}
    {l : Link (Option W)} (hl : (client.equippedWeapon c).receive = some (weapon, l))
    : Seeing c (history ++ [.arrived weapon]) claims
        { client with
          world := Client.arriveEquippedWeapon c weapon client.world
          equippedWeapon := Function.update client.equippedWeapon c l } := by
  have hequipped : equippedWeapons (history ++ [.arrived weapon]) = equippedWeapons history := by
    simp [equippedWeapons, Seen.weapon?]
  have harrived : arrivedWeapons (history ++ [.arrived weapon])
      = arrivedWeapons history ++ [weapon] := by
    simp [arrivedWeapons, Seen.arrival?]
  constructor
  . rw [hequipped]
    exact h.owned
  . rw [hequipped]
    exact h.once
  . have hordered := h.ordered
    rw [Link.ahead_receive hl] at hordered
    rw [hequipped, harrived]
    dsimp only
    rw [Function.update_self, List.append_assoc, List.singleton_append]
    exact hordered
  . rw [harrived]
    simp [equippedWeapon_arriveEquippedWeapon]

end Seeing

section Client

variable [DecidableEq C] [DecidableEq W] {pawn c : C} {server : World C W} {client client' : Client C W}
  {p : Property C W}

-- What concerns another property leaves this one alone.
theorem send_other (hp : p ≠ .equippedWeapon c) (hsend : client.send pawn server p = some client')
    : client'.equippedWeapon c = client.equippedWeapon c ∧ client'.world = client.world := by
  cases p with
  | weaponState w =>
    simp only [Client.send, Option.map_eq_some_iff] at hsend
    obtain ⟨l, hl, rfl⟩ := hsend
    exact ⟨rfl, rfl⟩
  | equippedWeapon d =>
    simp only [Client.send, Option.map_eq_some_iff] at hsend
    obtain ⟨l, hl, rfl⟩ := hsend
    have hd : c ≠ d := by
      rintro rfl
      exact hp rfl
    exact ⟨Function.update_of_ne hd _ _, rfl⟩
  | overlappedWeapon =>
    simp only [Client.send, Option.map_eq_some_iff] at hsend
    obtain ⟨l, hl, rfl⟩ := hsend
    exact ⟨rfl, rfl⟩

theorem deliver_other (hp : p ≠ .equippedWeapon c) (hdeliver : client.deliver pawn p = some client')
    : client'.equippedWeapon c = client.equippedWeapon c ∧
        (client'.world.character c).equippedWeapon
          = (client.world.character c).equippedWeapon := by
  cases p with
  | weaponState w =>
    simp only [Client.deliver, Option.map_eq_some_iff] at hdeliver
    obtain ⟨⟨weaponState, l⟩, hl, rfl⟩ := hdeliver
    exact ⟨rfl, by simp only [character_arriveWeaponState]⟩
  | equippedWeapon d =>
    simp only [Client.deliver, Option.map_eq_some_iff] at hdeliver
    obtain ⟨⟨weapon, l⟩, hl, rfl⟩ := hdeliver
    have hd : c ≠ d := by
      rintro rfl
      exact hp rfl
    refine ⟨Function.update_of_ne hd _ _, ?_⟩
    simp only [equippedWeapon_arriveEquippedWeapon, if_neg hd]
  | overlappedWeapon =>
    simp only [Client.deliver, Option.map_eq_some_iff] at hdeliver
    obtain ⟨⟨weapon, l⟩, hl, rfl⟩ := hdeliver
    exact ⟨rfl, by simp only [character_arriveOverlappedWeapon]⟩

end Client

variable [DecidableEq K] [DecidableEq C] [DecidableEq W]

-- What a move adds to the history of a character as one client sees it.
def seen (k : K) (c : C) (n : Net K C W) : NetMove K C W → List (Seen W)
  | .pickup m =>
    ((claimedBy n.server m).filter fun claim => claim.1 = c).map fun claim => .equipped claim.2
  | .deliver j p =>
    if j = k ∧ p = .equippedWeapon c then
      (((n.client k).equippedWeapon c).inFlight.head?.map Seen.arrived).toList
    else
      []
  | _ => []

structure Remembered (k : K) (c : C) (history : List (Seen W)) (n : Net K C W) : Prop where
  kept : Kept n.server
  seeing : Seeing c history n.server.claims (n.client k)

section Step

variable {pawn : K → C} {k : K} {c : C} {history : List (Seen W)} {n : Net K C W}

theorem Remembered.pickup (h : Remembered k c history n) {m : PickupMove C W} {server : World C W}
    (hstep : pickupMachine.step n.server m = some server)
    : Remembered k c (history ++ seen k c n (.pickup m)) { n with server } := by
  refine ⟨h.kept.step hstep, ?_⟩
  rcases claims_cases h.kept hstep with ⟨hnone, hclaims⟩ | ⟨d, w, hone, hfree, hclaims⟩
  . simp only [seen, hnone, List.filter_nil, List.map_nil, List.append_nil, hclaims]
    exact h.seeing
  . simp only [seen, hone, hclaims]
    by_cases hd : d = c
    . subst hd
      simpa using h.seeing.equip hfree
    . simpa [hd] using h.seeing.equipOther hfree hd

omit [DecidableEq C] in
theorem Remembered.setClient (h : Remembered k c history n) {j : K} {client : Client C W}
    (hclient : j = k → Seeing c history n.server.claims client)
    : Remembered k c history (n.setClient j client) := by
  refine ⟨h.kept, ?_⟩
  by_cases hj : k = j
  . subst hj
    simpa [Net.setClient] using hclient rfl
  . simpa [Net.setClient, hj] using h.seeing

theorem Remembered.deliver (h : Remembered k c history n) {j : K} {p : Property C W}
    {client : Client C W} (hdeliver : (n.client j).deliver (pawn j) p = some client)
    : Remembered k c (history ++ seen k c n (.deliver j p)) (n.setClient j client) := by
  by_cases hseen : j = k ∧ p = .equippedWeapon c
  . obtain ⟨rfl, rfl⟩ := hseen
    simp only [Client.deliver, Option.map_eq_some_iff] at hdeliver
    obtain ⟨⟨weapon, l⟩, hl, rfl⟩ := hdeliver
    have hhead : ((n.client j).equippedWeapon c).inFlight.head? = some weapon := by
      rw [(Link.receive_eq_some.mp hl).1]
      rfl
    simp only [seen, and_self, if_true, hhead, Option.map_some, Option.toList_some]
    refine ⟨h.kept, ?_⟩
    simpa [Net.setClient] using h.seeing.arrive hl
  . simp only [seen, if_neg hseen, List.append_nil]
    apply h.setClient
    rintro rfl
    have hp : p ≠ .equippedWeapon c := fun hp => hseen ⟨rfl, hp⟩
    obtain ⟨hlink, hworld⟩ := deliver_other hp hdeliver
    exact h.seeing.congr hlink hworld

theorem Remembered.send (h : Remembered k c history n) {j : K} {p : Property C W}
    {client : Client C W} (hsend : (n.client j).send (pawn j) n.server p = some client)
    : Remembered k c history (n.setClient j client) := by
  apply h.setClient
  rintro rfl
  by_cases hp : p = .equippedWeapon c
  . subst hp
    simp only [Client.send, Option.map_eq_some_iff] at hsend
    obtain ⟨l, hl, rfl⟩ := hsend
    refine ⟨h.seeing.owned, h.seeing.once, ?_, h.seeing.shown⟩
    dsimp only
    rw [Function.update_self]
    have hahead : l.ahead (n.server.claims.wielded c)
        = ((n.client j).equippedWeapon c).ahead (n.server.claims.wielded c) :=
      Link.ahead_send hl
    rw [hahead]
    exact h.seeing.ordered
  . obtain ⟨hlink, hworld⟩ := send_other hp hsend
    exact h.seeing.congr hlink (by rw [hworld])

theorem Remembered.step {n' : Net K C W} {m : NetMove K C W} (h : Remembered k c history n)
    (hstep : (Net.machine pawn).step n m = some n')
    : Remembered k c (history ++ seen k c n m) n' := by
  cases netTransition_of_step hstep with
  | pickup m server hserver => exact h.pickup hserver
  | serverTick d t =>
    simp only [seen, List.append_nil]
    refine ⟨h.kept.tick d t, ?_⟩
    dsimp only
    rw [claims_tick]
    exact h.seeing
  | clientTick j d t =>
    simp only [seen, List.append_nil]
    apply h.setClient
    rintro rfl
    exact h.seeing.congr rfl (by apply equippedWeapon_tick)
  | send j p client hsend =>
    simp only [seen, List.append_nil]
    exact h.send hsend
  | deliver j p client hdeliver => exact h.deliver hdeliver

end Step

structure InOrder (k : K) (c : C) (history : List (Seen W)) (n : Net K C W) : Prop where
  ordered : (arrivedWeapons history).Sublist (equippedWeapons history)
  once : (arrivedWeapons history).Nodup
  shown : ((n.client k).world.character c).equippedWeapon = (arrivedWeapons history).getLastD none

omit [DecidableEq K] [DecidableEq C] in
theorem Remembered.inOrder {k : K} {c : C} {history : List (Seen W)} {n : Net K C W}
    (h : Remembered k c history n) : InOrder k c history n := by
  have hordered : (arrivedWeapons history).Sublist (equippedWeapons history) :=
    (List.sublist_append_left _ _).trans h.seeing.ordered
  exact ⟨hordered, hordered.nodup h.seeing.once, h.seeing.shown⟩

/--
However replication lags, the weapons that a client sees in the hands of a character are some of those
that the character has taken, in the order in which it took them and each of them once.
-/
theorem inOrder_of_run (host : C) (pawn : K → C) (rightHandSocket : C → Bool) (k : K) (c : C)
    (ms : List (NetMove K C W))
    : (Net.machine pawn).AlwaysCollected (seen k c) (InOrder k c) []
        (Net.initial host pawn rightHandSocket) ms := by
  apply Machine.alwaysCollected_of_along (J := Remembered k c) (G := fun _ _ => True)
  . intro history n m n' h _ hstep
    exact h.step hstep
  . intro history n h
    exact h.inOrder
  . refine ⟨kept_initial _ rightHandSocket, ?_, List.nodup_nil, ?_, rfl⟩
    . intro w hw
      cases hw
    . have hahead : (Link.initial (none : Option W)).ahead none = [] := Link.ahead_initial none
      exact hahead ▸ List.Sublist.refl _
  . exact (Net.machine pawn).along_true _ ms

end Combat
