import SoldierOfGoons.Combat.Hosting

/-!
What the clients show. A client may lag behind the server, but once nothing is pending or in flight
it agrees with the server.
-/

universe u v x

namespace Combat

variable {K : Type x} {C : Type u} {W : Type v}

section Arrive

variable [DecidableEq W] (c d : C) (w v : W) (s : World C W)

theorem character_arriveWeaponState (weaponState : EWeaponState)
    : (Client.arriveWeaponState w weaponState s).character = s.character := by
  unfold Client.arriveWeaponState onRepWeaponState
  split
  . rfl
  . split <;> rfl

theorem weapon_arriveWeaponState (weaponState : EWeaponState)
    : (Client.arriveWeaponState w weaponState s).weapon v
        =
      { s.weapon v with
        weaponState := if v = w then weaponState else (s.weapon v).weaponState
        pickupWidgetVisible :=
          if v = w ∧ weaponState = .equipped ∧ (s.weapon w).weaponState ≠ .equipped then false
          else (s.weapon v).pickupWidgetVisible } := by
  unfold Client.arriveWeaponState onRepWeaponState
  by_cases hv : v = w
  . subst hv
    split
    . next heq => simp [← heq]
    . next hne =>
      cases weaponState <;> simp_all [World.setWeapon, weapon_showPickupWidget]
  . split
    . simp [hv]
    . split <;> simp [hv, World.setWeapon, weapon_showPickupWidget]

theorem weapon_showIfAny (bShowWidget : Bool) (weapon : Option W)
    : (showIfAny bShowWidget weapon s).weapon v
        =
      { s.weapon v with
        pickupWidgetVisible :=
          if weapon = some v then bShowWidget else (s.weapon v).pickupWidgetVisible } := by
  cases weapon with
  | none => rfl
  | some w => simp [showIfAny, weapon_showPickupWidget, eq_comm]

theorem character_showIfAny (bShowWidget : Bool) (weapon : Option W)
    : (showIfAny bShowWidget weapon s).character = s.character := by
  cases weapon <;> rfl

variable [DecidableEq C]

theorem weapon_arriveEquippedWeapon (equippedWeapon : Option W)
    : (Client.arriveEquippedWeapon c equippedWeapon s).weapon = s.weapon := by
  unfold Client.arriveEquippedWeapon onRepEquippedWeapon
  split
  . rfl
  . split <;> rfl

theorem overlappedWeapon_arriveEquippedWeapon (equippedWeapon : Option W)
    : ((Client.arriveEquippedWeapon c equippedWeapon s).character d).overlappedWeapon
        =
      (s.character d).overlappedWeapon := by
  unfold Client.arriveEquippedWeapon onRepEquippedWeapon faceController World.setCharacter
  by_cases hd : d = c
  . subst hd
    split
    . rfl
    . split <;> simp
  . split
    . rfl
    . split <;> simp [hd]

theorem equippedWeapon_arriveEquippedWeapon (equippedWeapon : Option W)
    : ((Client.arriveEquippedWeapon c equippedWeapon s).character d).equippedWeapon
        =
      if d = c then equippedWeapon else (s.character d).equippedWeapon := by
  unfold Client.arriveEquippedWeapon onRepEquippedWeapon faceController World.setCharacter
  by_cases hd : d = c
  . subst hd
    split
    . next heq => simp [heq]
    . split <;> simp
  . split
    . rfl
    . split <;> simp [hd]

theorem facing_arriveEquippedWeapon {s : World C W} (h : ∀ d, Facing (s.character d)) (c d : C)
    {equippedWeapon : Option W} (hsome : equippedWeapon.isSome)
    : Facing ((Client.arriveEquippedWeapon c equippedWeapon s).character d) := by
  unfold Client.arriveEquippedWeapon onRepEquippedWeapon faceController World.setCharacter
  split
  . apply h d
  . rw [if_pos (by simpa using hsome)]
    by_cases hd : d = c
    . subst hd
      obtain ⟨w, rfl⟩ := Option.isSome_iff_exists.mp hsome
      simp [Facing]
    . simpa [hd] using h d

theorem character_arriveOverlappedWeapon (overlappedWeapon : Option W)
    : (Client.arriveOverlappedWeapon c overlappedWeapon s).character d
        =
      { s.character d with
        overlappedWeapon := if d = c then overlappedWeapon else (s.character d).overlappedWeapon } := by
  unfold Client.arriveOverlappedWeapon onRepOverlappingWeapon
  by_cases hd : d = c
  . subst hd
    split
    . next heq => simp [← heq]
    . simp [character_showIfAny, World.setCharacter]
  . split
    . rfl
    . simp [character_showIfAny, World.setCharacter, hd]

theorem weapon_arriveOverlappedWeapon (overlappedWeapon : Option W)
    (hne : (s.character c).overlappedWeapon ≠ overlappedWeapon)
    : (Client.arriveOverlappedWeapon c overlappedWeapon s).weapon v
        =
      { s.weapon v with
        pickupWidgetVisible :=
          if (s.character c).overlappedWeapon = some v then false
          else if overlappedWeapon = some v then true
          else (s.weapon v).pickupWidgetVisible } := by
  unfold Client.arriveOverlappedWeapon onRepOverlappingWeapon
  rw [if_neg hne]
  simp [weapon_showIfAny, World.setCharacter]

end Arrive

/-!
The copy of one client. Its links carry the server's values to it. The state and the pointer of a
weapon arrive in either order, so the widget of its own overlapped weapon may already be down.
-/

structure Viewed (pawn : C) (server : World C W) (client : Client C W) : Prop where
  weaponState : ∀ w, (client.weaponState w).Carries (client.world.weapon w).weaponState
  equippedWeapon : ∀ c, (client.equippedWeapon c).Carries (client.world.character c).equippedWeapon
  overlappedWeapon : client.overlappedWeapon.Carries (client.world.character pawn).overlappedWeapon
  states : ∀ w, (client.weaponState w).OneWay (· = .equipped) .initial (server.weapon w).weaponState
  equips : ∀ c, (client.equippedWeapon c).OneWay (fun weapon => weapon.isSome) none
    (server.character c).equippedWeapon
  shown : ∀ w, (client.world.weapon w).pickupWidgetVisible = true →
    (client.world.character pawn).overlappedWeapon = some w
  hidden : ∀ w, (client.world.character pawn).overlappedWeapon = some w →
    (client.world.weapon w).pickupWidgetVisible = true ∨
      (client.world.weapon w).weaponState = .equipped
  facing : ∀ c, Facing (client.world.character c)

theorem viewed_initial [DecidableEq C] (host pawn : C) (rightHandSocket : C → Bool)
    : Viewed pawn (World.initial true (fun c => c = host) rightHandSocket)
        (Client.initial pawn rightHandSocket : Client C W) := by
  constructor
  . intro w
    apply Link.carries_initial _
  . intro c
    apply Link.carries_initial _
  . apply Link.carries_initial _
  . intro w
    apply Link.OneWay.initial _ _
  . intro c
    apply Link.OneWay.initial _ _
  . intro w h
    cases h
  . intro w h
    cases h
  . intro c
    simp [Client.initial, World.initial, Character.constructed, Facing]

theorem Viewed.pickup [DecidableEq C] [DecidableEq W] {pawn : C} {server server' : World C W}
    {client : Client C W} {m : PickupMove C W} (h : Viewed pawn server client)
    (hstep : pickupMachine.step server m = some server') : Viewed pawn server' client :=
  { h with
    states := fun w => (h.states w).change (weaponState_pickup hstep w)
    equips := fun c => (h.equips c).change (equippedWeapon_pickup hstep c) }

theorem Viewed.deliverWeaponState [DecidableEq W] {pawn : C} {server : World C W}
    {client : Client C W} (h : Viewed pawn server client) {w : W} {weaponState : EWeaponState} {l : Link EWeaponState}
    (hl : (client.weaponState w).receive = some (weaponState, l))
    : Viewed pawn server
        { client with
          world := Client.arriveWeaponState w weaponState client.world
          weaponState := Function.update client.weaponState w l } := by
  obtain ⟨rfl, hstates⟩ := (h.states w).receive hl
  constructor
  . intro v
    by_cases hv : v = w
    . subst hv
      simpa [weapon_arriveWeaponState] using (h.weaponState v).receive hl
    . simpa [weapon_arriveWeaponState, hv] using h.weaponState v
  . intro c
    rw [character_arriveWeaponState]
    apply h.equippedWeapon c
  . rw [character_arriveWeaponState]
    apply h.overlappedWeapon
  . intro v
    by_cases hv : v = w
    . subst hv
      simpa using hstates
    . simpa [hv] using h.states v
  . apply h.equips
  . intro v hvisible
    rw [character_arriveWeaponState]
    apply h.shown v
    simp only [weapon_arriveWeaponState] at hvisible
    split at hvisible
    . cases hvisible
    . exact hvisible
  . intro v hover
    rw [character_arriveWeaponState] at hover
    simp only [weapon_arriveWeaponState]
    by_cases hv : v = w
    . simp [hv]
    . simpa [hv] using h.hidden v hover
  . intro c
    rw [character_arriveWeaponState]
    apply h.facing c

section Viewed

variable [DecidableEq C] {pawn : C} {server : World C W} {client client' : Client C W}

theorem Viewed.serverTick (h : Viewed pawn server client) (c : C) (t : Tick)
    : Viewed pawn (server.tick c t) client := by
  refine { h with equips := ?_ }
  intro d
  rw [equippedWeapon_tick]
  apply h.equips d

theorem Viewed.clientTick (h : Viewed pawn server client) (c : C) (t : Tick)
    : Viewed pawn server { client with world := client.world.tick c t } := by
  constructor
  . apply h.weaponState
  . intro d
    rw [equippedWeapon_tick]
    apply h.equippedWeapon d
  . rw [overlappedWeapon_tick]
    apply h.overlappedWeapon
  . apply h.states
  . apply h.equips
  . intro w hw
    rw [overlappedWeapon_tick]
    apply h.shown w hw
  . intro w hw
    rw [overlappedWeapon_tick] at hw
    apply h.hidden w hw
  . apply facing_tick h.facing c t

variable [DecidableEq W]

theorem Viewed.send (h : Viewed pawn server client) {p : Property C W}
    (hsend : client.send pawn server p = some client') : Viewed pawn server client' := by
  cases p with
  | weaponState w =>
    simp only [Client.send, Option.map_eq_some_iff] at hsend
    obtain ⟨l, hl, rfl⟩ := hsend
    refine { h with weaponState := ?_, states := ?_ }
    . intro v
      by_cases hv : v = w
      . subst hv
        simpa using Link.Carries.send _ hl
      . simpa [hv] using h.weaponState v
    . intro v
      by_cases hv : v = w
      . subst hv
        simpa using (h.states v).send hl
      . simpa [hv] using h.states v
  | equippedWeapon c =>
    simp only [Client.send, Option.map_eq_some_iff] at hsend
    obtain ⟨l, hl, rfl⟩ := hsend
    refine { h with equippedWeapon := ?_, equips := ?_ }
    . intro d
      by_cases hd : d = c
      . subst hd
        simpa using Link.Carries.send _ hl
      . simpa [hd] using h.equippedWeapon d
    . intro d
      by_cases hd : d = c
      . subst hd
        simpa using (h.equips d).send hl
      . simpa [hd] using h.equips d
  | overlappedWeapon =>
    simp only [Client.send, Option.map_eq_some_iff] at hsend
    obtain ⟨l, hl, rfl⟩ := hsend
    exact { h with overlappedWeapon := Link.Carries.send _ hl }

theorem Viewed.deliverEquippedWeapon (h : Viewed pawn server client) {c : C}
    {equippedWeapon : Option W} {l : Link (Option W)}
    (hl : (client.equippedWeapon c).receive = some (equippedWeapon, l))
    : Viewed pawn server
        { client with
          world := Client.arriveEquippedWeapon c equippedWeapon client.world
          equippedWeapon := Function.update client.equippedWeapon c l } := by
  obtain ⟨hsome, hequips⟩ := (h.equips c).receive hl
  constructor
  . intro w
    rw [weapon_arriveEquippedWeapon]
    apply h.weaponState w
  . intro d
    rw [equippedWeapon_arriveEquippedWeapon]
    by_cases hd : d = c
    . subst hd
      simpa using (h.equippedWeapon d).receive hl
    . simpa [hd] using h.equippedWeapon d
  . rw [overlappedWeapon_arriveEquippedWeapon]
    apply h.overlappedWeapon
  . apply h.states
  . intro d
    by_cases hd : d = c
    . subst hd
      simpa using hequips
    . simpa [hd] using h.equips d
  . intro w hvisible
    rw [weapon_arriveEquippedWeapon] at hvisible
    rw [overlappedWeapon_arriveEquippedWeapon]
    apply h.shown w hvisible
  . intro w hover
    rw [overlappedWeapon_arriveEquippedWeapon] at hover
    rw [weapon_arriveEquippedWeapon]
    apply h.hidden w hover
  . intro d
    apply facing_arriveEquippedWeapon h.facing c d hsome

theorem Viewed.deliverOverlappedWeapon (h : Viewed pawn server client)
    {overlappedWeapon : Option W} {l : Link (Option W)}
    (hl : client.overlappedWeapon.receive = some (overlappedWeapon, l))
    : Viewed pawn server
        { client with
          world := Client.arriveOverlappedWeapon pawn overlappedWeapon client.world
          overlappedWeapon := l } := by
  have hcarries := h.overlappedWeapon.receive hl
  by_cases heq : (client.world.character pawn).overlappedWeapon = overlappedWeapon
  . have hsame : Client.arriveOverlappedWeapon pawn overlappedWeapon client.world = client.world := by
      unfold Client.arriveOverlappedWeapon
      rw [if_pos heq]
    rw [hsame]
    refine { h with overlappedWeapon := ?_ }
    rw [heq]
    exact hcarries
  . have hweapon (w : W) := weapon_arriveOverlappedWeapon pawn w client.world overlappedWeapon heq
    constructor
    . intro w
      rw [hweapon]
      apply h.weaponState w
    . intro c
      rw [character_arriveOverlappedWeapon]
      apply h.equippedWeapon c
    . rw [character_arriveOverlappedWeapon]
      simpa using hcarries
    . apply h.states
    . apply h.equips
    . intro w hvisible
      simp only [hweapon, character_arriveOverlappedWeapon, if_true] at hvisible ⊢
      split at hvisible
      . cases hvisible
      . next hold =>
        split at hvisible
        . assumption
        . exact absurd (h.shown w hvisible) hold
    . intro w hover
      simp only [hweapon, character_arriveOverlappedWeapon, if_true] at hover ⊢
      subst hover
      left
      rw [if_neg heq, if_pos rfl]
    . intro c
      rw [character_arriveOverlappedWeapon]
      apply h.facing c

theorem Viewed.deliver (h : Viewed pawn server client) {p : Property C W}
    (hdeliver : client.deliver pawn p = some client') : Viewed pawn server client' := by
  cases p with
  | weaponState w =>
    simp only [Client.deliver, Option.map_eq_some_iff] at hdeliver
    obtain ⟨⟨weaponState, l⟩, hl, rfl⟩ := hdeliver
    apply h.deliverWeaponState hl
  | equippedWeapon c =>
    simp only [Client.deliver, Option.map_eq_some_iff] at hdeliver
    obtain ⟨⟨equippedWeapon, l⟩, hl, rfl⟩ := hdeliver
    apply h.deliverEquippedWeapon hl
  | overlappedWeapon =>
    simp only [Client.deliver, Option.map_eq_some_iff] at hdeliver
    obtain ⟨⟨overlappedWeapon, l⟩, hl, rfl⟩ := hdeliver
    apply h.deliverOverlappedWeapon hl

end Viewed

-- An equipped weapon is nobody's overlapped one, so the widget that may be down is not needed.
theorem Viewed.displays {pawn : C} {server : World C W} {client : Client C W}
    (h : Viewed pawn server client) (hrest : client.AtRest pawn server)
    (hkept : Kept server) : Displays pawn client.world := by
  have hover := h.overlappedWeapon.view_eq hrest.overlappedWeapon
  intro w
  constructor
  . apply h.shown w
  . intro hw
    rcases h.hidden w hw with hvisible | hstate
    . exact hvisible
    . rw [(h.weaponState w).view_eq (hrest.weaponState w)] at hstate
      rw [hover] at hw
      exact absurd hstate (hkept.not_equipped hw)

structure Client.Agrees (pawn : C) (server : World C W) (client : Client C W) : Prop where
  weaponState : ∀ w, (client.world.weapon w).weaponState = (server.weapon w).weaponState
  equippedWeapon : ∀ c,
    (client.world.character c).equippedWeapon = (server.character c).equippedWeapon
  overlappedWeapon :
    (client.world.character pawn).overlappedWeapon = (server.character pawn).overlappedWeapon
  widgets : ∀ w, (client.world.weapon w).pickupWidgetVisible = true ↔
    (server.character pawn).overlappedWeapon = some w
  equipped_hidden : ∀ w, (server.weapon w).weaponState = .equipped →
    (client.world.weapon w).pickupWidgetVisible = false
  wielded : ∀ c w, (server.character c).equippedWeapon = some w →
    (client.world.weapon w).weaponState = .equipped ∧
      (client.world.weapon w).pickupWidgetVisible = false
  bUseControllerRotationYaw : ∀ c, (client.world.character c).bUseControllerRotationYaw
    = (server.character c).bUseControllerRotationYaw
  bOrientRotationToMovement : ∀ c, (client.world.character c).bOrientRotationToMovement
    = (server.character c).bOrientRotationToMovement

structure Converging (host : C) (pawn : K → C) (n : Net K C W) : Prop where
  server_displays : Displays host n.server
  server_hidden : ∀ w, (n.server.weapon w).weaponState = .equipped →
    (n.server.weapon w).pickupWidgetVisible = false
  server_wielded : ∀ c w, (n.server.character c).equippedWeapon = some w →
    (n.server.weapon w).weaponState = .equipped ∧ (n.server.weapon w).pickupWidgetVisible = false
  server_facing : ∀ c, Facing (n.server.character c)
  client_facing : ∀ k c, Facing ((n.client k).world.character c)
  agrees : ∀ k, (n.client k).AtRest (pawn k) n.server → (n.client k).Agrees (pawn k) n.server

structure Replicated (host : C) (pawn : K → C) (n : Net K C W) : Prop where
  hosting : Hosting host n.server
  viewed : ∀ k, Viewed (pawn k) n.server (n.client k)

theorem Hosting.hidden {host : C} {s : World C W} (h : Hosting host s) {w : W}
    (hstate : (s.weapon w).weaponState = .equipped) : (s.weapon w).pickupWidgetVisible = false := by
  rw [← Bool.not_eq_true, h.displays w]
  intro hover
  exact h.kept.not_equipped hover hstate

theorem Viewed.agrees {pawn host : C} {server : World C W} {client : Client C W}
    (h : Viewed pawn server client) (hrest : client.AtRest pawn server)
    (hhosting : Hosting host server) : client.Agrees pawn server := by
  have hequipped (c : C) := (h.equippedWeapon c).view_eq (hrest.equippedWeapon c)
  have hover := h.overlappedWeapon.view_eq hrest.overlappedWeapon
  have hdisplays := h.displays hrest hhosting.kept
  have hstates (w : W) := (h.weaponState w).view_eq (hrest.weaponState w)
  have hwidgets (w : W) : (client.world.weapon w).pickupWidgetVisible = true ↔
      (server.character pawn).overlappedWeapon = some w := by
    rw [hdisplays w, hover]
  have hhidden (w : W) (hstate : (server.weapon w).weaponState = .equipped)
      : (client.world.weapon w).pickupWidgetVisible = false := by
    rw [← Bool.not_eq_true, hwidgets]
    intro hw
    apply hhosting.kept.not_equipped hw hstate
  constructor
  . exact hstates
  . exact hequipped
  . exact hover
  . exact hwidgets
  . exact hhidden
  . intro c w hw
    obtain ⟨hstate, _⟩ := hhosting.kept.wielded c w hw
    exact ⟨(hstates w).trans hstate, hhidden w hstate⟩
  . intro c
    rw [(h.facing c).1, (hhosting.facing c).1, hequipped c]
  . intro c
    rw [(h.facing c).2, (hhosting.facing c).2, hequipped c]

theorem Replicated.converging {host : C} {pawn : K → C} {n : Net K C W}
    (h : Replicated host pawn n) : Converging host pawn n := by
  constructor
  . apply h.hosting.displays
  . intro w hstate
    exact h.hosting.hidden hstate
  . intro c w hw
    obtain ⟨hstate, _⟩ := h.hosting.kept.wielded c w hw
    exact ⟨hstate, h.hosting.hidden hstate⟩
  . apply h.hosting.facing
  . intro k
    exact (h.viewed k).facing
  . intro k hrest
    exact (h.viewed k).agrees hrest h.hosting

theorem Replicated.setClient [DecidableEq K] {host : C} {pawn : K → C} {n : Net K C W}
    (h : Replicated host pawn n) (k : K) {client : Client C W}
    (hclient : Viewed (pawn k) n.server client) : Replicated host pawn (n.setClient k client) := by
  refine ⟨h.hosting, ?_⟩
  intro j
  by_cases hj : j = k
  . subst hj
    simpa [Net.setClient] using hclient
  . simpa [Net.setClient, hj] using h.viewed j

variable [DecidableEq K] [DecidableEq C] [DecidableEq W]

theorem Replicated.step {host : C} {pawn : K → C} {n n' : Net K C W} {m : NetMove K C W}
    (h : Replicated host pawn n) (hstep : (Net.machine pawn).step n m = some n')
    : Replicated host pawn n' := by
  simp only [Net.machine] at hstep
  cases m with
  | pickup m =>
    simp only [Net.step, Option.map_eq_some_iff] at hstep
    obtain ⟨server, hserver, rfl⟩ := hstep
    exact ⟨h.hosting.pickup hserver, fun k => (h.viewed k).pickup hserver⟩
  | serverTick c t =>
    cases hstep
    exact ⟨h.hosting.tick c t, fun k => (h.viewed k).serverTick c t⟩
  | clientTick k c t =>
    cases hstep
    apply h.setClient k ((h.viewed k).clientTick c t)
  | send k p =>
    simp only [Net.step, Option.map_eq_some_iff] at hstep
    obtain ⟨client, hclient, rfl⟩ := hstep
    apply h.setClient k ((h.viewed k).send hclient)
  | deliver k p =>
    simp only [Net.step, Option.map_eq_some_iff] at hstep
    obtain ⟨client, hclient, rfl⟩ := hstep
    apply h.setClient k ((h.viewed k).deliver hclient)

theorem converging_of_run (host : C) (pawn : K → C) (rightHandSocket : C → Bool)
    (ms : List (NetMove K C W))
    : (Net.machine pawn).Always (Converging host pawn)
        (Net.initial host pawn rightHandSocket) ms := by
  apply Machine.always_of_along (I := Replicated host pawn) (G := fun _ _ => True)
  . intro n m n' h _ hstep
    apply h.step hstep
  . intro n h
    apply h.converging
  . exact ⟨hosting_initial host rightHandSocket, fun k => viewed_initial host (pawn k) rightHandSocket⟩
  . exact (Net.machine pawn).along_true _ ms

end Combat
