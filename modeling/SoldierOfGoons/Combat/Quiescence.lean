import SoldierOfGoons.Combat.Convergence
import SoldierOfGoons.Combat.Aiming
import SoldierOfGoons.Lib.Backlog
import SoldierOfGoons.Lib.Inevitability

/-!
How long the clients take. While nothing is picked up on the server, each message that is sent or
delivered, of whatever property and to whichever client, brings the net one message closer to rest,
and the machines may tick in between. Aiming comes to rest once the player does nothing any more: each
RPC that arrives may set all links to work again, but there are only as many as are under way.
-/

universe u v x

namespace Combat

variable {K : Type x} {C : Type u} {W : Type v}

def NetMove.isPickup : NetMove K C W → Bool
  | .pickup _ => true
  | _ => false

def NetMove.isMessage : NetMove K C W → Bool
  | .send _ _ => true
  | .deliver _ _ => true
  | _ => false

section Client

variable [DecidableEq W] [Fintype C] [Fintype W] {pawn : C} {server : World C W} {client client' : Client C W}

def Client.backlog (pawn : C) (server : World C W) (client : Client C W) : Nat :=
  ∑ w, (client.weaponState w).backlog (server.weapon w).weaponState +
    ∑ c, (client.equippedWeapon c).backlog (server.character c).equippedWeapon +
    client.overlappedWeapon.backlog (server.character pawn).overlappedWeapon

theorem Client.backlog_weaponState {w : W} {l : Link EWeaponState} (world : World C W)
    (h : l.backlog (server.weapon w).weaponState + 1
      = (client.weaponState w).backlog (server.weapon w).weaponState)
    : ({ client with world, weaponState := Function.update client.weaponState w l } : Client C W).backlog
          pawn server + 1
        =
      client.backlog pawn server := by
  have := Link.sum_backlog_update (fun w => (server.weapon w).weaponState) h
  dsimp only [Client.backlog]
  omega

theorem Client.backlog_overlappedWeapon {l : Link (Option W)} (world : World C W)
    (h : l.backlog (server.character pawn).overlappedWeapon + 1
      = client.overlappedWeapon.backlog (server.character pawn).overlappedWeapon)
    : ({ client with world, overlappedWeapon := l } : Client C W).backlog pawn server + 1
        =
      client.backlog pawn server := by
  dsimp only [Client.backlog]
  omega

theorem Client.atRest_of_backlog (h : client.backlog pawn server = 0)
    : client.AtRest pawn server := by
  unfold Client.backlog at h
  simp only [Nat.add_eq_zero_iff, Finset.sum_eq_zero_iff, Finset.mem_univ, true_imp_iff] at h
  obtain ⟨⟨hstate, hequipped⟩, hoverlapped⟩ := h
  constructor
  . exact fun w => Link.quiet_of_backlog (hstate w)
  . exact fun c => Link.quiet_of_backlog (hequipped c)
  . exact Link.quiet_of_backlog hoverlapped

variable [DecidableEq C]

theorem Client.backlog_equippedWeapon {c : C} {l : Link (Option W)} (world : World C W)
    (h : l.backlog (server.character c).equippedWeapon + 1
      = (client.equippedWeapon c).backlog (server.character c).equippedWeapon)
    : ({ client with
          world
          equippedWeapon := Function.update client.equippedWeapon c l } : Client C W).backlog
          pawn server + 1
        =
      client.backlog pawn server := by
  have := Link.sum_backlog_update (fun c => (server.character c).equippedWeapon) h
  dsimp only [Client.backlog]
  omega

theorem Client.backlog_send {p : Property C W} (h : client.send pawn server p = some client')
    : client'.backlog pawn server + 1 = client.backlog pawn server := by
  cases p with
  | weaponState w =>
    simp only [Client.send, Option.map_eq_some_iff] at h
    obtain ⟨l, hl, rfl⟩ := h
    exact Client.backlog_weaponState client.world (Link.backlog_send hl)
  | equippedWeapon c =>
    simp only [Client.send, Option.map_eq_some_iff] at h
    obtain ⟨l, hl, rfl⟩ := h
    exact Client.backlog_equippedWeapon client.world (Link.backlog_send hl)
  | overlappedWeapon =>
    simp only [Client.send, Option.map_eq_some_iff] at h
    obtain ⟨l, hl, rfl⟩ := h
    exact Client.backlog_overlappedWeapon client.world (Link.backlog_send hl)

theorem Client.backlog_deliver {p : Property C W} (h : client.deliver pawn p = some client')
    : client'.backlog pawn server + 1 = client.backlog pawn server := by
  cases p with
  | weaponState w =>
    simp only [Client.deliver, Option.map_eq_some_iff] at h
    obtain ⟨⟨weaponState, l⟩, hl, rfl⟩ := h
    exact Client.backlog_weaponState _ (Link.backlog_receive _ hl)
  | equippedWeapon c =>
    simp only [Client.deliver, Option.map_eq_some_iff] at h
    obtain ⟨⟨equippedWeapon, l⟩, hl, rfl⟩ := h
    exact Client.backlog_equippedWeapon _ (Link.backlog_receive _ hl)
  | overlappedWeapon =>
    simp only [Client.deliver, Option.map_eq_some_iff] at h
    obtain ⟨⟨overlappedWeapon, l⟩, hl, rfl⟩ := h
    exact Client.backlog_overlappedWeapon _ (Link.backlog_receive _ hl)

theorem Client.isSome_of_backlog (h : client.backlog pawn server ≠ 0)
    : ∃ p, (client.send pawn server p).isSome ∨ (client.deliver pawn p).isSome := by
  have hne : ∑ w, (client.weaponState w).backlog (server.weapon w).weaponState ≠ 0 ∨
      ∑ c, (client.equippedWeapon c).backlog (server.character c).equippedWeapon ≠ 0 ∨
      client.overlappedWeapon.backlog (server.character pawn).overlappedWeapon ≠ 0 := by
    unfold Client.backlog at h
    omega
  rcases hne with hstate | hequipped | hoverlapped
  . obtain ⟨w, _, hw⟩ := Finset.exists_ne_zero_of_sum_ne_zero hstate
    refine ⟨.weaponState w, ?_⟩
    simpa [Client.send, Client.deliver] using Link.isSome_of_backlog hw
  . obtain ⟨c, _, hc⟩ := Finset.exists_ne_zero_of_sum_ne_zero hequipped
    refine ⟨.equippedWeapon c, ?_⟩
    simpa [Client.send, Client.deliver] using Link.isSome_of_backlog hc
  . refine ⟨.overlappedWeapon, ?_⟩
    simpa [Client.send, Client.deliver] using Link.isSome_of_backlog hoverlapped

end Client

section Net

variable [DecidableEq K] [DecidableEq W] [Fintype K] [Fintype C] [Fintype W]

def Net.backlog (pawn : K → C) (n : Net K C W) : Nat :=
  ∑ k, (n.client k).backlog (pawn k) n.server

variable {pawn : K → C} {n n' : Net K C W} {m : NetMove K C W}

theorem Net.backlog_setClient {k : K} {client : Client C W}
    (h : client.backlog (pawn k) n.server + 1 = (n.client k).backlog (pawn k) n.server)
    : (n.setClient k client).backlog pawn + 1 = n.backlog pawn := by
  apply sum_succ_of_ne k
  . simpa [Net.setClient] using h
  . intro j hj
    simp [Net.setClient, hj]

variable [DecidableEq C]

theorem Net.backlog_step (hm : m.isPickup = false) (hstep : (Net.machine pawn).step n m = some n')
    : n'.backlog pawn + (if m.isMessage then 1 else 0) = n.backlog pawn := by
  simp only [Net.machine] at hstep
  cases m with
  | pickup m => cases hm
  | serverTick c t =>
    cases hstep
    simp only [Net.backlog, Client.backlog, NetMove.isMessage, equippedWeapon_tick, overlappedWeapon_tick]
    rfl
  | clientTick k c t =>
    cases hstep
    apply Finset.sum_congr rfl
    intro j _
    by_cases hj : j = k
    . subst hj
      simp [Net.setClient, Client.backlog]
    . simp [Net.setClient, hj]
  | send k p =>
    simp only [Net.step, Option.map_eq_some_iff] at hstep
    obtain ⟨client, hclient, rfl⟩ := hstep
    exact Net.backlog_setClient (Client.backlog_send hclient)
  | deliver k p =>
    simp only [Net.step, Option.map_eq_some_iff] at hstep
    obtain ⟨client, hclient, rfl⟩ := hstep
    exact Net.backlog_setClient (Client.backlog_deliver hclient)

theorem Net.backlog_run {ms : List (NetMove K C W)} (hms : ∀ m ∈ ms, m.isPickup = false)
    (hrun : (Net.machine pawn).run n ms = some n')
    : n'.backlog pawn + ms.countP NetMove.isMessage = n.backlog pawn := by
  induction ms generalizing n with
  | nil =>
    simp only [Machine.run_nil, Option.some.injEq] at hrun
    simp [hrun]
  | cons m ms ih =>
    obtain ⟨t, ht, hrest⟩ := (Net.machine pawn).run_cons.mp hrun
    have hstep := Net.backlog_step (hms m List.mem_cons_self) ht
    have hmessages := ih (fun m hm => hms m (List.mem_cons_of_mem _ hm)) hrest
    rw [List.countP_cons]
    omega

theorem Net.isSome_of_backlog (h : n.backlog pawn ≠ 0)
    : ∃ m, m.isMessage ∧ ((Net.machine pawn).step n m).isSome := by
  obtain ⟨k, _, hk⟩ := Finset.exists_ne_zero_of_sum_ne_zero h
  obtain ⟨p, hsend | hdeliver⟩ := Client.isSome_of_backlog hk
  . refine ⟨.send k p, rfl, ?_⟩
    simpa [Net.machine, Net.step] using hsend
  . refine ⟨.deliver k p, rfl, ?_⟩
    simpa [Net.machine, Net.step] using hdeliver

/--
What a run without pick-ups has come to: it has sent and delivered what `backlog` lost, goes on as long
as there is any left, and has brought every client to agree with the server when there is none.
-/
structure Drained (pawn : K → C) (n n' : Net K C W) (ms : List (NetMove K C W)) : Prop where
  messages : n'.backlog pawn + ms.countP NetMove.isMessage = n.backlog pawn
  next : n'.backlog pawn ≠ 0 → ∃ m, m.isMessage ∧ ((Net.machine pawn).step n' m).isSome
  agrees : n'.backlog pawn = 0 → ∀ k, (n'.client k).Agrees (pawn k) n'.server

theorem Replicated.drained {host : C} (h : Replicated host pawn n) {ms : List (NetMove K C W)}
    (hms : ∀ m ∈ ms, m.isPickup = false) (hrun : (Net.machine pawn).run n ms = some n')
    : Drained pawn n n' ms := by
  have h' : Replicated host pawn n' :=
    Machine.run_invariant_of_step (fun h hstep => h.step hstep) h hrun
  constructor
  . exact Net.backlog_run hms hrun
  . exact Net.isSome_of_backlog
  . intro hzero k
    have hclient := Finset.sum_eq_zero_iff.mp hzero k (Finset.mem_univ k)
    exact (h'.viewed k).agrees (Client.atRest_of_backlog hclient) h'.hosting

/--
While nothing is picked up, the net comes to rest with exactly as many messages as there are to be sent
and delivered, whatever their order, and then every client agrees with the server.
-/
theorem drained_of_run (host : C) (pawn : K → C) (rightHandSocket : C → Bool)
    (ms : List (NetMove K C W))
    : (Net.machine pawn).Always
        (fun n => ∀ ns n', (∀ m ∈ ns, m.isPickup = false) → (Net.machine pawn).run n ns = some n' →
          Drained pawn n n' ns)
        (Net.initial host pawn rightHandSocket) ms := by
  apply Machine.always_of_along (I := Replicated host pawn) (G := fun _ _ => True)
  . exact fun h _ hstep => h.step hstep
  . exact fun h ns n' hns hrun => h.drained hns hrun
  . exact ⟨hosting_initial host rightHandSocket, fun k => viewed_initial host (pawn k) rightHandSocket⟩
  . exact (Net.machine pawn).along_true _ ms

end Net

namespace Aiming

variable [DecidableEq K] [Fintype K] {speeds : WalkSpeeds} {s s' : Aiming K} {m : AimMove K}

def backlog (s : Aiming K) : Nat :=
  s.ownerLink.backlog s.server.bIsAiming + ∑ k, (s.otherLink k).backlog s.server.bIsAiming

def rank (s : Aiming K) : Nat ×ₗ Nat :=
  toLex (s.rpcs.length, s.backlog)

omit [DecidableEq K] in
theorem rank_lt_of_backlog (hrpcs : s'.rpcs = s.rpcs) (h : s'.backlog + 1 = s.backlog)
    : s'.rank < s.rank := by
  unfold rank
  rw [Prod.Lex.toLex_lt_toLex, hrpcs]
  exact Or.inr ⟨rfl, by dsimp only; omega⟩

theorem rank_step (hm : m.input = none) (hstep : (machine speeds).step s m = some s')
    : s'.rank < s.rank := by
  cases transition_of_step hstep with
  | input _ bAiming hinput =>
    rw [hm] at hinput
    cases hinput
  | rpc b rpcs hrpcs =>
    unfold rank
    rw [Prod.Lex.toLex_lt_toLex, hrpcs]
    left
    simp
  | sendOwner l hl =>
    apply rank_lt_of_backlog
    . rfl
    . have := Link.backlog_send hl
      dsimp only [backlog]
      omega
  | deliverOwner b l hl =>
    apply rank_lt_of_backlog
    . rfl
    . have := Link.backlog_receive s.server.bIsAiming hl
      dsimp only [backlog]
      omega
  | send k l hl =>
    apply rank_lt_of_backlog
    . rfl
    . have := Link.sum_backlog_update (fun _ => s.server.bIsAiming) (Link.backlog_send hl)
      dsimp only [backlog]
      omega
  | deliver k b l hl =>
    apply rank_lt_of_backlog
    . rfl
    . have := Link.sum_backlog_update (fun _ => s.server.bIsAiming) (Link.backlog_receive _ hl)
      dsimp only [backlog]
      omega

omit [DecidableEq K] in
theorem atRest_of_backlog (hrpcs : s.rpcs = []) (h : s.backlog = 0) : AtRest s := by
  unfold backlog at h
  simp only [Nat.add_eq_zero_iff, Finset.sum_eq_zero_iff, Finset.mem_univ, true_imp_iff] at h
  exact ⟨hrpcs, Link.quiet_of_backlog h.1, fun k => Link.quiet_of_backlog (h.2 k)⟩

theorem isSome_of_backlog (speeds : WalkSpeeds) (h : s.backlog ≠ 0)
    : ∃ m, m.input = none ∧ ((machine speeds).step s m).isSome := by
  by_cases howner : s.ownerLink.backlog s.server.bIsAiming = 0
  . have hsum : ∑ k, (s.otherLink k).backlog s.server.bIsAiming ≠ 0 := by
      unfold backlog at h
      omega
    obtain ⟨k, _, hk⟩ := Finset.exists_ne_zero_of_sum_ne_zero hsum
    rcases Link.isSome_of_backlog hk with hsend | hreceive
    . exact ⟨.send k, rfl, by simpa [machine, step] using hsend⟩
    . exact ⟨.deliver k, rfl, by simpa [machine, step] using hreceive⟩
  . rcases Link.isSome_of_backlog howner with hsend | hreceive
    . exact ⟨.sendOwner, rfl, by simpa [machine, step] using hsend⟩
    . exact ⟨.deliverOwner, rfl, by simpa [machine, step] using hreceive⟩

theorem atRest_or_next (speeds : WalkSpeeds) (s : Aiming K)
    : AtRest s ∨ ∃ m s', m.input = none ∧ (machine speeds).step s m = some s' := by
  cases hrpcs : s.rpcs with
  | nil =>
    by_cases h : s.backlog = 0
    . exact Or.inl (atRest_of_backlog hrpcs h)
    . obtain ⟨m, hm, hsome⟩ := isSome_of_backlog speeds h
      obtain ⟨s', hs'⟩ := Option.isSome_iff_exists.mp hsome
      exact Or.inr ⟨m, s', hm, hs'⟩
  | cons b rpcs =>
    right
    refine ⟨.serverSetAiming, { s with server := s.server.serverSetAiming speeds b, rpcs }, rfl, ?_⟩
    simp [machine, step, hrpcs]

/--
Once the player neither presses nor releases, every machine comes to show the last input, with the walk
speed that goes with it, whatever is under way and in whatever order it arrives.
-/
theorem converges_of_run (speeds : WalkSpeeds) (ms : List (AimMove K))
    : (machine speeds).Always
        ((machine speeds).Inevitably (fun m => m.input = none)
          (fun s => AtRest s ∧ Converged speeds s))
        (initial K speeds) ms := by
  apply Machine.always_of_along (G := fun _ _ => True) (I := Tracked speeds)
  . exact fun h _ hstep => h.step hstep
  . intro s h
    apply Machine.inevitably_of_rank (I := Tracked speeds) rank
    . exact fun h _ hstep => h.step hstep
    . exact fun _ hm hstep => rank_step hm hstep
    . intro s h
      exact (atRest_or_next speeds s).imp_left fun hrest => ⟨hrest, h.converged hrest⟩
    . exact h
  . exact tracked_initial speeds
  . exact (machine speeds).along_true _ ms

end Aiming

end Combat
