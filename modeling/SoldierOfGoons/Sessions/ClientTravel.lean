import SoldierOfGoons.Sessions.HostTravel

/-!
The travels of the client against the join requests that succeeded. `OnJoinSession` travels on every
join broadcast, whatever its result and whether or not the address was resolved. The joins that are
broadcast are counted with those that an activation is still going to broadcast, the successes apart
from the failures.
-/

namespace Sessions

def JoinResult.succeeds (result : JoinResult) : Bool :=
  result = .success

def joinSuccesses (log : List Event) : Nat :=
  log.countP fun
    | .completed _ (.join result) => result.succeeds
    | _ => false

def joinAnnouncements (success : Bool) (log : List Event) : Nat :=
  log.countP fun
    | .broadcast (.join result) => result.succeeds == success
    | _ => false

def Frame.promisesJoin (success : Bool) : Frame → Nat
  | .completing (.join result) handles => if result.succeeds = success then handles.length else 0
  | .broadcast (.join result) => if result.succeeds = success then 1 else 0
  | _ => 0

def promisedJoins (success : Bool) (s : State) : Nat :=
  (s.stack.map (Frame.promisesJoin success)).sum

-- The joins with this success that were or will be broadcast.
def answeredJoins (success : Bool) (s : State) : Nat :=
  joinAnnouncements success s.log + promisedJoins success s

def joinAnswers (success : Bool) (s : State) : Move → Nat
  | .complete _ (.join result) =>
    if result.succeeds = success then (s.delegates .join).handles.length else 0
  | .refuse =>
    match s.stack with
    | .request (.join _) _ :: _ => if success then 0 else 1
    | _ => 0
  | _ => 0

def joinReports : Move → Nat
  | .complete _ (.join result) => result.succeeds.toNat
  | _ => 0

@[simp]
theorem promisesJoin_request (success : Bool) (r : Request) (b : Bool)
    : (Frame.request r b).promisesJoin success = 0 := rfl

@[simp]
theorem promisesJoin_frame (success : Bool) (c : Call) : c.frame.promisesJoin success = 0 := by
  cases c <;> rfl

theorem promisesJoin_of_registers {f : Frame} {k : RequestKind} (h : f.registers = some k)
    (success : Bool) : f.promisesJoin success = 0 := by
  cases f with
  | completing => cases h
  | broadcast => cases h
  | _ => rfl

theorem promisesJoin_announced (success : Bool) (o : Outcome) (s : State) (handle : Nat)
    (handles : List Nat)
    : (Frame.broadcast (o.announced s)).promisesJoin success
          + (Frame.completing o handles).promisesJoin success
        =
      (Frame.completing o (handle :: handles)).promisesJoin success := by
  cases o with
  | join result =>
    simp only [Outcome.announced, Frame.promisesJoin, List.length_cons]
    split <;> omega
  | _ => rfl

theorem answeredJoins_step {s s' : State} {m : Move} (ht : Transition s m s') (success : Bool)
    : answeredJoins success s' = answeredJoins success s + joinAnswers success s m := by
  cases ht with
  | call c hturn => simp [answeredJoins, joinAnnouncements, promisedJoins, joinAnswers]
  | complete i p o hturn hp =>
    cases o with
    | join result =>
      simp only [answeredJoins, joinAnnouncements, promisedJoins, joinAnswers, Frame.promisesJoin,
        Outcome.kind, List.map_cons, List.sum_cons, List.countP_cons]
      simp
      omega
    | _ => simp [answeredJoins, joinAnnouncements, promisedJoins, joinAnswers, Frame.promisesJoin]
  | refuse r b stack hstack =>
    cases r with
    | join r =>
      cases success <;>
        simp [answeredJoins, promisedJoins, joinAnswers, hstack, Request.refusal, Frame.promisesJoin,
          JoinResult.succeeds]
      omega
    | _ =>
      simp [answeredJoins, promisedJoins, joinAnswers, hstack, Request.refusal, Frame.promisesJoin]
  | register f r stack hstack hf hcreate settings search nextId =>
    simp [answeredJoins, joinAnnouncements, promisedJoins, joinAnswers, hstack,
      promisesJoin_of_registers hf]
  | callback o handle handles stack hstack hflag =>
    have := promisesJoin_announced success o s handle handles
    simp only [answeredJoins, promisedJoins, joinAnswers, hstack, List.map_cons, List.sum_cons]
    omega
  | broadcast o stack hstack =>
    cases o with
    | join result =>
      cases result <;> cases success <;>
        simp [answeredJoins, joinAnnouncements, promisedJoins, joinAnswers, hstack,
          Frame.promisesJoin, JoinResult.succeeds]
      all_goals omega
    | _ =>
      simp [answeredJoins, joinAnnouncements, promisedJoins, joinAnswers, hstack, Frame.promisesJoin]
  | pop f stack hstack hf =>
    rcases hf with rfl | ⟨o, rfl⟩ | ⟨o, rfl⟩
    . simp [answeredJoins, promisedJoins, joinAnswers, hstack, Frame.promisesJoin]
    . simp [answeredJoins, promisedJoins, joinAnswers, hstack, Frame.promisesJoin]
    . cases o <;> simp [answeredJoins, promisedJoins, joinAnswers, hstack, Frame.promisesJoin]
  | accept r b stack hstack hsession =>
    simp [answeredJoins, promisedJoins, joinAnswers, hstack, Frame.promisesJoin]
  | replace n t stack hstack hsession =>
    simp [answeredJoins, promisedJoins, joinAnswers, hstack, Frame.promisesJoin]
  | create n t stack hstack hsession =>
    simp [answeredJoins, promisedJoins, joinAnswers, hstack, Frame.promisesJoin]
  | join r stack hstack =>
    simp [answeredJoins, promisedJoins, joinAnswers, hstack, Frame.promisesJoin]
  | recreate handle handles stack hstack hflag =>
    simp [answeredJoins, promisedJoins, joinAnswers, hstack, Frame.promisesJoin]

def joinsAnnounced (s : State) : Move → Nat
  | .resume =>
    match s.stack with
    | .broadcast (.join _) :: _ => 1
    | _ => 0
  | _ => 0

theorem joinAnnouncements_step {s s' : State} {m : Move} (ht : Transition s m s')
    : joinAnnouncements true s'.log + joinAnnouncements false s'.log
        =
      joinAnnouncements true s.log + joinAnnouncements false s.log + joinsAnnounced s m := by
  cases ht with
  | broadcast o stack hstack =>
    cases o with
    | join result =>
      cases hresult : result.succeeds with
      | true =>
        simp [joinAnnouncements, joinsAnnounced, hstack, hresult]
        omega
      | false =>
        simp [joinAnnouncements, joinsAnnounced, hstack, hresult]
        omega
    | _ => simp [joinAnnouncements, joinsAnnounced, hstack]
  | register f r stack hstack hf hcreate settings search nextId =>
    have hnone : joinsAnnounced s .resume = 0 := by
      cases f with
      | broadcast => cases hf
      | _ => simp [joinsAnnounced, hstack]
    simp [joinAnnouncements, hnone]
  | pop f stack hstack hf =>
    rcases hf with rfl | ⟨o, rfl⟩ | ⟨o, rfl⟩ <;> simp [joinsAnnounced, hstack]
  | call c hturn => simp [joinAnnouncements, joinsAnnounced]
  | complete i p o hturn hp => simp [joinAnnouncements, joinsAnnounced]
  | refuse r b stack hstack => rfl
  | accept r b stack hstack hsession => rfl
  | _ => simp_all [joinsAnnounced]

theorem joinSuccesses_step {s s' : State} {m : Move} (ht : Transition s m s')
    : joinSuccesses s'.log = joinSuccesses s.log + joinReports m := by
  cases ht with
  | complete i p o hturn hp =>
    cases o with
    | join result => cases result <;> simp [joinSuccesses, joinReports, JoinResult.succeeds]
    | _ => simp [joinSuccesses, joinReports]
  | call c hturn => simp [joinSuccesses, joinReports]
  | register f r stack hstack hf hcreate settings search nextId => simp [joinSuccesses, joinReports]
  | broadcast o stack hstack => simp [joinSuccesses, joinReports]
  | _ => rfl

theorem joinReports_le {s s' : State} {m : Move} (hreached : Reached s) (ht : Transition s m s')
    : joinReports m ≤ joinAnswers true s m := by
  cases ht with
  | complete i p o hturn hp =>
    cases o with
    | join result =>
      have hpos : 0 < (s.delegates .join).handles.length := hreached.handles_pos hp
      cases hresult : result.succeeds <;> simp [joinReports, joinAnswers, hresult]
      omega
    | _ => exact Nat.zero_le _
  | _ => exact Nat.zero_le _

def CleanJoin (s : State) : Move → Prop
  | .complete _ (.join result) =>
    result = .success ∧ (s.delegates .join).handles.length ≤ 1
  | .refuse =>
    match s.stack with
    | .request (.join _) _ :: _ => False
    | _ => True
  | _ => True

instance (s : State) (m : Move) : Decidable (CleanJoin s m) := by
  unfold CleanJoin
  split
  . infer_instance
  . split <;> infer_instance
  . infer_instance

-- Each failure is broadcast, and a success is broadcast more often than it is reported.
theorem cleanJoin_iff {s s' : State} {m : Move} (hreached : Reached s) (ht : Transition s m s')
    : CleanJoin s m ↔ joinAnswers false s m = 0 ∧ joinAnswers true s m ≤ joinReports m := by
  cases ht with
  | complete i p o hturn hp =>
    cases o with
    | join result =>
      have hne : (s.delegates .join).handles ≠ [] :=
        List.length_pos_iff.mp (hreached.handles_pos hp)
      cases result <;>
        simp [CleanJoin, joinReports, joinAnswers, JoinResult.succeeds, hne]
    | _ => simp [CleanJoin, joinReports, joinAnswers]
  | refuse r b stack hstack => cases r <;> simp [CleanJoin, joinReports, joinAnswers, hstack]
  | _ => simp [CleanJoin, joinReports, joinAnswers]

namespace Menu

theorem clientTravels_handle (o : Outcome) (resolvedProperly : Bool) (address : String)
    (menu : Menu)
    : (menu.handle o true resolvedProperly address).1.clientTravels
        =
      menu.clientTravels ++
        if o.kind = .join ∧ menu.playerController then [(resolvedProperly, address)] else [] := by
  cases o with
  | create ok =>
    simp only [handle, onCreateSession]
    cases ok with
    | true => cases hworld : menu.world <;> simp [Outcome.kind]
    | false => simp [Outcome.kind]
  | find results ok =>
    simp only [handle, onFindSession]
    split
    . simp [Outcome.kind]
    . split <;> simp [Outcome.kind]
  | join result =>
    simp only [handle, onJoinSession, Bool.true_and]
    cases menu.playerController <;> split <;> simp [Outcome.kind]
  | destroy ok => simp [handle, Outcome.kind]

def Matches (r : SearchResult) (menu : Menu) : Prop :=
  equalsIgnoreCase (r.matchType.getD "") menu.matchType = true

theorem matches_handle {menu menu' : Menu} {o : Outcome} {sessionInterface resolvedProperly : Bool}
    {address : String} {r : SearchResult}
    (h : menu.handle o sessionInterface resolvedProperly address = (menu', some (.joinSession r)))
    : menu.Matches r := by
  cases o with
  | find results ok =>
    simp only [handle, onFindSession] at h
    split at h
    . next r' hmatch =>
      cases h
      have hpicked := List.find?_some hmatch
      exact hpicked
    . split at h <;> cases h
  | _ => cases h

end Menu

def Frame.joins : Frame → Option SearchResult
  | .joinSession r => some r
  | .joinSessionRest r => some r
  | .request (.join r) _ => some r
  | _ => none

-- Whatever is joined has been picked by whoever calls `JoinSession`.
structure Picked (P : SearchResult → Prop) (s : State) : Prop where
  stack : ∀ f ∈ s.stack, ∀ r ∈ f.joins, P r
  outstanding : ∀ p ∈ s.outstanding .join, ∃ r, p.request = .join r ∧ P r
  log : ∀ q, .completed q (.join .success) ∈ s.log → ∃ r, q = .join r ∧ P r

section Picking

variable {P : SearchResult → Prop} {s s' : State}

theorem Picked.of_stack (h : Picked P s) {f : Frame} {stack : List Frame}
    (hstack : s.stack = f :: stack) (fs : List Frame) (hstack' : s'.stack = fs ++ stack)
    (hfs : ∀ g ∈ fs, g.joins = none ∨ g.joins = f.joins)
    (hout : s'.outstanding = s.outstanding)
    (hlog : ∀ q, .completed q (.join .success) ∈ s'.log → .completed q (.join .success) ∈ s.log)
    : Picked P s' := by
  have hjoins := h.stack
  rw [hstack] at hjoins
  constructor
  . rw [hstack']
    intro g hg r hr
    rcases List.mem_append.mp hg with hg | hg
    . rcases hfs g hg with hnone | heq
      . simp [hnone] at hr
      . exact hjoins f List.mem_cons_self r (heq ▸ hr)
    . exact hjoins g (List.mem_cons_of_mem f hg) r hr
  . rw [hout]
    exact h.outstanding
  . intro q hq
    exact h.log q (hlog q hq)

theorem stack_of_joinSessionRest (hvalid : s.sessionInterface = true) {r : SearchResult}
    {stack : List Frame} (hstack : s.stack = .joinSessionRest r :: stack)
    (hstep : machine.step s .resume = some s') : s'.stack = .request (.join r) false :: stack := by
  simp [machine, step, hstack, Frame.resume, joinSessionRest, hvalid] at hstep
  subst hstep
  rfl

theorem joins_of_registers {f : Frame} {r : Request} (hf : f.registers = some r.kind)
    (hne : ∀ r', f ≠ .joinSessionRest r') (b : Bool) : (Frame.request r b).joins = none := by
  cases r with
  | join r =>
    cases f with
    | joinSessionRest r' => exact absurd rfl (hne r')
    | _ => cases hf
  | _ => rfl

theorem Picked.step {m : Move} (h : Picked P s) (hreached : Reached s)
    (hstep : machine.step s m = some s') (hcall : ∀ r, m = .call (.joinSession r) → P r)
    : Picked P s' := by
  have ht := hreached.transition hstep
  have hkeep {e : Event} (he : ∀ q, e ≠ .completed q (.join .success)) (q : Request)
      (hq : .completed q (.join .success) ∈ e :: s.log) : .completed q (.join .success) ∈ s.log := by
    rcases List.mem_cons.mp hq with heq | hq
    . exact absurd heq.symm (he q)
    . exact hq
  cases ht with
  | call c hturn =>
    refine ⟨?_, h.outstanding, fun q hq => h.log q (hkeep (by simp) q hq)⟩
    intro f hf r hr
    rcases List.mem_cons.mp hf with rfl | hf
    . cases c with
      | joinSession r' =>
        cases hr
        exact hcall r rfl
      | _ => cases hr
    . exact h.stack f hf r hr
  | complete i p o hturn hp =>
    refine ⟨?_, fun q hq => h.outstanding q (mem_withdraw hq), ?_⟩
    . intro f hf r hr
      rcases List.mem_cons.mp hf with rfl | hf
      . cases hr
      . exact h.stack f hf r hr
    . intro q hq
      rcases List.mem_cons.mp hq with heq | hq
      . cases heq
        exact h.outstanding p (List.mem_of_getElem? hp)
      . exact h.log q hq
  | refuse r b stack hstack =>
    exact h.of_stack hstack [.broadcast r.refusal] rfl (by simp [Frame.joins]) rfl (fun q hq => hq)
  | accept r b stack hstack hsession =>
    have hjoins := h.stack
    rw [hstack] at hjoins
    refine ⟨?_, ?_, h.log⟩
    . intro f hf r' hr'
      rcases List.mem_cons.mp hf with rfl | hf
      . cases hr'
      . exact hjoins f (List.mem_cons_of_mem _ hf) r' hr'
    . intro q hq
      rcases mem_append.mp hq with hq | ⟨hkind, rfl⟩
      . exact h.outstanding q hq
      . cases r with
        | join r => exact ⟨r, rfl, hjoins _ List.mem_cons_self r rfl⟩
        | _ => cases hkind
  | replace n t stack hstack hsession =>
    exact h.of_stack hstack [.destroySession, .createSessionRest n t] rfl (by simp [Frame.joins]) rfl
      (fun q hq => hq)
  | create n t stack hstack hsession =>
    exact h.of_stack hstack [.createSessionRest n t] rfl (by simp [Frame.joins]) rfl
      (fun q hq => hq)
  | join r stack hstack =>
    exact h.of_stack hstack [.joinSessionRest r] rfl (by simp [Frame.joins]) rfl (fun q hq => hq)
  | register f r stack hstack hf hcreate settings search nextId =>
    refine h.of_stack hstack [.request r (startedByCreateSession r stack)] rfl ?_ rfl (hkeep (by simp))
    intro g hg
    rw [List.mem_singleton.mp hg]
    by_cases hrest : ∃ r', f = .joinSessionRest r'
    . obtain ⟨r', rfl⟩ := hrest
      have hpushed := stack_of_joinSessionRest hreached.valid hstack hstep
      simp only [List.cons.injEq, Frame.request.injEq, and_true] at hpushed
      rw [hpushed.1]
      exact Or.inr rfl
    . left
      apply joins_of_registers hf
      intro r' heq
      exact hrest ⟨r', heq⟩
  | callback o handle handles stack hstack hflag =>
    exact h.of_stack hstack [.broadcast (o.announced s), .completing o handles] rfl
      (by simp [Frame.joins]) rfl (fun q hq => hq)
  | recreate handle handles stack hstack hflag =>
    exact h.of_stack hstack [.createSession s.lastNumPublicConnections s.lastMatchType,
      .broadcast (.destroy true), .completing (.destroy true) handles] rfl (by simp [Frame.joins]) rfl
      (fun q hq => hq)
  | broadcast o stack hstack =>
    exact h.of_stack hstack [.listeners o] rfl (by simp [Frame.joins]) rfl (hkeep (by simp))
  | pop f stack hstack hf => exact h.of_stack hstack [] rfl (by simp) rfl (fun q hq => hq)

end Picking

-- Every join that was broadcast to the menu made its player travel.
def JoinsTravelled (s : MenuState) : Prop :=
  s.menu.clientTravels.length =
    if s.menu.playerController then
      joinAnnouncements true s.sessions.log + joinAnnouncements false s.sessions.log
    else
      0

structure Joining (s : MenuState) : Prop where
  reached : Reached s.sessions
  picked : Picked s.menu.Matches s.sessions
  travelled : JoinsTravelled s
  reported : joinSuccesses s.sessions.log ≤ answeredJoins true s.sessions

def NoJoinLost (s : MenuState) : Prop :=
  s.menu.playerController = true →
    answeredJoins false s.sessions = 0 ∧
      answeredJoins true s.sessions ≤ joinSuccesses s.sessions.log ∧
      ∀ t ∈ s.menu.clientTravels, t.1 = true

def Resolves (resolvedProperly : Bool) : List Frame → Prop
  | .broadcast (.join _) :: _ => resolvedProperly = true
  | _ => True

instance (resolvedProperly : Bool) (stack : List Frame)
    : Decidable (Resolves resolvedProperly stack) := by
  unfold Resolves
  split <;> infer_instance

/--
What the travels of the client rely on: while there is a player controller, no join is refused, each
completes with `Success` and finds one callback, and `GetResolvedConnectString` resolves the address.
-/
def JoinsCleanly (s : MenuState) (m : MenuMove) : Prop :=
  s.menu.playerController = true →
    match m with
    | .complete i o => CleanJoin s.sessions (.complete i o)
    | .refuse => CleanJoin s.sessions .refuse
    | .resume resolvedProperly _ => Resolves resolvedProperly s.sessions.stack
    | _ => True

instance (s : MenuState) (m : MenuMove) : Decidable (JoinsCleanly s m) := by
  unfold JoinsCleanly
  split <;> infer_instance

/--
A travel for each join that succeeded and of each of them at most one, to an address that was
resolved, none for a join that was refused or failed.
-/
structure ClientTravelSafe (s : MenuState) : Prop where
  reported : s.menu.clientTravels.length ≤ joinSuccesses s.sessions.log
  announced : s.menu.clientTravels.length ≤ joinAnnouncements true s.sessions.log
  matching : ∀ q, .completed q (.join .success) ∈ s.sessions.log →
    ∃ r, q = .join r ∧ s.menu.Matches r
  resolved : ∀ t ∈ s.menu.clientTravels, t.1 = true

section Step

variable {s s' : MenuState} {m : MenuMove}

theorem Picked.menuStep (h : Picked s.menu.Matches s.sessions) (hreached : Reached s.sessions)
    (ht : MenuTransition s m s') : Picked s'.menu.Matches s'.sessions := by
  have hmatches : s'.menu.Matches = s.menu.Matches := by
    funext r
    unfold Menu.Matches
    rw [(settings_step ht).2]
  rw [hmatches]
  cases ht with
  | host sessions hstack hstep => exact h.step hreached hstep (by simp)
  | join sessions hstack hstep => exact h.step hreached hstep (by simp)
  | service m n hn hquiet sessions hstep =>
    apply h.step hreached hstep
    intro r hr
    exact absurd hr (call_ne_of_move hn _)
  | notify o stack hstack resolvedProperly address sessions menu hstep hmenu =>
    exact h.step hreached hstep (by simp)
  | notifyCall o stack hstack resolvedProperly address listening sessions menu c hstep hmenu hcall =>
    apply (h.step hreached hstep (by simp)).step (hreached.step hstep) hcall
    rintro r ⟨⟩
    exact Menu.matches_handle hmenu

theorem measure_menuStep (f : State → Nat) (g : State → Move → Nat)
    (hg : ∀ {t t' n}, Transition t n t' → f t' = f t + g t n) (hcall : ∀ t c, g t (.call c) = 0)
    (hreached : Reached s.sessions) (ht : MenuTransition s m s')
    : f s'.sessions = f s.sessions + m.move.elim 0 (g s.sessions) := by
  cases ht with
  | host sessions hstack hstep =>
    rw [hg (hreached.transition hstep), hcall]
    rfl
  | join sessions hstack hstep =>
    rw [hg (hreached.transition hstep), hcall]
    rfl
  | service m n hn hquiet sessions hstep =>
    rw [hg (hreached.transition hstep), hn]
    rfl
  | notify o stack hstack resolvedProperly address sessions menu hstep hmenu =>
    exact hg (hreached.transition hstep)
  | notifyCall o stack hstack resolvedProperly address listening sessions menu c hstep hmenu hcall' =>
    rw [hg ((hreached.step hstep).transition hcall'), hcall, hg (hreached.transition hstep)]
    rfl

def travels (s : MenuState) : MenuMove → List (Bool × String)
  | .resume resolvedProperly address =>
    match s.sessions.stack with
    | .broadcast (.join _) :: _ => if s.menu.playerController then [(resolvedProperly, address)] else []
    | _ => []
  | _ => []

theorem clientTravels_step (hreached : Reached s.sessions) (ht : MenuTransition s m s')
    : s'.menu.clientTravels = s.menu.clientTravels ++ travels s m := by
  have hnotify {o : Outcome} {stack : List Frame} (hstack : s.sessions.stack = .broadcast o :: stack)
      {resolvedProperly : Bool} {address : String} {sessions : State} {menu : Menu}
      {call : Option Call} (hstep : machine.step s.sessions .resume = some sessions)
      (hmenu : s.menu.handle o sessions.sessionInterface resolvedProperly address = (menu, call))
      : menu.clientTravels = s.menu.clientTravels ++ travels s (.resume resolvedProperly address) := by
    rw [(hreached.step hstep).valid] at hmenu
    have := Menu.clientTravels_handle o resolvedProperly address s.menu
    rw [hmenu] at this
    rw [this]
    cases o <;> simp [travels, hstack, Outcome.kind]
  cases ht with
  | host sessions hstack hstep => simp [travels]
  | join sessions hstack hstep => simp [travels]
  | service m n hn hquiet sessions hstep =>
    cases m with
    | resume resolvedProperly address =>
      cases hn
      have hnone : travels s (.resume resolvedProperly address) = [] := by
        simp only [travels]
        split
        . next heq => exact absurd heq (hquiet rfl _ _)
        . rfl
      simp [hnone]
    | _ => simp [travels]
  | notify o stack hstack resolvedProperly address sessions menu hstep hmenu =>
    exact hnotify hstack hstep hmenu
  | notifyCall o stack hstack resolvedProperly address listening sessions menu c hstep hmenu hcall =>
    exact hnotify hstack hstep hmenu

theorem joinsTravelled_step (h : JoinsTravelled s) (hreached : Reached s.sessions)
    (ht : MenuTransition s m s') : JoinsTravelled s' := by
  have hcount := measure_menuStep
    (fun t => joinAnnouncements true t.log + joinAnnouncements false t.log) joinsAnnounced
    joinAnnouncements_step (fun _ _ => rfl) hreached ht
  have hlength : (travels s m).length
      = if s.menu.playerController then m.move.elim 0 (joinsAnnounced s.sessions) else 0 := by
    cases m with
    | resume resolvedProperly address =>
      simp only [travels, MenuMove.move, Option.elim_some, joinsAnnounced]
      split
      . split <;> rfl
      . simp
    | _ => simp [travels, MenuMove.move, joinsAnnounced]
  unfold JoinsTravelled at h ⊢
  rw [clientTravels_step hreached ht, List.length_append, h, hlength, (settings_step ht).1]
  split <;> omega

theorem joinsCleanly_iff (hreached : Reached s.sessions) (ht : MenuTransition s m s')
    (hcontroller : s.menu.playerController = true)
    : JoinsCleanly s m
        ↔
      m.move.elim 0 (joinAnswers false s.sessions) = 0 ∧
        m.move.elim 0 (joinAnswers true s.sessions) ≤ m.move.elim 0 joinReports ∧
        ∀ t ∈ travels s m, t.1 = true := by
  unfold JoinsCleanly
  rw [forall_prop_of_true hcontroller]
  cases m with
  | complete i o =>
    cases ht with
    | service _ n hn hquiet sessions hstep =>
      cases hn
      simpa [travels, MenuMove.move] using cleanJoin_iff hreached (hreached.transition hstep)
  | refuse =>
    cases ht with
    | service _ n hn hquiet sessions hstep =>
      cases hn
      simpa [travels, MenuMove.move] using cleanJoin_iff hreached (hreached.transition hstep)
  | resume resolvedProperly address =>
    simp only [travels, Resolves, MenuMove.move, Option.elim_some, joinAnswers, joinReports]
    split <;> simp [hcontroller]
  | _ => simp [travels, MenuMove.move, joinAnswers, joinReports]

theorem reports_le_answers (hreached : Reached s.sessions) (ht : MenuTransition s m s')
    : m.move.elim 0 joinReports ≤ m.move.elim 0 (joinAnswers true s.sessions) := by
  cases ht with
  | service m n hn hquiet sessions hstep =>
    rw [hn]
    exact joinReports_le hreached (hreached.transition hstep)
  | _ => exact Nat.zero_le _

theorem Joining.step (h : Joining s) (ht : MenuTransition s m s') : Joining s' := by
  constructor
  . exact h.reached.menuStep ht
  . exact h.picked.menuStep h.reached ht
  . exact joinsTravelled_step h.travelled h.reached ht
  . have hsucceeded := measure_menuStep (answeredJoins true) (joinAnswers true)
      (fun ht => answeredJoins_step ht true) (fun _ _ => rfl) h.reached ht
    have hreported := measure_menuStep (fun t => joinSuccesses t.log) (fun _ => joinReports)
      joinSuccesses_step (fun _ _ => rfl) h.reached ht
    have hle := h.reported
    have hmove := reports_le_answers h.reached ht
    omega

theorem noJoinLost_step (h : Joining s) (ht : MenuTransition s m s')
    : NoJoinLost s' ↔ NoJoinLost s ∧ JoinsCleanly s m := by
  have hfailed := measure_menuStep (answeredJoins false) (joinAnswers false)
    (fun ht => answeredJoins_step ht false) (fun _ _ => rfl) h.reached ht
  have hsucceeded := measure_menuStep (answeredJoins true) (joinAnswers true)
    (fun ht => answeredJoins_step ht true) (fun _ _ => rfl) h.reached ht
  have hreported := measure_menuStep (fun t => joinSuccesses t.log) (fun _ => joinReports)
    joinSuccesses_step (fun _ _ => rfl) h.reached ht
  have hle := h.reported
  have hmove := reports_le_answers h.reached ht
  unfold NoJoinLost
  rw [(settings_step ht).1, clientTravels_step h.reached ht, hfailed, hsucceeded, hreported]
  cases hcontroller : s.menu.playerController with
  | false => simp [JoinsCleanly, hcontroller]
  | true =>
    rw [joinsCleanly_iff h.reached ht hcontroller, List.forall_mem_append]
    simp only [true_implies]
    constructor
    . rintro ⟨hfail, hsuccess, htravels, hnew⟩
      exact ⟨⟨by omega, by omega, htravels⟩, by omega, by omega, hnew⟩
    . rintro ⟨⟨hfail, hsuccess, htravels⟩, hfail', hsuccess', hnew⟩
      exact ⟨by omega, by omega, htravels, hnew⟩

end Step

theorem Joining.clientTravelSafe {s : MenuState} (h : Joining s) (hlost : NoJoinLost s)
    : ClientTravelSafe s := by
  have htravelled := h.travelled
  unfold JoinsTravelled at htravelled
  cases hcontroller : s.menu.playerController with
  | false =>
    simp only [hcontroller, Bool.false_eq_true, if_false, List.length_eq_zero_iff] at htravelled
    refine ⟨by simp [htravelled], by simp [htravelled], h.picked.log, by simp [htravelled]⟩
  | true =>
    obtain ⟨hfailed, hsucceeded, hresolved⟩ := hlost hcontroller
    rw [if_pos hcontroller] at htravelled
    unfold answeredJoins at hfailed hsucceeded
    exact ⟨by omega, by omega, h.picked.log, hresolved⟩

theorem Joining.noJoinLost {s : MenuState} (h : Joining s) (hstack : s.sessions.stack = [])
    (hsafe : ClientTravelSafe s) : NoJoinLost s := by
  intro hcontroller
  have htravelled := h.travelled
  unfold JoinsTravelled at htravelled
  rw [if_pos hcontroller] at htravelled
  have hreported := hsafe.reported
  have hannounced := hsafe.announced
  have hpromised (success : Bool) : promisedJoins success s.sessions = 0 := by
    simp [promisedJoins, hstack]
  unfold answeredJoins
  rw [hpromised, hpromised]
  exact ⟨by omega, by omega, hsafe.resolved⟩

theorem joining_menu (l : Launch) : Joining l.menu := by
  constructor
  . exact reached_initial l.subsystemName l.bSessionExists l.namesJoined
  . constructor
    . intro f hf
      cases hf
    . intro p hp
      cases hp
    . intro q hq
      cases hq
  . unfold JoinsTravelled
    split <;> rfl
  . exact Nat.zero_le _

theorem noJoinLost_menu (l : Launch) : NoJoinLost l.menu := by
  intro _
  refine ⟨rfl, Nat.le_refl 0, ?_⟩
  intro t ht
  cases ht

theorem clientTravelSafe_of_joinsCleanly {l : Launch} {ms : List MenuMove}
    (h : menuMachine.Along JoinsCleanly l.menu ms)
    : menuMachine.Always ClientTravelSafe l.menu ms := by
  apply Machine.always_of_along (G := JoinsCleanly) (I := fun s => Joining s ∧ NoJoinLost s)
  . rintro s m s' ⟨hjoining, hlost⟩ hclean hstep
    have ht := menuTransition_of_step hstep
    exact ⟨hjoining.step ht, (noJoinLost_step hjoining ht).mpr ⟨hlost, hclean⟩⟩
  . rintro s ⟨hjoining, hlost⟩
    exact hjoining.clientTravelSafe hlost
  . exact ⟨joining_menu l, noJoinLost_menu l⟩
  . exact h

theorem joinsCleanly_of_clientTravelSafe {l : Launch} {ms : List MenuMove} {s : MenuState}
    (hrun : menuMachine.run l.menu ms = some s) (hstack : s.sessions.stack = [])
    (hsafe : ClientTravelSafe s) : menuMachine.Along JoinsCleanly l.menu ms := by
  have hend : Joining s :=
    Machine.run_invariant_of_step (fun h hstep => h.step (menuTransition_of_step hstep))
      (joining_menu l) hrun
  apply Machine.along_of_not_bad (I := Joining) (B := fun s => ¬NoJoinLost s)
  . intro s m s' h hstep
    exact h.step (menuTransition_of_step hstep)
  . intro s m s' h hclean hstep hlost
    exact hclean ((noJoinLost_step h (menuTransition_of_step hstep)).mp hlost).2
  . intro s m s' h hbad hstep hlost
    exact hbad ((noJoinLost_step h (menuTransition_of_step hstep)).mp hlost).1
  . exact joining_menu l
  . exact hrun
  . rw [not_not]
    exact hend.noJoinLost hstack hsafe

-- A join that is refused or fails, one that finds a leaked registration, and an address that is not
-- resolved are all that makes the client travel where it should not.
theorem clientTravelSafe_iff_joinsCleanly (l : Launch) (ms : List MenuMove)
    : (menuMachine.Along JoinsCleanly l.menu ms →
          menuMachine.Always ClientTravelSafe l.menu ms) ∧
        ∀ s, menuMachine.run l.menu ms = some s → s.sessions.stack = [] →
          (menuMachine.Always ClientTravelSafe l.menu ms ↔
            menuMachine.Along JoinsCleanly l.menu ms) := by
  refine ⟨clientTravelSafe_of_joinsCleanly, ?_⟩
  intro s hrun hstack
  constructor
  . intro h
    exact joinsCleanly_of_clientTravelSafe hrun hstack (h.last hrun)
  . exact clientTravelSafe_of_joinsCleanly

theorem clientTravelSafe_join_succeeds
    : menuMachine.Always ClientTravelSafe
        (Launch.menu ⟨⟨true, true⟩, "NULL", false, true, 4, "FreeForAll", "/Game/Maps/Lobby"⟩)
        [.joinButtonClicked, .resume true "", .accept, .resume true "",
          .complete 0 (.find [⟨7, some "FreeForAll"⟩] true), .resume true "", .resume true "",
          .resume true "", .resume true "", .accept, .resume true "",
          .complete 0 (.join .success), .resume true "", .resume true "127.0.0.1:7777"] :=
  (clientTravelSafe_iff_joinsCleanly _ _).1 (by decide +kernel)

-- The service refuses the join, and the client travels to an address that was never filled in.
theorem not_clientTravelSafe
    : ¬∀ (l : Launch) (ms : List MenuMove), menuMachine.Always ClientTravelSafe l.menu ms := by
  intro h
  have hrun := h ⟨⟨true, true⟩, "NULL", false, true, 4, "FreeForAll", "/Game/Maps/Lobby"⟩
    [.joinButtonClicked, .resume true "", .accept, .resume true "",
      .complete 0 (.find [⟨7, some "FreeForAll"⟩] true), .resume true "", .resume true "",
      .resume true "", .resume true "", .refuse, .resume false ""]
  obtain ⟨s, hs, hcount⟩ := hrun.exists_map
    (fun s => (s.menu.clientTravels, joinSuccesses s.sessions.log)) (b := ([(false, "")], 0))
    (by decide +kernel)
  simp only [Prod.mk.injEq] at hcount
  have := hs.reported
  rw [hcount.1, hcount.2] at this
  exact absurd this (by decide)

end Sessions
