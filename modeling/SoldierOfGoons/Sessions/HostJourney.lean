import SoldierOfGoons.Sessions.Journey
import SoldierOfGoons.Sessions.Settling

/-!
What hosting a session looks like from the outside where the player hosts only while there is no
session, neither one from before nor one that was joined. The player hosts, the service refuses or
takes the request, and the first one that it takes opens the lobby when it completes. Nothing is ever
destroyed, so `CreateSession` never replaces a session and `OnDestroySessionComplete` is never called.
-/

namespace Sessions

inductive HostMove where
  | click
  | refused
  | opens
  deriving DecidableEq, Repr

inductive HostPhase where
  | ready
  | hosting
  | opened
  deriving DecidableEq, Repr

def hostJourneyStep : HostPhase → HostMove → Option HostPhase
  | .ready, .click => some .hosting
  | .hosting, .refused => some .ready
  | .hosting, .opens => some .opened
  | _, _ => none

def hostJourney : Machine HostPhase HostMove := ⟨hostJourneyStep⟩

def Event.hostJourney : Event → Option HostMove
  | .called (.createSession _ _) => some .click
  | .broadcast (.create bWasSuccessful) => if bWasSuccessful then some .opens else some .refused
  | _ => none

def HostPhase.hostButton : HostPhase → Bool
  | .ready => true
  | _ => false

def HostPhase.owed : HostPhase → Nat
  | .hosting => 1
  | _ => 0

-- No part of destroying a session, and a `CreateSession` that looks for one does not find it.
structure Fresh (s : State) : Prop where
  telling : Telling .create s
  owed_le : owed .create s ≤ 1
  surfaced : Surfaced Frame.looks s
  looks : top Frame.looks s.stack ≠ [] → s.namedSession = none
  stack : ∀ f ∈ s.stack, f.owes .destroy = 0
  outstanding : s.outstanding .destroy = []
  disarmed : s.bCreateSessionOnDestroy = false
  log : ∀ r b, .requested r b ∈ s.log → r.kind ≠ .destroy

theorem fresh_initial (subsystemName : String) (bSessionExists namesJoined : Bool)
    : Fresh (initial subsystemName bSessionExists namesJoined) := by
  have hsettling := settling_initial subsystemName bSessionExists namesJoined
  constructor
  . exact telling_initial .create subsystemName bSessionExists namesJoined
  . simp [owed, initial]
  . exact hsettling.surfaced
  . exact fun hlooks => absurd rfl hlooks
  . simp [initial]
  . rfl
  . rfl
  . simp [initial]

section Step

variable {s s' : State} {m : Move}

theorem Fresh.owes_of_top (h : Fresh s) {f : Frame} {stack : List Frame}
    (hstack : s.stack = f :: stack) : f.owes .destroy = 0 := by
  apply h.stack f
  rw [hstack]
  exact List.mem_cons_self

theorem Fresh.kind_ne_destroy (h : Fresh s) {f : Frame} {stack : List Frame} {k : RequestKind}
    (hstack : s.stack = f :: stack) (howes : f.owes .destroy = if k = .destroy then 1 else 0)
    : k ≠ .destroy := by
  rintro rfl
  have hzero := h.owes_of_top hstack
  rw [howes] at hzero
  cases hzero

theorem Fresh.not_replaces (h : Fresh s) {n : Int} {t : String} {stack : List Frame}
    (hstack : s.stack = .createSession n t :: stack) : ¬s.namedSession.isSome := by
  have hnone := h.looks (by simp [hstack, Frame.looks])
  simp [hnone]

-- Only a call puts a `CreateSession` on top, as long as no session is created again.
theorem Fresh.looks_step (h : Fresh s) (ht : Transition s m s')
    (hcall : ∀ c, m = .call c → c.kind = .create → s.namedSession = none)
    : top Frame.looks s'.stack ≠ [] → s'.namedSession = none := by
  intro hlooks
  cases ht with
  | call c hturn =>
    cases c with
    | createSession n t => exact hcall _ rfl rfl
    | _ => exact absurd rfl hlooks
  | recreate handle handles stack hstack hflag =>
    rw [h.disarmed] at hflag
    cases hflag
  | pop f stack hstack hf => exact absurd (h.surfaced.top_pop hstack) hlooks
  | _ => exact absurd rfl hlooks

theorem Fresh.stack_of_top (h : Fresh s) {f : Frame} {stack : List Frame}
    (hstack : s.stack = f :: stack) (fs : List Frame) (hfs : ∀ g ∈ fs, g.owes .destroy = 0)
    : ∀ g ∈ fs ++ stack, g.owes .destroy = 0 := by
  intro g hg
  rcases List.mem_append.mp hg with hg | hg
  . exact hfs g hg
  . apply h.stack g
    rw [hstack]
    exact List.mem_cons_of_mem f hg

theorem Fresh.stack_step (h : Fresh s) (ht : Transition s m s')
    (hcall : ∀ c, m = .call c → c.kind ≠ .destroy) : ∀ f ∈ s'.stack, f.owes .destroy = 0 := by
  cases ht with
  | call c hturn =>
    intro f hf
    rcases List.mem_cons.mp hf with rfl | hf
    . simp [owes_frame, hcall c rfl]
    . exact h.stack f hf
  | complete i p o hturn hp =>
    have ho : o.kind ≠ .destroy := by
      intro ho
      simp [ho, h.outstanding] at hp
    intro f hf
    rcases List.mem_cons.mp hf with rfl | hf
    . simp [Frame.owes, ho]
    . exact h.stack f hf
  | refuse r b stack hstack =>
    have hne := h.kind_ne_destroy (k := r.kind) hstack rfl
    exact h.stack_of_top hstack [.broadcast r.refusal] (by simp [Frame.owes, hne])
  | accept r b stack hstack hsession =>
    exact h.stack_of_top hstack [.serving] (by simp [Frame.owes])
  | replace n t stack hstack hsession => exact absurd hsession (h.not_replaces hstack)
  | create n t stack hstack hsession =>
    exact h.stack_of_top hstack [.createSessionRest n t] (by simp [Frame.owes])
  | join r stack hstack => exact h.stack_of_top hstack [.joinSessionRest r] (by simp [Frame.owes])
  | register f r stack hstack hf hcreate settings search nextId =>
    have hne := h.kind_ne_destroy hstack (owes_of_registers .destroy hf)
    exact h.stack_of_top hstack [.request r _] (by simp [Frame.owes, hne])
  | callback o handle handles stack hstack hflag =>
    have hne : o.kind ≠ .destroy := by
      intro ho
      have hzero := h.owes_of_top hstack
      simp [Frame.owes, ho] at hzero
    exact h.stack_of_top hstack [.broadcast (o.announced s), .completing o handles]
      (by simp [Frame.owes, hne])
  | recreate handle handles stack hstack hflag =>
    rw [h.disarmed] at hflag
    cases hflag
  | broadcast o stack hstack => exact h.stack_of_top hstack [.listeners o] (by simp [Frame.owes])
  | pop f stack hstack hf => exact h.stack_of_top hstack [] (by simp)

theorem recreates_of_disarmed (h : s.bCreateSessionOnDestroy = false) (m : Move)
    : recreates s m = false := by
  by_contra hrec
  have hflag := (recreates_spec (Bool.eq_true_of_not_eq_false hrec)).2.1
  rw [h] at hflag
  cases hflag

theorem Fresh.owed_step (h : Fresh s) (ht : Transition s m s')
    : owed .create s' + (broadcastsMade .create s m).length
        = owed .create s + (callsTaken .create s m).length :=
  Sessions.owed_step (by simp) h.telling.tidy ht (fun _ => recreates_of_disarmed h.disarmed m)

theorem Fresh.outstanding_step (h : Fresh s) (ht : Transition s m s')
    : s'.outstanding .destroy = [] := by
  apply List.eq_nil_iff_forall_not_mem.mpr
  intro q hq
  cases ht with
  | complete i p o hturn hp =>
    have := mem_withdraw hq
    rw [h.outstanding] at this
    cases this
  | accept r b stack hstack hsession =>
    rcases mem_append.mp hq with hq | ⟨hk, _⟩
    . rw [h.outstanding] at hq
      cases hq
    . exact h.kind_ne_destroy hstack rfl hk.symm
  | _ =>
    rw [h.outstanding] at hq
    cases hq

theorem Fresh.disarmed_step (h : Fresh s) (ht : Transition s m s')
    : s'.bCreateSessionOnDestroy = false := by
  cases ht with
  | replace n t stack hstack hsession => exact absurd hsession (h.not_replaces hstack)
  | recreate handle handles stack hstack hflag => rfl
  | _ => exact h.disarmed

theorem Fresh.log_step (h : Fresh s) (ht : Transition s m s')
    : ∀ r b, .requested r b ∈ s'.log → r.kind ≠ .destroy := by
  intro r b hlog
  rcases logs_of_mem ht hlog with hlog | hlogs
  . exact h.log r b hlog
  . cases hlogs with
    | requested f stack hstack r hf =>
      exact h.kind_ne_destroy hstack (owes_of_registers .destroy hf)

theorem Fresh.step (h : Fresh s) (hstep : machine.step s m = some s')
    (hcall : ∀ c, m = .call c → c.kind ≠ .destroy ∧
      (c.kind = .create → s.namedSession = none ∧ owed .create s = 0)) : Fresh s' := by
  have ht := transition_of_step h.telling.valid hstep
  have hle := h.owed_le
  have howed := h.owed_step ht
  have htaken : (callsTaken .create s m).length ≤ 1 - owed .create s := by
    unfold callsTaken
    split
    . next c =>
      split
      . next hc => simp [((hcall c rfl).2 hc).2]
      . simp
    . simp
  constructor
  . exact h.telling.step (by simp) (idleFor_of_owed hle m) hstep
  . omega
  . exact h.surfaced.step surfaces_looks ht (fun _ _ _ _ _ => rfl)
  . exact h.looks_step ht (fun c hc hk => ((hcall c hc).2 hk).1)
  . exact h.stack_step ht (fun c hc => (hcall c hc).1)
  . exact h.outstanding_step ht
  . exact h.disarmed_step ht
  . exact h.log_step ht

end Step

namespace Menu

-- Only the answers to create requests concern the hosting side of the menu.
theorem hosting_handle_other {o : Outcome} (ho : o.kind ≠ .create) {menu menu' : Menu}
    {sessionInterface resolvedProperly : Bool} {address : String} {call : Option Call}
    (h : menu.handle o sessionInterface resolvedProperly address = (menu', call))
    : menu'.hostButton = menu.hostButton ∧ menu'.serverTravels = menu.serverTravels := by
  cases o with
  | create ok => exact absurd rfl ho
  | find results ok =>
    simp only [handle, onFindSession] at h
    split at h
    . cases h
      exact ⟨rfl, rfl⟩
    . split at h <;> cases h <;> exact ⟨rfl, rfl⟩
  | join result =>
    simp only [handle, onJoinSession, Prod.mk.injEq] at h
    obtain ⟨rfl, _⟩ := h
    split <;> split <;> exact ⟨rfl, rfl⟩
  | destroy ok =>
    cases h
    exact ⟨rfl, rfl⟩

end Menu

structure ShowsHost (menu : Menu) (p : HostPhase) (s : MenuState) : Prop where
  hostButton : s.menu.hostButton = p.hostButton
  owed : owed .create s.sessions = p.owed
  serverTravels : s.menu.serverTravels = if p = .opened ∧ menu.world then [menu.pathToLobby] else []

def HostsAlone (s : MenuState) (m : MenuMove) : Prop :=
  m = .hostButtonClicked → s.sessions.namedSession = none

instance decidableHostsAlone (s : MenuState) (m : MenuMove) : Decidable (HostsAlone s m) :=
  inferInstanceAs (Decidable (_ → _))

structure Opening (menu : Menu) (s : MenuState) : Prop where
  reached : Reached s.sessions
  fresh : Fresh s.sessions
  world : s.menu.world = menu.world
  pathToLobby : s.menu.pathToLobby = menu.pathToLobby
  follows : hostJourney.Follows .ready (fun s => eventsOf Event.hostJourney s.sessions.log)
    (ShowsHost menu) s

section MenuStep

variable {menu : Menu} {s s' : MenuState} {m : MenuMove}

theorem Opening.service (h : Opening menu s) {n : Move} (hcall : ∀ c, n ≠ .call c)
    (hquiet : n = .resume → ∀ o stack, s.sessions.stack ≠ .broadcast o :: stack) {sessions : State}
    (hstep : machine.step s.sessions n = some sessions) : Opening menu ⟨sessions, s.menu⟩ := by
  have ht := h.reached.transition hstep
  have howed := h.fresh.owed_step ht
  have htaken : callsTaken .create s.sessions n = [] := by
    cases n with
    | call c => exact absurd rfl (hcall c)
    | _ => rfl
  rw [broadcastsMade_quiet hquiet, htaken] at howed
  constructor
  . exact h.reached.step hstep
  . exact h.fresh.step hstep (fun c hc => absurd hc (hcall c))
  . exact h.world
  . exact h.pathToLobby
  . have htrace := eventsOf_service Event.hostJourney (fun _ _ => rfl) (fun _ _ => rfl) ht hcall hquiet
    apply h.follows.extend [] (by simp [htrace])
    intro p hs
    exact ⟨p, rfl, hs.hostButton, howed.trans hs.owed, hs.serverTravels⟩

theorem Opening.click (h : Opening menu s) (hclick : s.menu.hostButton = true)
    (hnone : s.sessions.namedSession = none) {n : Int} {t : String} {sessions : State}
    (hstep : machine.step s.sessions (.call (.createSession n t)) = some sessions)
    : Opening menu ⟨sessions, { s.menu with hostButton := false }⟩ := by
  obtain ⟨hlog, howed⟩ := of_call hstep
  obtain ⟨p, hrun, hs⟩ := h.follows
  have hready : p = .ready := by
    have hbutton := hs.hostButton.symm.trans hclick
    cases p with
    | ready => rfl
    | _ => cases hbutton
  subst hready
  constructor
  . exact h.reached.step hstep
  . apply h.fresh.step hstep
    rintro c ⟨⟩
    exact ⟨by simp [Call.kind], fun _ => ⟨hnone, hs.owed⟩⟩
  . exact h.world
  . exact h.pathToLobby
  . apply h.follows.extend [.click] (by simp [hlog, eventsOf_cons, Event.hostJourney])
    intro p hs
    have hbutton := hs.hostButton.symm.trans hclick
    cases p with
    | ready =>
      refine ⟨.hosting, rfl, rfl, ?_, by simpa using hs.serverTravels⟩
      have := howed .create
      rw [hs.owed] at this
      exact this
    | _ => cases hbutton

-- A call that is not about hosting, from the other button or from the search that is answered.
theorem Opening.call (h : Opening menu s) {c : Call} (hc : c.kind = .find ∨ c.kind = .join)
    {sessions : State} (hstep : machine.step s.sessions (.call c) = some sessions) {menu' : Menu}
    (hbutton : menu'.hostButton = s.menu.hostButton) (hworld : menu'.world = s.menu.world)
    (htravels : menu'.serverTravels = s.menu.serverTravels)
    (hpath : menu'.pathToLobby = s.menu.pathToLobby) : Opening menu ⟨sessions, menu'⟩ := by
  obtain ⟨hlog, howed⟩ := of_call hstep
  have hne : c.kind ≠ .create ∧ c.kind ≠ .destroy := by
    rcases hc with hc | hc <;> simp [hc]
  constructor
  . exact h.reached.step hstep
  . apply h.fresh.step hstep
    rintro c' ⟨⟩
    exact ⟨hne.2, fun hcreate => absurd hcreate hne.1⟩
  . exact hworld.trans h.world
  . exact hpath.trans h.pathToLobby
  . have hnone : Event.hostJourney (.called c) = none := by
      cases c with
      | createSession n t => exact absurd rfl hne.1
      | _ => rfl
    apply h.follows.extend [] (by simp [hlog, eventsOf_cons, hnone])
    intro p hs
    refine ⟨p, rfl, hbutton.trans hs.hostButton, ?_, htravels.trans hs.serverTravels⟩
    have := howed .create
    rw [if_neg hne.1] at this
    exact this.trans hs.owed

theorem ShowsHost.created {p : HostPhase} (hs : ShowsHost menu p s) (hworld : s.menu.world = menu.world)
    (hpath : s.menu.pathToLobby = menu.pathToLobby) {ok : Bool} {sessions : State}
    (howed : Sessions.owed .create s.sessions = Sessions.owed .create sessions + 1)
    : ∃ p', hostJourney.run p (Event.hostJourney (.broadcast (.create ok))).toList = some p' ∧
        ShowsHost menu p' ⟨sessions, s.menu.onCreateSession ok⟩ := by
  rw [hs.owed] at howed
  have hwas := hs.serverTravels
  cases p with
  | hosting =>
    have hzero : Sessions.owed .create sessions = 0 := by
      simp only [HostPhase.owed] at howed
      omega
    cases ok with
    | true =>
      refine ⟨.opened, rfl, ?_, hzero, ?_⟩
      . cases hw : s.menu.world <;>
          simp [Menu.onCreateSession, hw, hs.hostButton, HostPhase.hostButton]
      . simp only [reduceCtorEq, false_and, if_false] at hwas
        rw [← hworld, ← hpath]
        cases hw : s.menu.world <;> simp [Menu.onCreateSession, hw, hwas]
    | false =>
      refine ⟨.ready, rfl, rfl, hzero, ?_⟩
      simpa [Menu.onCreateSession] using hwas
  | _ => simp [HostPhase.owed] at howed

theorem ShowsHost.other {p : HostPhase} (hs : ShowsHost menu p s) {o : Outcome} (ho : o.kind ≠ .create)
    {sessions : State} {menu' : Menu} (hbutton : menu'.hostButton = s.menu.hostButton)
    (htravels : menu'.serverTravels = s.menu.serverTravels)
    (howed : Sessions.owed .create sessions = Sessions.owed .create s.sessions)
    : ∃ p', hostJourney.run p (Event.hostJourney (.broadcast o)).toList = some p' ∧
        ShowsHost menu p' ⟨sessions, menu'⟩ := by
  have hnone : Event.hostJourney (.broadcast o) = none := by
    cases o with
    | create ok => exact absurd rfl ho
    | _ => rfl
  rw [hnone]
  exact ⟨p, rfl, hbutton.trans hs.hostButton, howed.trans hs.owed, htravels.trans hs.serverTravels⟩

theorem Opening.notify (h : Opening menu s) {o : Outcome} {stack : List Frame}
    (hstack : s.sessions.stack = .broadcast o :: stack) {resolvedProperly : Bool} {address : String}
    {sessions : State} {menu' : Menu} {call : Option Call}
    (hstep : machine.step s.sessions .resume = some sessions)
    (hmenu : s.menu.handle o sessions.sessionInterface resolvedProperly address = (menu', call))
    : Opening menu ⟨sessions, menu'⟩ := by
  obtain ⟨hlog, howed⟩ := of_broadcast hstack hstep
  have hcreate := howed .create
  obtain ⟨_, _, _, _, hkept⟩ := Menu.handle_eq hmenu
  have htrace : eventsOf Event.hostJourney sessions.log
      = eventsOf Event.hostJourney s.sessions.log ++ (Event.hostJourney (.broadcast o)).toList := by
    rw [hlog, eventsOf_cons]
  constructor
  . exact h.reached.step hstep
  . exact h.fresh.step hstep (by rintro c ⟨⟩)
  . rw [hkept]
    exact h.world
  . rw [hkept]
    exact h.pathToLobby
  . apply h.follows.extend _ htrace
    intro p hs
    by_cases ho : o.kind = .create
    . cases o with
      | create ok =>
        simp only [Menu.handle, Prod.mk.injEq] at hmenu
        obtain ⟨rfl, _⟩ := hmenu
        rw [if_pos ho] at hcreate
        exact hs.created h.world h.pathToLobby hcreate
      | _ => cases ho
    . obtain ⟨hbutton, htravels⟩ := Menu.hosting_handle_other ho hmenu
      rw [if_neg ho] at hcreate
      exact hs.other ho hbutton htravels hcreate.symm

theorem Opening.step (h : Opening menu s) (hclick : ClickEnabled s m) (halone : HostsAlone s m)
    (ht : MenuTransition s m s') : Opening menu s' := by
  cases ht with
  | host sessions hstack hstep => exact h.click hclick (halone rfl) hstep
  | join sessions hstack hstep => exact h.call (Or.inl rfl) hstep rfl rfl rfl rfl
  | service m n hn hquiet sessions hstep => exact h.service (call_ne_of_move hn) hquiet hstep
  | notify o stack hstack resolvedProperly address sessions menu' hstep hmenu =>
    exact h.notify hstack hstep hmenu
  | notifyCall o stack hstack resolvedProperly address listening sessions menu' c hstep hmenu hcall =>
    have hc : c.kind = .join := by
      obtain ⟨_, _, r, rfl⟩ := Menu.call_handle (congrArg Prod.snd hmenu)
      rfl
    exact (h.notify hstack hstep hmenu).call (Or.inr hc) hcall rfl rfl rfl rfl

end MenuStep

theorem opening_menu (l : Launch) : Opening l.menu.menu l.menu := by
  constructor
  . exact reached_initial l.subsystemName l.bSessionExists l.namesJoined
  . exact fresh_initial l.subsystemName l.bSessionExists l.namesJoined
  . rfl
  . rfl
  . exact ⟨.ready, rfl, rfl, rfl, rfl⟩

/--
Where the player hosts only while there is no session, what there is to see of hosting is always a
run of its journey, with the `HostButton`, the request under way and the travel of the phase it has
reached, and no session is ever asked to be destroyed.
-/
structure Opens (menu : Menu) (s : MenuState) : Prop where
  follows : hostJourney.Follows .ready (fun s => eventsOf Event.hostJourney s.sessions.log)
    (ShowsHost menu) s
  kept : ∀ r b, .requested r b ∈ s.sessions.log → r.kind ≠ .destroy

theorem opens_of_run (l : Launch) (ms : List MenuMove)
    (hclick : menuMachine.Along ClickEnabled l.menu ms)
    (halone : menuMachine.Along HostsAlone l.menu ms)
    : menuMachine.Always (Opens l.menu.menu) l.menu ms := by
  apply Machine.always_of_along (G := fun s m => ClickEnabled s m ∧ HostsAlone s m)
    (I := Opening l.menu.menu)
  . rintro s m s' h ⟨hclick, halone⟩ hstep
    exact h.step hclick halone (menuTransition_of_step hstep)
  . exact fun h => ⟨h.follows, h.fresh.log⟩
  . exact opening_menu l
  . exact hclick.and halone

/-
The first request is refused. The second one is taken after a join has failed, which is the end of the
session that it made, and fails as well, which opens the lobby all the same.
-/
theorem opens_second_request
    : menuMachine.Always
        (Opens
          (Launch.menu ⟨⟨true, true⟩, "NULL", false, true, 4, "FreeForAll", "/Game/Maps/Lobby"⟩).menu)
        (Launch.menu ⟨⟨true, true⟩, "NULL", false, true, 4, "FreeForAll", "/Game/Maps/Lobby"⟩)
        [.hostButtonClicked, .resume true "", .resume true "", .refuse, .resume true "",
          .resume true "", .joinButtonClicked, .resume true "", .accept, .resume true "",
          .complete 0 (.find [⟨7, some "FreeForAll"⟩] true), .resume true "", .resume true "",
          .resume true "", .resume true "", .accept, .resume true "",
          .complete 0 (.join .sessionIsFull), .resume true "",
          .resume true "", .resume true "", .resume true "", .hostButtonClicked, .resume true "",
          .resume true "", .accept, .resume true "", .complete 0 (.create false), .resume true "",
          .resume true ""] :=
  opens_of_run _ _ (by decide +kernel) (by decide +kernel)

end Sessions
