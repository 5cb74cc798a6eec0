import SoldierOfGoons.Sessions.Settling
import SoldierOfGoons.Sessions.HostJourney

/-!
What the player starts comes to an end. Once no button is clicked any more the menu and the subsystem
come to rest, though the menu itself calls the subsystem on the way, and then no search, join or create
request is under way: the player may try again, has arrived or opened the lobby, or is stranded.
-/

namespace Sessions

def Phase.resting : Phase → Bool
  | .searching => false
  | .joining => false
  | _ => true

def HostPhase.resting : HostPhase → Bool
  | .hosting => false
  | _ => true

structure Rested (l : Launch) (s : MenuState) : Prop where
  settled : Settled s.sessions
  joining : journey.Follows .ready (fun s => eventsOf (Event.journey l.menu.menu) s.sessions.log)
    (fun p s => p.resting ∧ Shows p s) s

-- Hosting has come to rest as well.
structure HostRested (l : Launch) (s : MenuState) : Prop extends Rested l s where
  hosting : hostJourney.Follows .ready (fun s => eventsOf Event.hostJourney s.sessions.log)
    (fun p s => p.resting ∧ ShowsHost l.menu.menu p s) s

structure Underway (l : Launch) (s : MenuState) : Prop where
  settling : Settling s.sessions
  journeying : Journeying l.menu.menu s

theorem Settled.owed_eq {s : State} (h : Settled s) (k : RequestKind) : owed k s = 0 := by
  simp [owed, h.stack, h.outstanding]

theorem Underway.rested {l : Launch} {s : MenuState} (h : Underway l s) (hsettled : Settled s.sessions)
    : Rested l s := by
  constructor
  . exact hsettled
  . obtain ⟨p, hrun, hs⟩ := h.journeying.follows
    refine ⟨p, hrun, ?_, hs⟩
    have hfind := hs.find.symm.trans (hsettled.owed_eq .find)
    have hjoin := hs.join.symm.trans (hsettled.owed_eq .join)
    cases p with
    | searching => cases hfind
    | joining => cases hjoin
    | _ => rfl

theorem Opening.rested {l : Launch} {s : MenuState} (h : Opening l.menu.menu s) (hrested : Rested l s)
    : HostRested l s := by
  constructor
  . exact hrested
  . obtain ⟨p, hrun, hs⟩ := h.follows
    refine ⟨p, hrun, ?_, hs⟩
    have howed := hs.owed.symm.trans (hrested.settled.owed_eq .create)
    cases p with
    | hosting => cases howed
    | _ => rfl

section Step

variable {l : Launch} {s s' : MenuState} {m : MenuMove}

theorem Underway.step (h : Underway l s) (hclick : ClickEnabled s m)
    (hstep : menuMachine.step s m = some s') : Underway l s' := by
  have ht := menuTransition_of_step hstep
  constructor
  . exact ht.preserves (fun h hstep => h.step hstep) h.settling
  . exact h.journeying.step hclick ht

theorem clickEnabled_of_move (hm : m.move.isSome) : ClickEnabled s m := by
  cases m with
  | hostButtonClicked => cases hm
  | joinButtonClicked => cases hm
  | _ => trivial

theorem hostsAlone_of_move (hm : m.move.isSome) : HostsAlone s m := by
  rintro rfl
  cases hm

-- A search whose listener goes on to join is over.
theorem rank_pick {s t t' : State} {o : Outcome} (ho : o.kind = .find) {stack : List Frame}
    (hstack : s.stack = .broadcast o :: stack) (hstep : machine.step s .resume = some t)
    {r : SearchResult} (hcall : machine.step t (.call (.joinSession r)) = some t')
    : rank t' < rank s := by
  simp only [machine, Sessions.step, hstack, Frame.resume, State.push, State.emit,
    Option.some.injEq] at hstep
  subst hstep
  simp only [machine, Sessions.step, State.push, State.emit, clientTurn, if_true,
    Option.some.injEq] at hcall
  subst hcall
  have hrecreations : recreations s = armed s := by simp [recreations, hstack]
  apply rank_lt
  . simp [searches, hstack, Call.frame, Frame.searching]
  . rw [hrecreations]
    rfl
  . intro _ heq
    left
    unfold retries
    rw [heq]
    simp [work, hstack, Call.frame, Frame.destroyed, Frame.looks, Frame.work, armed, ho]

theorem rank_menuStep (h : Underway l s) (hm : m.move.isSome) (ht : MenuTransition s m s')
    : rank s'.sessions < rank s.sessions := by
  have hquiet {n : Move} {sessions : State} (hn : n.isCall = false)
      (hstep : machine.step s.sessions n = some sessions) : rank sessions < rank s.sessions :=
    rank_step h.settling.surfaced hn (transition_of_step h.settling.valid hstep)
  cases ht with
  | host sessions hstack hstep => cases hm
  | join sessions hstack hstep => cases hm
  | service m n hn _ sessions hstep =>
    apply hquiet ?_ hstep
    cases n with
    | call c => exact absurd rfl (call_ne_of_move hn c)
    | _ => rfl
  | notify o stack hstack resolvedProperly address sessions menu hstep hmenu => exact hquiet rfl hstep
  | notifyCall o stack hstack resolvedProperly address listening sessions menu c hstep hmenu hcall =>
    obtain ⟨_, _, r, rfl⟩ := Menu.call_handle (congrArg Prod.snd hmenu)
    have ho : o.kind = .find := by
      cases o with
      | find results ok => rfl
      | _ => cases hmenu
    exact rank_pick ho hstack hstep hcall

theorem menuStep_next (h : Settling s.sessions)
    : Settled s.sessions ∨ ∃ m s', m.move.isSome ∧ menuMachine.step s m = some s' := by
  rcases h.next with hsettled | ⟨n, sessions, hn, hstep⟩
  . exact Or.inl hsettled
  . right
    have ht := transition_of_step h.valid hstep
    simp only [machine] at hstep
    cases n with
    | call c => cases hn
    | complete i o =>
      refine ⟨.complete i o, ⟨sessions, s.menu⟩, rfl, ?_⟩
      simp [menuMachine, menuStep, hstep]
    | refuse =>
      refine ⟨.refuse, ⟨sessions, s.menu⟩, rfl, ?_⟩
      simp [menuMachine, menuStep, hstep]
    | accept =>
      refine ⟨.accept, ⟨sessions, s.menu⟩, rfl, ?_⟩
      simp [menuMachine, menuStep, hstep]
    | resume =>
      refine ⟨.resume true "", ?_⟩
      simp only [menuMachine, menuStep]
      split
      . next o stack hstack =>
        have hlistening := (ht.of_broadcast hstack).2
        simp only [notify, hstep, Option.bind_some]
        split
        . next menu c hmenu =>
          refine ⟨⟨(sessions.emit (.called c)).push c.frame, menu⟩, rfl, ?_⟩
          simp [Sessions.step, hlistening, clientTurn]
        . next menu hmenu => exact ⟨⟨sessions, menu⟩, rfl, rfl⟩
      . exact ⟨⟨sessions, s.menu⟩, rfl, by simp [hstep]⟩

end Step

theorem underway_menu (l : Launch) : Underway l l.menu := by
  constructor
  . exact settling_initial l.subsystemName l.bSessionExists l.namesJoined
  . exact journeying_menu l

-- What else is kept holds where the menu comes to rest.
theorem Underway.inevitably {l : Launch} {J P : MenuState → Prop}
    (hJ : ∀ {s m s'}, J s → m.move.isSome → menuMachine.step s m = some s' → J s')
    (hP : ∀ {s}, J s → Rested l s → P s) {s : MenuState} (h : Underway l s) (hs : J s)
    : menuMachine.Inevitably (fun m => m.move.isSome) P s := by
  apply Machine.inevitably_of_rank (I := fun s => Underway l s ∧ J s) (fun s => rank s.sessions)
  . rintro s m s' ⟨h, hs⟩ hm hstep
    exact ⟨h.step (clickEnabled_of_move hm) hstep, hJ hs hm hstep⟩
  . rintro s m s' ⟨h, _⟩ hm hstep
    exact rank_menuStep h hm (menuTransition_of_step hstep)
  . rintro s ⟨h, hs⟩
    exact (menuStep_next h.settling).imp_left (fun hsettled => hP hs (h.rested hsettled))
  . exact ⟨h, hs⟩

/--
Whatever the service answers and whenever, once no button is clicked any more the menu comes to rest,
and every search and every join that a button has started has ended. Where the player hosts only
while there is no session, so has every create request.
-/
theorem rested_of_run (l : Launch) (ms : List MenuMove)
    (hclick : menuMachine.Along ClickEnabled l.menu ms)
    : menuMachine.Always (menuMachine.Inevitably (fun m => m.move.isSome) (Rested l)) l.menu ms ∧
        (menuMachine.Along HostsAlone l.menu ms →
          menuMachine.Always (menuMachine.Inevitably (fun m => m.move.isSome) (HostRested l))
            l.menu ms) := by
  constructor
  . apply Machine.always_of_along (G := ClickEnabled) (I := Underway l)
    . exact fun h hclick hstep => h.step hclick hstep
    . exact fun h => h.inevitably (J := fun _ => True) (fun _ _ _ => trivial) (fun _ h => h) trivial
    . exact underway_menu l
    . exact hclick
  . intro halone
    apply Machine.always_of_along (G := fun s m => ClickEnabled s m ∧ HostsAlone s m)
      (I := fun s => Underway l s ∧ Opening l.menu.menu s)
    . rintro s m s' ⟨h, hopening⟩ ⟨hclick, halone⟩ hstep
      exact ⟨h.step hclick hstep, hopening.step hclick halone (menuTransition_of_step hstep)⟩
    . rintro s ⟨h, hopening⟩
      apply h.inevitably (J := Opening l.menu.menu) _ Opening.rested hopening
      intro s m s' hopening hm hstep
      exact hopening.step (clickEnabled_of_move hm) (hostsAlone_of_move hm)
        (menuTransition_of_step hstep)
    . exact ⟨underway_menu l, opening_menu l⟩
    . exact hclick.and halone

-- Both buttons are clicked, the create request is outstanding while the search is being made.
theorem rested_both_clicked
    : menuMachine.Always
        (menuMachine.Inevitably (fun m => m.move.isSome)
          (HostRested ⟨⟨true, true⟩, "NULL", false, true, 4, "FreeForAll", "/Game/Maps/Lobby"⟩))
        (Launch.menu ⟨⟨true, true⟩, "NULL", false, true, 4, "FreeForAll", "/Game/Maps/Lobby"⟩)
        [.hostButtonClicked, .resume true "", .resume true "", .accept, .resume true "",
          .joinButtonClicked, .resume true "", .accept, .complete 0 (.create true)] :=
  (rested_of_run _ _ (by decide +kernel)).2 (by decide +kernel)

end Sessions
