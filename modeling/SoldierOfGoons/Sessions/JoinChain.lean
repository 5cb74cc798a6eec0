import SoldierOfGoons.Sessions.Journey
import SoldierOfGoons.Sessions.ClientTravel

/-!
The chain from a search to the travel of the client, end to end. The conduits of the subsystem carry
over to the menu on top of it, and the menu joins them: what it hears of a search it turns into the
call that joins the first session of its match type.
-/

namespace Sessions

-- The moves of the subsystem and its surroundings that a move of the menu is made of.
def MenuMove.moves (s : MenuState) : MenuMove → List Move
  | .hostButtonClicked => [.call (.createSession s.menu.numPublicConnections s.menu.matchType)]
  | .joinButtonClicked => [.call (.findSessions 10000)]
  | .complete i o => [.complete i o]
  | .refuse => [.refuse]
  | .accept => [.accept]
  | .resume resolvedProperly address =>
    match s.sessions.stack with
    | .broadcast o :: _ =>
      .resume ::
        ((s.menu.handle o s.sessions.sessionInterface resolvedProperly address).2.toList.map .call)
    | _ => [.resume]

def menuVerdicts (k : RequestKind) (s : MenuState) (m : MenuMove) : List Outcome :=
  m.move.elim [] (verdicts k s.sessions)

-- The call that the menu makes when it hears an answer.
def Menu.picks (menu : Menu) : Outcome → Option Call
  | .find results _ => (menu.firstMatch results).map .joinSession
  | _ => none

theorem Menu.picks_eq (menu : Menu) (o : Outcome) (sessionInterface resolvedProperly : Bool)
    (address : String)
    : (menu.handle o sessionInterface resolvedProperly address).2 = menu.picks o := by
  cases o with
  | find results ok =>
    simp only [handle, onFindSession, picks]
    split
    . next r hmatch => rw [hmatch]; rfl
    . next hmatch =>
      rw [hmatch]
      split <;> rfl
  | _ => rfl

section Moves

variable {s s' : MenuState} {m : MenuMove}

theorem moves_service {n : Move} (hn : m.move = some n)
    (hquiet : n = .resume → ∀ o stack, s.sessions.stack ≠ .broadcast o :: stack)
    : m.moves s = [n] := by
  cases m with
  | resume resolvedProperly address =>
    cases hn
    simp only [MenuMove.moves]
    split
    . next o stack hstack => exact absurd hstack (hquiet rfl o stack)
    . rfl
  | hostButtonClicked => cases hn
  | joinButtonClicked => cases hn
  | _ =>
    cases hn
    rfl

theorem moves_notify {o : Outcome} {stack : List Frame}
    (hstack : s.sessions.stack = .broadcast o :: stack) (resolvedProperly : Bool) (address : String)
    : (MenuMove.resume resolvedProperly address).moves s
        = .resume :: (s.menu.picks o).toList.map .call := by
  simp only [MenuMove.moves, hstack, Menu.picks_eq]

theorem picks_of_handle {menu menu' : Menu} {o : Outcome} {sessionInterface resolvedProperly : Bool}
    {address : String} {call : Option Call}
    (h : menu.handle o sessionInterface resolvedProperly address = (menu', call))
    : menu.picks o = call := by
  rw [← menu.picks_eq o sessionInterface resolvedProperly address, h]

theorem moves_run (ht : MenuTransition s m s')
    : machine.run s.sessions (m.moves s) = some s'.sessions := by
  cases ht with
  | host sessions hstack hstep => simp [MenuMove.moves, Machine.run, hstep]
  | join sessions hstack hstep => simp [MenuMove.moves, Machine.run, hstep]
  | service m n hn hquiet sessions hstep =>
    rw [moves_service hn hquiet]
    simp [Machine.run, hstep]
  | notify o stack hstack resolvedProperly address sessions menu' hstep hmenu =>
    rw [moves_notify hstack, picks_of_handle hmenu]
    simp [Machine.run, hstep]
  | notifyCall o stack hstack resolvedProperly address listening sessions menu' c hstep hmenu hcall =>
    rw [moves_notify hstack, picks_of_handle hmenu]
    simp [Machine.run, hstep, hcall]

-- Only the answers that a service gives count, and it gives none within a call.
theorem collected_verdicts (k : RequestKind) (ht : MenuTransition s m s')
    : machine.collected (verdicts k) s.sessions (m.moves s) = menuVerdicts k s m := by
  cases ht with
  | host sessions hstack hstep => exact Machine.collected_singleton hstep
  | join sessions hstack hstep => exact Machine.collected_singleton hstep
  | service m n hn hquiet sessions hstep =>
    rw [moves_service hn hquiet, Machine.collected_singleton hstep, menuVerdicts, hn]
    rfl
  | notify o stack hstack resolvedProperly address sessions menu' hstep hmenu =>
    rw [moves_notify hstack, picks_of_handle hmenu]
    exact Machine.collected_singleton hstep
  | notifyCall o stack hstack resolvedProperly address listening sessions menu' c hstep hmenu hcall =>
    rw [moves_notify hstack, picks_of_handle hmenu]
    rw [Option.toList_some, List.map_singleton, Machine.collected_cons [.call c] hstep,
      Machine.collected_singleton hcall]
    exact List.append_nil _

-- What the menu hears of searches is what it calls for.
theorem picks_heard {menu : Menu} (hmatch : s.menu.matchType = menu.matchType)
    (ht : MenuTransition s m s')
    : (machine.collected (broadcastsMade .find) s.sessions (m.moves s)).filterMap menu.picks
        = machine.collected (callsTaken .join) s.sessions (m.moves s) := by
  have hpicks : menu.picks = s.menu.picks := by
    funext o
    cases o with
    | find results ok => simp only [Menu.picks, firstMatch_congr hmatch]
    | _ => rfl
  rw [hpicks]
  cases ht with
  | host sessions hstack hstep =>
    have hmoves : MenuMove.hostButtonClicked.moves s
        = [.call (.createSession s.menu.numPublicConnections s.menu.matchType)] := rfl
    rw [hmoves, Machine.collected_singleton hstep, Machine.collected_singleton hstep]
    rfl
  | join sessions hstack hstep =>
    have hmoves : MenuMove.joinButtonClicked.moves s = [.call (.findSessions 10000)] := rfl
    rw [hmoves, Machine.collected_singleton hstep, Machine.collected_singleton hstep]
    rfl
  | service m n hn hquiet sessions hstep =>
    have htaken : callsTaken .join s.sessions n = [] := by
      cases n with
      | call c => exact absurd rfl (call_ne_of_move hn c)
      | _ => rfl
    rw [moves_service hn hquiet, Machine.collected_singleton hstep,
      Machine.collected_singleton hstep, broadcastsMade_quiet hquiet, htaken]
    rfl
  | notify o stack hstack resolvedProperly address sessions menu' hstep hmenu =>
    have hnone := picks_of_handle hmenu
    rw [moves_notify hstack, hnone]
    simp only [Option.toList_none, List.map_nil, Machine.collected_singleton hstep, broadcastsMade,
      callsTaken, hstack, top_cons, Frame.announces]
    split
    . simp [hnone]
    . rfl
  | notifyCall o stack hstack resolvedProperly address listening sessions menu' c hstep hmenu hcall =>
    have hsome := picks_of_handle hmenu
    rw [moves_notify hstack, hsome, Option.toList_some, List.map_singleton,
      Machine.collected_cons [.call c] hstep, Machine.collected_cons [.call c] hstep,
      Machine.collected_singleton hcall, Machine.collected_singleton hcall]
    cases o with
    | find results ok =>
      have hjoin : c.kind = .join := by
        simp only [Menu.picks, Option.map_eq_some_iff] at hsome
        obtain ⟨r, _, rfl⟩ := hsome
        rfl
      simp [broadcastsMade, callsTaken, hstack, Frame.announces, Outcome.kind, hsome, hjoin]
    | _ => cases hsome

end Moves

section Chain

variable (menu : Menu)

theorem along_idleFor {k : RequestKind} {s s' : MenuState} {m : MenuMove}
    (hidle : ∀ n, IdleFor k s.sessions n) (ht : MenuTransition s m s')
    : machine.Along (IdleFor k) s.sessions (m.moves s) := by
  have hone (n : Move) : machine.Along (IdleFor k) s.sessions [n] := fun _ _ => ⟨hidle n, trivial⟩
  cases ht with
  | host sessions hstack hstep => exact hone _
  | join sessions hstack hstep => exact hone _
  | service m n hn hquiet sessions hstep =>
    rw [moves_service hn hquiet]
    exact hone n
  | notify o stack hstack resolvedProperly address sessions menu' hstep hmenu =>
    rw [moves_notify hstack, picks_of_handle hmenu]
    exact hone _
  | notifyCall o stack hstack resolvedProperly address listening sessions menu' c hstep hmenu hcall =>
    rw [moves_notify hstack, picks_of_handle hmenu]
    intro t _
    exact ⟨hidle _, fun _ _ => ⟨idleFor_call k t c, trivial⟩⟩

theorem menuConduit_answers {k : RequestKind} (hk : k = .find ∨ k = .join)
    : Machine.Conduit menuMachine (Journeying menu) ClickEnabled
        (fun s => top (Frame.tells k) s.sessions.stack) (menuVerdicts k)
        (fun s m => machine.collected (broadcastsMade k) s.sessions (m.moves s)) := by
  have hne : k ≠ .destroy := by
    rcases hk with rfl | rfl <;> simp
  have hconduit := (conduit_answers hne).simulate (M := menuMachine) (I := Journeying menu)
    (G := ClickEnabled) (fun h hidle hstep => h.step hne hidle hstep) MenuState.sessions
    (fun s m => m.moves s) ?_
  . apply hconduit.congr
    . intro s m s' h _ hstep
      exact (collected_verdicts k (menuTransition_of_step hstep)).symm
    . intro s m s' h _ hstep
      rfl
  . intro s m s' h _ hstep
    have ht := menuTransition_of_step hstep
    exact ⟨h.telling k hk, along_idleFor (h.idleFor hk) ht, moves_run ht⟩

theorem menuConduit_joins
    : Machine.Conduit menuMachine (Journeying menu) ClickEnabled
        (fun s => top (Frame.asksFor .join) s.sessions.stack)
        (fun s m => machine.collected (callsTaken .join) s.sessions (m.moves s))
        (fun s m => machine.collected (requestsMade .join) s.sessions (m.moves s)) := by
  apply (conduit_calls (k := .join) (Or.inr rfl)).simulate
    (fun h _ hstep => h.step (Or.inr rfl) hstep)
  intro s m s' h _ hstep
  have ht := menuTransition_of_step hstep
  exact ⟨h.asking .join (Or.inr rfl), machine.along_true _ _, moves_run ht⟩

theorem conduit_chain
    : Machine.Conduit menuMachine (Journeying menu) ClickEnabled
        (fun s => top (Frame.asksFor .join) s.sessions.stack ++
          (top (Frame.tells .find) s.sessions.stack).filterMap menu.picks)
        (fun s m => (menuVerdicts .find s m).filterMap menu.picks)
        (fun s m => machine.collected (requestsMade .join) s.sessions (m.moves s)) := by
  have hheard := (menuConduit_answers menu (k := .find) (Or.inl rfl)).filterMap menu.picks
  have hpicked := hheard.congr (fun _ _ _ => rfl)
    (fun h _ hstep => (picks_heard h.matchType (menuTransition_of_step hstep)).symm)
  exact hpicked.comp (menuConduit_joins menu)

end Chain

section Run

theorem joinRequests_step {menu : Menu} {s s' : MenuState} {m : MenuMove} (h : Journeying menu s)
    (ht : MenuTransition s m s')
    : (eventsOf (Event.request .join) s'.sessions.log).map Request.asks
        = (eventsOf (Event.request .join) s.sessions.log).map Request.asks ++
          machine.collected (requestsMade .join) s.sessions (m.moves s) :=
  Machine.view_run (fun s => (eventsOf (Event.request .join) s.log).map Request.asks)
    (fun h _ hstep => Asking.step h (Or.inr rfl) hstep) (fun h _ hstep => requests_view h hstep)
    (h.asking .join (Or.inr rfl)) (machine.along_true _ _) (moves_run ht)

theorem joinAnswers_step {menu : Menu} {s s' : MenuState} {m : MenuMove} (h : Journeying menu s)
    (ht : MenuTransition s m s')
    : eventsOf (Event.answer .join) s'.sessions.log
        = eventsOf (Event.answer .join) s.sessions.log ++
          machine.collected (broadcastsMade .join) s.sessions (m.moves s) :=
  Machine.view_run (fun s => eventsOf (Event.answer .join) s.log)
    (fun h hidle hstep => Telling.step h (by simp) hidle hstep)
    (fun h _ hstep => answers_view h hstep) (h.telling .join (Or.inr rfl))
    (along_idleFor (h.idleFor (Or.inr rfl)) ht) (moves_run ht)

/--
Each answer of the service to a search that contains a session of the menu's match type has led to
one join request, for the first such session and in the order of the answers, or is about to; and
there is no other join request.
-/
def JoinsFound (menu : Menu) (answers : List Outcome) (s : MenuState) : Prop :=
  answers.filterMap menu.picks =
    (eventsOf (Event.request .join) s.sessions.log).map Request.asks ++
      (top (Frame.asksFor .join) s.sessions.stack ++
        (top (Frame.tells .find) s.sessions.stack).filterMap menu.picks)

theorem joins_of_searches (l : Launch) (ms : List MenuMove)
    (hclick : menuMachine.Along ClickEnabled l.menu ms)
    : menuMachine.AlwaysCollected (menuVerdicts .find) (JoinsFound l.menu.menu) [] l.menu ms := by
  apply Machine.alwaysCollected_of_along
    (J := fun answers s => Journeying l.menu.menu s ∧ JoinsFound l.menu.menu answers s)
  . rintro answers s m s' ⟨h, heq⟩ hclick hstep
    have ht := menuTransition_of_step hstep
    refine ⟨h.step hclick ht, ?_⟩
    unfold JoinsFound
    rw [List.filterMap_append]
    exact (conduit_chain l.menu.menu).keeps
      (fun s => (eventsOf (Event.request .join) s.sessions.log).map Request.asks) h hclick hstep
      (joinRequests_step h ht) heq
  . exact fun h => h.2
  . exact ⟨journeying_menu l, rfl⟩
  . exact hclick

-- A search that is refused, then one that finds two sessions to join.
theorem joins_second_search
    : menuMachine.AlwaysCollected (menuVerdicts .find)
        (JoinsFound
          (Launch.menu ⟨⟨true, true⟩, "NULL", false, true, 4, "FreeForAll", "/Game/Maps/Lobby"⟩).menu)
        [] (Launch.menu ⟨⟨true, true⟩, "NULL", false, true, 4, "FreeForAll", "/Game/Maps/Lobby"⟩)
        [.joinButtonClicked, .resume true "", .refuse, .resume true "", .resume true "",
          .joinButtonClicked, .resume true "", .accept, .resume true "",
          .complete 0 (.find [⟨7, some "FreeForAll"⟩, ⟨8, some "FreeForAll"⟩] true), .resume true "",
          .resume true "", .resume true "", .resume true ""] :=
  joins_of_searches _ _ (by decide +kernel)

theorem length_answers_join (log : List Event)
    : (eventsOf (Event.answer .join) log).length
        = joinAnnouncements true log + joinAnnouncements false log := by
  induction log with
  | nil => rfl
  | cons e log ih =>
    rw [eventsOf_cons, List.length_append, ih]
    cases e with
    | broadcast o =>
      cases o with
      | join result =>
        cases hresult : result.succeeds <;>
          simp [joinAnnouncements, Event.answer, Outcome.kind, hresult] <;> omega
      | _ => simp [joinAnnouncements, Event.answer, Outcome.kind]
    | _ => simp [joinAnnouncements, Event.answer]

/--
`ClientTravel` has been called once for each answer of the service to a join request, whether that
answer is a success, a failure or a refusal, and at no other time.
-/
def TravelsAnswered (answers : List Outcome) (s : MenuState) : Prop :=
  answers.length =
    (if s.menu.playerController then s.menu.clientTravels.length
      else (eventsOf (Event.answer .join) s.sessions.log).length) +
      (top (Frame.tells .join) s.sessions.stack).length

theorem travels_of_answers (l : Launch) (ms : List MenuMove)
    (hclick : menuMachine.Along ClickEnabled l.menu ms)
    : menuMachine.AlwaysCollected (menuVerdicts .join) TravelsAnswered [] l.menu ms := by
  apply Machine.alwaysCollected_of_along
    (J := fun answers s => Journeying l.menu.menu s ∧ Joining s ∧
      answers = eventsOf (Event.answer .join) s.sessions.log ++
        top (Frame.tells .join) s.sessions.stack)
  . rintro answers s m s' ⟨h, hjoining, heq⟩ hclick hstep
    have ht := menuTransition_of_step hstep
    refine ⟨h.step hclick ht, hjoining.step ht, ?_⟩
    exact (menuConduit_answers l.menu.menu (Or.inr rfl)).keeps
      (fun s => eventsOf (Event.answer .join) s.sessions.log) h hclick hstep
      (joinAnswers_step h ht) heq
  . rintro answers s ⟨_, hjoining, rfl⟩
    have htravelled := hjoining.travelled
    unfold JoinsTravelled at htravelled
    rw [TravelsAnswered, List.length_append]
    split
    . next hcontroller =>
      rw [if_pos hcontroller, ← length_answers_join] at htravelled
      rw [htravelled]
    . rfl
  . exact ⟨journeying_menu l, joining_menu l, rfl⟩
  . exact hclick

-- The join fails and the client travels.
theorem travels_join_fails
    : menuMachine.AlwaysCollected (menuVerdicts .join) TravelsAnswered []
        (Launch.menu ⟨⟨true, true⟩, "NULL", false, true, 4, "FreeForAll", "/Game/Maps/Lobby"⟩)
        [.joinButtonClicked, .resume true "", .accept, .resume true "",
          .complete 0 (.find [⟨8, some "FreeForAll"⟩] true), .resume true "", .resume true "",
          .resume true "", .resume true "", .accept, .resume true "",
          .complete 0 (.join .sessionIsFull), .resume true "", .resume false ""] :=
  travels_of_answers _ _ (by decide +kernel)

end Run

end Sessions
