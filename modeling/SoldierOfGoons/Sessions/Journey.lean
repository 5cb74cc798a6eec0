import SoldierOfGoons.Sessions.Provenance
import SoldierOfGoons.Sessions.Pairing

/-!
What joining a session looks like from the outside: the player searches, the menu picks a session of
what is found, the join succeeds or fails. The menu goes through these phases one at a time as long
as only an enabled `JoinButton` is clicked, whatever the hosting side, the service and the order of
the completions do. A menu that passes over what was found is stranded, its button stays disabled.
-/

namespace Sessions

inductive JourneyMove where
  | click
  | pick
  | giveUp
  | pass
  | fail
  | arrive
  deriving DecidableEq, Repr

inductive Phase where
  | ready
  | searching
  | joining
  | stranded
  | arrived
  deriving DecidableEq, Repr

def journeyStep : Phase → JourneyMove → Option Phase
  | .ready, .click => some .searching
  | .searching, .pick => some .joining
  | .searching, .giveUp => some .ready
  | .searching, .pass => some .stranded
  | .joining, .fail => some .ready
  | .joining, .arrive => some .arrived
  | _, _ => none

def journey : Machine Phase JourneyMove := ⟨journeyStep⟩

-- A search that finds a session of the match type is visible by the join that follows.
def Event.journey (menu : Menu) : Event → Option JourneyMove
  | .called (.findSessions _) => some .click
  | .called (.joinSession _) => some .pick
  | .broadcast (.find results bWasSuccessful) =>
    if (menu.firstMatch results).isSome then
      none
    else if !bWasSuccessful || results.length = 0 then
      some .giveUp
    else
      some .pass
  | .broadcast (.join result) => if result = .success then some .arrive else some .fail
  | _ => none

def Phase.joinButton : Phase → Bool
  | .ready => true
  | _ => false

def Phase.owed (k : RequestKind) : Phase → Nat
  | .searching => if k = .find then 1 else 0
  | .joining => if k = .join then 1 else 0
  | _ => 0

-- The searches and joins that are under way, and the button.
structure Shows (p : Phase) (s : MenuState) : Prop where
  joinButton : s.menu.joinButton = p.joinButton
  find : owed .find s.sessions = p.owed .find
  join : owed .join s.sessions = p.owed .join

theorem Shows.owed_le {p : Phase} {s : MenuState} (h : Shows p s)
    : owed .find s.sessions + owed .join s.sessions ≤ 1 := by
  rw [h.find, h.join]
  cases p <;> simp [Phase.owed]

section Owed

variable {k : RequestKind} {s s' : State} {m : Move}

theorem owed_step (hk : k ≠ .destroy) (htidy : Tidy k s) (ht : Transition s m s')
    (hrecreates : k = .create → recreates s m = false)
    : owed k s' + (broadcastsMade k s m).length = owed k s + (callsTaken k s m).length := by
  cases ht with
  | call c hturn =>
    by_cases hc : c.kind = k
    . simp [owed, owes_frame, callsTaken, broadcastsMade, hc]
      omega
    . simp [owed, owes_frame, callsTaken, broadcastsMade, hc]
  | complete i p o hturn hp =>
    by_cases ho : o.kind = k
    . subst ho
      have hi : i < (s.outstanding o.kind).length := (List.getElem?_eq_some_iff.mp hp).1
      have hlive : live o.kind s = (s.outstanding o.kind).length := by
        simp [live, topWeight_of_serviceTurn _ hturn]
      have hlen : (s.outstanding o.kind).length = 1 := by
        have := htidy.le_one
        omega
      have hone : (s.delegates o.kind).handles.length = 1 := by
        rw [htidy.handles, List.length_replicate]
        omega
      have : i = 0 := by omega
      simp [owed, Frame.owes, callsTaken, broadcastsMade, hone, hlen, this]
      omega
    . simp [owed, Frame.owes, callsTaken, broadcastsMade, ho, Function.update_of_ne (Ne.symm ho)]
  | refuse r b stack hstack => simp [owed, callsTaken, broadcastsMade, hstack, Frame.owes]
  | accept r b stack hstack hsession =>
    by_cases hr : r.kind = k
    . subst hr
      simp [owed, callsTaken, broadcastsMade, hstack, Frame.owes]
      omega
    . simp [owed, callsTaken, broadcastsMade, hstack, Frame.owes, hr,
        Function.update_of_ne (Ne.symm hr)]
  | register f r stack hstack hf hcreate settings search nextId =>
    have hrequest : (Frame.request r (startedByCreateSession r stack)).owes k = f.owes k := by
      rw [owes_of_registers k hf]
      rfl
    simp only [owed, callsTaken, broadcastsMade, hstack, top_cons, List.map_cons, List.sum_cons,
      hrequest, (tells_of_registers hf k).2, List.length_nil]
  | callback o handle handles stack hstack hflag =>
    by_cases ho : o.kind = k
    . simp [owed, callsTaken, broadcastsMade, hstack, Frame.owes, Frame.announces, ho]
      omega
    . simp [owed, callsTaken, broadcastsMade, hstack, Frame.owes, Frame.announces, ho]
  | recreate handle handles stack hstack hflag =>
    have hcreate : RequestKind.create ≠ k := by
      intro hc
      have := hrecreates hc.symm
      simp [recreates, hstack, hflag] at this
    simp [owed, callsTaken, broadcastsMade, hstack, Frame.owes, Frame.announces, Outcome.kind,
      hcreate, Ne.symm hk]
  | broadcast o stack hstack =>
    by_cases ho : o.kind = k
    . simp [owed, callsTaken, broadcastsMade, hstack, Frame.owes, Frame.announces, ho]
      omega
    . simp [owed, callsTaken, broadcastsMade, hstack, Frame.owes, Frame.announces, ho]
  | pop f stack hstack hf =>
    rcases hf with rfl | ⟨o, rfl⟩ | ⟨o, rfl⟩ <;>
      simp [owed, callsTaken, broadcastsMade, hstack, Frame.owes, Frame.announces]
  | _ =>
    simp [owed, callsTaken, broadcastsMade, *, Frame.owes, Frame.announces, Ne.symm hk]

theorem idleFor_of_owed (h : owed k s ≤ 1) (m : Move) : IdleFor k s m := by
  intro hadd
  unfold adding at hadd
  split at hadd
  . next f stack hstack =>
    have howes := owes_of_registers k hadd
    rw [if_pos rfl] at howes
    simp only [owed, hstack, List.map_cons, List.sum_cons, howes] at h
    apply List.eq_nil_of_length_eq_zero (by omega)
  . cases hadd

end Owed

theorem idleFor_call (k : RequestKind) (s : State) (c : Call) : IdleFor k s (.call c) := by
  rintro ⟨⟩

theorem of_call {s s' : State} {c : Call} (hstep : machine.step s (.call c) = some s')
    : s'.log = .called c :: s.log ∧ ∀ k, owed k s' = owed k s + if c.kind = k then 1 else 0 := by
  simp only [machine, step, Option.ite_none_right_eq_some, Option.some.injEq] at hstep
  obtain ⟨_, rfl⟩ := hstep
  refine ⟨rfl, ?_⟩
  intro k
  simp only [owed, State.push, State.emit, List.map_cons, List.sum_cons, owes_frame]
  omega

theorem of_broadcast {s s' : State} {o : Outcome} {stack : List Frame}
    (hstack : s.stack = .broadcast o :: stack) (hstep : machine.step s .resume = some s')
    : s'.log = .broadcast o :: s.log ∧ ∀ k, owed k s = owed k s' + if o.kind = k then 1 else 0 := by
  simp only [machine, step, hstack, Frame.resume, Option.some.injEq] at hstep
  subst hstep
  refine ⟨rfl, ?_⟩
  intro k
  simp only [owed, State.push, State.emit, hstack, List.map_cons, List.sum_cons, Frame.owes]
  omega

section Service

variable {s s' : State} {n : Move}

theorem broadcastsMade_quiet (hquiet : n = .resume → ∀ o stack, s.stack ≠ .broadcast o :: stack)
    (k : RequestKind) : broadcastsMade k s n = [] := by
  unfold broadcastsMade
  split
  . cases hstack : s.stack with
    | nil => rfl
    | cons f stack =>
      cases f with
      | broadcast o => exact absurd hstack (hquiet rfl o stack)
      | _ => rfl
  . rfl

end Service

namespace Menu

theorem joinButton_handle_other {o : Outcome} (ho : o.kind ≠ .find) (ho' : o.kind ≠ .join)
    {menu menu' : Menu} {sessionInterface resolvedProperly : Bool} {address : String}
    {call : Option Call}
    (h : menu.handle o sessionInterface resolvedProperly address = (menu', call))
    : menu'.joinButton = menu.joinButton := by
  cases o with
  | find results ok => exact absurd rfl ho
  | join result => exact absurd rfl ho'
  | create ok =>
    simp only [handle, onCreateSession, Prod.mk.injEq] at h
    obtain ⟨rfl, _⟩ := h
    split
    . split <;> rfl
    . rfl
  | destroy ok =>
    cases h
    rfl

theorem joinButton_onFindSession {results : List SearchResult} {ok : Bool} {menu menu' : Menu}
    (h : menu.onFindSession results ok = (menu', none))
    : menu.firstMatch results = none ∧
        menu'.joinButton = (menu.joinButton || (!ok || results.length = 0)) := by
  simp only [onFindSession] at h
  split at h
  . cases h
  . next hmatch =>
    refine ⟨hmatch, ?_⟩
    split at h
    . next hcond =>
      cases h
      rw [hcond, Bool.or_true]
    . next hcond =>
      cases h
      rw [eq_false_of_ne_true hcond, Bool.or_false]

theorem joinButton_onJoinSession (result : JoinResult) (sessionInterface resolvedProperly : Bool)
    (address : String) (menu : Menu)
    : (menu.onJoinSession result sessionInterface resolvedProperly address).joinButton
        =
      (menu.joinButton || decide (result ≠ .success)) := by
  simp only [onJoinSession]
  by_cases hresult : result = .success <;>
    cases hcontroller : sessionInterface && menu.playerController <;> simp [hresult]

end Menu

theorem firstMatch_congr {menu menu' : Menu} (h : menu.matchType = menu'.matchType)
    (results : List SearchResult) : menu.firstMatch results = menu'.firstMatch results := by
  unfold Menu.firstMatch
  rw [h]

theorem journey_find {menu : Menu} {results : List SearchResult}
    (hmatch : menu.firstMatch results = none) (ok : Bool)
    : Event.journey menu (.broadcast (.find results ok))
        = some (if !ok || results.length = 0 then .giveUp else .pass) := by
  simp only [Event.journey, hmatch, Option.isSome_none, Bool.false_eq_true, if_false]
  split <;> rfl

structure Journeying (menu : Menu) (s : MenuState) : Prop where
  reached : Reached s.sessions
  asking : ∀ k, k = .find ∨ k = .join → Asking k s.sessions
  telling : ∀ k, k = .find ∨ k = .join → Telling k s.sessions
  matchType : s.menu.matchType = menu.matchType
  follows : journey.Follows .ready (fun s => eventsOf (Event.journey menu) s.sessions.log) Shows s

section Step

variable {menu : Menu} {s s' : MenuState} {m : MenuMove}

theorem Journeying.owed_le (h : Journeying menu s)
    : owed .find s.sessions + owed .join s.sessions ≤ 1 := by
  obtain ⟨p, _, hs⟩ := h.follows
  exact hs.owed_le

theorem Journeying.idleFor (h : Journeying menu s) {k : RequestKind} (hk : k = .find ∨ k = .join)
    (n : Move) : IdleFor k s.sessions n := by
  have := h.owed_le
  apply idleFor_of_owed
  rcases hk with rfl | rfl <;> omega

theorem Journeying.follows_service (h : Journeying menu s) {n : Move} (hcall : ∀ c, n ≠ .call c)
    (hquiet : n = .resume → ∀ o stack, s.sessions.stack ≠ .broadcast o :: stack) {sessions : State}
    (hstep : machine.step s.sessions n = some sessions)
    : journey.Follows .ready (fun s => eventsOf (Event.journey menu) s.sessions.log) Shows
        ⟨sessions, s.menu⟩ := by
  have ht := h.reached.transition hstep
  have howed {k : RequestKind} (hk : k = .find ∨ k = .join) : owed k sessions = owed k s.sessions := by
    have hne : k ≠ .destroy ∧ k ≠ .create := by
      rcases hk with rfl | rfl <;> simp
    have := owed_step hne.1 (h.telling k hk).tidy ht (fun hc => absurd hc hne.2)
    have htaken : callsTaken k s.sessions n = [] := by
      cases n with
      | call c => exact absurd rfl (hcall c)
      | _ => rfl
    rw [broadcastsMade_quiet hquiet, htaken] at this
    exact this
  have htrace := eventsOf_service (Event.journey menu) (fun _ _ => rfl) (fun _ _ => rfl) ht hcall hquiet
  apply h.follows.extend [] (by simp [htrace])
  intro p hs
  refine ⟨p, rfl, hs.joinButton, ?_, ?_⟩
  . rw [howed (Or.inl rfl), hs.find]
  . rw [howed (Or.inr rfl), hs.join]

theorem Shows.found {p : Phase} (hs : Shows p s) (hmatchType : s.menu.matchType = menu.matchType)
    {results : List SearchResult} {ok : Bool} {sessions : State} {menu' : Menu}
    (hmenu : s.menu.onFindSession results ok = (menu', none))
    (hfind : owed .find s.sessions = owed .find sessions + 1)
    (hjoin : owed .join s.sessions = owed .join sessions)
    : ∃ p', journey.run p (Event.journey menu (.broadcast (.find results ok))).toList = some p' ∧
        Shows p' ⟨sessions, menu'⟩ := by
  rw [hs.find] at hfind
  rw [hs.join] at hjoin
  cases p with
  | searching =>
    obtain ⟨hmatch, hbutton⟩ := Menu.joinButton_onFindSession hmenu
    rw [firstMatch_congr hmatchType] at hmatch
    rw [hs.joinButton] at hbutton
    simp only [Phase.owed, if_true, reduceCtorEq, if_false] at hfind hjoin
    have hzero : owed .find sessions = 0 := by omega
    rw [journey_find hmatch ok]
    cases hcond : !ok || decide (results.length = 0) with
    | true =>
      rw [hcond] at hbutton
      exact ⟨.ready, rfl, hbutton, hzero, hjoin.symm⟩
    | false =>
      rw [hcond] at hbutton
      exact ⟨.stranded, rfl, hbutton, hzero, hjoin.symm⟩
  | _ => simp [Phase.owed] at hfind

theorem Shows.answered {p : Phase} (hs : Shows p s) {result : JoinResult}
    {sessionInterface resolvedProperly : Bool} {address : String} {sessions : State}
    (hfind : owed .find s.sessions = owed .find sessions)
    (hjoin : owed .join s.sessions = owed .join sessions + 1)
    : ∃ p', journey.run p (Event.journey menu (.broadcast (.join result))).toList = some p' ∧
        Shows p' ⟨sessions,
          s.menu.onJoinSession result sessionInterface resolvedProperly address⟩ := by
  rw [hs.find] at hfind
  rw [hs.join] at hjoin
  cases p with
  | joining =>
    have hbutton := Menu.joinButton_onJoinSession result sessionInterface resolvedProperly address
      s.menu
    rw [hs.joinButton] at hbutton
    simp only [Phase.owed, if_true, reduceCtorEq, if_false] at hfind hjoin
    have hzero : owed .join sessions = 0 := by omega
    by_cases hresult : result = .success
    . subst hresult
      exact ⟨.arrived, rfl, hbutton, hfind.symm, hzero⟩
    . refine ⟨.ready, ?_, ?_, hfind.symm, hzero⟩
      . simp only [Event.journey, hresult, if_false]
        rfl
      . simpa [hresult, Phase.joinButton] using hbutton
  | _ => simp [Phase.owed] at hjoin

theorem Shows.other {p : Phase} (hs : Shows p s) {o : Outcome} (ho : o.kind ≠ .find)
    (ho' : o.kind ≠ .join) {sessions : State} {menu' : Menu}
    (hbutton : menu'.joinButton = s.menu.joinButton)
    (hfind : owed .find s.sessions = owed .find sessions)
    (hjoin : owed .join s.sessions = owed .join sessions)
    : ∃ p', journey.run p (Event.journey menu (.broadcast o)).toList = some p' ∧
        Shows p' ⟨sessions, menu'⟩ := by
  have hnone : Event.journey menu (.broadcast o) = none := by
    cases o with
    | find results ok => exact absurd rfl ho
    | join result => exact absurd rfl ho'
    | _ => rfl
  rw [hnone]
  exact ⟨p, rfl, hbutton.trans hs.joinButton, hfind.symm.trans hs.find, hjoin.symm.trans hs.join⟩

theorem Journeying.follows_notify (h : Journeying menu s) {o : Outcome} {stack : List Frame}
    (hstack : s.sessions.stack = .broadcast o :: stack) {resolvedProperly : Bool} {address : String}
    {sessions : State} {menu' : Menu} (hstep : machine.step s.sessions .resume = some sessions)
    (hmenu : s.menu.handle o sessions.sessionInterface resolvedProperly address = (menu', none))
    : journey.Follows .ready (fun s => eventsOf (Event.journey menu) s.sessions.log) Shows
        ⟨sessions, menu'⟩ := by
  obtain ⟨hlog, howed⟩ := of_broadcast hstack hstep
  have hfind := howed .find
  have hjoin := howed .join
  have htrace : eventsOf (Event.journey menu) sessions.log
      = eventsOf (Event.journey menu) s.sessions.log ++ (Event.journey menu (.broadcast o)).toList := by
    rw [hlog, eventsOf_cons]
  apply h.follows.extend _ htrace
  intro p hs
  cases o with
  | find results ok => exact hs.found h.matchType hmenu hfind hjoin
  | join result =>
    simp only [Menu.handle, Prod.mk.injEq, and_true] at hmenu
    subst hmenu
    exact hs.answered hfind hjoin
  | create ok =>
    have hbutton := Menu.joinButton_handle_other (by simp [Outcome.kind]) (by simp [Outcome.kind]) hmenu
    exact hs.other (by simp [Outcome.kind]) (by simp [Outcome.kind]) hbutton hfind hjoin
  | destroy ok =>
    have hbutton := Menu.joinButton_handle_other (by simp [Outcome.kind]) (by simp [Outcome.kind]) hmenu
    exact hs.other (by simp [Outcome.kind]) (by simp [Outcome.kind]) hbutton hfind hjoin

theorem Journeying.follows_step (h : Journeying menu s) (hclick : ClickEnabled s m)
    (ht : MenuTransition s m s')
    : journey.Follows .ready (fun s => eventsOf (Event.journey menu) s.sessions.log) Shows s' := by
  cases ht with
  | host sessions hstack hstep =>
    obtain ⟨hlog, howed⟩ := of_call hstep
    apply h.follows.extend [] (by simp [hlog, eventsOf_cons, Event.journey])
    intro p hs
    exact ⟨p, rfl, hs.joinButton, (howed .find).trans hs.find, (howed .join).trans hs.join⟩
  | join sessions hstack hstep =>
    obtain ⟨hlog, howed⟩ := of_call hstep
    apply h.follows.extend [.click] (by simp [hlog, eventsOf_cons, Event.journey])
    intro p hs
    have hbutton : p.joinButton = true := hs.joinButton.symm.trans hclick
    cases p with
    | ready =>
      refine ⟨.searching, rfl, rfl, ?_, ?_⟩
      . have := howed .find
        rw [hs.find] at this
        exact this
      . have := howed .join
        rw [hs.join] at this
        exact this
    | _ => cases hbutton
  | service m n hn hquiet sessions hstep =>
    exact h.follows_service (call_ne_of_move hn) hquiet hstep
  | notify o stack hstack resolvedProperly address sessions menu' hstep hmenu =>
    exact h.follows_notify hstack hstep hmenu
  | notifyCall o stack hstack resolvedProperly address listening sessions menu' c hstep hmenu hcall =>
    obtain ⟨hlog, howed⟩ := of_broadcast hstack hstep
    obtain ⟨hlog', howed'⟩ := of_call hcall
    cases o with
    | find results ok =>
      simp only [Menu.handle, Menu.onFindSession] at hmenu
      split at hmenu
      . next r hmatch =>
        cases hmenu
        rw [firstMatch_congr h.matchType] at hmatch
        apply h.follows.extend [.pick]
          (by simp [hlog', hlog, eventsOf_cons, Event.journey, hmatch])
        intro p hs
        have hfind := howed .find
        rw [hs.find] at hfind
        cases p with
        | searching =>
          have hjoin := howed .join
          have hfind' := howed' .find
          have hjoin' := howed' .join
          rw [hs.join] at hjoin
          simp only [Phase.owed, Outcome.kind, Call.kind, if_true, reduceCtorEq, if_false] at *
          refine ⟨.joining, rfl, hs.joinButton, ?_, ?_⟩
          . exact (by omega : owed .find sessions = 0)
          . exact (by omega : owed .join sessions = 1)
        | _ => simp [Phase.owed, Outcome.kind] at hfind
      . split at hmenu <;> cases hmenu
    | _ => cases hmenu

theorem Telling.menuStep {k : RequestKind} (h : Telling k s.sessions) (hk : k ≠ .destroy)
    (hidle : ∀ n, IdleFor k s.sessions n) (ht : MenuTransition s m s') : Telling k s'.sessions := by
  cases ht with
  | host sessions hstack hstep => exact h.step hk (hidle _) hstep
  | join sessions hstack hstep => exact h.step hk (hidle _) hstep
  | service m n hn hquiet sessions hstep => exact h.step hk (hidle _) hstep
  | notify o stack hstack resolvedProperly address sessions menu' hstep hmenu =>
    exact h.step hk (hidle _) hstep
  | notifyCall o stack hstack resolvedProperly address listening sessions menu' c hstep hmenu hcall =>
    exact (h.step hk (hidle _) hstep).step hk (idleFor_call k listening c) hcall

theorem Journeying.step (h : Journeying menu s) (hclick : ClickEnabled s m)
    (ht : MenuTransition s m s') : Journeying menu s' := by
  constructor
  . exact h.reached.menuStep ht
  . intro k hk
    exact ht.preserves (fun h hstep => h.step hk hstep) (h.asking k hk)
  . intro k hk
    have hne : k ≠ .destroy := by
      rcases hk with rfl | rfl <;> simp
    exact (h.telling k hk).menuStep hne (h.idleFor hk) ht
  . exact (settings_step ht).2.trans h.matchType
  . exact h.follows_step hclick ht

end Step

theorem journeying_menu (l : Launch) : Journeying l.menu.menu l.menu := by
  constructor
  . exact reached_initial l.subsystemName l.bSessionExists l.namesJoined
  . intro k _
    exact asking_initial k l.subsystemName l.bSessionExists l.namesJoined
  . intro k _
    exact telling_initial k l.subsystemName l.bSessionExists l.namesJoined
  . rfl
  . exact ⟨.ready, rfl, rfl, rfl, rfl⟩

/--
The searches, picks, failures and arrivals that the player sees are always a run of the journey, and
the `JoinButton` and what is under way are those of the phase it has reached.
-/
theorem follows_of_run (l : Launch) (ms : List MenuMove)
    (hclick : menuMachine.Along ClickEnabled l.menu ms)
    : menuMachine.Always
        (journey.Follows .ready (fun s => eventsOf (Event.journey l.menu.menu) s.sessions.log) Shows)
        l.menu ms := by
  apply Machine.always_of_along (G := ClickEnabled) (I := Journeying l.menu.menu)
  . intro s m s' h hclick hstep
    exact h.step hclick (menuTransition_of_step hstep)
  . exact Journeying.follows
  . exact journeying_menu l
  . exact hclick

-- Two sessions are found, the join of the first one is refused.
theorem follows_join_refused
    : menuMachine.Always
        (journey.Follows .ready
          (fun s => eventsOf
            (Event.journey
              (Launch.menu ⟨⟨true, true⟩, "NULL", false, true, 4, "FreeForAll", "/Game/Maps/Lobby"⟩).menu)
            s.sessions.log) Shows)
        (Launch.menu ⟨⟨true, true⟩, "NULL", false, true, 4, "FreeForAll", "/Game/Maps/Lobby"⟩)
        [.joinButtonClicked, .resume true "", .accept, .resume true "",
          .complete 0 (.find [⟨7, some "FreeForAll"⟩, ⟨8, some "FreeForAll"⟩] true), .resume true "",
          .resume true "", .resume true "", .resume true "", .refuse, .resume true "",
          .resume true "", .resume true "", .resume true ""] :=
  follows_of_run _ _ (by decide +kernel)

end Sessions
