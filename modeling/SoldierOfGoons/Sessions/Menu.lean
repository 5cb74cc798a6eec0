import SoldierOfGoons.Sessions.Registration

/-!
`UMenuUi` on which `MenuSetup` was called once, on top of the subsystem: its buttons call the
subsystem, and it is the only listener of the broadcasts. The surroundings say whether `GetWorld()`
and `GetFirstLocalPlayerController()` are not null, `hostButton` and `joinButton` whether the buttons
are enabled. The travels are the calls of `ServerTravel` and of `ClientTravel`, the latter with
whether `GetResolvedConnectString` had resolved the address.
-/

namespace Sessions

structure Surroundings where
  world : Bool
  playerController : Bool

structure Menu extends Surroundings where
  numPublicConnections : Int
  matchType : String
  pathToLobby : String
  hostButton : Bool
  joinButton : Bool
  serverTravels : List String
  clientTravels : List (Bool × String)

def menuSetup (surroundings : Surroundings) (publicConnections : Int) (matchType lobbyPath : String)
    : Menu where
  toSurroundings := surroundings
  numPublicConnections := publicConnections
  matchType := matchType
  pathToLobby := lobbyPath ++ "?listen"
  hostButton := true
  joinButton := true
  serverTravels := []
  clientTravels := []

-- `FString` compares without regard to the case of ASCII letters.
def equalsIgnoreCase (a b : String) : Bool :=
  a.toLower == b.toLower

namespace Menu

def onCreateSession (bWasSuccessful : Bool) (menu : Menu) : Menu :=
  if bWasSuccessful then
    if menu.world then
      { menu with serverTravels := menu.serverTravels ++ [menu.pathToLobby] }
    else
      menu
  else
    { menu with hostButton := true }

-- The search result that the loop of `OnFindSession` joins. A missing entry reads as "".
def firstMatch (sessionResults : List SearchResult) (menu : Menu) : Option SearchResult :=
  sessionResults.find? fun r => equalsIgnoreCase (r.matchType.getD "") menu.matchType

def onFindSession (sessionResults : List SearchResult) (bWasSuccessful : Bool) (menu : Menu)
    : Menu × Option Call :=
  match menu.firstMatch sessionResults with
  | some r => (menu, some (.joinSession r))
  | none =>
    if !bWasSuccessful || sessionResults.length = 0 then
      ({ menu with joinButton := true }, none)
    else
      (menu, none)

-- `resolvedProperly` is assigned in the source and never read.
def onJoinSession (result : JoinResult) (sessionInterface resolvedProperly : Bool)
    (address : String) (menu : Menu) : Menu :=
  let menu := if sessionInterface && menu.playerController then
      { menu with clientTravels := menu.clientTravels ++ [(resolvedProperly, address)] }
    else
      menu
  if result ≠ .success then
    { menu with joinButton := true }
  else
    menu

def handle (o : Outcome) (sessionInterface resolvedProperly : Bool) (address : String)
    (menu : Menu) : Menu × Option Call :=
  match o with
  | .create bWasSuccessful => (menu.onCreateSession bWasSuccessful, none)
  | .find sessionResults bWasSuccessful => menu.onFindSession sessionResults bWasSuccessful
  | .join result =>
    (menu.onJoinSession result sessionInterface resolvedProperly address, none)
  | .destroy _ => (menu, none)

theorem settings_handle (o : Outcome) (sessionInterface resolvedProperly : Bool)
    (address : String) (menu : Menu)
    : (menu.handle o sessionInterface resolvedProperly address).1.toSurroundings
          = menu.toSurroundings ∧
        (menu.handle o sessionInterface resolvedProperly address).1.matchType = menu.matchType := by
  cases o with
  | create ok =>
    simp only [handle, onCreateSession]
    split
    . split <;> exact ⟨rfl, rfl⟩
    . exact ⟨rfl, rfl⟩
  | find results ok =>
    simp only [handle, onFindSession]
    split
    . exact ⟨rfl, rfl⟩
    . split <;> exact ⟨rfl, rfl⟩
  | join result =>
    simp only [handle, onJoinSession]
    split <;> split <;> exact ⟨rfl, rfl⟩
  | destroy ok => exact ⟨rfl, rfl⟩

end Menu

structure MenuState where
  sessions : State
  menu : Menu

inductive MenuMove where
  | hostButtonClicked
  | joinButtonClicked
  | complete (i : Nat) (o : Outcome)
  | refuse
  | accept
  -- The arguments are what `GetResolvedConnectString` yields, should `OnJoinSession` ask for it.
  | resume (resolvedProperly : Bool) (address : String)
  deriving DecidableEq, Repr

def hostButtonClicked (s : MenuState) : Option MenuState :=
  if s.sessions.stack = [] then
    (step s.sessions (.call (.createSession s.menu.numPublicConnections s.menu.matchType))).map
      fun sessions => ⟨sessions, { s.menu with hostButton := false }⟩
  else
    none

def joinButtonClicked (s : MenuState) : Option MenuState :=
  if s.sessions.stack = [] then
    (step s.sessions (.call (.findSessions 10000))).map
      fun sessions => ⟨sessions, { s.menu with joinButton := false }⟩
  else
    none

def notify (o : Outcome) (resolvedProperly : Bool) (address : String) (s : MenuState)
    : Option MenuState :=
  (step s.sessions .resume).bind fun sessions =>
    match s.menu.handle o sessions.sessionInterface resolvedProperly address with
    | (menu, some c) => (step sessions (.call c)).map fun sessions => ⟨sessions, menu⟩
    | (menu, none) => some ⟨sessions, menu⟩

def menuStep (s : MenuState) : MenuMove → Option MenuState
  | .hostButtonClicked => hostButtonClicked s
  | .joinButtonClicked => joinButtonClicked s
  | .complete i o => (step s.sessions (.complete i o)).map fun sessions => { s with sessions }
  | .refuse => (step s.sessions .refuse).map fun sessions => { s with sessions }
  | .accept => (step s.sessions .accept).map fun sessions => { s with sessions }
  | .resume resolvedProperly address =>
    match s.sessions.stack with
    | .broadcast o :: _ => notify o resolvedProperly address s
    | _ => (step s.sessions .resume).map fun sessions => { s with sessions }

def menuMachine : Machine MenuState MenuMove := ⟨menuStep⟩

def menuInitial (subsystemName : String) (bSessionExists namesJoined : Bool) (menu : Menu)
    : MenuState where
  sessions := initial subsystemName bSessionExists namesJoined
  menu := menu

def MenuMove.move : MenuMove → Option Move
  | .hostButtonClicked => none
  | .joinButtonClicked => none
  | .complete i o => some (.complete i o)
  | .refuse => some .refuse
  | .accept => some .accept
  | .resume _ _ => some .resume

inductive MenuTransition (s : MenuState) : MenuMove → MenuState → Prop where
  | host (sessions : State) (hstack : s.sessions.stack = [])
      (hstep : machine.step s.sessions
        (.call (.createSession s.menu.numPublicConnections s.menu.matchType)) = some sessions)
    : MenuTransition s .hostButtonClicked ⟨sessions, { s.menu with hostButton := false }⟩
  | join (sessions : State) (hstack : s.sessions.stack = [])
      (hstep : machine.step s.sessions (.call (.findSessions 10000)) = some sessions)
    : MenuTransition s .joinButtonClicked ⟨sessions, { s.menu with joinButton := false }⟩
  | service (m : MenuMove) (n : Move) (hn : m.move = some n)
      (hquiet : n = .resume → ∀ o stack, s.sessions.stack ≠ .broadcast o :: stack)
      (sessions : State) (hstep : machine.step s.sessions n = some sessions)
    : MenuTransition s m ⟨sessions, s.menu⟩
  | notify (o : Outcome) (stack : List Frame) (hstack : s.sessions.stack = .broadcast o :: stack)
      (resolvedProperly : Bool) (address : String) (sessions : State) (menu : Menu)
      (hstep : machine.step s.sessions .resume = some sessions)
      (hmenu : s.menu.handle o sessions.sessionInterface resolvedProperly address = (menu, none))
    : MenuTransition s (.resume resolvedProperly address) ⟨sessions, menu⟩
  | notifyCall (o : Outcome) (stack : List Frame) (hstack : s.sessions.stack = .broadcast o :: stack)
      (resolvedProperly : Bool) (address : String) (listening sessions : State) (menu : Menu)
      (c : Call) (hstep : machine.step s.sessions .resume = some listening)
      (hmenu : s.menu.handle o listening.sessionInterface resolvedProperly address = (menu, some c))
      (hcall : machine.step listening (.call c) = some sessions)
    : MenuTransition s (.resume resolvedProperly address) ⟨sessions, menu⟩

theorem menuTransition_of_step {s s' : MenuState} {m : MenuMove} (h : menuMachine.step s m = some s')
    : MenuTransition s m s' := by
  simp only [menuMachine] at h
  cases m with
  | hostButtonClicked =>
    simp only [menuStep, hostButtonClicked, Option.ite_none_right_eq_some, Option.map_eq_some_iff] at h
    obtain ⟨hstack, sessions, hstep, rfl⟩ := h
    exact .host sessions hstack hstep
  | joinButtonClicked =>
    simp only [menuStep, joinButtonClicked, Option.ite_none_right_eq_some, Option.map_eq_some_iff] at h
    obtain ⟨hstack, sessions, hstep, rfl⟩ := h
    exact .join sessions hstack hstep
  | complete i o =>
    simp only [menuStep, Option.map_eq_some_iff] at h
    obtain ⟨sessions, hstep, rfl⟩ := h
    exact .service _ (.complete i o) rfl (by simp) sessions hstep
  | refuse =>
    simp only [menuStep, Option.map_eq_some_iff] at h
    obtain ⟨sessions, hstep, rfl⟩ := h
    exact .service _ .refuse rfl (by simp) sessions hstep
  | accept =>
    simp only [menuStep, Option.map_eq_some_iff] at h
    obtain ⟨sessions, hstep, rfl⟩ := h
    exact .service _ .accept rfl (by simp) sessions hstep
  | resume resolvedProperly address =>
    simp only [menuStep] at h
    split at h
    . next o stack hstack =>
      simp only [notify, Option.bind_eq_some_iff] at h
      obtain ⟨listening, hstep, h⟩ := h
      split at h
      . next menu c hmenu =>
        simp only [Option.map_eq_some_iff] at h
        obtain ⟨sessions, hcall, rfl⟩ := h
        exact .notifyCall o stack hstack resolvedProperly address listening sessions menu c hstep
          hmenu hcall
      . next menu hmenu =>
        cases h
        exact .notify o stack hstack resolvedProperly address listening menu hstep hmenu
    . next hquiet =>
      simp only [Option.map_eq_some_iff] at h
      obtain ⟨sessions, hstep, rfl⟩ := h
      exact .service _ .resume rfl (fun _ => hquiet) sessions hstep

theorem call_ne_of_move {m : MenuMove} {n : Move} (hn : m.move = some n) (c : Call)
    : n ≠ .call c := by
  rintro rfl
  cases m <;> cases hn

theorem settings_step {s s' : MenuState} {m : MenuMove} (ht : MenuTransition s m s')
    : s'.menu.toSurroundings = s.menu.toSurroundings ∧ s'.menu.matchType = s.menu.matchType := by
  cases ht with
  | notify o stack hstack resolvedProperly address sessions menu hstep hmenu =>
    have := Menu.settings_handle o sessions.sessionInterface resolvedProperly address s.menu
    rwa [hmenu] at this
  | notifyCall o stack hstack resolvedProperly address listening sessions menu c hstep hmenu hcall =>
    have := Menu.settings_handle o listening.sessionInterface resolvedProperly address s.menu
    rwa [hmenu] at this
  | _ => exact ⟨rfl, rfl⟩

theorem Reached.menuStep {s s' : MenuState} {m : MenuMove} (h : Reached s.sessions)
    (ht : MenuTransition s m s') : Reached s'.sessions := by
  cases ht with
  | host sessions hstack hstep => exact h.step hstep
  | join sessions hstack hstep => exact h.step hstep
  | service m n hn hquiet sessions hstep => exact h.step hstep
  | notify o stack hstack resolvedProperly address sessions menu hstep hmenu => exact h.step hstep
  | notifyCall o stack hstack resolvedProperly address listening sessions menu c hstep hmenu hcall =>
    exact (h.step hstep).step hcall

end Sessions
