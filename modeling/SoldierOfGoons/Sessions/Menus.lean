import SoldierOfGoons.Sessions.Menu

/-!
Any number of `UMenuUi` objects over the life of the subsystem. `MenuSetup` binds the menu to the
multicast delegates of the subsystem and nothing takes it off them again, so that a menu goes on
listening as long as the object is alive. The last binding is called first.

`supergoonSessionsSubsystem` says whether the pointer is set. What a `JoinSession` call makes of the
buttons and the travels of the other menus has no part in this: their answers do not depend on it.
-/

universe u

namespace Sessions

inductive Multicast where
  | onCreateSessionComplete
  | onFindSessionsComplete
  | onJoinSessionComplete
  | onDestroySessionComplete
  | onStartSessionComplete
  deriving DecidableEq, Repr

structure MenuObject extends Menu where
  alive : Bool
  supergoonSessionsSubsystem : Bool

structure Menus (M : Type u) where
  menu : M → MenuObject
  viewport : Option M
  bindings : Multicast → List M

namespace MenuObject

def constructed (surroundings : Surroundings) : MenuObject where
  toSurroundings := surroundings
  numPublicConnections := 4
  matchType := "FreeForAll"
  pathToLobby := ""
  hostButton := true
  joinButton := true
  serverTravels := []
  clientTravels := []
  alive := true
  supergoonSessionsSubsystem := false

-- Without a game instance the pointer to the subsystem stays as it is.
def menuSetup (publicConnections : Int) (matchType lobbyPath : String) (gameInstance : Bool)
    (menu : MenuObject) : MenuObject :=
  { menu with
    pathToLobby := lobbyPath ++ "?listen"
    numPublicConnections := publicConnections
    matchType := matchType
    supergoonSessionsSubsystem := menu.supergoonSessionsSubsystem || gameInstance }

def onFindSession (sessionResults : List SearchResult) (bWasSuccessful : Bool) (menu : MenuObject)
    : MenuObject × Option Call :=
  if menu.supergoonSessionsSubsystem then
    let (toMenu, call) := menu.toMenu.onFindSession sessionResults bWasSuccessful
    ({ menu with toMenu }, call)
  else
    (menu, none)

end MenuObject

namespace Menus

variable {M : Type u} [DecidableEq M]

def initial (surroundings : M → Surroundings) : Menus M where
  menu m := .constructed (surroundings m)
  viewport := none
  bindings _ := []

def setMenu (m : M) (menu : MenuObject) (s : Menus M) : Menus M :=
  { s with menu := Function.update s.menu m menu }

def menuSetup (publicConnections : Int) (matchType lobbyPath : String) (gameInstance : Bool) (m : M)
    (s : Menus M) : Menus M :=
  let menu := (s.menu m).menuSetup publicConnections matchType lobbyPath gameInstance
  { s.setMenu m menu with
    viewport := some m
    bindings := fun d =>
      if menu.supergoonSessionsSubsystem then s.bindings d ++ [m] else s.bindings d }

-- `RemoveFromParent`. The bindings stay.
def menuTeardown (m : M) (s : Menus M) : Menus M :=
  if s.viewport = some m then
    { s with viewport := none }
  else
    s

def onLevelRemovedFromWorld (m : M) (s : Menus M) : Menus M :=
  menuTeardown m s

def notify (sessionResults : List SearchResult) (bWasSuccessful : Bool)
    : List M → Menus M → Menus M × List Call
  | [], s => (s, [])
  | m :: ms, s =>
    if (s.menu m).alive then
      let (menu, call) := (s.menu m).onFindSession sessionResults bWasSuccessful
      let (s, calls) := notify sessionResults bWasSuccessful ms (s.setMenu m menu)
      (s, call.toList ++ calls)
    else
      notify sessionResults bWasSuccessful ms s

-- `MultiplayerOnFindSessionsComplete.Broadcast`, with the calls of the subsystem it makes.
def broadcastFindSessions (sessionResults : List SearchResult) (bWasSuccessful : Bool)
    (s : Menus M) : Menus M × List Call :=
  notify sessionResults bWasSuccessful (s.bindings .onFindSessionsComplete).reverse s

end Menus

inductive MenusMove (M : Type u) where
  | menuSetup (m : M) (publicConnections : Int) (matchType lobbyPath : String) (gameInstance : Bool)
  | onLevelRemovedFromWorld (m : M)
  -- The object is garbage.
  | collect (m : M)
  deriving DecidableEq, Repr

variable {M : Type u} [DecidableEq M]

def menusStep (s : Menus M) : MenusMove M → Option (Menus M)
  | .menuSetup m publicConnections matchType lobbyPath gameInstance =>
    if (s.menu m).alive ∧ (s.viewport = none ∨ s.viewport = some m) then
      some (s.menuSetup publicConnections matchType lobbyPath gameInstance m)
    else
      none
  | .onLevelRemovedFromWorld m =>
    if (s.menu m).alive then
      some (s.onLevelRemovedFromWorld m)
    else
      none
  | .collect m =>
    if s.viewport = some m then
      none
    else
      some (s.setMenu m { s.menu m with alive := false })

def menusMachine : Machine (Menus M) (MenusMove M) := ⟨menusStep⟩

namespace Menus

-- What the menu in the viewport should make of the results.
def answer (sessionResults : List SearchResult) (s : Menus M) : Option Call :=
  match s.viewport with
  | none => none
  | some m =>
    if (s.menu m).supergoonSessionsSubsystem then
      ((s.menu m).firstMatch sessionResults).map .joinSession
    else
      none

def AnswersOnce (s : Menus M) : Prop :=
  ∀ sessionResults bWasSuccessful,
    (s.broadcastFindSessions sessionResults bWasSuccessful).2 = (s.answer sessionResults).toList

def joins (sessionResults : List SearchResult) (s : Menus M) (m : M) : Option Call :=
  if (s.menu m).alive ∧ (s.menu m).supergoonSessionsSubsystem then
    ((s.menu m).firstMatch sessionResults).map .joinSession
  else
    none

section Notify

variable (sessionResults : List SearchResult) (bWasSuccessful : Bool)

omit [DecidableEq M] in
theorem joins_of_dead {s : Menus M} {m : M} (h : ¬(s.menu m).alive)
    : s.joins sessionResults m = none := by
  unfold joins
  rw [if_neg]
  rintro ⟨halive, _⟩
  exact h halive

omit [DecidableEq M] in
theorem call_onFindSession (s : Menus M) {m : M} (h : (s.menu m).alive)
    : ((s.menu m).onFindSession sessionResults bWasSuccessful).2 = s.joins sessionResults m := by
  unfold MenuObject.onFindSession joins
  cases hsubsystem : (s.menu m).supergoonSessionsSubsystem with
  | false => simp
  | true =>
    simp only [h, and_self, if_true, Menu.onFindSession]
    split
    . next r hmatch => rw [hmatch]; rfl
    . next hmatch =>
      rw [hmatch]
      split <;> rfl

theorem keeps_onFindSession (menu : MenuObject)
    : (menu.onFindSession sessionResults bWasSuccessful).1.alive = menu.alive ∧
        (menu.onFindSession sessionResults bWasSuccessful).1.supergoonSessionsSubsystem
          = menu.supergoonSessionsSubsystem ∧
        (menu.onFindSession sessionResults bWasSuccessful).1.matchType = menu.matchType := by
  unfold MenuObject.onFindSession
  split
  . refine ⟨rfl, rfl, ?_⟩
    simp only [Menu.onFindSession]
    split
    . rfl
    . split <;> rfl
  . exact ⟨rfl, rfl, rfl⟩

-- A notified menu keeps what it answers with.
theorem joins_notified (s : Menus M) (m : M)
    : (s.setMenu m ((s.menu m).onFindSession sessionResults bWasSuccessful).1).joins sessionResults
        =
      s.joins sessionResults := by
  obtain ⟨halive, hsubsystem, hmatchType⟩ :=
    keeps_onFindSession sessionResults bWasSuccessful (s.menu m)
  funext n
  unfold joins setMenu Menu.firstMatch
  by_cases hn : n = m
  . subst hn
    simp only [Function.update_self, halive, hsubsystem, hmatchType]
  . simp only [Function.update_of_ne hn]

theorem calls_notify (ms : List M) (s : Menus M)
    : (notify sessionResults bWasSuccessful ms s).2 = ms.filterMap (s.joins sessionResults) := by
  induction ms generalizing s with
  | nil => rfl
  | cons m ms ih =>
    unfold notify
    split
    . next halive =>
      simp only [ih, joins_notified]
      rw [call_onFindSession sessionResults bWasSuccessful s halive, List.filterMap_cons]
      cases s.joins sessionResults m <;> rfl
    . next hdead =>
      rw [ih, List.filterMap_cons, joins_of_dead sessionResults hdead]

end Notify

def listeners (s : Menus M) : List M :=
  s.bindings .onFindSessionsComplete

section MenuSetup

variable (publicConnections : Int) (matchType lobbyPath : String) (gameInstance : Bool) (m n : M)
  (s : Menus M)

theorem alive_menuSetup
    : ((s.menuSetup publicConnections matchType lobbyPath gameInstance m).menu n).alive
        =
      (s.menu n).alive := by
  by_cases hn : n = m
  . subst hn
    simp [menuSetup, setMenu, MenuObject.menuSetup]
  . simp [menuSetup, setMenu, hn]

theorem supergoonSessionsSubsystem_menuSetup
    : ((s.menuSetup publicConnections matchType lobbyPath gameInstance m).menu
          n).supergoonSessionsSubsystem
        =
      ((s.menu n).supergoonSessionsSubsystem || (n = m && gameInstance)) := by
  by_cases hn : n = m
  . subst hn
    simp [menuSetup, setMenu, MenuObject.menuSetup]
  . simp [menuSetup, setMenu, hn]

theorem listeners_menuSetup
    : (s.menuSetup publicConnections matchType lobbyPath gameInstance m).listeners
        =
      if (s.menu m).supergoonSessionsSubsystem || gameInstance then s.listeners ++ [m]
      else s.listeners := rfl

end MenuSetup

structure Listening (s : Menus M) : Prop where
  alive_of_viewport : ∀ m, s.viewport = some m → (s.menu m).alive
  subsystem_of_bound : ∀ m ∈ s.listeners, (s.menu m).supergoonSessionsSubsystem
  bound_of_viewport : ∀ m, s.viewport = some m → (s.menu m).supergoonSessionsSubsystem →
    m ∈ s.listeners

omit [DecidableEq M] in
theorem listening_initial (surroundings : M → Surroundings) : Listening (initial surroundings) := by
  constructor
  . intro m h
    cases h
  . intro m h
    cases h
  . intro m h
    cases h

theorem Listening.menuSetup {s : Menus M} (h : Listening s) {m : M} (halive : (s.menu m).alive)
    (publicConnections : Int) (matchType lobbyPath : String) (gameInstance : Bool)
    : Listening (s.menuSetup publicConnections matchType lobbyPath gameInstance m) := by
  constructor
  . intro n hn
    cases hn
    rwa [alive_menuSetup]
  . intro n hn
    rw [listeners_menuSetup] at hn
    rw [supergoonSessionsSubsystem_menuSetup]
    split at hn
    . next hfound =>
      rcases List.mem_append.mp hn with hn | hn
      . simp [h.subsystem_of_bound n hn]
      . rw [List.mem_singleton.mp hn]
        simpa using hfound
    . simp [h.subsystem_of_bound n hn]
  . intro n hn hsubsystem
    cases hn
    rw [supergoonSessionsSubsystem_menuSetup] at hsubsystem
    rw [listeners_menuSetup, if_pos (by simpa using hsubsystem)]
    simp

theorem Listening.menuTeardown {s : Menus M} (h : Listening s) (m : M)
    : Listening (s.menuTeardown m) := by
  unfold Menus.menuTeardown
  split
  . constructor
    . intro n hn
      cases hn
    . apply h.subsystem_of_bound
    . intro n hn
      cases hn
  . exact h

theorem Listening.collect {s : Menus M} (h : Listening s) {m : M} (hout : s.viewport ≠ some m)
    : Listening (s.setMenu m { s.menu m with alive := false }) := by
  have hkeeps (n : M) : ((s.setMenu m { s.menu m with alive := false }).menu n).supergoonSessionsSubsystem
      = (s.menu n).supergoonSessionsSubsystem := by
    by_cases hn : n = m
    . subst hn
      simp [setMenu]
    . simp [setMenu, hn]
  constructor
  . intro n hn
    have hne : n ≠ m := by
      rintro rfl
      apply hout hn
    simpa [setMenu, hne] using h.alive_of_viewport n hn
  . intro n hn
    rw [hkeeps]
    apply h.subsystem_of_bound n hn
  . intro n hn hsubsystem
    rw [hkeeps] at hsubsystem
    apply h.bound_of_viewport n hn hsubsystem

theorem Listening.step {s s' : Menus M} {mv : MenusMove M} (h : Listening s)
    (hstep : menusMachine.step s mv = some s') : Listening s' := by
  simp only [menusMachine] at hstep
  cases mv with
  | menuSetup m publicConnections matchType lobbyPath gameInstance =>
    simp only [menusStep, Option.ite_none_right_eq_some, Option.some.injEq] at hstep
    obtain ⟨⟨halive, _⟩, rfl⟩ := hstep
    apply h.menuSetup halive
  | onLevelRemovedFromWorld m =>
    simp only [menusStep, Option.ite_none_right_eq_some, Option.some.injEq] at hstep
    obtain ⟨_, rfl⟩ := hstep
    apply h.menuTeardown m
  | collect m =>
    simp only [menusStep, Option.ite_none_left_eq_some, Option.some.injEq] at hstep
    obtain ⟨hout, rfl⟩ := hstep
    apply h.collect hout

/-!
The history of a menu: the `MenuSetup` calls on it that find the subsystem, each of which binds it
once more.
-/

def setups (m : M) : Bool → List (MenusMove M) → Nat
  | _, [] => 0
  | found, .menuSetup n _ _ _ gameInstance :: mvs =>
    if n = m then
      (if found || gameInstance then 1 else 0) + setups m (found || gameInstance) mvs
    else
      setups m found mvs
  | found, .onLevelRemovedFromWorld _ :: mvs => setups m found mvs
  | found, .collect _ :: mvs => setups m found mvs

theorem setups_menuSetup (m n : M) (found : Bool) (publicConnections : Int)
    (matchType lobbyPath : String) (gameInstance : Bool) (mvs : List (MenusMove M))
    : setups m found (.menuSetup n publicConnections matchType lobbyPath gameInstance :: mvs)
        =
      if n = m then
        (if found || gameInstance then 1 else 0) + setups m (found || gameInstance) mvs
      else
        setups m found mvs := rfl

theorem count_step {s s' : Menus M} {mv : MenusMove M} (hstep : menusMachine.step s mv = some s')
    (m : M) (mvs : List (MenusMove M))
    : s'.listeners.count m + setups m (s'.menu m).supergoonSessionsSubsystem mvs
        =
      s.listeners.count m + setups m (s.menu m).supergoonSessionsSubsystem (mv :: mvs) := by
  simp only [menusMachine] at hstep
  cases mv with
  | menuSetup n publicConnections matchType lobbyPath gameInstance =>
    simp only [menusStep, Option.ite_none_right_eq_some, Option.some.injEq] at hstep
    obtain ⟨_, rfl⟩ := hstep
    rw [supergoonSessionsSubsystem_menuSetup, listeners_menuSetup, setups_menuSetup]
    by_cases hn : n = m
    . subst hn
      simp only [decide_true, Bool.true_and, if_true]
      split
      . simp only [List.count_append, List.count_singleton_self]
        omega
      . omega
    . have hne : ¬m = n := fun h => hn h.symm
      simp only [hne, decide_false, Bool.false_and, Bool.or_false, hn, if_false]
      split
      . simp [hn]
      . rfl
  | onLevelRemovedFromWorld n =>
    simp only [menusStep, Option.ite_none_right_eq_some, Option.some.injEq] at hstep
    obtain ⟨_, rfl⟩ := hstep
    unfold onLevelRemovedFromWorld menuTeardown
    split <;> rfl
  | collect n =>
    simp only [menusStep, Option.ite_none_left_eq_some, Option.some.injEq] at hstep
    obtain ⟨_, rfl⟩ := hstep
    by_cases hn : m = n
    . subst hn
      simp [setMenu, setups, listeners]
    . simp [setMenu, setups, listeners, hn]

theorem count_run {s s' : Menus M} {mvs : List (MenusMove M)}
    (hrun : menusMachine.run s mvs = some s') (m : M)
    : s'.listeners.count m
        =
      s.listeners.count m + setups m (s.menu m).supergoonSessionsSubsystem mvs := by
  induction mvs generalizing s with
  | nil =>
    simp only [Machine.run_nil, Option.some.injEq] at hrun
    simp [hrun, setups]
  | cons mv mvs ih =>
    obtain ⟨t, ht, hrest⟩ := menusMachine.run_cons.mp hrun
    rw [ih hrest, count_step ht]

theorem filterMap_eq_replicate {α β : Type*} [DecidableEq α] {f : α → Option β} {a : α} {l : List α}
    (h : ∀ b ∈ l, b ≠ a → f b = none)
    : l.filterMap f = (List.replicate (l.count a) a).filterMap f := by
  induction l with
  | nil => rfl
  | cons b l ih =>
    have ih := ih (fun c hc => h c (List.mem_cons_of_mem b hc))
    by_cases hb : b = a
    . subst hb
      rw [List.count_cons_self, List.replicate_succ, List.filterMap_cons, List.filterMap_cons, ih]
    . rw [List.count_cons_of_ne hb, List.filterMap_cons, h b List.mem_cons_self hb, ih]

-- Each object that is alive is bound once if it is in the viewport, and not at all otherwise.
def BoundOnce (s : Menus M) : Prop :=
  ∀ m, (s.menu m).alive → s.listeners.count m ≤ if s.viewport = some m then 1 else 0

theorem Listening.answersOnce {s : Menus M} (h : Listening s) (hbound : s.BoundOnce)
    : s.AnswersOnce := by
  intro sessionResults bWasSuccessful
  have hout (m : M) (hm : m ∈ s.listeners.reverse) (hviewport : s.viewport ≠ some m)
      : s.joins sessionResults m = none := by
    apply joins_of_dead
    intro halive
    have := hbound m halive
    rw [if_neg hviewport, Nat.le_zero, List.count_eq_zero] at this
    apply this (List.mem_reverse.mp hm)
  rw [broadcastFindSessions, calls_notify]
  unfold answer
  cases hviewport : s.viewport with
  | none =>
    apply List.filterMap_eq_nil_iff.mpr
    intro m hm
    apply hout m hm (by simp [hviewport])
  | some v =>
    have halive := h.alive_of_viewport v hviewport
    rw [filterMap_eq_replicate (a := v)]
    . simp only [List.count_reverse]
      cases hsubsystem : (s.menu v).supergoonSessionsSubsystem with
      | false =>
        have hzero : s.listeners.count v = 0 := by
          rw [List.count_eq_zero]
          intro hv
          simp [h.subsystem_of_bound v hv] at hsubsystem
        rw [← listeners, hzero]
        rfl
      | true =>
        have hone : s.listeners.count v = 1 := by
          have hle := hbound v halive
          have hpos := List.count_pos_iff.mpr (h.bound_of_viewport v hviewport hsubsystem)
          rw [if_pos hviewport] at hle
          omega
        rw [← listeners, hone]
        simp only [joins, halive, hsubsystem, and_self, if_true, List.replicate_one,
          List.filterMap_cons, List.filterMap_nil]
        cases (s.menu v).firstMatch sessionResults <;> rfl
    . intro m hm hne
      apply hout m hm
      simp [hviewport, Ne.symm hne]

-- The results that hold one session with the `MatchType` of `m`.
def probe (s : Menus M) (m : M) : List SearchResult :=
  [⟨0, some (s.menu m).matchType⟩]

omit [DecidableEq M] in
theorem firstMatch_probe (s : Menus M) (m : M) : ((s.menu m).firstMatch (s.probe m)).isSome := by
  simp [Menu.firstMatch, probe, equalsIgnoreCase]

omit [DecidableEq M] in
theorem Listening.joins_probe {s : Menus M} (h : Listening s) {m : M} (halive : (s.menu m).alive)
    (hm : m ∈ s.listeners) : (s.joins (s.probe m) m).isSome := by
  simp [joins, halive, h.subsystem_of_bound m hm, firstMatch_probe s m]

omit [DecidableEq M] in
theorem Listening.joins_of_answer {s : Menus M} (h : Listening s) {sessionResults : List SearchResult}
    (hanswer : (s.answer sessionResults).isSome)
    : ∃ v ∈ s.listeners, s.viewport = some v ∧ (s.joins sessionResults v).isSome := by
  unfold answer at hanswer
  split at hanswer
  . cases hanswer
  . next v hviewport =>
    split at hanswer
    . next hsubsystem =>
      refine ⟨v, h.bound_of_viewport v hviewport hsubsystem, hviewport, ?_⟩
      simpa [joins, h.alive_of_viewport v hviewport, hsubsystem] using hanswer
    . cases hanswer

theorem eq_of_length_le_one {α : Type*} {l : List α} (h : l.length ≤ 1) {a b : α} (ha : a ∈ l)
    (hb : b ∈ l) : a = b := by
  cases l with
  | nil => cases ha
  | cons c l =>
    have hnil : l = [] := by
      rw [List.length_cons] at h
      apply List.eq_nil_of_length_eq_zero (by omega)
    subst hnil
    rw [List.mem_singleton.mp ha, List.mem_singleton.mp hb]

theorem Listening.boundOnce {s : Menus M} (h : Listening s) (honce : s.AnswersOnce)
    : s.BoundOnce := by
  intro m halive
  have hcalls := honce (s.probe m) true
  rw [broadcastFindSessions, calls_notify, ← listeners] at hcalls
  let answers (n : M) : Bool := (s.joins (s.probe m) n).isSome
  have hlength : (s.listeners.filter answers).length ≤ 1 := by
    have := congrArg List.length hcalls
    rw [List.length_filterMap_eq_countP, List.countP_reverse, List.countP_eq_length_filter] at this
    rw [this]
    cases s.answer (s.probe m) <;> simp
  by_cases hm : m ∈ s.listeners
  . have hanswers : answers m = true := h.joins_probe halive hm
    have hcount : s.listeners.count m ≤ 1 := by
      calc s.listeners.count m = (s.listeners.filter answers).count m :=
            (List.count_filter hanswers).symm
        _ ≤ (s.listeners.filter answers).length := List.count_le_length
        _ ≤ 1 := hlength
    have hsome : (s.answer (s.probe m)).isSome := by
      by_contra hnone
      rw [Option.not_isSome_iff_eq_none.mp hnone, Option.toList_none,
        List.filterMap_eq_nil_iff] at hcalls
      have := hcalls m (List.mem_reverse.mpr hm)
      simp [answers, this] at hanswers
    obtain ⟨v, hv, hviewport, hjoins⟩ := h.joins_of_answer hsome
    have : v = m :=
      eq_of_length_le_one hlength (List.mem_filter.mpr ⟨hv, hjoins⟩)
        (List.mem_filter.mpr ⟨hm, hanswers⟩)
    rwa [if_pos (this ▸ hviewport)]
  . rw [List.count_eq_zero.mpr hm]
    apply Nat.zero_le

-- The same, told from the history.
def SetUpOnce (mvs : List (MenusMove M)) (s : Menus M) : Prop :=
  ∀ m, (s.menu m).alive → setups m false mvs ≤ if s.viewport = some m then 1 else 0

theorem answersOnce_iff_setUpOnce (surroundings : M → Surroundings) (mvs : List (MenusMove M))
    (s : Menus M) (hrun : menusMachine.run (initial surroundings) mvs = some s)
    : s.AnswersOnce ↔ SetUpOnce mvs s := by
  have h : Listening s :=
    Machine.run_invariant_of_step (fun h hstep => h.step hstep) (listening_initial surroundings) hrun
  have hiff : s.BoundOnce ↔ SetUpOnce mvs s := by
    have hcount (m : M) : s.listeners.count m = setups m false mvs := by
      rw [count_run hrun m]
      apply Nat.zero_add
    simp only [BoundOnce, SetUpOnce, hcount]
  rw [← hiff]
  exact ⟨h.boundOnce, h.answersOnce⟩

-- The menu of a level that is gone has been collected when the one of the next level is set up.
theorem answersOnce_second_menu
    : let mvs : List (MenusMove Bool) := [.menuSetup false 4 "FreeForAll" "/Game/Maps/Lobby" true,
        .onLevelRemovedFromWorld false, .collect false,
        .menuSetup true 2 "Teams" "/Game/Maps/Lobby" true]
      ∃ s, menusMachine.run (initial fun _ => ⟨true, true⟩) mvs = some s ∧ s.viewport = some true ∧
        s.AnswersOnce := by
  intro mvs
  refine ⟨_, rfl, rfl, (answersOnce_iff_setUpOnce (fun _ => ⟨true, true⟩) mvs _ rfl).mpr ?_⟩
  intro m
  cases m <;> decide

-- A menu whose level is gone joins along with the menu of the next level.
theorem not_answersOnce
    : ¬∀ (M : Type) [DecidableEq M] (surroundings : M → Surroundings) (mvs : List (MenusMove M))
        (s : Menus M), menusMachine.run (initial surroundings) mvs = some s → s.AnswersOnce := by
  intro h
  have honce := h Bool (fun _ => ⟨true, true⟩)
    [.menuSetup false 4 "FreeForAll" "/Game/Maps/Lobby" true, .onLevelRemovedFromWorld false,
      .menuSetup true 4 "FreeForAll" "/Game/Maps/Lobby" true] _ rfl
    [⟨0, some "FreeForAll"⟩] true
  have hlength := congrArg List.length honce
  revert hlength
  decide +kernel

end Menus

end Sessions
