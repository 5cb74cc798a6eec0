import SoldierOfGoons.Sessions.Forwarding
import SoldierOfGoons.Sessions.ClientTravel
import SoldierOfGoons.Sessions.Unlocking

/-!
Where requests come from. Whatever the subsystem asks the service for, somebody has called it for
before, with the same arguments; the create requests of `OnDestroySessionComplete` are no exception,
and neither are the destroy requests with which `CreateSession` replaces a session. A menu calls with
its own settings only, so these are what its requests carry.
-/

namespace Sessions

def Caused (log : List Event) (c : Call) : Prop :=
  .called c ∈ log ∨ c = .destroySession ∧ ∃ n t, .called (.createSession n t) ∈ log

theorem Caused.cons {log : List Event} {c : Call} (h : Caused log c) (e : Event)
    : Caused (e :: log) c := by
  rcases h with h | ⟨hc, n, t, h⟩
  . exact Or.inl (List.mem_cons_of_mem e h)
  . exact Or.inr ⟨hc, n, t, List.mem_cons_of_mem e h⟩

structure Owned (s : State) : Prop where
  valid : s.sessionInterface = true
  stack : ∀ f ∈ s.stack, ∀ c ∈ f.asks, Caused s.log c
  armed : s.bCreateSessionOnDestroy = true →
    Caused s.log (.createSession s.lastNumPublicConnections s.lastMatchType)
  log : ∀ later r b earlier, s.log = later ++ .requested r b :: earlier →
    r.Built s.subsystemName ∧ Caused earlier r.asks

theorem owned_initial (subsystemName : String) (bSessionExists namesJoined : Bool)
    : Owned (initial subsystemName bSessionExists namesJoined) := by
  constructor <;> simp [initial]

theorem caused_createSession {log : List Event} {n : Int} {t : String}
    (h : Caused log (.createSession n t)) : Caused log .destroySession := by
  rcases h with h | ⟨hc, _⟩
  . exact Or.inr ⟨rfl, n, t, h⟩
  . cases hc

theorem Transition.subsystemName_eq {s s' : State} {m : Move} (h : Transition s m s')
    : s'.subsystemName = s.subsystemName := by
  cases h <;> rfl

section Step

variable {s s' : State} {m : Move}

theorem Owned.of_log (h : Owned s) {e : Event}
    (hlog : s'.log = e :: s.log ∨ s'.log = s.log) (hname : s'.subsystemName = s.subsystemName)
    (he : ∀ r b, e = .requested r b → s'.log = e :: s.log →
      r.Built s.subsystemName ∧ Caused s.log r.asks)
    : ∀ later r b earlier, s'.log = later ++ .requested r b :: earlier →
        r.Built s'.subsystemName ∧ Caused earlier r.asks := by
  intro later r b earlier hsplit
  rw [hname]
  rcases hlog with hlog | hlog
  . cases later with
    | nil =>
      have heq := hlog.symm.trans hsplit
      simp only [List.nil_append, List.cons.injEq] at heq
      obtain ⟨rfl, rfl⟩ := heq
      exact he r b rfl hlog
    | cons e' later =>
      have heq := hlog.symm.trans hsplit
      simp only [List.cons_append, List.cons.injEq] at heq
      exact h.log later r b earlier heq.2
  . exact h.log later r b earlier (hlog.symm.trans hsplit)

theorem Owned.of_stack (h : Owned s) {f : Frame} {stack : List Frame} (hstack : s.stack = f :: stack)
    (fs : List Frame) (hstack' : s'.stack = fs ++ stack)
    (hfs : ∀ g ∈ fs, g.asks = none ∨ g.asks = f.asks)
    (hlog : (∃ o, s'.log = .broadcast o :: s.log) ∨ s'.log = s.log)
    (hflag : s'.bCreateSessionOnDestroy = s.bCreateSessionOnDestroy)
    (hlast : s'.lastNumPublicConnections = s.lastNumPublicConnections ∧
      s'.lastMatchType = s.lastMatchType)
    (hvalid : s'.sessionInterface = true) (hname : s'.subsystemName = s.subsystemName)
    : Owned s' := by
  have hcaused {c : Call} (hc : Caused s.log c) : Caused s'.log c := by
    rcases hlog with ⟨o, hlog⟩ | hlog
    . rw [hlog]
      exact hc.cons _
    . rwa [hlog]
  constructor
  . exact hvalid
  . intro g hg c hc
    apply hcaused
    rw [hstack'] at hg
    rcases List.mem_append.mp hg with hg | hg
    . apply h.stack f (by simp [hstack])
      rcases hfs g hg with hnone | heq
      . rw [hnone] at hc
        cases hc
      . rwa [heq] at hc
    . exact h.stack g (by simp [hstack, hg]) c hc
  . intro hset
    rw [hlast.1, hlast.2]
    exact hcaused (h.armed (hflag ▸ hset))
  . rcases hlog with ⟨o, hlog⟩ | hlog
    . apply h.of_log (Or.inl hlog) hname
      rintro r b ⟨⟩
    . rw [hname, hlog]
      exact h.log

theorem Owned.step (h : Owned s) (hstep : machine.step s m = some s') : Owned s' := by
  have ht := transition_of_step h.valid hstep
  have hname := ht.subsystemName_eq
  have hvalid := sessionInterface_step h.valid hstep
  have htop {f : Frame} {stack : List Frame} (hstack : s.stack = f :: stack) {c : Call}
      (hc : f.asks = some c) : Caused s.log c := by
    apply h.stack f _ c hc
    rw [hstack]
    exact List.mem_cons_self
  have hrest {f : Frame} {stack : List Frame} (hstack : s.stack = f :: stack)
      : ∀ f' ∈ stack, ∀ c ∈ f'.asks, Caused s.log c := by
    intro f' hf'
    apply h.stack
    rw [hstack]
    exact List.mem_cons_of_mem f hf'
  cases ht with
  | call c hturn =>
    constructor
    . exact hvalid
    . intro f hf c' hc'
      rcases List.mem_cons.mp hf with rfl | hf
      . simp only [asks_frame, Option.mem_def, Option.some.injEq] at hc'
        subst hc'
        exact Or.inl List.mem_cons_self
      . exact (h.stack f hf c' hc').cons _
    . intro hflag
      exact (h.armed hflag).cons _
    . apply h.of_log (Or.inl rfl) hname
      rintro r b ⟨⟩
  | complete i p o hturn hp =>
    constructor
    . exact hvalid
    . intro f hf c hc
      rcases List.mem_cons.mp hf with rfl | hf
      . cases hc
      . exact (h.stack f hf c hc).cons _
    . intro hflag
      exact (h.armed hflag).cons _
    . apply h.of_log (Or.inl rfl) hname
      rintro r b ⟨⟩
  | replace n t stack hstack hsession =>
    have hcall := htop hstack rfl
    constructor
    . exact hvalid
    . intro f hf c hc
      rcases List.mem_cons.mp hf with rfl | hf
      . cases hc
        exact caused_createSession hcall
      rcases List.mem_cons.mp hf with rfl | hf
      . cases hc
        exact hcall
      . exact hrest hstack f hf c hc
    . intro _
      exact hcall
    . exact h.log
  | register f r stack hstack hf hcreate settings search nextId =>
    obtain ⟨r', _, hasks, hbuilt, hlog, _⟩ := registered h.valid hstack hf hstep
    simp only [List.cons.injEq, Event.requested.injEq, and_true] at hlog
    subst hlog
    constructor
    . exact hvalid
    . intro f' hf' c hc
      rcases List.mem_cons.mp hf' with rfl | hf'
      . cases hc
      . exact (hrest hstack f' hf' c hc).cons _
    . intro hflag
      exact (h.armed hflag).cons _
    . apply h.of_log (Or.inl rfl) hname
      rintro r' b ⟨⟩ _
      exact ⟨hbuilt, htop hstack hasks⟩
  | recreate handle handles stack hstack hflag =>
    constructor
    . exact hvalid
    . intro f hf c hc
      rcases List.mem_cons.mp hf with rfl | hf
      . cases hc
        exact h.armed hflag
      rcases List.mem_cons.mp hf with rfl | hf
      . cases hc
      rcases List.mem_cons.mp hf with rfl | hf
      . cases hc
      . exact hrest hstack f hf c hc
    . rintro ⟨⟩
    . exact h.log
  | refuse r b stack hstack =>
    exact h.of_stack hstack [.broadcast r.refusal] rfl (by simp [Frame.asks]) (Or.inr rfl) rfl
      ⟨rfl, rfl⟩ hvalid hname
  | accept r b stack hstack hsession =>
    exact h.of_stack hstack [.serving] rfl (by simp [Frame.asks]) (Or.inr rfl) rfl ⟨rfl, rfl⟩ hvalid
      hname
  | create n t stack hstack hsession =>
    exact h.of_stack hstack [.createSessionRest n t] rfl (by simp [Frame.asks]) (Or.inr rfl) rfl
      ⟨rfl, rfl⟩ hvalid hname
  | join r stack hstack =>
    exact h.of_stack hstack [.joinSessionRest r] rfl (by simp [Frame.asks]) (Or.inr rfl) rfl
      ⟨rfl, rfl⟩ hvalid hname
  | callback o handle handles stack hstack hflag =>
    exact h.of_stack hstack [.broadcast (o.announced s), .completing o handles] rfl
      (by simp [Frame.asks]) (Or.inr rfl) rfl ⟨rfl, rfl⟩ hvalid hname
  | broadcast o stack hstack =>
    exact h.of_stack hstack [.listeners o] rfl (by simp [Frame.asks]) (Or.inl ⟨o, rfl⟩) rfl
      ⟨rfl, rfl⟩ hvalid hname
  | pop f stack hstack hf =>
    exact h.of_stack hstack [] rfl (by simp) (Or.inr rfl) rfl ⟨rfl, rfl⟩ hvalid hname

end Step

/--
Every request was called for before it was made, with the arguments that it carries; and beside these
it carries what the subsystem puts into every request of its kind.
-/
def Sourced (subsystemName : String) (s : State) : Prop :=
  ∀ later r b earlier, s.log = later ++ .requested r b :: earlier →
    r.Built subsystemName ∧ Caused earlier r.asks

theorem sourced_of_run (subsystemName : String) (bSessionExists namesJoined : Bool) (ms : List Move)
    : machine.Always (Sourced subsystemName) (initial subsystemName bSessionExists namesJoined)
        ms := by
  apply Machine.always_of_along (G := fun _ _ => True)
    (I := fun s => Owned s ∧ s.subsystemName = subsystemName)
  . rintro s m s' ⟨h, hname⟩ _ hstep
    exact ⟨h.step hstep, (transition_of_step h.valid hstep).subsystemName_eq.trans hname⟩
  . rintro s ⟨h, rfl⟩
    exact h.log
  . exact ⟨owned_initial subsystemName bSessionExists namesJoined, rfl⟩
  . exact machine.along_true _ ms

/-!
A menu on top of the subsystem.
-/

def Call.OfMenu (menu : Menu) : Call → Prop
  | .createSession n t => n = menu.numPublicConnections ∧ t = menu.matchType
  | .findSessions m => m = 10000
  | .joinSession r => menu.Matches r
  | .destroySession => False

def Request.OfMenu (subsystemName : String) (menu : Menu) : Request → Prop
  | .create settings =>
    settings = sessionSettings subsystemName menu.numPublicConnections menu.matchType
  | .find search =>
    search.maxSearchResults = 10000 ∧ search.bIsLanQuery = (subsystemName == "NULL")
  | .join r => menu.Matches r
  | .destroy => True

theorem Request.ofMenu_of_caused {subsystemName : String} {menu : Menu} {log : List Event}
    {r : Request} (hbuilt : r.Built subsystemName) (hcaused : Caused log r.asks)
    (hlog : ∀ c, .called c ∈ log → c.OfMenu menu) : r.OfMenu subsystemName menu := by
  rcases hcaused with hcalled | ⟨hdestroy, _⟩
  . have hc := hlog r.asks hcalled
    cases r with
    | create settings =>
      obtain ⟨n, t, rfl⟩ := hbuilt
      obtain ⟨hn, ht⟩ := hc
      simp only [sessionSettings, Option.getD_some] at hn ht
      simp only [Request.OfMenu, hn, ht]
    | find search => exact ⟨hc, hbuilt.1⟩
    | join r => exact hc
    | destroy => trivial
  . cases r with
    | destroy => trivial
    | _ => cases hdestroy

structure Menu.SameSettings (menu menu' : Menu) : Prop where
  numPublicConnections : menu'.numPublicConnections = menu.numPublicConnections
  matchType : menu'.matchType = menu.matchType

-- All that an answer changes of a menu.
theorem Menu.handle_eq {o : Outcome} {sessionInterface resolvedProperly : Bool}
    {address : String} {menu menu' : Menu} {call : Option Call}
    (h : menu.handle o sessionInterface resolvedProperly address = (menu', call))
    : ∃ hostButton joinButton serverTravels clientTravels,
        menu' = { menu with hostButton, joinButton, serverTravels, clientTravels } := by
  cases o with
  | create ok =>
    simp only [handle, onCreateSession, Prod.mk.injEq] at h
    obtain ⟨rfl, _⟩ := h
    split
    . split <;> exact ⟨_, _, _, _, rfl⟩
    . exact ⟨_, _, _, _, rfl⟩
  | find results ok =>
    simp only [handle, onFindSession] at h
    split at h
    . cases h
      exact ⟨_, _, _, _, rfl⟩
    . split at h <;> cases h <;> exact ⟨_, _, _, _, rfl⟩
  | join result =>
    simp only [handle, onJoinSession, Prod.mk.injEq] at h
    obtain ⟨rfl, _⟩ := h
    split <;> split <;> exact ⟨_, _, _, _, rfl⟩
  | destroy ok =>
    cases h
    exact ⟨_, _, _, _, rfl⟩

theorem Menu.sameSettings_handle {o : Outcome} {sessionInterface resolvedProperly : Bool}
    {address : String} {menu menu' : Menu} {call : Option Call}
    (h : menu.handle o sessionInterface resolvedProperly address = (menu', call))
    : menu.SameSettings menu' := by
  obtain ⟨_, _, _, _, rfl⟩ := Menu.handle_eq h
  exact ⟨rfl, rfl⟩

section MenuStep

variable {menu : Menu} {s s' : MenuState} {m : MenuMove}

theorem MenuTransition.preserves {I : State → Prop}
    (hI : ∀ {t n t'}, I t → machine.step t n = some t' → I t') (h : I s.sessions)
    (ht : MenuTransition s m s') : I s'.sessions := by
  cases ht with
  | host sessions hstack hstep => exact hI h hstep
  | join sessions hstack hstep => exact hI h hstep
  | service m n hn hquiet sessions hstep => exact hI h hstep
  | notify o stack hstack resolvedProperly address sessions menu' hstep hmenu => exact hI h hstep
  | notifyCall o stack hstack resolvedProperly address listening sessions menu' c hstep hmenu hcall =>
    exact hI (hI h hstep) hcall

structure Calling (menu : Menu) (s : MenuState) : Prop where
  settings : menu.SameSettings s.menu
  log : ∀ c, .called c ∈ s.sessions.log → c.OfMenu menu

theorem called_service {t t' : State} {n : Move} (ht : Transition t n t') (hcall : ∀ c, n ≠ .call c)
    {c : Call} (hc : .called c ∈ t'.log) : .called c ∈ t.log := by
  rcases logs_of_mem ht hc with hc | hlogs
  . exact hc
  . cases hlogs
    exact absurd rfl (hcall c)

theorem called_call {t t' : State} {c : Call} (hstep : machine.step t (.call c) = some t')
    : t'.log = .called c :: t.log := by
  simp only [machine, step, Option.ite_none_right_eq_some, Option.some.injEq] at hstep
  obtain ⟨_, rfl⟩ := hstep
  rfl

theorem Calling.call {c : Call} {t t' : State} (h : ∀ c, .called c ∈ t.log → c.OfMenu menu)
    (hstep : machine.step t (.call c) = some t') (hc : c.OfMenu menu)
    : ∀ c, .called c ∈ t'.log → c.OfMenu menu := by
  rw [called_call hstep]
  intro c' hc'
  rcases List.mem_cons.mp hc' with heq | hc'
  . cases heq
    exact hc
  . exact h c' hc'

theorem Menu.SameSettings.trans {menu' menu'' : Menu} (h : menu.SameSettings menu')
    (h' : menu'.SameSettings menu'') : menu.SameSettings menu'' :=
  ⟨h'.numPublicConnections.trans h.numPublicConnections, h'.matchType.trans h.matchType⟩

theorem Calling.step (h : Calling menu s) (hreached : Reached s.sessions)
    (ht : MenuTransition s m s') : Calling menu s' := by
  cases ht with
  | host sessions hstack hstep =>
    obtain ⟨hconnections, hmatch⟩ := h.settings
    exact ⟨⟨hconnections, hmatch⟩, Calling.call h.log hstep ⟨hconnections, hmatch⟩⟩
  | join sessions hstack hstep =>
    obtain ⟨hconnections, hmatch⟩ := h.settings
    exact ⟨⟨hconnections, hmatch⟩, Calling.call h.log hstep rfl⟩
  | service m n hn hquiet sessions hstep =>
    exact ⟨h.settings,
      fun c hc => h.log c (called_service (hreached.transition hstep) (call_ne_of_move hn) hc)⟩
  | notify o stack hstack resolvedProperly address sessions menu' hstep hmenu =>
    exact ⟨h.settings.trans (Menu.sameSettings_handle hmenu),
      fun c hc => h.log c (called_service (hreached.transition hstep) (by simp) hc)⟩
  | notifyCall o stack hstack resolvedProperly address listening sessions menu' c hstep hmenu hcall =>
    refine ⟨h.settings.trans (Menu.sameSettings_handle hmenu), Calling.call ?_ hcall ?_⟩
    . exact fun c hc => h.log c (called_service (hreached.transition hstep) (by simp) hc)
    . obtain ⟨_, _, r, rfl⟩ := Menu.call_handle (congrArg Prod.snd hmenu)
      have hmatches := Menu.matches_handle hmenu
      unfold Menu.Matches at hmatches
      rw [h.settings.matchType] at hmatches
      exact hmatches

end MenuStep

structure Launched (l : Launch) (s : MenuState) : Prop where
  reached : Reached s.sessions
  calling : Calling l.menu.menu s
  owned : Owned s.sessions
  subsystemName : s.sessions.subsystemName = l.subsystemName

theorem launched_menu (l : Launch) : Launched l l.menu := by
  refine ⟨reached_initial l.subsystemName l.bSessionExists l.namesJoined, ⟨⟨rfl, rfl⟩, ?_⟩,
    owned_initial l.subsystemName l.bSessionExists l.namesJoined, rfl⟩
  rintro c ⟨⟩

theorem Launched.step {l : Launch} {s s' : MenuState} {m : MenuMove} (h : Launched l s)
    (hstep : menuMachine.step s m = some s') : Launched l s' := by
  have ht := menuTransition_of_step hstep
  have howned : Owned s'.sessions ∧ s'.sessions.subsystemName = l.subsystemName := by
    apply ht.preserves (I := fun t => Owned t ∧ t.subsystemName = l.subsystemName) ?_
      ⟨h.owned, h.subsystemName⟩
    rintro t n t' ⟨h, hname⟩ hstep
    exact ⟨h.step hstep, (transition_of_step h.valid hstep).subsystemName_eq.trans hname⟩
  exact ⟨h.reached.menuStep ht, h.calling.step h.reached ht, howned.1, howned.2⟩

theorem Launched.ofMenu {l : Launch} {s : MenuState} (h : Launched l s) {r : Request} {b : Bool}
    (hlog : .requested r b ∈ s.sessions.log) : r.OfMenu l.subsystemName l.menu.menu := by
  obtain ⟨later, earlier, hsplit⟩ := List.append_of_mem hlog
  obtain ⟨hbuilt, hcaused⟩ := h.owned.log later r b earlier hsplit
  rw [h.subsystemName] at hbuilt
  apply Request.ofMenu_of_caused hbuilt hcaused
  intro c hc
  apply h.calling.log c
  rw [hsplit]
  exact List.mem_append_right _ (List.mem_cons_of_mem _ hc)

/--
Whatever is clicked and however the service answers, every session a menu asks for is of its own size
and match type, and every session it asks to join is of its match type.
-/
theorem requests_ofMenu (l : Launch) (ms : List MenuMove)
    : menuMachine.Always
        (fun s => ∀ r b, .requested r b ∈ s.sessions.log → r.OfMenu l.subsystemName l.menu.menu)
        l.menu ms := by
  apply Machine.always_of_along (G := fun _ _ => True) (I := Launched l)
  . intro s m s' h _ hstep
    exact h.step hstep
  . intro s h r b hlog
    exact h.ofMenu hlog
  . exact launched_menu l
  . exact menuMachine.along_true _ ms

end Sessions
