import SoldierOfGoons.Sessions.Buttons

/-!
When the menu locks itself. A button is locked if it is disabled and nothing holds it any more. A
step locks a button by taking away the last of what the button waits for, and nothing unlocks it
again. Without a valid `SessionInterface` each click locks its button.
-/

namespace Sessions

namespace Menu

def Passes (o : Outcome) (menu : Menu) : Prop :=
  match o with
  | .find results true => results ≠ [] ∧ menu.firstMatch results = none
  | _ => False

-- The menu enables the button, unless it joins or passes over what the search has found.
theorem enabled_handle (menu : Menu) (b : Button) (o : Outcome)
    (sessionInterface resolvedProperly : Bool) (address : String)
    : (menu.handle o sessionInterface resolvedProperly address).1.enabled b = true
        ↔
      menu.enabled b = true ∨ o.releases = some b ∧
        (menu.handle o sessionInterface resolvedProperly address).2 = none ∧ ¬menu.Passes o := by
  cases o with
  | create ok =>
    simp only [handle, onCreateSession]
    cases ok with
    | true => cases hworld : menu.world <;> cases b <;> simp [enabled, Outcome.releases, Passes]
    | false => cases b <;> simp [enabled, Outcome.releases, Passes]
  | find results ok =>
    simp only [handle, onFindSession]
    cases hmatch : menu.firstMatch results with
    | some r => simp
    | none =>
      cases ok with
      | true =>
        by_cases hresults : results = [] <;> cases b <;>
          simp [enabled, Outcome.releases, Passes, hmatch, hresults]
      | false => cases b <;> simp [enabled, Outcome.releases, Passes]
  | join result =>
    simp only [handle, onJoinSession]
    by_cases hresult : result = .success <;> cases b <;>
      cases hcontroller : sessionInterface && menu.playerController <;>
      simp [enabled, Outcome.releases, Passes, hresult]
  | destroy ok => simp [handle, Outcome.releases]

theorem call_handle {menu : Menu} {o : Outcome} {sessionInterface resolvedProperly : Bool}
    {address : String} {c : Call}
    (h : (menu.handle o sessionInterface resolvedProperly address).2 = some c)
    : o.releases = some .join ∧ ¬menu.Passes o ∧ ∃ r, c = .joinSession r := by
  cases o with
  | find results ok =>
    simp only [handle, onFindSession] at h
    split at h
    . next r hmatch =>
      cases h
      refine ⟨rfl, ?_, r, rfl⟩
      cases ok <;> simp [Passes, hmatch]
    . split at h <;> cases h
  | _ => cases h

end Menu

-- A search that is broadcast picks a result, or finds another reason for the button to be enabled.
def PicksResult (s : MenuState) : Prop :=
  match s.sessions.stack with
  | .broadcast (.find results true) :: stack =>
    results = [] ∨ (s.menu.firstMatch results).isSome ∨ s.menu.joinButton = true ∨
      Held .join { s.sessions with stack }
  | _ => True

instance (s : MenuState) : Decidable (PicksResult s) := by
  unfold PicksResult
  split <;> infer_instance

/--
What the buttons rely on: no click without a valid `SessionInterface`, no create that fails and no
destroy that ends when nothing else is under way for a disabled `HostButton`, no search that passes
over its results when nothing else is under way for a disabled `JoinButton`.
-/
def Reenables (s : MenuState) : MenuMove → Prop
  | .hostButtonClicked => s.sessions.sessionInterface = true
  | .joinButtonClicked => s.sessions.sessionInterface = true
  | .complete i (.create false) =>
    s.menu.hostButton = true ∨ Busy .host (s.sessions.without .create i)
  | .complete i (.destroy bWasSuccessful) =>
    s.menu.hostButton = true ∨ Held .host (s.sessions.without .destroy i) ∨
      (bWasSuccessful && s.sessions.bCreateSessionOnDestroy) = true
  | .resume _ _ => PicksResult s
  | _ => True

instance (s : MenuState) : ∀ m, Decidable (Reenables s m)
  | .hostButtonClicked => inferInstanceAs (Decidable (_ = true))
  | .joinButtonClicked => inferInstanceAs (Decidable (_ = true))
  | .complete i (.create false) =>
    inferInstanceAs (Decidable (_ ∨ Busy .host (s.sessions.without .create i)))
  | .complete i (.destroy _) =>
    inferInstanceAs (Decidable (_ ∨ Held .host (s.sessions.without .destroy i) ∨ _ = true))
  | .complete _ (.create true) => inferInstanceAs (Decidable True)
  | .complete _ (.find _ _) => inferInstanceAs (Decidable True)
  | .complete _ (.join _) => inferInstanceAs (Decidable True)
  | .refuse => inferInstanceAs (Decidable True)
  | .accept => inferInstanceAs (Decidable True)
  | .resume _ _ => inferInstanceAs (Decidable (PicksResult s))

def ClickEnabled (s : MenuState) : MenuMove → Prop
  | .hostButtonClicked => s.menu.hostButton = true
  | .joinButtonClicked => s.menu.joinButton = true
  | _ => True

instance (s : MenuState) (m : MenuMove) : Decidable (ClickEnabled s m) := by
  unfold ClickEnabled
  split <;> infer_instance

-- A disabled button has a request outstanding, or its last request succeeded.
def Unlocked (s : MenuState) : Prop :=
  s.sessions.stack = [] → ∀ b, s.menu.enabled b = false →
    Asked s.sessions.outstanding b ∨ succeeded s.sessions.log b = true

def Locked (b : Button) (s : MenuState) : Prop :=
  s.menu.enabled b = false ∧ ¬Held b s.sessions

theorem not_locked {b : Button} {s : MenuState}
    : ¬Locked b s ↔ s.menu.enabled b = true ∨ Held b s.sessions := by
  unfold Locked
  rw [← Bool.not_eq_true, ← not_or, not_not]

-- The step takes away the last of what a disabled button waits for.
def Spoils (b : Button) (s : MenuState) (m : MenuMove) : Prop :=
  s.menu.enabled b = false ∧
    match m with
    | .complete i o => ¬Keeps b s.sessions (.complete i o)
    | .resume _ _ => ∃ o stack, s.sessions.stack = .broadcast o :: stack ∧ o.releases = some b ∧
        s.menu.Passes o ∧ ¬Held b { s.sessions with stack }
    | _ => False

theorem spoils_broadcast {b : Button} {s : MenuState} {o : Outcome} {stack : List Frame}
    (hstack : s.sessions.stack = .broadcast o :: stack) {resolvedProperly : Bool} {address : String}
    : Spoils b s (.resume resolvedProperly address)
        ↔
      s.menu.enabled b = false ∧ o.releases = some b ∧ s.menu.Passes o ∧
        ¬Held b { s.sessions with stack } := by
  unfold Spoils
  apply and_congr_right
  intro _
  constructor
  . rintro ⟨o', stack', hstack', h⟩
    rw [hstack, List.cons.injEq, Frame.broadcast.injEq] at hstack'
    obtain ⟨rfl, rfl⟩ := hstack'
    exact h
  . intro h
    exact ⟨o, stack, hstack, h⟩

section Step

variable {b : Button} {s s' : MenuState} {m : MenuMove} (hreached : Reached s.sessions)
  (hstarted : Started s.sessions)

include hreached hstarted

theorem locked_service {n : Move} (hn : m.move = some n)
    (hquiet : n = .resume → ∀ o stack, s.sessions.stack ≠ .broadcast o :: stack) {sessions : State}
    (hstep : machine.step s.sessions n = some sessions)
    : Locked b ⟨sessions, s.menu⟩ ↔ Locked b s ∨ Spoils b s m := by
  have hspoils : Spoils b s m ↔ s.menu.enabled b = false ∧ ¬Keeps b s.sessions n := by
    unfold Spoils
    apply and_congr_right
    intro _
    cases m with
    | complete i o =>
      cases hn
      rfl
    | resume resolvedProperly address =>
      cases hn
      have hkeeps : Keeps b s.sessions .resume := by
        intro o stack hstack
        exact absurd hstack (hquiet rfl o stack)
      simp [hkeeps, hquiet]
    | _ => cases hn <;> simp [Keeps]
  rw [hspoils]
  unfold Locked
  rw [held_iff_keeps hreached hstarted (hreached.transition hstep) (call_ne_of_move hn),
    ← and_or_left, not_and_or]

theorem locked_notify {o : Outcome} {stack : List Frame}
    (hstack : s.sessions.stack = .broadcast o :: stack) {resolvedProperly : Bool} {address : String}
    {sessions : State} {menu : Menu} {call : Option Call}
    (hstep : machine.step s.sessions .resume = some sessions)
    (hmenu : s.menu.handle o sessions.sessionInterface resolvedProperly address = (menu, call))
    : Locked b ⟨sessions, menu⟩
        ↔
      s.menu.enabled b = false ∧ (¬Held b s.sessions ∨ o.releases = some b ∧
        (call ≠ none ∨ s.menu.Passes o) ∧ ¬Held b { s.sessions with stack }) := by
  have henabled :=
    s.menu.enabled_handle b o sessions.sessionInterface resolvedProperly address
  rw [hmenu] at henabled
  have hheld := held_iff_keeps (b := b) hreached hstarted (hreached.transition hstep) (by simp)
  rw [keeps_broadcast hstack] at hheld
  unfold Locked
  rw [hheld, ← Bool.not_eq_true, ← Bool.not_eq_true, henabled, held_broadcast hstack]
  by_cases hreleases : o.releases = some b
  . simp only [hreleases, true_and, true_or, forall_const, not_true, false_or]
    tauto
  . simp only [hreleases, false_and, or_false, false_or, false_implies, and_true]

theorem locked_step (ht : MenuTransition s m s') (hclick : ClickEnabled s m)
    : Locked b s' ↔ Locked b s ∨ Spoils b s m := by
  cases ht with
  | host sessions hstack hstep =>
    have hcall := held_call (b := b) (hreached.transition hstep)
    have henabled : s.menu.enabled .host = true := hclick
    cases b with
    | host => simp [Locked, Spoils, hcall, henabled, RequestKind.button, Call.kind]
    | join => simp [Locked, Spoils, hcall, RequestKind.button, Call.kind, Menu.enabled]
  | join sessions hstack hstep =>
    have hcall := held_call (b := b) (hreached.transition hstep)
    have henabled : s.menu.enabled .join = true := hclick
    cases b with
    | join => simp [Locked, Spoils, hcall, henabled, RequestKind.button, Call.kind]
    | host => simp [Locked, Spoils, hcall, RequestKind.button, Call.kind, Menu.enabled]
  | service m n hn hquiet sessions hstep =>
    exact locked_service hreached hstarted hn hquiet hstep
  | notify o stack hstack resolvedProperly address sessions menu hstep hmenu =>
    rw [locked_notify hreached hstarted hstack hstep hmenu, spoils_broadcast hstack]
    unfold Locked
    rw [← and_or_left]
    simp
  | notifyCall o stack hstack resolvedProperly address listening sessions menu c hstep hmenu hcall =>
    obtain ⟨hreleases, hpasses, r, rfl⟩ := Menu.call_handle (c := c) (congrArg Prod.snd hmenu)
    have hlistening := locked_notify (b := b) hreached hstarted hstack hstep hmenu
    have hheld := held_call (b := b) ((hreached.step hstep).transition hcall)
    rw [spoils_broadcast hstack]
    unfold Locked at hlistening ⊢
    rw [hheld, not_or, ← and_assoc, hlistening]
    cases b with
    | host => simp [hreleases, RequestKind.button, Call.kind]
    | join =>
      have hbusy := (held_broadcast hstack).mpr (Or.inl hreleases)
      simp [hbusy, hpasses, RequestKind.button, Call.kind]

end Step

theorem reenables_iff {s : MenuState} {m : MenuMove} (hvalid : s.sessions.sessionInterface = true)
    : Reenables s m ↔ ∀ b, ¬Spoils b s m := by
  have hforall (P : Button → Prop) : (∀ b, P b) ↔ P .host ∧ P .join := by
    constructor
    . intro h
      exact ⟨h .host, h .join⟩
    . rintro ⟨hhost, hjoin⟩ (_ | _)
      . exact hhost
      . exact hjoin
  rw [hforall]
  cases m with
  | complete i o =>
    cases o with
    | create ok =>
      cases ok with
      | true => simp [Reenables, Spoils, Keeps]
      | false =>
        cases hbutton : s.menu.hostButton <;>
          simp [Reenables, Spoils, Keeps, Menu.enabled, hbutton]
    | destroy ok =>
      cases hbutton : s.menu.hostButton <;>
        simp [Reenables, Spoils, Keeps, Menu.enabled, hbutton, or_iff_not_imp_left]
    | _ => simp [Reenables, Spoils, Keeps]
  | resume resolvedProperly address =>
    by_cases hstack : ∃ results stack, s.sessions.stack = .broadcast (.find results true) :: stack
    . obtain ⟨results, stack, hstack⟩ := hstack
      rw [spoils_broadcast hstack, spoils_broadcast hstack]
      cases hbutton : s.menu.joinButton <;> cases hmatch : s.menu.firstMatch results <;>
        simp [Reenables, PicksResult, hstack, Outcome.releases, Menu.Passes, Menu.enabled, hbutton, hmatch,
          or_iff_not_imp_left]
    . have hreenables : Reenables s (.resume resolvedProperly address) := by
        simp only [Reenables, PicksResult]
        split
        . next results stack heq => exact absurd ⟨results, stack, heq⟩ hstack
        . trivial
      have hspoils (b : Button) : ¬Spoils b s (.resume resolvedProperly address) := by
        rintro ⟨_, o, stack, heq, _, hpasses, _⟩
        unfold Menu.Passes at hpasses
        split at hpasses
        . next results _ => exact hstack ⟨results, stack, heq⟩
        . exact hpasses
      exact iff_of_true hreenables ⟨hspoils .host, hspoils .join⟩
  | _ => simp [Reenables, Spoils, hvalid]

structure Offline (s : State) : Prop where
  invalid : s.sessionInterface = false
  outstanding : ∀ k, s.outstanding k = []
  succeeded : ∀ b, succeeded s.log b = false
  stack : s.stack = [] ∨ (∃ n t, s.stack = [.createSession n t]) ∨ ∃ n, s.stack = [.findSessions n]

theorem Offline.call {s s' : State} {c : Call} (h : Offline s) (hstack : s.stack = [])
    (hc : (∃ n t, c = .createSession n t) ∨ ∃ n, c = .findSessions n)
    (hstep : machine.step s (.call c) = some s') : Offline s' := by
  simp only [machine, Sessions.step, Option.ite_none_right_eq_some, Option.some.injEq] at hstep
  obtain ⟨_, rfl⟩ := hstep
  refine ⟨h.invalid, h.outstanding, ?_, ?_⟩
  . intro b
    exact (succeeded_called c s.log b).trans (h.succeeded b)
  . right
    rcases hc with ⟨n, t, rfl⟩ | ⟨n, rfl⟩
    . exact Or.inl ⟨n, t, by simp [State.push, State.emit, hstack, Call.frame]⟩
    . exact Or.inr ⟨n, by simp [State.push, State.emit, hstack, Call.frame]⟩

-- Without a valid `SessionInterface` an activation returns at once, and there is nothing else to do.
theorem Offline.service {s s' : State} {m : Move} (h : Offline s) (hcall : ∀ c, m ≠ .call c)
    (hstep : machine.step s m = some s') : Offline s' ∧ s.stack ≠ [] := by
  have hstack := h.stack
  simp only [machine] at hstep
  cases m with
  | call c => exact absurd rfl (hcall c)
  | complete i o => simp [Sessions.step, h.outstanding] at hstep
  | refuse => rcases hstack with heq | ⟨n, t, heq⟩ | ⟨n, heq⟩ <;> simp [Sessions.step, heq] at hstep
  | accept => rcases hstack with heq | ⟨n, t, heq⟩ | ⟨n, heq⟩ <;> simp [Sessions.step, heq] at hstep
  | resume =>
    have hreturns : s' = { s with stack := [] } := by
      rcases hstack with heq | ⟨n, t, heq⟩ | ⟨n, heq⟩
      . simp [Sessions.step, heq] at hstep
      . simpa [Sessions.step, heq, Frame.resume, createSession, h.invalid, eq_comm] using hstep
      . simpa [Sessions.step, heq, Frame.resume, findSessions, h.invalid, eq_comm] using hstep
    subst hreturns
    refine ⟨⟨h.invalid, h.outstanding, h.succeeded, Or.inl rfl⟩, ?_⟩
    intro hnil
    simp [Sessions.step, hnil] at hstep

theorem Offline.menuStep {s s' : MenuState} {m : MenuMove} (h : Offline s.sessions)
    (ht : MenuTransition s m s')
    : Offline s'.sessions ∧ ∀ b, s.menu.enabled b = false → s'.menu.enabled b = false := by
  have hnone (o : Outcome) (stack : List Frame) : s.sessions.stack ≠ .broadcast o :: stack := by
    rcases h.stack with hstack | ⟨n, t, hstack⟩ | ⟨n, hstack⟩ <;> simp [hstack]
  cases ht with
  | host sessions hstack hstep =>
    refine ⟨h.call hstack (Or.inl ⟨_, _, rfl⟩) hstep, ?_⟩
    rintro (_ | _) hb
    . rfl
    . exact hb
  | join sessions hstack hstep =>
    refine ⟨h.call hstack (Or.inr ⟨_, rfl⟩) hstep, ?_⟩
    rintro (_ | _) hb
    . exact hb
    . rfl
  | service m n hn hquiet sessions hstep =>
    exact ⟨(h.service (call_ne_of_move hn) hstep).1, fun _ hb => hb⟩
  | notify o stack hstack resolvedProperly address sessions menu hstep hmenu =>
    exact absurd hstack (hnone o stack)
  | notifyCall o stack hstack resolvedProperly address listening sessions menu c hstep hmenu hcall =>
    exact absurd hstack (hnone o stack)

-- At rest only a click is possible.
theorem Offline.click {s s' : MenuState} {m : MenuMove} (h : Offline s.sessions)
    (hrest : s.sessions.stack = []) (ht : MenuTransition s m s')
    : ¬Reenables s m ∧ ∃ b, s'.menu.enabled b = false := by
  have hinvalid := h.invalid
  cases ht with
  | host sessions hstack hstep => exact ⟨by simp [Reenables, hinvalid], .host, rfl⟩
  | join sessions hstack hstep => exact ⟨by simp [Reenables, hinvalid], .join, rfl⟩
  | service m n hn hquiet sessions hstep =>
    exact absurd hrest (h.service (call_ne_of_move hn) hstep).2
  | notify o stack hstack resolvedProperly address sessions menu hstep hmenu => simp [hrest] at hstack
  | notifyCall o stack hstack resolvedProperly address listening sessions menu c hstep hmenu hcall =>
    simp [hrest] at hstack

structure Online (s : MenuState) : Prop where
  reached : Reached s.sessions
  started : Started s.sessions

theorem Online.step {s s' : MenuState} {m : MenuMove} (h : Online s) (ht : MenuTransition s m s')
    : Online s' := by
  refine ⟨h.reached.menuStep ht, ?_⟩
  have hstarted {t t' : State} {n : Move} (hreached : Reached t) (hstarted : Started t)
      (hn : n ≠ .call .destroySession) (hstep : machine.step t n = some t') : Started t' :=
    hstarted.step (hreached.transition hstep) hn
  cases ht with
  | host sessions hstack hstep => exact hstarted h.reached h.started (by simp) hstep
  | join sessions hstack hstep => exact hstarted h.reached h.started (by simp) hstep
  | service m n hn hquiet sessions hstep =>
    exact hstarted h.reached h.started (call_ne_of_move hn _) hstep
  | notify o stack hstack resolvedProperly address sessions menu hstep hmenu =>
    exact hstarted h.reached h.started (by simp) hstep
  | notifyCall o stack hstack resolvedProperly address listening sessions menu c hstep hmenu hcall =>
    obtain ⟨_, _, r, rfl⟩ := Menu.call_handle (c := c) (congrArg Prod.snd hmenu)
    have hlistening := hstarted h.reached h.started (by simp) hstep
    exact hstarted (h.reached.step hstep) hlistening (by simp) hcall

def Launch.online (l : Launch) (sessionInterface : Bool) : MenuState :=
  { l.menu with sessions := { l.menu.sessions with sessionInterface } }

theorem enabled_online (l : Launch) (sessionInterface : Bool) (b : Button)
    : (l.online sessionInterface).menu.enabled b = true := by
  cases b <;> rfl

theorem online_or_offline (l : Launch) (sessionInterface : Bool)
    : Online (l.online sessionInterface) ∨ Offline (l.online sessionInterface).sessions := by
  cases sessionInterface with
  | true =>
    left
    exact ⟨reached_initial l.subsystemName l.bSessionExists l.namesJoined,
      started_initial l.subsystemName l.bSessionExists l.namesJoined⟩
  | false =>
    right
    refine ⟨rfl, fun _ => rfl, ?_, Or.inl rfl⟩
    intro b
    cases b <;> rfl

theorem unlocked_of_not_locked {s : MenuState} (h : ∀ b, ¬Locked b s) : Unlocked s := by
  intro hstack b hdisabled
  rcases not_locked.mp (h b) with henabled | (⟨f, hf, _⟩ | hasked) | hsucceeded
  . simp [hdisabled] at henabled
  . simp [hstack] at hf
  . exact Or.inl hasked
  . exact Or.inr hsucceeded

-- Nothing is on the stack any more, so a locked button can be seen.
theorem not_unlocked_of_locked {s : MenuState} {b : Button} (hstack : s.sessions.stack = [])
    (h : Locked b s) : ¬Unlocked s := by
  intro hunlocked
  apply h.2
  rcases hunlocked hstack b h.1 with hasked | hsucceeded
  . exact Or.inl (Or.inr hasked)
  . exact Or.inr hsucceeded

theorem Offline.locked {s : MenuState} {b : Button} (h : Offline s.sessions)
    (hstack : s.sessions.stack = []) (hdisabled : s.menu.enabled b = false) : Locked b s := by
  refine ⟨hdisabled, ?_⟩
  rintro ((⟨f, hf, _⟩ | hasked) | hsucceeded)
  . simp [hstack] at hf
  . obtain ⟨k, p, hp, _⟩ := (asked_iff s.sessions.outstanding b).mp hasked
    simp [h.outstanding] at hp
  . simp [h.succeeded] at hsucceeded

def Stuck (s : MenuState) : Prop :=
  (Online s ∧ ∃ b, Locked b s) ∨ (Offline s.sessions ∧ ∃ b, s.menu.enabled b = false)

theorem Stuck.step {s s' : MenuState} {m : MenuMove} (h : Stuck s) (hclick : ClickEnabled s m)
    (ht : MenuTransition s m s') : Stuck s' := by
  rcases h with ⟨honline, b, hlocked⟩ | ⟨hoffline, b, hdisabled⟩
  . left
    refine ⟨honline.step ht, b, ?_⟩
    exact (locked_step honline.reached honline.started ht hclick).mpr (Or.inl hlocked)
  . right
    obtain ⟨hoffline', hkeep⟩ := hoffline.menuStep ht
    exact ⟨hoffline', b, hkeep b hdisabled⟩

theorem Online.stuck {s s' : MenuState} {m : MenuMove} (h : Online s) (hclick : ClickEnabled s m)
    (hspoiled : ¬Reenables s m) (ht : MenuTransition s m s') : Stuck s' := by
  rw [reenables_iff h.reached.valid, not_forall] at hspoiled
  obtain ⟨b, hspoils⟩ := hspoiled
  left
  refine ⟨h.step ht, b, ?_⟩
  exact (locked_step h.reached h.started ht hclick).mpr (Or.inr (not_not.mp hspoils))

theorem Offline.stuck {s s' : MenuState} {m : MenuMove} (h : Offline s.sessions)
    (hrest : s.sessions.stack = []) (ht : MenuTransition s m s') : Stuck s' :=
  Or.inr ⟨(h.menuStep ht).1, (h.click hrest ht).2⟩

section Run

variable {l : Launch} {sessionInterface : Bool} {ms : List MenuMove}
  (hclick : menuMachine.Along ClickEnabled (l.online sessionInterface) ms)

include hclick

theorem unlocked_of_reenables (h : menuMachine.Along Reenables (l.online sessionInterface) ms)
    : menuMachine.Always Unlocked (l.online sessionInterface) ms := by
  apply Machine.always_of_along (G := fun s m => ClickEnabled s m ∧ Reenables s m)
    (I := fun s => (Online s ∧ ∀ b, ¬Locked b s) ∨
      (Offline s.sessions ∧ s.sessions.stack = [] ∧ ∀ b, s.menu.enabled b = true))
  . rintro s m s' (⟨honline, hlocked⟩ | ⟨hoffline, hstack, _⟩) ⟨hclick, hreenables⟩ hstep
    . have ht := menuTransition_of_step hstep
      left
      refine ⟨honline.step ht, ?_⟩
      intro b
      rw [locked_step honline.reached honline.started ht hclick, not_or]
      exact ⟨hlocked b, (reenables_iff honline.reached.valid).mp hreenables b⟩
    . exact absurd hreenables (hoffline.click hstack (menuTransition_of_step hstep)).1
  . rintro s (⟨_, hlocked⟩ | ⟨_, _, henabled⟩)
    . exact unlocked_of_not_locked hlocked
    . intro _ b hdisabled
      simp [henabled] at hdisabled
  . rcases online_or_offline l sessionInterface with honline | hoffline
    . left
      refine ⟨honline, ?_⟩
      intro b
      rw [not_locked]
      exact Or.inl (enabled_online l sessionInterface b)
    . exact Or.inr ⟨hoffline, rfl, enabled_online l sessionInterface⟩
  . exact hclick.and h

theorem reenables_of_unlocked {s : MenuState}
    (hrun : menuMachine.run (l.online sessionInterface) ms = some s) (hstack : s.sessions.stack = [])
    (h : Unlocked s) : menuMachine.Along Reenables (l.online sessionInterface) ms := by
  apply Machine.along_of_not_bad_along (H := ClickEnabled) (B := Stuck)
    (I := fun s => Online s ∨ (Offline s.sessions ∧ s.sessions.stack = []) ∨ Stuck s)
  . rintro s m s' (honline | ⟨hoffline, hrest⟩ | hstuck) hclick hstep
    . exact Or.inl (honline.step (menuTransition_of_step hstep))
    . exact Or.inr (Or.inr (hoffline.stuck hrest (menuTransition_of_step hstep)))
    . exact Or.inr (Or.inr (hstuck.step hclick (menuTransition_of_step hstep)))
  . rintro s m s' (honline | ⟨hoffline, hrest⟩ | hstuck) hclick hspoiled hstep
    . exact honline.stuck hclick hspoiled (menuTransition_of_step hstep)
    . exact hoffline.stuck hrest (menuTransition_of_step hstep)
    . exact hstuck.step hclick (menuTransition_of_step hstep)
  . rintro s m s' _ hclick hstuck hstep
    exact hstuck.step hclick (menuTransition_of_step hstep)
  . rcases online_or_offline l sessionInterface with honline | hoffline
    . exact Or.inl honline
    . exact Or.inr (Or.inl ⟨hoffline, rfl⟩)
  . exact hclick
  . exact hrun
  . rintro (⟨_, b, hlocked⟩ | ⟨hoffline, b, hdisabled⟩)
    . exact not_unlocked_of_locked hstack hlocked h
    . exact not_unlocked_of_locked hstack (hoffline.locked hstack hdisabled) h

end Run

-- The menu never locks itself exactly if every step leaves a disabled button something to wait for.
theorem unlocked_iff_reenables (l : Launch) (sessionInterface : Bool) (ms : List MenuMove)
    (hclick : menuMachine.Along ClickEnabled (l.online sessionInterface) ms)
    : (menuMachine.Along Reenables (l.online sessionInterface) ms →
          menuMachine.Always Unlocked (l.online sessionInterface) ms) ∧
        ∀ s, menuMachine.run (l.online sessionInterface) ms = some s → s.sessions.stack = [] →
          (menuMachine.Always Unlocked (l.online sessionInterface) ms ↔
            menuMachine.Along Reenables (l.online sessionInterface) ms) := by
  refine ⟨unlocked_of_reenables hclick, ?_⟩
  intro s hrun hstack
  constructor
  . intro h
    exact reenables_of_unlocked hclick hrun hstack (h.last hrun)
  . exact unlocked_of_reenables hclick

-- The search finds nothing and the second one finds a session that cannot be joined.
theorem unlocked_join_fails
    : menuMachine.Always Unlocked
        (Launch.online ⟨⟨true, true⟩, "NULL", false, true, 4, "FreeForAll", "/Game/Maps/Lobby"⟩ true)
        [.joinButtonClicked, .resume true "", .accept, .resume true "", .complete 0 (.find [] true),
          .resume true "", .resume true "", .resume true "", .resume true "",
          .joinButtonClicked, .resume true "", .accept, .resume true "",
          .complete 0 (.find [⟨7, some "FreeForAll"⟩] true), .resume true "", .resume true "",
          .resume true "", .resume true "", .refuse, .resume true "", .resume true "",
          .resume true "", .resume true ""] :=
  (unlocked_iff_reenables _ _ _ (by decide +kernel)).1 (by decide +kernel)

-- The only session that is found has another match type.
theorem not_unlocked
    : ¬∀ (l : Launch) (sessionInterface : Bool) (ms : List MenuMove),
        menuMachine.Along ClickEnabled (l.online sessionInterface) ms →
          menuMachine.Always Unlocked (l.online sessionInterface) ms := by
  intro h
  have hrun := h ⟨⟨true, true⟩, "NULL", false, true, 4, "FreeForAll", "/Game/Maps/Lobby"⟩ true
    [.joinButtonClicked, .resume true "", .accept, .resume true "",
      .complete 0 (.find [⟨7, some "Teams"⟩] true), .resume true "", .resume true "",
      .resume true "", .resume true ""] (by decide +kernel)
  obtain ⟨s, hs, hend⟩ := hrun.exists_map
    (fun s => (s.sessions.stack, s.menu.joinButton, s.sessions.outstanding .find,
      s.sessions.outstanding .join, lastJoin s.sessions.log)) (b := ([], false, [], [], none))
    (by decide +kernel)
  simp only [Prod.mk.injEq] at hend
  obtain ⟨hstack, hbutton, hfind, hjoin, hlast⟩ := hend
  rcases hs hstack .join hbutton with (hne | hne) | hsucceeded
  . exact hne hfind
  . exact hne hjoin
  . simp [succeeded, hlast] at hsucceeded

end Sessions
