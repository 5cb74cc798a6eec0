import SoldierOfGoons.Sessions.Subsystem

/-!
What one step of the machine can do while `SessionInterface` is valid. Every invariant of the
subsystem is derived from `Transition`, none unfolds `step` again. An activation registers the
delegate it is about to add, a callback broadcasts the outcome that is announced.
-/

namespace Sessions

def Frame.registers : Frame → Option RequestKind
  | .createSessionRest _ _ => some .create
  | .findSessions _ => some .find
  | .joinSessionRest _ => some .join
  | .destroySession => some .destroy
  | _ => none

def Outcome.announced (o : Outcome) (s : State) : Outcome :=
  match o with
  | .create _ => .create true
  | .find _ bWasSuccessful =>
    .find ((s.lastSessionSearch.map (·.searchResults)).getD []) bWasSuccessful
  | o => o

@[simp]
theorem kind_announced (o : Outcome) (s : State) : (o.announced s).kind = o.kind := by
  cases o <;> rfl

@[simp]
theorem kind_refusal (r : Request) : r.refusal.kind = r.kind := by
  cases r <;> rfl

inductive Transition (s : State) : Move → State → Prop where
  | call (c : Call) (hturn : clientTurn s.stack)
    : Transition s (.call c) { s with stack := c.frame :: s.stack, log := .called c :: s.log }
  | complete (i : Nat) (p : Pending) (o : Outcome) (hturn : serviceTurn s.stack)
      (hp : (s.outstanding o.kind)[i]? = some p)
    : Transition s (.complete i o) { s with
        outstanding := Function.update s.outstanding o.kind ((s.outstanding o.kind).eraseIdx i)
        namedSession := sessionAfter p o s.namedSession
        lastSessionSearch := searchAfter p o s.lastSessionSearch
        stack := .completing o (s.delegates o.kind).handles :: s.stack
        log := .completed p.request o :: s.log }
  | refuse (r : Request) (b : Bool) (stack : List Frame) (hstack : s.stack = .request r b :: stack)
    : Transition s .refuse { s with
        delegates := Function.update s.delegates r.kind ((s.delegates r.kind).clear (s.handle r.kind))
        stack := .broadcast r.refusal :: stack }
  | accept (r : Request) (b : Bool) (stack : List Frame) (hstack : s.stack = .request r b :: stack)
      (hsession : r.kind = .create → s.namedSession = none)
    : Transition s .accept { s with
        outstanding :=
          Function.update s.outstanding r.kind (s.outstanding r.kind ++ [⟨s.nextId, r, b⟩])
        namedSession := sessionMade r s
        nextId := s.nextId + 1
        stack := .serving :: stack }
  | replace (n : Int) (t : String) (stack : List Frame) (hstack : s.stack = .createSession n t :: stack)
      (hsession : s.namedSession.isSome)
    : Transition s .resume { s with
        bCreateSessionOnDestroy := true
        lastNumPublicConnections := n
        lastMatchType := t
        stack := .destroySession :: .createSessionRest n t :: stack }
  | create (n : Int) (t : String) (stack : List Frame) (hstack : s.stack = .createSession n t :: stack)
      (hsession : s.namedSession = none)
    : Transition s .resume { s with stack := .createSessionRest n t :: stack }
  | join (r : SearchResult) (stack : List Frame) (hstack : s.stack = .joinSession r :: stack)
    : Transition s .resume { s with stack := .joinSessionRest r :: stack }
  | register (f : Frame) (r : Request) (stack : List Frame) (hstack : s.stack = f :: stack)
      (hf : f.registers = some r.kind)
      (hcreate : ∀ n t, f = .createSessionRest n t →
        r = .create (sessionSettings s.subsystemName n t))
      (settings : Option SessionSettings) (search : Option SessionSearch) (nextId : Nat)
    : Transition s .resume { s with
        delegates := Function.update s.delegates r.kind (s.delegates r.kind).add
        handle := Function.update s.handle r.kind (s.delegates r.kind).next
        lastSessionSettings := settings
        lastSessionSearch := search
        nextId := nextId
        stack := .request r (startedByCreateSession r stack) :: stack
        log := .requested r s.namedSession.isSome :: s.log }
  | callback (o : Outcome) (handle : Nat) (handles : List Nat) (stack : List Frame)
      (hstack : s.stack = .completing o (handle :: handles) :: stack)
      (hflag : o = .destroy true → s.bCreateSessionOnDestroy = false)
    : Transition s .resume { s with
        delegates := Function.update s.delegates o.kind ((s.delegates o.kind).clear (s.handle o.kind))
        stack := .broadcast (o.announced s) :: .completing o handles :: stack }
  | recreate (handle : Nat) (handles : List Nat) (stack : List Frame)
      (hstack : s.stack = .completing (.destroy true) (handle :: handles) :: stack)
      (hflag : s.bCreateSessionOnDestroy = true)
    : Transition s .resume { s with
        delegates := Function.update s.delegates .destroy ((s.delegates .destroy).clear (s.handle .destroy))
        bCreateSessionOnDestroy := false
        stack := .createSession s.lastNumPublicConnections s.lastMatchType ::
          .broadcast (.destroy true) :: .completing (.destroy true) handles :: stack }
  | broadcast (o : Outcome) (stack : List Frame) (hstack : s.stack = .broadcast o :: stack)
    : Transition s .resume { s with stack := .listeners o :: stack, log := .broadcast o :: s.log }
  | pop (f : Frame) (stack : List Frame) (hstack : s.stack = f :: stack)
      (hf : f = .serving ∨ (∃ o, f = .listeners o) ∨ ∃ o, f = .completing o [])
    : Transition s .resume { s with stack }

theorem callback_transition {s : State} (hvalid : s.sessionInterface = true) (o : Outcome)
    (handle : Nat) (handles : List Nat) (stack : List Frame)
    (hstack : s.stack = .completing o (handle :: handles) :: stack)
    : Transition s .resume (callback o (({ s with stack } : State).push (.completing o handles))) := by
  cases o with
  | create ok =>
    have := Transition.callback (.create ok) handle handles stack hstack (by simp)
    simpa [callback, onSessionCreateComplete, State.push, hvalid, Outcome.announced,
      clearDelegate, Outcome.kind] using this
  | find results ok =>
    have := Transition.callback (.find results ok) handle handles stack hstack (by simp)
    simp only [callback, onFindSessionsComplete, State.push, hvalid, if_true]
    split
    . next hempty =>
      have hnil := List.eq_nil_of_length_eq_zero hempty
      simp only [clearDelegate] at hnil
      simpa [clearDelegate, Outcome.announced, Outcome.kind, hnil] using this
    . simpa [clearDelegate, Outcome.announced, Outcome.kind] using this
  | join r =>
    have := Transition.callback (.join r) handle handles stack hstack (by simp)
    simpa [callback, onJoinSessionComplete, State.push, hvalid, Outcome.announced,
      clearDelegate, Outcome.kind] using this
  | destroy ok =>
    cases hcond : ok && s.bCreateSessionOnDestroy with
    | true =>
      simp only [Bool.and_eq_true] at hcond
      obtain ⟨rfl, hflag⟩ := hcond
      have := Transition.recreate handle handles stack hstack hflag
      simpa [callback, onDestroySessionComplete, State.push, hvalid, clearDelegate, hflag] using this
    | false =>
      have hflag : Outcome.destroy ok = .destroy true → s.bCreateSessionOnDestroy = false := by
        rintro ⟨⟩
        simpa using hcond
      have := Transition.callback (.destroy ok) handle handles stack hstack hflag
      simpa [callback, onDestroySessionComplete, State.push, hvalid, clearDelegate, hcond,
        Outcome.announced, Outcome.kind] using this

theorem resume_transition {s s' : State} (hvalid : s.sessionInterface = true) (f : Frame)
    (stack : List Frame) (hstack : s.stack = f :: stack)
    (h : f.resume { s with stack } = some s') : Transition s .resume s' := by
  cases f with
  | createSession n t =>
    cases h
    unfold createSession
    rw [if_neg (by simp [hvalid])]
    split
    . next hsession => exact Transition.replace n t stack hstack hsession
    . next hsession => exact Transition.create n t stack hstack (by simpa using hsession)
  | createSessionRest n t =>
    cases h
    exact Transition.register (.createSessionRest n t)
      (.create (sessionSettings s.subsystemName n t)) stack hstack rfl
      (by rintro _ _ ⟨⟩; rfl) _ _ _
  | findSessions m =>
    cases h
    unfold findSessions
    rw [if_neg (by simp [hvalid])]
    apply Transition.register (.findSessions m) (.find _) stack hstack rfl (by simp) _ _ _
  | joinSession r =>
    cases h
    unfold joinSession
    rw [if_neg (by simp [State.push, hvalid])]
    apply Transition.join r stack hstack
  | joinSessionRest r =>
    simp only [Frame.resume, joinSessionRest] at h
    rw [if_neg (by simp [hvalid])] at h
    cases h
    apply Transition.register (.joinSessionRest r) (.join r) stack hstack rfl (by simp) _ _ _
  | destroySession =>
    cases h
    unfold destroySession
    rw [if_neg (by simp [hvalid])]
    apply Transition.register .destroySession .destroy stack hstack rfl (by simp) _ _ _
  | request r b => cases h
  | serving =>
    cases h
    apply Transition.pop .serving stack hstack (by simp)
  | completing o handles =>
    cases handles with
    | nil =>
      cases h
      apply Transition.pop (.completing o []) stack hstack (by simp)
    | cons handle handles =>
      cases h
      apply callback_transition hvalid o handle handles stack hstack
  | broadcast o =>
    cases h
    apply Transition.broadcast o stack hstack
  | listeners o =>
    cases h
    apply Transition.pop (.listeners o) stack hstack (by simp)

theorem transition_of_step {s s' : State} {m : Move} (hvalid : s.sessionInterface = true)
    (h : machine.step s m = some s') : Transition s m s' := by
  simp only [machine] at h
  cases m with
  | call c =>
    simp only [step, Option.ite_none_right_eq_some, Option.some.injEq] at h
    obtain ⟨hturn, rfl⟩ := h
    apply Transition.call c hturn
  | complete i o =>
    simp only [step] at h
    split at h
    . next p hturn hp =>
      cases h
      apply Transition.complete i p o hturn hp
    . cases h
  | refuse =>
    simp only [step] at h
    split at h
    . next r b stack hstack =>
      cases h
      apply Transition.refuse r b stack hstack
    . cases h
  | accept =>
    simp only [step] at h
    split at h
    . next r b stack hstack =>
      split at h
      . cases h
      . next hnot =>
        cases h
        apply Transition.accept r b stack hstack (by simpa using hnot)
    . cases h
  | resume =>
    simp only [step] at h
    split at h
    . next f stack hstack => exact resume_transition hvalid f stack hstack h
    . cases h

theorem Transition.sessionInterface_eq {s s' : State} {m : Move} (h : Transition s m s')
    : s'.sessionInterface = s.sessionInterface := by
  cases h <;> rfl

theorem sessionInterface_step {s s' : State} {m : Move} (hvalid : s.sessionInterface = true)
    (h : machine.step s m = some s') : s'.sessionInterface = true := by
  rw [(transition_of_step hvalid h).sessionInterface_eq]
  exact hvalid

theorem Transition.of_complete {s s' : State} {i : Nat} {o : Outcome}
    (h : Transition s (.complete i o) s')
    : ∃ p, (s.outstanding o.kind)[i]? = some p ∧
        s'.stack = .completing o (s.delegates o.kind).handles :: s.stack ∧
        s'.log = .completed p.request o :: s.log ∧
        s'.outstanding =
          Function.update s.outstanding o.kind ((s.outstanding o.kind).eraseIdx i) ∧
        s'.bCreateSessionOnDestroy = s.bCreateSessionOnDestroy := by
  cases h with
  | complete i p o hturn hp => exact ⟨p, hp, rfl, rfl, rfl, rfl⟩

theorem mem_withdraw {outstanding : RequestKind → List Pending} {k j : RequestKind} {i : Nat}
    {p : Pending} (h : p ∈ Function.update outstanding k ((outstanding k).eraseIdx i) j)
    : p ∈ outstanding j := by
  by_cases hj : j = k
  . subst hj
    rw [Function.update_self] at h
    exact List.mem_of_mem_eraseIdx h
  . rwa [Function.update_of_ne hj] at h

theorem mem_append {outstanding : RequestKind → List Pending} {k j : RequestKind} {p q : Pending}
    : q ∈ Function.update outstanding k (outstanding k ++ [p]) j
        ↔
      q ∈ outstanding j ∨ j = k ∧ q = p := by
  by_cases hj : j = k
  . subst hj
    simp
  . simp [hj]

/-!
Where the subsystem is running, the innermost activation decides the step.
-/

section Running

variable {s s' : State} {m : Move} {stack : List Frame} (ht : Transition s m s')

include ht

theorem Transition.of_createSession {n : Int} {t : String}
    (hstack : s.stack = .createSession n t :: stack)
    : s'.log = s.log ∧
        (s.namedSession.isSome ∧ s'.bCreateSessionOnDestroy = true ∧
            s'.stack = .destroySession :: .createSessionRest n t :: stack ∨
          s.namedSession = none ∧ s'.stack = .createSessionRest n t :: stack) := by
  cases ht with
  | replace n' t' stack' hstack' hsession =>
    rw [hstack, List.cons.injEq, Frame.createSession.injEq] at hstack'
    obtain ⟨⟨rfl, rfl⟩, rfl⟩ := hstack'
    exact ⟨rfl, Or.inl ⟨hsession, rfl, rfl⟩⟩
  | create n' t' stack' hstack' hsession =>
    rw [hstack, List.cons.injEq, Frame.createSession.injEq] at hstack'
    obtain ⟨⟨rfl, rfl⟩, rfl⟩ := hstack'
    exact ⟨rfl, Or.inr ⟨hsession, rfl⟩⟩
  | register f r stack' hstack' hf => simp_all [Frame.registers]
  | _ => simp_all [clientTurn, serviceTurn]

theorem Transition.of_createSessionRest {n : Int} {t : String}
    (hstack : s.stack = .createSessionRest n t :: stack)
    : s'.log
          = .requested (.create (sessionSettings s.subsystemName n t)) s.namedSession.isSome :: s.log ∧
        ∃ b, s'.stack = .request (.create (sessionSettings s.subsystemName n t)) b :: stack := by
  cases ht with
  | register f r stack' hstack' hf hcreate settings search nextId =>
    rw [hstack, List.cons.injEq] at hstack'
    obtain ⟨rfl, rfl⟩ := hstack'
    rw [hcreate n t rfl]
    exact ⟨rfl, _, rfl⟩
  | _ => simp_all [clientTurn, serviceTurn]

theorem Transition.of_destroyed {handle : Nat} {handles : List Nat}
    (hstack : s.stack = .completing (.destroy true) (handle :: handles) :: stack)
    (hflag : s.bCreateSessionOnDestroy = true)
    : s'.log = s.log ∧ s'.namedSession = s.namedSession ∧
        s'.stack = .createSession s.lastNumPublicConnections s.lastMatchType ::
          .broadcast (.destroy true) :: .completing (.destroy true) handles :: stack := by
  cases ht with
  | callback o handle' handles' stack' hstack' hoff => simp_all
  | recreate handle' handles' stack' hstack' hon =>
    rw [hstack, List.cons.injEq, Frame.completing.injEq, List.cons.injEq] at hstack'
    obtain ⟨⟨_, rfl, rfl⟩, rfl⟩ := hstack'
    exact ⟨rfl, rfl, rfl⟩
  | register f r stack' hstack' hf => simp_all [Frame.registers]
  | _ => simp_all [clientTurn, serviceTurn]

theorem Transition.of_broadcast {o : Outcome} (hstack : s.stack = .broadcast o :: stack)
    : s'.log = .broadcast o :: s.log ∧ s'.stack = .listeners o :: stack := by
  cases ht with
  | broadcast o' stack' hstack' =>
    rw [hstack, List.cons.injEq, Frame.broadcast.injEq] at hstack'
    obtain ⟨rfl, rfl⟩ := hstack'
    exact ⟨rfl, rfl⟩
  | register f r stack' hstack' hf => simp_all [Frame.registers]
  | _ => simp_all [clientTurn, serviceTurn]

end Running

end Sessions
