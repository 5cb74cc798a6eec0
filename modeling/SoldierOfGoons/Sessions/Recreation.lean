import SoldierOfGoons.Sessions.Registration

/-!
The flag `bCreateSessionOnDestroy`: `CreateSession` sets it before it destroys the existing session,
and only a successful destroy takes it back. The subsystem is replacing while a destroy request that
`CreateSession` started is outstanding; it keeps replacing as long as none of these is refused or
fails while it is the last of them. An activation is arming on its way to such a request, or to the
reset of the flag.
-/

namespace Sessions

def Replacing (s : State) : Prop :=
  (s.outstanding .destroy).any (·.byCreateSession)

def arming : List Frame → Bool
  | .destroySession :: .createSessionRest _ _ :: _ => true
  | .request .destroy true :: _ => true
  | .completing (.destroy true) (_ :: _) :: _ => true
  | _ => false

def KeepsReplacing (s : State) : Move → Prop
  | .refuse => s.stack.head? = some (.request .destroy true) → Replacing s
  | .complete i (.destroy false) =>
    s.bCreateSessionOnDestroy = true → Replacing s →
      ((s.outstanding .destroy).eraseIdx i).any (·.byCreateSession)
  | _ => True

instance (s : State) : Decidable (Replacing s) := by
  unfold Replacing
  infer_instance

instance (s : State) (m : Move) : Decidable (KeepsReplacing s m) := by
  unfold KeepsReplacing
  split <;> infer_instance

theorem arming_of_serviceTurn {stack : List Frame} (h : serviceTurn stack) : arming stack = false := by
  unfold serviceTurn at h
  split at h
  . rfl
  . unfold clientTurn at h
    split at h
    . rfl
    . rfl
    . cases h

theorem eq_destroy_of_arming_request {r : Request} {b : Bool} {stack : List Frame}
    (h : arming (.request r b :: stack)) : r = .destroy ∧ b = true := by
  cases r with
  | destroy =>
    cases b with
    | true => exact ⟨rfl, rfl⟩
    | false => cases h
  | _ => cases h

theorem eq_destroyed_of_arming_completing {o : Outcome} {handles : List Nat} {stack : List Frame}
    (h : arming (.completing o handles :: stack)) : o = .destroy true ∧ handles ≠ [] := by
  cases handles with
  | nil =>
    unfold arming at h
    split at h <;> simp_all
  | cons handle handles =>
    refine ⟨?_, List.cons_ne_nil handle handles⟩
    cases o with
    | destroy ok =>
      cases ok with
      | true => rfl
      | false => cases h
    | _ => cases h

-- The `DestroySession` that `CreateSession` calls makes a destroy request of its own.
theorem arming_of_registers {f : Frame} {r : Request} {stack : List Frame}
    (hf : f.registers = some r.kind) (h : arming (f :: stack))
    : arming (.request r (startedByCreateSession r stack) :: stack) := by
  unfold arming at h
  split at h
  . next n t stack' heq =>
    simp only [List.cons.injEq] at heq
    obtain ⟨rfl, rfl⟩ := heq
    cases r <;> cases hf
    rfl
  . next heq =>
    simp only [List.cons.injEq] at heq
    obtain ⟨rfl, rfl⟩ := heq
    cases hf
  . next heq =>
    simp only [List.cons.injEq] at heq
    obtain ⟨rfl, rfl⟩ := heq
    cases hf
  . cases h

structure Armed (s : State) : Prop where
  reached : Reached s
  accounted : s.bCreateSessionOnDestroy = true → Replacing s ∨ arming s.stack

theorem armed_initial (subsystemName : String) (bSessionExists namesJoined : Bool)
    : Armed (initial subsystemName bSessionExists namesJoined) := by
  constructor
  . apply reached_initial subsystemName bSessionExists namesJoined
  . simp [initial]

theorem Armed.step {s s' : State} {m : Move} (h : Armed s) (hkeeps : KeepsReplacing s m)
    (hstep : machine.step s m = some s') : Armed s' := by
  have ht := h.reached.transition hstep
  refine ⟨h.reached.step hstep, ?_⟩
  intro hflag
  cases ht with
  | call c hturn =>
    have := h.accounted hflag
    rw [arming_of_serviceTurn (serviceTurn_of_clientTurn hturn)] at this
    exact Or.inl (by simpa [Replacing] using this)
  | complete i p o hturn hp =>
    have hreplacing := h.accounted hflag
    rw [arming_of_serviceTurn hturn] at hreplacing
    replace hreplacing : Replacing s := by simpa using hreplacing
    cases o with
    | destroy ok =>
      cases ok with
      | true =>
        right
        have hne : s.outstanding .destroy ≠ [] := by
          intro hnil
          simp [Replacing, hnil] at hreplacing
        have hhandles := h.reached.handles_ne_nil hne
        obtain ⟨handle, handles, heq⟩ := List.exists_cons_of_ne_nil hhandles
        simp [Outcome.kind, heq, arming]
      | false =>
        left
        simpa [Replacing, Outcome.kind] using hkeeps hflag hreplacing
    | _ =>
      left
      simpa [Replacing, Outcome.kind] using hreplacing
  | refuse r b stack hstack =>
    left
    rcases h.accounted hflag with hreplacing | harming
    . exact hreplacing
    . rw [hstack] at harming
      obtain ⟨rfl, rfl⟩ := eq_destroy_of_arming_request harming
      apply hkeeps
      rw [hstack]
      rfl
  | accept r b stack hstack hsession =>
    left
    rcases h.accounted hflag with hreplacing | harming
    . cases r with
      | destroy =>
        simp only [Replacing, Request.kind, Function.update_self, List.any_append] at hreplacing ⊢
        simp [hreplacing]
      | _ => simpa [Replacing, Request.kind] using hreplacing
    . rw [hstack] at harming
      obtain ⟨rfl, rfl⟩ := eq_destroy_of_arming_request harming
      simp [Replacing, Request.kind]
  | replace n t stack hstack hsession => exact Or.inr rfl
  | register f r stack hstack hf hcreate settings search nextId =>
    rcases h.accounted hflag with hreplacing | harming
    . exact Or.inl hreplacing
    . right
      rw [hstack] at harming
      apply arming_of_registers hf harming
  | callback o handle handles stack hstack hoff =>
    rcases h.accounted hflag with hreplacing | harming
    . exact Or.inl hreplacing
    . rw [hstack] at harming
      rw [hoff (eq_destroyed_of_arming_completing harming).1] at hflag
      cases hflag
  | recreate handle handles stack hstack hon => cases hflag
  | pop f stack hstack hf =>
    rcases h.accounted hflag with hreplacing | harming
    . exact Or.inl hreplacing
    . rw [hstack] at harming
      rcases hf with rfl | ⟨o, rfl⟩ | ⟨o, rfl⟩
      . cases harming
      . cases harming
      . exact absurd rfl (eq_destroyed_of_arming_completing harming).2
  | _ =>
    left
    have := h.accounted hflag
    simp_all [arming, Replacing]

def Event.issuesCreate : Event → Bool
  | .requested (.create _) _ => true
  | _ => false

def creates (log : List Event) : Nat :=
  log.countP Event.issuesCreate

def Frame.isCreateSession : Frame → Bool
  | .createSession _ _ => true
  | .createSessionRest _ _ => true
  | _ => false

def Move.isCall : Move → Bool
  | .call _ => true
  | _ => false

-- With the flag off and no `CreateSession` running, only a new call can request a session.
structure Idle (n : Nat) (s : State) : Prop where
  flag : s.bCreateSessionOnDestroy = false
  stack : ∀ f ∈ s.stack, f.isCreateSession = false
  creates_eq : creates s.log = n

theorem Idle.step {n : Nat} {s s' : State} {m : Move} (h : Idle n s) (hm : m.isCall = false)
    (ht : Transition s m s') : Idle n s' := by
  have hflag := h.flag
  have hstack' := h.stack
  have hcreates := h.creates_eq
  cases ht with
  | call c hturn => cases hm
  | complete i p o hturn hp =>
    refine ⟨hflag, ?_, by simpa [creates, Event.issuesCreate] using hcreates⟩
    simpa [Frame.isCreateSession] using hstack'
  | replace k t stack hstack hsession => simp [hstack, Frame.isCreateSession] at hstack'
  | create k t stack hstack hsession => simp [hstack, Frame.isCreateSession] at hstack'
  | register f r stack hstack hf hcreate settings search nextId =>
    rw [hstack] at hstack'
    refine ⟨hflag, ?_, ?_⟩
    . intro g hg
      rcases List.mem_cons.mp hg with rfl | hg
      . rfl
      . apply hstack' g (List.mem_cons_of_mem f hg)
    . cases r with
      | create settings =>
        have := hstack' f (by simp)
        cases f <;> cases hf
        cases this
      | _ => simpa [creates, Event.issuesCreate] using hcreates
  | recreate handle handles stack hstack hon =>
    rw [hflag] at hon
    cases hon
  | broadcast o stack hstack =>
    rw [hstack] at hstack'
    refine ⟨hflag, ?_, by simpa [creates, Event.issuesCreate] using hcreates⟩
    simpa [Frame.isCreateSession] using hstack'
  | pop f stack hstack hf =>
    rw [hstack] at hstack'
    refine ⟨hflag, ?_, hcreates⟩
    intro g hg
    apply hstack' g (List.mem_cons_of_mem f hg)
  | refuse r b stack hstack | accept r b stack hstack hsession | join r stack hstack
  | callback o handle handles stack hstack hoff =>
    rw [hstack] at hstack'
    exact ⟨hflag, by simpa [Frame.isCreateSession] using hstack', hcreates⟩

structure Disarmed (s : State) : Prop where
  flag : s.stack = [] → ¬Replacing s → s.bCreateSessionOnDestroy = false
  destroy_only : s.stack = [] → (∀ k, s.outstanding k = []) →
    ∀ ms s', (∀ m ∈ ms, m.isCall = false) → machine.run s (.call .destroySession :: ms) = some s' →
      creates s'.log = creates s.log

theorem Armed.disarmed {s : State} (h : Armed s) : Disarmed s := by
  have hflag : s.stack = [] → ¬Replacing s → s.bCreateSessionOnDestroy = false := by
    intro hstack hreplacing
    by_contra hon
    have := h.accounted (by simpa using hon)
    rw [hstack] at this
    simp_all [arming]
  refine ⟨hflag, ?_⟩
  intro hstack hout ms s' hms hrun
  obtain ⟨t, ht, hrest⟩ := machine.run_cons.mp hrun
  have hoff := hflag hstack (by simp [Replacing, hout])
  have hidle : Idle (creates s.log) t := by
    cases h.reached.transition ht with
    | call c hturn =>
      refine ⟨hoff, ?_, by simp [creates, Event.issuesCreate]⟩
      simp [hstack, Call.frame, Frame.isCreateSession]
  have hinv := Machine.run_invariant (I := fun s => Reached s ∧ Idle _ s)
    (G := fun _ m => m.isCall = false) ?_ ⟨h.reached.step ht, hidle⟩
    (machine.along_of_forall hms t) hrest
  . apply hinv.2.creates_eq
  . rintro s m s' ⟨hreached, h⟩ hm hstep
    exact ⟨hreached.step hstep, h.step hm (hreached.transition hstep)⟩

/--
As long as the last destroy that `CreateSession` started is not refused and does not fail, nothing
stays armed at rest.
-/
theorem disarmed_of_keepsReplacing (subsystemName : String) (bSessionExists namesJoined : Bool)
    (ms : List Move)
    (hkeeps : machine.Along KeepsReplacing (initial subsystemName bSessionExists namesJoined) ms)
    : machine.Always Disarmed (initial subsystemName bSessionExists namesJoined) ms :=
  Machine.always_of_along Armed.step Armed.disarmed
    (armed_initial subsystemName bSessionExists namesJoined) hkeeps

-- A second destroy is refused while the first one is outstanding, which then succeeds.
theorem disarmed_second_destroy_refused
    : machine.Always Disarmed (initial "NULL" true true)
        [.call (.createSession 4 "FreeForAll"), .resume, .resume, .accept, .resume, .resume, .refuse,
          .resume, .resume, .call (.createSession 2 "Teams"), .resume, .resume, .refuse, .resume,
          .resume, .resume, .refuse, .resume, .resume, .complete 0 (.destroy true), .resume] :=
  disarmed_of_keepsReplacing _ _ _ _ (by decide)

-- After a refused destroy, the `DestroySession` of a client makes a session nobody asked for.
theorem not_disarmed
    : ¬∀ (subsystemName : String) (bSessionExists namesJoined : Bool) (ms : List Move),
        machine.Always Disarmed (initial subsystemName bSessionExists namesJoined) ms := by
  intro h
  have hrun := h "NULL" true true
    [.call (.createSession 4 "FreeForAll"), .resume, .resume, .refuse, .resume, .resume, .resume,
      .refuse, .resume, .resume]
  obtain ⟨s, hs, heq⟩ := hrun.exists_map
    (fun s => (s.stack, s.outstanding .destroy, s.bCreateSessionOnDestroy)) (b := ([], [], true)) (by decide)
  simp only [Prod.mk.injEq] at heq
  have := hs.flag heq.1 (by simp [Replacing, heq.2.1])
  simp [heq.2.2] at this

end Sessions
