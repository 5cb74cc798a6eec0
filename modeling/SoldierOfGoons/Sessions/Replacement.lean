import SoldierOfGoons.Sessions.Recreation

/-!
Replacing a session as a two-step program: destroy the old session and, once that has succeeded,
create the new one. `CreateSession` does not return after its `DestroySession`, so none of its runs
on an existing session is a run of that program: a create request comes early, before every destroy
that succeeds, or there are two. A trace has its oldest event first, a log its latest.
-/

namespace Sessions

def Event.destroyed : Event → Bool
  | .completed _ (.destroy true) => true
  | _ => false

def requests (trace : List Event) : List Request :=
  trace.filterMap fun
    | .requested (.create settings) _ => some (.create settings)
    | .requested .destroy _ => some .destroy
    | _ => none

def createCalls (trace : List Event) : List (Int × String) :=
  trace.filterMap fun
    | .called (.createSession n t) => some (n, t)
    | _ => none

def since (s s' : State) : List Event :=
  (s'.log.take (s'.log.length - s.log.length)).reverse

/--
The two-step program. Up to the first destroy that succeeds there are only destroy requests, at least
one and at most one for each call; after it there is one create request, for the last of these calls.
-/
def DestroyThenCreate (subsystemName : String) (trace : List Event) : Prop :=
  ∃ before after, trace = before ++ after ∧ (∀ e ∈ before, e.destroyed = false) ∧
    requests before ≠ [] ∧ (∀ r ∈ requests before, r = .destroy) ∧
    (requests before).length ≤ (createCalls before).length ∧
    (after = [] ∨
      ∃ e rest n t, after = e :: rest ∧ e.destroyed ∧ (createCalls before).getLast? = some (n, t) ∧
        requests rest = [.create (sessionSettings subsystemName n t)])

def early : List Event → Bool
  | [] => false
  | e :: log => early log || (e.issuesCreate && !log.any Event.destroyed)

def Spoiled (log : List Event) : Prop :=
  early log ∨ 2 ≤ creates log

theorem early_append (new log : List Event) (h : early log) : early (new ++ log) := by
  induction new with
  | nil => exact h
  | cons e new ih =>
    rw [List.cons_append, early, ih]
    rfl

theorem creates_append (new log : List Event) : creates (new ++ log) = creates new + creates log := by
  simp [creates]

theorem Spoiled.append {log : List Event} (new : List Event) (h : Spoiled log)
    : Spoiled (new ++ log) := by
  rcases h with h | h
  . exact Or.inl (early_append new log h)
  . right
    rw [creates_append]
    omega

/-!
While the `DestroySession` of the outer `CreateSession` has not returned, the activations above the
latter wait for the destroy to succeed, or are on their way to a second create request.
-/

inductive Inner (s : State) (log : List Event) (up : List Frame) : Prop where
  | early (h : early log)
  | created (h : 1 ≤ creates log)
  | waiting (hlog : log.any Event.destroyed = false) (hflag : s.bCreateSessionOnDestroy = true)
      (hup : ∀ handles, .completing (.destroy true) handles ∉ up)
  | recreating (handle : Nat) (handles : List Nat) (rest : List Frame)
      (hup : up = .completing (.destroy true) (handle :: handles) :: rest)
      (hflag : s.bCreateSessionOnDestroy = true) (hsession : s.namedSession = none)
  | creating (n : Int) (t : String) (rest : List Frame) (hup : up = .createSession n t :: rest)
      (hsession : s.namedSession = none)
  | requesting (n : Int) (t : String) (rest : List Frame) (hup : up = .createSessionRest n t :: rest)

inductive Stage (n : Int) (t : String) (s : State) (log : List Event) : Prop where
  | entered (hstack : s.stack = [.createSession n t]) (hsession : s.namedSession.isSome)
      (hlog : log.any Event.destroyed = false)
  | inside (up : List Frame) (hstack : s.stack = up ++ [.createSessionRest n t])
      (h : Inner s log up)
  | spoiled (h : Spoiled log)

theorem Transition.stack_eq {s s' : State} {m : Move} (ht : Transition s m s')
    : ∃ new, s'.stack = new ++ s.stack ∨ ∃ f stack, s.stack = f :: stack ∧ s'.stack = new ++ stack := by
  cases ht with
  | call c hturn => exact ⟨[c.frame], Or.inl rfl⟩
  | complete i p o hturn hp => exact ⟨[.completing o (s.delegates o.kind).handles], Or.inl rfl⟩
  | refuse r b stack hstack => exact ⟨[_], Or.inr ⟨_, stack, hstack, rfl⟩⟩
  | accept r b stack hstack hsession => exact ⟨[_], Or.inr ⟨_, stack, hstack, rfl⟩⟩
  | replace n t stack hstack hsession => exact ⟨[_, _], Or.inr ⟨_, stack, hstack, rfl⟩⟩
  | create n t stack hstack hsession => exact ⟨[_], Or.inr ⟨_, stack, hstack, rfl⟩⟩
  | join r stack hstack => exact ⟨[_], Or.inr ⟨_, stack, hstack, rfl⟩⟩
  | register f r stack hstack hf hcreate settings search nextId =>
    exact ⟨[_], Or.inr ⟨_, stack, hstack, rfl⟩⟩
  | callback o handle handles stack hstack hflag =>
    exact ⟨[_, _], Or.inr ⟨_, stack, hstack, rfl⟩⟩
  | recreate handle handles stack hstack hflag =>
    exact ⟨[_, _, _], Or.inr ⟨_, stack, hstack, rfl⟩⟩
  | broadcast o stack hstack => exact ⟨[_], Or.inr ⟨_, stack, hstack, rfl⟩⟩
  | pop f stack hstack hf => exact ⟨[], Or.inr ⟨f, stack, hstack, rfl⟩⟩

theorem Transition.stack_above {s s' : State} {m : Move} (ht : Transition s m s') {f base : Frame}
    {up : List Frame} (hstack : s.stack = f :: up ++ [base]) : ∃ up', s'.stack = up' ++ [base] := by
  obtain ⟨new, heq | ⟨g, stack, hg, heq⟩⟩ := ht.stack_eq
  . exact ⟨new ++ f :: up, by rw [heq, hstack, List.append_assoc]⟩
  . rw [hstack, List.cons_append, List.cons.injEq] at hg
    exact ⟨new ++ up, by rw [heq, ← hg.2, List.append_assoc]⟩

theorem Transition.log_eq {s s' : State} {m : Move} (ht : Transition s m s')
    : ∃ new, s'.log = new ++ s.log := by
  cases ht with
  | call c hturn => exact ⟨[.called c], rfl⟩
  | complete i p o hturn hp => exact ⟨[.completed p.request o], rfl⟩
  | register f r stack hstack hf hcreate settings search nextId => exact ⟨[.requested r _], rfl⟩
  | broadcast o stack hstack => exact ⟨[.broadcast o], rfl⟩
  | _ => exact ⟨[], rfl⟩

section Inner

variable {s s' : State} {m : Move} {log : List Event} {f base : Frame} {up : List Frame}
  (ht : Transition s m s') (hstack : s.stack = f :: up ++ [base])

include ht hstack

-- A successful destroy finds the flag set and the callback registered.
theorem Inner.step_waiting (hhandles : s.outstanding .destroy ≠ [] → (s.delegates .destroy).handles ≠ [])
    (hlog : log.any Event.destroyed = false) (hflag : s.bCreateSessionOnDestroy = true)
    (hup : ∀ handles, .completing (.destroy true) handles ∉ f :: up)
    : ∃ new up', s'.log = new ++ s.log ∧ s'.stack = up' ++ [base] ∧ Inner s' (new ++ log) up' := by
  have htop {g : Frame} {stack : List Frame} (hg : s.stack = g :: stack)
      : g = f ∧ stack = up ++ [base] := by
    rw [hstack, List.cons_append, List.cons.injEq] at hg
    exact ⟨hg.1.symm, hg.2.symm⟩
  simp only [List.mem_cons, not_or] at hup
  cases ht with
  | call c hturn =>
    refine ⟨[.called c], c.frame :: f :: up, rfl, by simp [hstack], ?_⟩
    apply Inner.waiting
    . simpa [Event.destroyed] using hlog
    . exact hflag
    . intro handles
      have : .completing (.destroy true) handles ≠ c.frame := by cases c <;> simp [Call.frame]
      simp [this, hup handles]
  | complete i p o hturn hp =>
    refine ⟨[.completed p.request o], .completing o (s.delegates o.kind).handles :: f :: up, rfl,
      by simp [hstack], ?_⟩
    by_cases ho : o = .destroy true
    . subst ho
      have hne : s.outstanding .destroy ≠ [] := by
        intro hnil
        simp [Outcome.kind, hnil] at hp
      obtain ⟨handle, handles, heq⟩ := List.exists_cons_of_ne_nil (hhandles hne)
      apply Inner.recreating handle handles (f :: up)
      . simp [Outcome.kind, heq]
      . exact hflag
      . rfl
    . apply Inner.waiting
      . have : (Event.completed p.request o).destroyed = false := by
          unfold Event.destroyed
          split <;> simp_all
        simpa [this] using hlog
      . exact hflag
      . intro handles
        have : Frame.completing (.destroy true) handles
            ≠ .completing o (s.delegates o.kind).handles := by
          simp [Ne.symm ho]
        simp [this, hup handles]
  | register g r stack hg hf hcreate settings search nextId =>
    obtain ⟨rfl, rfl⟩ := htop hg
    refine ⟨[.requested r s.namedSession.isSome], .request r _ :: up, rfl, rfl, ?_⟩
    cases r with
    | create settings =>
      apply Inner.created
      simp [creates, Event.issuesCreate]
    | _ =>
      apply Inner.waiting
      . simpa [Event.destroyed] using hlog
      . exact hflag
      . intro handles
        simp [(hup handles).2]
  | recreate handle handles stack hg hon =>
    obtain ⟨rfl, rfl⟩ := htop hg
    exact absurd rfl (hup (handle :: handles)).1
  | callback o handle handles stack hg hoff =>
    obtain ⟨rfl, rfl⟩ := htop hg
    refine ⟨[], [.broadcast (o.announced s), .completing o handles] ++ up, rfl, rfl, ?_⟩
    refine Inner.waiting hlog hflag ?_
    intro rest
    have : o ≠ .destroy true := by
      rintro rfl
      exact (hup (handle :: handles)).1 rfl
    simp [(hup rest).2, Ne.symm this]
  | refuse r b stack hg =>
    obtain ⟨rfl, rfl⟩ := htop hg
    exact ⟨[], .broadcast r.refusal :: up, rfl, rfl, .waiting hlog hflag (by simp [hup])⟩
  | accept r b stack hg hsession =>
    obtain ⟨rfl, rfl⟩ := htop hg
    exact ⟨[], .serving :: up, rfl, rfl, .waiting hlog hflag (by simp [hup])⟩
  | replace n t stack hg hsession =>
    obtain ⟨rfl, rfl⟩ := htop hg
    exact ⟨[], [.destroySession, .createSessionRest n t] ++ up, rfl, rfl,
      .waiting hlog rfl (by simp [hup])⟩
  | create n t stack hg hsession =>
    obtain ⟨rfl, rfl⟩ := htop hg
    exact ⟨[], .createSessionRest n t :: up, rfl, rfl, .waiting hlog hflag (by simp [hup])⟩
  | join r stack hg =>
    obtain ⟨rfl, rfl⟩ := htop hg
    exact ⟨[], .joinSessionRest r :: up, rfl, rfl, .waiting hlog hflag (by simp [hup])⟩
  | broadcast o stack hg =>
    obtain ⟨rfl, rfl⟩ := htop hg
    exact ⟨[.broadcast o], .listeners o :: up, rfl, rfl,
      .waiting (by simpa [Event.destroyed] using hlog) hflag (by simp [hup])⟩
  | pop g stack hg hf =>
    obtain ⟨rfl, rfl⟩ := htop hg
    exact ⟨[], up, rfl, rfl, .waiting hlog hflag (by simp [hup])⟩

theorem Inner.step (hhandles : s.outstanding .destroy ≠ [] → (s.delegates .destroy).handles ≠ [])
    (h : Inner s log (f :: up))
    : ∃ new up', s'.log = new ++ s.log ∧ s'.stack = up' ++ [base] ∧ Inner s' (new ++ log) up' := by
  cases h with
  | early h =>
    obtain ⟨up', hup'⟩ := ht.stack_above hstack
    obtain ⟨new, hnew⟩ := ht.log_eq
    exact ⟨new, up', hnew, hup', .early (early_append new log h)⟩
  | created h =>
    obtain ⟨up', hup'⟩ := ht.stack_above hstack
    obtain ⟨new, hnew⟩ := ht.log_eq
    refine ⟨new, up', hnew, hup', .created ?_⟩
    rw [creates_append]
    omega
  | waiting hlog hflag hup => exact Inner.step_waiting ht hstack hhandles hlog hflag hup
  | recreating handle handles rest hup hflag hsession =>
    rw [hup, List.cons_append] at hstack
    obtain ⟨hlog, hnone, hstack'⟩ := ht.of_destroyed hstack hflag
    rw [hsession] at hnone
    exact ⟨[], [_, _, _] ++ rest, hlog, hstack', .creating _ _ _ rfl hnone⟩
  | creating n t rest hup hsession =>
    rw [hup, List.cons_append] at hstack
    obtain ⟨hlog, ⟨hsome, _⟩ | ⟨_, hstack'⟩⟩ := ht.of_createSession hstack
    . simp [hsession] at hsome
    . exact ⟨[], .createSessionRest n t :: rest, hlog, hstack', .requesting n t rest rfl⟩
  | requesting n t rest hup =>
    rw [hup, List.cons_append] at hstack
    obtain ⟨hlog, b, hstack'⟩ := ht.of_createSessionRest hstack
    refine ⟨[_], _ :: rest, hlog, hstack', .created ?_⟩
    simp [creates, Event.issuesCreate]

end Inner

-- The outer `CreateSession` goes on, whatever its `DestroySession` has led to.
theorem spoiled_of_inner {s : State} {log : List Event} (h : Inner s log [])
    (settings : SessionSettings) (bSessionExists : Bool)
    : Spoiled (.requested (.create settings) bSessionExists :: log) := by
  cases h with
  | early h =>
    left
    simp [early, h]
  | created h =>
    right
    have : creates (.requested (.create settings) bSessionExists :: log) = creates log + 1 :=
      List.countP_cons_of_pos rfl
    omega
  | waiting hlog hflag hup =>
    left
    simp [early, hlog, Event.issuesCreate]
  | recreating handle handles rest hup => cases hup
  | creating k u rest hup => cases hup
  | requesting k u rest hup => cases hup

theorem Stage.step {n : Int} {t : String} {s s' : State} {m : Move} {log : List Event}
    (hhandles : s.outstanding .destroy ≠ [] → (s.delegates .destroy).handles ≠ [])
    (ht : Transition s m s') (h : Stage n t s log)
    : ∃ new, s'.log = new ++ s.log ∧ Stage n t s' (new ++ log) := by
  cases h with
  | entered hstack hsession hlog =>
    obtain ⟨hlog', ⟨_, hflag, hstack'⟩ | ⟨hnone, _⟩⟩ := ht.of_createSession hstack
    . refine ⟨[], hlog', .inside [.destroySession] hstack' ?_⟩
      exact .waiting hlog hflag (by simp)
    . simp [hnone] at hsession
  | inside up hstack h =>
    cases up with
    | nil =>
      obtain ⟨hlog, b, _⟩ := ht.of_createSessionRest hstack
      exact ⟨[_], hlog, .spoiled (spoiled_of_inner h _ _)⟩
    | cons f up =>
      obtain ⟨new, up', hnew, hup', hinner⟩ := Inner.step ht hstack hhandles h
      exact ⟨new, hnew, .inside up' hup' hinner⟩
  | spoiled h =>
    obtain ⟨new, hnew⟩ := ht.log_eq
    exact ⟨new, hnew, .spoiled (h.append new)⟩

theorem Stage.spoiled_of_returned {n : Int} {t : String} {s : State} {log : List Event}
    (h : Stage n t s log) (hstack : s.stack = []) : Spoiled log := by
  cases h with
  | entered h _ _ => simp [hstack] at h
  | inside up h _ => simp [hstack] at h
  | spoiled h => exact h

theorem early_of_no_create {log : List Event} (h : creates log = 0) : early log = false := by
  induction log with
  | nil => rfl
  | cons e log ih =>
    simp only [creates, List.countP_cons] at h ih
    split at h
    . omega
    . next he =>
      rw [early, ih h]
      simp [he]

theorem early_append_of_destroyed (new : List Event) {log : List Event}
    (hdestroyed : log.any Event.destroyed) : early (new ++ log) = early log := by
  induction new with
  | nil => rfl
  | cons e new ih =>
    rw [List.cons_append, early, ih, List.any_append, hdestroyed]
    simp

theorem creates_reverse (trace : List Event) : creates trace.reverse = creates trace := by
  simp [creates]

theorem creates_eq_countP_requests (trace : List Event)
    : creates trace = (requests trace).countP (· ≠ .destroy) := by
  induction trace with
  | nil => rfl
  | cons e trace ih =>
    have hcons : creates (e :: trace) = creates trace + if e.issuesCreate then 1 else 0 :=
      List.countP_cons
    rw [hcons, ih]
    cases e with
    | requested r b => cases r <;> simp [requests, Event.issuesCreate]
    | _ => simp [requests, Event.issuesCreate]

theorem not_destroyThenCreate_of_spoiled {subsystemName : String} {log : List Event}
    (h : Spoiled log) : ¬DestroyThenCreate subsystemName log.reverse := by
  rintro ⟨before, after, htrace, hbefore, hne, hdestroy, hle, hafter⟩
  have hlog : log = after.reverse ++ before.reverse := by
    rw [← List.reverse_append, ← htrace, List.reverse_reverse]
  have hnone : creates before.reverse = 0 := by
    rw [creates_reverse, creates_eq_countP_requests, List.countP_eq_zero]
    simpa using hdestroy
  rcases hafter with rfl | ⟨e, rest, n, t, rfl, he, hlast, hrest⟩
  . rw [hlog, List.reverse_nil, List.nil_append] at h
    rcases h with h | h
    . rw [early_of_no_create hnone] at h
      cases h
    . omega
  . have hone : creates rest = 1 := by
      rw [creates_eq_countP_requests, hrest]
      rfl
    have hzero : creates (e :: before.reverse) = 0 := by
      have : e.issuesCreate = false := by
        unfold Event.destroyed at he
        split at he
        . rfl
        . cases he
      simpa [creates, this] using hnone
    rw [hlog, List.reverse_cons, List.append_assoc, List.singleton_append] at h
    rcases h with h | h
    . rw [early_append_of_destroyed _ (by simp [he]), early_of_no_create hzero] at h
      cases h
    . rw [creates_append, creates_reverse] at h
      omega

theorem spoiled_of_run {s s' : State} {n : Int} {t : String} {ms : List Move}
    (hvalid : s.sessionInterface = true) (hstack : s.stack = []) (hsession : s.namedSession.isSome)
    (hout : s.outstanding .destroy = [])
    (hrun : machine.run s (.call (.createSession n t) :: ms) = some s') (hreturned : s'.stack = [])
    : ∃ log, s'.log = log ++ s.log ∧ Spoiled log := by
  obtain ⟨r, hr, hrest⟩ := machine.run_cons.mp hrun
  have ht := transition_of_step hvalid hr
  have haccounted : Accounted .destroy s := by
    left
    constructor
    . exact hout
    . simp [hstack]
  have hentered : r.log = [.called (.createSession n t)] ++ s.log ∧
      Stage n t r [.called (.createSession n t)] := by
    cases ht with
    | call c hturn => exact ⟨rfl, .entered (by simp [hstack, Call.frame]) hsession rfl⟩
  have hinv := Machine.run_invariant_of_step
    (I := fun u => u.sessionInterface = true ∧ Accounted .destroy u ∧
      ∃ log, u.log = log ++ s.log ∧ Stage n t u log) ?_
    ⟨sessionInterface_step hvalid hr, haccounted.step ht, _, hentered⟩ hrest
  . obtain ⟨_, _, log, heq, hstage⟩ := hinv
    exact ⟨log, heq, hstage.spoiled_of_returned hreturned⟩
  . rintro u m u' ⟨hu, haccounted, log, heq, hstage⟩ hstep
    have ht := transition_of_step hu hstep
    obtain ⟨new, hnew, hstage'⟩ := hstage.step haccounted.handles_ne_nil ht
    refine ⟨sessionInterface_step hu hstep, haccounted.step ht, new ++ log, ?_, hstage'⟩
    rw [hnew, heq, List.append_assoc]

theorem since_eq {s s' : State} {log : List Event} (h : s'.log = log ++ s.log)
    : since s s' = log.reverse := by
  simp [since, h]

-- Whatever the service does, `CreateSession` on an existing session is not the two-step program.
theorem not_destroyThenCreate (s s' : State) (n : Int) (t : String) (ms : List Move)
    (hvalid : s.sessionInterface = true) (hstack : s.stack = []) (hsession : s.namedSession.isSome)
    (hout : ∀ k, s.outstanding k = [])
    (hrun : machine.run s (.call (.createSession n t) :: ms) = some s') (hreturned : s'.stack = [])
    : ¬DestroyThenCreate s.subsystemName (since s s') := by
  obtain ⟨log, hlog, hspoiled⟩ :=
    spoiled_of_run hvalid hstack hsession (hout .destroy) hrun hreturned
  rw [since_eq hlog]
  apply not_destroyThenCreate_of_spoiled hspoiled

theorem not_destroyThenCreate_destroy_outstanding
    : ∃ s', machine.run (initial "NULL" true true) [.call (.createSession 4 "FreeForAll"), .resume,
        .resume, .accept, .resume, .resume, .refuse, .resume, .resume] = some s' ∧
      ¬DestroyThenCreate "NULL" (since (initial "NULL" true true) s') := by
  obtain ⟨s', hrun, hstack⟩ := Option.map_eq_some_iff.mp
    (show (machine.run (initial "NULL" true true) [.call (.createSession 4 "FreeForAll"), .resume,
      .resume, .accept, .resume, .resume, .refuse, .resume, .resume]).map (·.stack) = some [] by decide)
  refine ⟨s', hrun, ?_⟩
  exact not_destroyThenCreate (initial "NULL" true true) s' 4 "FreeForAll" _ rfl rfl rfl
    (fun _ => rfl) hrun hstack

-- The destroy succeeds inside the call: the inner and the outer `CreateSession` both ask for a session.
theorem not_forall_destroyThenCreate
    : ¬∀ (s s' : State) (n : Int) (t : String) (ms : List Move),
        s.sessionInterface = true → s.stack = [] → s.namedSession.isSome →
        (∀ k, s.outstanding k = []) →
        machine.run s (.call (.createSession n t) :: ms) = some s' → s'.stack = [] →
        DestroyThenCreate s.subsystemName (since s s') := by
  intro h
  obtain ⟨s', hrun, heq⟩ := Option.map_eq_some_iff.mp
    (show (machine.run (initial "NULL" true true)
        [.call (.createSession 4 "FreeForAll"), .resume, .resume, .accept,
          .complete 0 (.destroy true), .resume, .resume, .resume, .accept, .resume, .resume, .resume,
          .resume, .resume, .resume, .refuse, .resume, .resume]).map
      (fun s => (s.stack, creates s.log)) = some ([], 2) by decide)
  simp only [Prod.mk.injEq] at heq
  have hspec := h (initial "NULL" true true) s' 4 "FreeForAll" _ rfl rfl rfl (fun _ => rfl) hrun
    heq.1
  have hspoiled : Spoiled s'.log := Or.inr (by omega)
  rw [since_eq (show s'.log = s'.log ++ (initial "NULL" true true).log by simp [initial])] at hspec
  apply not_destroyThenCreate_of_spoiled hspoiled hspec

end Sessions
