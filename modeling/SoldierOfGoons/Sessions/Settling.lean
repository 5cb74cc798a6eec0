import SoldierOfGoons.Sessions.Recreation
import SoldierOfGoons.Sessions.Forwarding
import SoldierOfGoons.Lib.Inevitability
import Mathlib.Algebra.Ring.Nat

/-!
What is left to do once nobody calls any more. The subsystem comes to rest whatever the service
answers and however its completions are nested, also from inside a request: the rank that goes down
has the searches and the re-creations that can still come about first, then the requests that are to
be made and answered, and then the callbacks and broadcasts that are running.

A re-creation takes the flag `bCreateSessionOnDestroy` off and a `CreateSession` that finds a session
puts it on again, but only as long as a session exists: none does after a destroy has succeeded.
-/

namespace Sessions

structure Settled (s : State) : Prop where
  stack : s.stack = []
  outstanding : ∀ k, s.outstanding k = []

-- A search counts until it is answered, less with each step on its way.
def Frame.searching : Frame → Nat
  | .findSessions _ => 3
  | .request r _ => if r.kind = .find then 2 else 0
  | _ => 0

def searches (s : State) : Nat :=
  (s.stack.map Frame.searching).sum + (s.outstanding .find).length

def armed (s : State) : Nat :=
  if s.bCreateSessionOnDestroy then 1 else 0

def existing (s : State) : Nat :=
  if s.namedSession.isSome then 1 else 0

-- How often the flag can still be taken off.
def recreations (s : State) : Nat :=
  match s.stack with
  | .createSession _ _ :: _ => armed s + existing s
  | .completing o handles :: _ =>
    if o = .destroy true ∧ handles ≠ [] ∧ s.namedSession = none then 0 else armed s
  | _ => armed s

-- The `CreateSession` that is about to look for an existing session.
def Frame.looks : Frame → List Call
  | .createSession n t => [.createSession n t]
  | _ => []

def Frame.destroyed : Frame → Nat
  | .completing o handles => if o = .destroy true then handles.length else 0
  | _ => 0

-- Each callback of a destroy that succeeded may start over, as long as there are re-creations left.
def retries (s : State) : Nat :=
  if recreations s = 0 then 0
  else 24 * (s.stack.map Frame.destroyed).sum + 12 * (top Frame.looks s.stack).length

-- An activation weighs more than those that it turns into.
def Frame.work : Frame → Nat
  | .createSession _ _ => 6
  | .createSessionRest _ _ => 3
  | .findSessions _ => 3
  | .joinSession _ => 6
  | .joinSessionRest _ => 3
  | .destroySession => 3
  | .request _ _ => 2
  -- The listener of a search may join what was found.
  | .completing o handles => if o.kind = .find then 9 * handles.length else 0
  | .broadcast o => if o.kind = .find then 9 else 0
  | _ => 0

def pending (outstanding : RequestKind → List Pending) : Nat :=
  (outstanding .create).length + (outstanding .find).length + (outstanding .join).length +
    (outstanding .destroy).length

def work (s : State) : Nat :=
  (s.stack.map Frame.work).sum + 9 * armed s + pending s.outstanding

-- Each registration is still to be called, which makes a broadcast.
def Frame.unwinding : Frame → Nat
  | .completing _ handles => 3 * handles.length + 1
  | .broadcast _ => 2
  | .listeners _ => 1
  | .serving => 1
  | _ => 0

def unwinding (s : State) : Nat :=
  (s.stack.map Frame.unwinding).sum

def rank (s : State) : Nat ×ₗ Nat ×ₗ Nat :=
  toLex (searches s + recreations s, toLex (retries s + work s, unwinding s))

theorem rank_lt {s s' : State} (hsearches : searches s' ≤ searches s)
    (hrecreations : recreations s' ≤ recreations s)
    (hwork : searches s' = searches s → recreations s' = recreations s →
      retries s' + work s' < retries s + work s ∨
        retries s' + work s' = retries s + work s ∧ unwinding s' < unwinding s)
    : rank s' < rank s := by
  unfold rank
  rw [Prod.Lex.toLex_lt_toLex']
  dsimp only
  refine ⟨Nat.add_le_add hsearches hrecreations, ?_⟩
  intro heq
  rw [Prod.Lex.toLex_lt_toLex]
  exact hwork (by omega) (by omega)

theorem pending_update (outstanding : RequestKind → List Pending) (k : RequestKind)
    (ps : List Pending)
    : pending (Function.update outstanding k ps) + (outstanding k).length
        =
      pending outstanding + ps.length := by
  cases k <;> simp [pending] <;> omega

theorem surfaces_looks : Surfaces Frame.looks := by
  constructor
  . rfl
  . intro o
    rfl
  . intro n t
    rfl
  . rfl
  . intro o
    rfl

section Step

variable {s s' : State} {m : Move}

theorem recreations_of_serviceTurn (h : serviceTurn s.stack) : recreations s = armed s := by
  rcases serviceTurn_cases h with hstack | ⟨f, rest, hstack, rfl | ⟨o, rfl⟩⟩ <;>
    simp [recreations, hstack]

theorem recreations_le (h : top Frame.looks s.stack = []) : recreations s ≤ armed s := by
  unfold recreations
  split
  . next hstack =>
    rw [hstack] at h
    cases h
  . split <;> omega
  . omega

theorem recreations_of_registers {f : Frame} {k : RequestKind} {stack : List Frame}
    (hf : f.registers = some k) (hstack : s.stack = f :: stack) : recreations s = armed s := by
  cases f <;> simp [Frame.registers] at hf <;> simp [recreations, hstack]

theorem recreations_of_completing {o : Outcome} {handle : Nat} {handles : List Nat}
    {stack : List Frame} (hstack : s.stack = .completing o (handle :: handles) :: stack)
    (hflag : o = .destroy true → s.bCreateSessionOnDestroy = false) : recreations s = armed s := by
  by_cases ho : o = .destroy true
  . simp [recreations, hstack, armed, hflag ho]
  . simp [recreations, hstack, ho]

theorem searches_step (hm : m.isCall = false) (ht : Transition s m s') : searches s' ≤ searches s := by
  unfold searches
  cases ht with
  | call c hturn => cases hm
  | complete i p o hturn hp =>
    by_cases ho : o.kind = .find
    . simp [Frame.searching, ho, List.length_eraseIdx]
      split <;> omega
    . simp [Frame.searching, Function.update_of_ne (Ne.symm ho)]
  | accept r b stack hstack hsession =>
    by_cases hr : r.kind = .find
    . simp [hstack, Frame.searching, hr]
      omega
    . simp [hstack, Frame.searching, hr, Function.update_of_ne (Ne.symm hr)]
  | register f r stack hstack hf hcreate settings search nextId =>
    by_cases hr : r.kind = .find
    . cases f <;> simp [Frame.registers, hr] at hf
      simp [hstack, Frame.searching, hr]
    . simp [hstack, Frame.searching, hr]
  | _ => simp [*, Frame.searching]

theorem recreations_step (hsurfaced : Surfaced Frame.looks s) (hm : m.isCall = false)
    (ht : Transition s m s') : recreations s' ≤ recreations s := by
  cases ht with
  | call c hturn => cases hm
  | complete i p o hturn hp =>
    rw [recreations_of_serviceTurn hturn]
    apply recreations_le
    rfl
  | replace n t stack hstack hsession =>
    simp [recreations, hstack, armed, existing, hsession]
  | recreate handle handles stack hstack hflag =>
    cases hsession : s.namedSession <;>
      simp [recreations, hstack, armed, existing, hflag, hsession]
  | pop f stack hstack hf =>
    have hpop : recreations { s with stack } ≤ armed s := recreations_le (hsurfaced.top_pop hstack)
    rcases hf with rfl | ⟨o, rfl⟩ | ⟨o, rfl⟩ <;> simpa [recreations, hstack] using hpop
  | register f r stack hstack hf hcreate settings search nextId =>
    rw [recreations_of_registers hf hstack]
    rfl
  | callback o handle handles stack hstack hflag =>
    rw [recreations_of_completing hstack hflag]
    rfl
  | _ => simp [recreations, *, armed, existing]

theorem pending_withdraw {outstanding : RequestKind → List Pending} {k : RequestKind} {i : Nat}
    {p : Pending} (hp : (outstanding k)[i]? = some p)
    : pending (Function.update outstanding k ((outstanding k).eraseIdx i)) + 1 = pending outstanding := by
  have hi : i < (outstanding k).length := (List.getElem?_eq_some_iff.mp hp).1
  have := pending_update outstanding k ((outstanding k).eraseIdx i)
  rw [List.length_eraseIdx_of_lt hi] at this
  omega

theorem pending_append (outstanding : RequestKind → List Pending) (k : RequestKind) (p : Pending)
    : pending (Function.update outstanding k (outstanding k ++ [p])) = pending outstanding + 1 := by
  have := pending_update outstanding k (outstanding k ++ [p])
  rw [List.length_append, List.length_singleton] at this
  omega

-- While the searches and the re-creations that can come about stay what they are.
theorem work_step (hsurfaced : Surfaced Frame.looks s) (hm : m.isCall = false)
    (ht : Transition s m s') (hsearches : searches s' = searches s)
    (hrecreations : recreations s' = recreations s)
    : retries s' + work s' < retries s + work s ∨
        retries s' + work s' = retries s + work s ∧ unwinding s' < unwinding s := by
  unfold retries
  rw [hrecreations]
  cases ht with
  | call c hturn => cases hm
  | complete i p o hturn hp =>
    left
    have hpending := pending_withdraw hp
    have hlooks := surfaces_looks.top_of_serviceTurn hturn
    have hi : i < (s.outstanding o.kind).length := (List.getElem?_eq_some_iff.mp hp).1
    have ho : o.kind ≠ .find := by
      intro ho
      simp only [ho] at hi
      simp [searches, Frame.searching, ho, List.length_eraseIdx_of_lt hi] at hsearches
      omega
    -- A destroy that succeeds leaves no session, so its callbacks would use up the re-creations.
    have hdestroyed : recreations s ≠ 0 →
        (Frame.completing o (s.delegates o.kind).handles).destroyed = 0 := by
      intro hne
      by_contra hcon
      apply hne
      rw [← hrecreations]
      by_cases hdestroy : o = .destroy true
      . subst hdestroy
        simp_all [recreations, Frame.destroyed, sessionAfter]
      . simp [Frame.destroyed, hdestroy] at hcon
    simp [work, Frame.work, Frame.looks, hlooks, armed, ho]
    split <;> omega
  | refuse r b stack hstack =>
    left
    have hr : r.kind ≠ .find := by
      intro hr
      simp [searches, hstack, Frame.searching, hr] at hsearches
    simp [hstack, Frame.destroyed, Frame.looks, work, Frame.work, armed, hr]
  | accept r b stack hstack hsession =>
    left
    have hpending := pending_append s.outstanding r.kind ⟨s.nextId, r, b⟩
    simp [hstack, Frame.destroyed, Frame.looks, work, Frame.work, armed, hpending]
    omega
  | replace n t stack hstack hsession =>
    left
    have hne : recreations s ≠ 0 := by
      simp [recreations, hstack, existing, hsession]
    simp [hstack, Frame.destroyed, Frame.looks, work, Frame.work, armed, hne]
    omega
  | recreate handle handles stack hstack hflag =>
    left
    simp [hstack, Frame.destroyed, Frame.looks, work, Frame.work, armed, hflag, Outcome.kind]
    split <;> omega
  | create n t stack hstack hsession =>
    left
    simp [hstack, Frame.destroyed, Frame.looks, work, Frame.work, armed]
    split <;> omega
  | join r stack hstack =>
    left
    simp [hstack, Frame.destroyed, Frame.looks, work, Frame.work, armed]
  | register f r stack hstack hf hcreate settings search nextId =>
    left
    cases f <;> simp [Frame.registers] at hf <;>
      simp [hstack, Frame.destroyed, Frame.looks, work, Frame.work, armed]
  | callback o handle handles stack hstack hflag =>
    right
    have hunwinding : (Frame.broadcast (o.announced s)).unwinding +
        (Frame.completing o handles).unwinding < (Frame.completing o (handle :: handles)).unwinding := by
      simp only [Frame.unwinding, List.length_cons]
      omega
    by_cases ho : o = .destroy true
    . have hzero : recreations s = 0 := by
        rw [recreations_of_completing hstack hflag]
        simp [armed, hflag ho]
      have hkind : o.kind ≠ .find := by simp [ho, Outcome.kind]
      simp [hstack, work, Frame.work, armed, unwinding, hzero, hkind]
      omega
    . simp [hstack, Frame.destroyed, Frame.looks, work, Frame.work, armed, unwinding, ho]
      split <;> omega
  | broadcast o stack hstack =>
    by_cases ho : o.kind = .find
    . left
      simp [hstack, Frame.destroyed, Frame.looks, work, Frame.work, armed, ho]
    . right
      simp [hstack, Frame.destroyed, Frame.looks, work, Frame.work, armed, unwinding, Frame.unwinding, ho]
  | pop f stack hstack hf =>
    right
    have htop := hsurfaced.top_pop hstack
    rcases hf with rfl | ⟨o, rfl⟩ | ⟨o, rfl⟩ <;>
      simp [hstack, Frame.destroyed, Frame.looks, work, Frame.work, armed, unwinding,
        Frame.unwinding, htop]

theorem rank_step (hsurfaced : Surfaced Frame.looks s) (hm : m.isCall = false)
    (ht : Transition s m s') : rank s' < rank s :=
  rank_lt (searches_step hm ht) (recreations_step hsurfaced hm ht) (work_step hsurfaced hm ht)

end Step

structure Settling (s : State) : Prop where
  valid : s.sessionInterface = true
  surfaced : Surfaced Frame.looks s

theorem settling_initial (subsystemName : String) (bSessionExists namesJoined : Bool)
    : Settling (initial subsystemName bSessionExists namesJoined) := by
  constructor
  . rfl
  . intro f hf
    cases hf

theorem Settling.step {s s' : State} {m : Move} (h : Settling s) (hstep : machine.step s m = some s')
    : Settling s' := by
  constructor
  . exact sessionInterface_step h.valid hstep
  . exact h.surfaced.step surfaces_looks (transition_of_step h.valid hstep) (fun _ _ _ _ _ => rfl)

theorem resume_ne_none {s : State} (hvalid : s.sessionInterface = true) {f : Frame}
    (hf : ∀ r b, f ≠ .request r b) : f.resume s ≠ none := by
  cases f with
  | request r b => exact absurd rfl (hf r b)
  | joinSessionRest r => simp [Frame.resume, joinSessionRest, hvalid]
  | completing o handles => cases handles <;> simp [Frame.resume]
  | _ => simp [Frame.resume]

theorem exists_outcome (k : RequestKind) : ∃ o : Outcome, o.kind = k := by
  cases k with
  | create => exact ⟨.create true, rfl⟩
  | find => exact ⟨.find [] true, rfl⟩
  | join => exact ⟨.join .success, rfl⟩
  | destroy => exact ⟨.destroy true, rfl⟩

-- The subsystem never waits for a call.
theorem Settling.next {s : State} (h : Settling s)
    : Settled s ∨ ∃ m s', m.isCall = false ∧ machine.step s m = some s' := by
  cases hstack : s.stack with
  | nil =>
    by_cases hout : ∀ k, s.outstanding k = []
    . exact Or.inl ⟨hstack, hout⟩
    . right
      obtain ⟨k, hk⟩ := not_forall.mp hout
      obtain ⟨o, rfl⟩ := exists_outcome k
      obtain ⟨p, ps, hp⟩ := List.exists_cons_of_ne_nil hk
      refine ⟨.complete 0 o, completed 0 p o s, rfl, ?_⟩
      simp [machine, Sessions.step, hstack, hp, serviceTurn, clientTurn]
  | cons f stack =>
    right
    by_cases hf : ∃ r b, f = .request r b
    . obtain ⟨r, b, rfl⟩ := hf
      refine ⟨.refuse, refused r { s with stack }, rfl, ?_⟩
      simp [machine, Sessions.step, hstack]
    . obtain ⟨s', hs'⟩ := Option.ne_none_iff_exists'.mp
        (resume_ne_none (s := { s with stack }) h.valid (by simpa using hf))
      refine ⟨.resume, s', rfl, ?_⟩
      simp [machine, Sessions.step, hstack, hs']

/--
As long as nobody calls, the subsystem comes to rest, with nothing running and nothing outstanding,
however the service answers what is asked of it and whenever it completes what is outstanding.
-/
theorem settled_of_run (subsystemName : String) (bSessionExists namesJoined : Bool) (ms : List Move)
    : machine.Always (machine.Inevitably (fun m => m.isCall = false) Settled)
        (initial subsystemName bSessionExists namesJoined) ms := by
  apply Machine.always_of_along (G := fun _ _ => True) (I := Settling)
  . exact fun h _ hstep => h.step hstep
  . intro s h
    apply Machine.inevitably_of_rank (I := Settling) rank
    . exact fun h _ hstep => h.step hstep
    . exact fun h hm hstep => rank_step h.surfaced hm (transition_of_step h.valid hstep)
    . exact Settling.next
    . exact h
  . exact settling_initial subsystemName bSessionExists namesJoined
  . exact machine.along_true _ ms

end Sessions
