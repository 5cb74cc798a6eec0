import SoldierOfGoons.Sessions.Registration
import Mathlib.Algebra.Ring.Nat

/-!
Requests and answers. Each call of a public function owes one broadcast of its kind. What is owed is
carried by exactly one activation or one outstanding request until the broadcast is made.
-/

namespace Sessions

def calls (k : RequestKind) (log : List Event) : Nat :=
  log.countP fun
    | .called c => c.kind = k
    | _ => false

def answers (k : RequestKind) (log : List Event) : Nat :=
  log.countP fun
    | .broadcast o => o.kind = k
    | _ => false

def awaiting (k : RequestKind) : List Event → Bool
  | [] => false
  | .called c :: log => if c.kind = k then true else awaiting k log
  | .broadcast o :: log => if o.kind = k then false else awaiting k log
  | _ :: log => awaiting k log

section Log

variable (k : RequestKind) (log : List Event)

@[simp]
theorem calls_called (c : Call)
    : calls k (.called c :: log) = calls k log + if c.kind = k then 1 else 0 := by
  simp [calls, List.countP_cons]

@[simp]
theorem calls_requested (r : Request) (b : Bool)
    : calls k (.requested r b :: log) = calls k log := by
  simp [calls]

@[simp]
theorem calls_completed (r : Request) (o : Outcome)
    : calls k (.completed r o :: log) = calls k log := by
  simp [calls]

@[simp]
theorem calls_broadcast (o : Outcome) : calls k (.broadcast o :: log) = calls k log := by
  simp [calls]

@[simp]
theorem answers_called (c : Call) : answers k (.called c :: log) = answers k log := by
  simp [answers]

@[simp]
theorem answers_requested (r : Request) (b : Bool)
    : answers k (.requested r b :: log) = answers k log := by
  simp [answers]

@[simp]
theorem answers_completed (r : Request) (o : Outcome)
    : answers k (.completed r o :: log) = answers k log := by
  simp [answers]

@[simp]
theorem answers_broadcast (o : Outcome)
    : answers k (.broadcast o :: log) = answers k log + if o.kind = k then 1 else 0 := by
  simp [answers, List.countP_cons]

@[simp]
theorem awaiting_called (c : Call)
    : awaiting k (.called c :: log) = if c.kind = k then true else awaiting k log := rfl

@[simp]
theorem awaiting_requested (r : Request) (b : Bool)
    : awaiting k (.requested r b :: log) = awaiting k log := rfl

@[simp]
theorem awaiting_completed (r : Request) (o : Outcome)
    : awaiting k (.completed r o :: log) = awaiting k log := rfl

@[simp]
theorem awaiting_broadcast (o : Outcome)
    : awaiting k (.broadcast o :: log) = if o.kind = k then false else awaiting k log := rfl

end Log

def Polite (s : State) : Move → Prop
  | .call c => awaiting c.kind s.log = false
  | _ => True

instance (s : State) (m : Move) : Decidable (Polite s m) := by
  cases m <;> simp only [Polite] <;> infer_instance

-- `OnDestroySessionComplete` is about to call `CreateSession`.
def recreates (s : State) (m : Move) : Bool :=
  match m, s.stack with
  | .resume, .completing (.destroy true) (_ :: _) :: _ => s.bCreateSessionOnDestroy
  | _, _ => false

theorem recreates_spec {s : State} {m : Move} (h : recreates s m = true)
    : m = .resume ∧ s.bCreateSessionOnDestroy = true ∧ ∃ handle handles stack,
        s.stack = .completing (.destroy true) (handle :: handles) :: stack := by
  unfold recreates at h
  split at h
  . next handle handles stack hstack => exact ⟨rfl, h, handle, handles, stack, hstack⟩
  . cases h

def Frame.owes (k : RequestKind) : Frame → Nat
  | .createSession _ _ => if RequestKind.create = k then 1 else 0
  | .createSessionRest _ _ => if RequestKind.create = k then 1 else 0
  | .findSessions _ => if RequestKind.find = k then 1 else 0
  | .joinSession _ => if RequestKind.join = k then 1 else 0
  | .joinSessionRest _ => if RequestKind.join = k then 1 else 0
  | .destroySession => if RequestKind.destroy = k then 1 else 0
  | .request r _ => if r.kind = k then 1 else 0
  | .serving => 0
  | .completing o handles => if o.kind = k then handles.length else 0
  | .broadcast o => if o.kind = k then 1 else 0
  | .listeners _ => 0

def owed (k : RequestKind) (s : State) : Nat :=
  (s.stack.map (Frame.owes k)).sum + (s.outstanding k).length

theorem owes_of_registers {f : Frame} {j : RequestKind} (k : RequestKind)
    (h : f.registers = some j) : f.owes k = if j = k then 1 else 0 := by
  cases f <;> cases h <;> rfl

theorem owes_frame (k : RequestKind) (c : Call) : c.frame.owes k = if c.kind = k then 1 else 0 := by
  cases c <;> rfl

structure Paired (k : RequestKind) (s : State) : Prop where
  tidy : Tidy k s
  balance : calls k s.log = answers k s.log + owed k s
  owed_eq : owed k s = if awaiting k s.log then 1 else 0

theorem Paired.owed_le_one {k : RequestKind} {s : State} (h : Paired k s) : owed k s ≤ 1 := by
  rw [h.owed_eq]
  split <;> omega

theorem Paired.adds_when_idle {k : RequestKind} {s s' : State} {m : Move} (h : Paired k s)
    (ht : Transition s m s') (hadd : adding s m = some k) : s.outstanding k = [] := by
  have hle := h.owed_le_one
  unfold adding at hadd
  split at hadd
  . next f stack hstack =>
    have howes := owes_of_registers k hadd
    rw [if_pos rfl] at howes
    simp only [owed, hstack, List.map_cons, List.sum_cons, howes] at hle
    apply List.eq_nil_of_length_eq_zero (by omega)
  . cases hadd

theorem Paired.of_owed {k : RequestKind} {s s' : State} (h : Paired k s) (htidy : Tidy k s')
    (howed : owed k s' = owed k s) (hcalls : calls k s'.log = calls k s.log)
    (hanswers : answers k s'.log = answers k s.log)
    (hawaiting : awaiting k s'.log = awaiting k s.log) : Paired k s' := by
  constructor
  . exact htidy
  . rw [hcalls, hanswers, howed]
    apply h.balance
  . rw [howed, hawaiting]
    apply h.owed_eq

theorem Paired.step {k : RequestKind} (hk : k ≠ .destroy) {s s' : State} {m : Move}
    (h : Paired k s) (hpolite : Polite s m) (hrecreates : recreates s m = false)
    (ht : Transition s m s') : Paired k s' := by
  have htidy : Tidy k s' := h.tidy.step ht (h.adds_when_idle ht)
  have hle := h.owed_le_one
  cases ht with
  | call c hturn =>
    by_cases hc : c.kind = k
    . have hfree : owed k s = 0 := by
        have := h.owed_eq
        subst hc
        simpa [show awaiting c.kind s.log = false from hpolite] using this
      have hbalance := h.balance
      have howed : owed k { s with stack := c.frame :: s.stack, log := .called c :: s.log } = 1 := by
        unfold owed at hfree ⊢
        simp only [List.map_cons, List.sum_cons, owes_frame, hc, if_true]
        omega
      constructor
      . exact htidy
      . rw [howed]
        simp only [calls_called, answers_called, hc, if_true]
        omega
      . simp [howed, hc]
    . apply h.of_owed htidy
      . simp [owed, owes_frame, hc]
      . simp [hc]
      . simp
      . simp [hc]
  | complete i p o hturn hp =>
    apply h.of_owed htidy
    . by_cases hk : o.kind = k
      . subst hk
        have hi : i < (s.outstanding o.kind).length := (List.getElem?_eq_some_iff.mp hp).1
        have hlive : live o.kind s = (s.outstanding o.kind).length := by
          simp [live, topWeight_of_serviceTurn _ hturn]
        have hlen : (s.outstanding o.kind).length = 1 := by
          have := h.tidy.le_one
          omega
        have hone : (s.delegates o.kind).handles.length = 1 := by
          rw [h.tidy.handles, List.length_replicate]
          omega
        have : i = 0 := by omega
        simp [owed, Frame.owes, hone, hlen, this]
        omega
      . simp [owed, Frame.owes, hk, Function.update_of_ne (Ne.symm hk)]
    . simp
    . simp
    . simp
  | refuse r b stack hstack =>
    apply h.of_owed htidy
    . simp [owed, hstack, Frame.owes]
    . rfl
    . rfl
    . rfl
  | accept r b stack hstack hsession =>
    apply h.of_owed htidy
    . by_cases hr : r.kind = k
      . subst hr
        simp [owed, hstack, Frame.owes]
        omega
      . simp [owed, hstack, Frame.owes, hr, Function.update_of_ne (Ne.symm hr)]
    . rfl
    . rfl
    . rfl
  | replace n t stack hstack hsession =>
    apply h.of_owed htidy
    . simp [owed, hstack, Frame.owes, Ne.symm hk]
    . rfl
    . rfl
    . rfl
  | create n t stack hstack hsession =>
    apply h.of_owed htidy
    . simp [owed, hstack, Frame.owes]
    . rfl
    . rfl
    . rfl
  | join r stack hstack =>
    apply h.of_owed htidy
    . simp [owed, hstack, Frame.owes]
    . rfl
    . rfl
    . rfl
  | register f r stack hstack hf hcreate settings search nextId =>
    have hrequest : (Frame.request r (startedByCreateSession r stack)).owes k = f.owes k := by
      rw [owes_of_registers k hf]
      rfl
    apply h.of_owed htidy
    . simp only [owed, hstack, List.map_cons, List.sum_cons, hrequest]
    . simp
    . simp
    . simp
  | callback o handle handles stack hstack hflag =>
    apply h.of_owed htidy
    . by_cases ho : o.kind = k
      . simp [owed, hstack, Frame.owes, ho]
        omega
      . simp [owed, hstack, Frame.owes, ho]
    . rfl
    . rfl
    . rfl
  | recreate handle handles stack hstack hflag =>
    simp [recreates, hstack, hflag] at hrecreates
  | broadcast o stack hstack =>
    by_cases ho : o.kind = k
    . have hone : owed k s = 1 := by
        simp only [owed, hstack, List.map_cons, List.sum_cons, Frame.owes, ho, if_true] at hle ⊢
        omega
      have howed : owed k { s with stack := .listeners o :: stack, log := .broadcast o :: s.log } = 0 := by
        simp only [owed, hstack, List.map_cons, List.sum_cons, Frame.owes, ho, if_true] at hone ⊢
        omega
      have hbalance := h.balance
      constructor
      . exact htidy
      . rw [howed]
        simp only [calls_broadcast, answers_broadcast, ho, if_true]
        omega
      . simp [howed, ho]
    . apply h.of_owed htidy
      . simp [owed, hstack, Frame.owes, ho]
      . simp
      . simp [ho]
      . simp [ho]
  | pop f stack hstack hf =>
    apply h.of_owed htidy
    . rcases hf with rfl | ⟨o, rfl⟩ | ⟨o, rfl⟩ <;> simp [owed, hstack, Frame.owes]
    . rfl
    . rfl
    . rfl

theorem paired_initial (subsystemName : String) (bSessionExists namesJoined : Bool) (k : RequestKind)
    : Paired k (initial subsystemName bSessionExists namesJoined) := by
  constructor
  . apply tidy_initial subsystemName bSessionExists namesJoined k
  . simp [initial, calls, answers, owed]
  . simp [initial, owed, awaiting]

structure AnswersPaired (s : State) : Prop where
  never_exceed : ∀ k, k ≠ .destroy → answers k s.log ≤ calls k s.log
  all_answered : s.stack = [] → ∀ k, k ≠ .destroy → s.outstanding k = [] →
    answers k s.log = calls k s.log

theorem answersPaired_of_paired {s : State} (h : ∀ k, k ≠ .destroy → Paired k s) : AnswersPaired s := by
  constructor
  . intro k hk
    have := (h k hk).balance
    omega
  . intro hstack k hk hout
    have := (h k hk).balance
    simp only [owed, hstack, hout, List.map_nil, List.sum_nil, List.length_nil] at this
    omega

/-!
Without any condition the broadcasts that were made or are owed are never fewer than the calls. A
`CreateSession` from `OnDestroySessionComplete` owes one more, and what is too much stays.
-/

theorem surplus_step {s s' : State} {m : Move} (hreached : Reached s) (ht : Transition s m s')
    : calls .create s'.log + (answers .create s.log + owed .create s) + (recreates s m).toNat
        ≤
      calls .create s.log + (answers .create s'.log + owed .create s') := by
  cases ht with
  | call c hturn =>
    simp only [owed, recreates, calls_called, answers_called, List.map_cons, List.sum_cons,
      owes_frame, Bool.toNat_false]
    omega
  | complete i p o hturn hp =>
    have hi : i < (s.outstanding o.kind).length := (List.getElem?_eq_some_iff.mp hp).1
    have hpos := hreached.handles_pos hp
    by_cases ho : o.kind = .create
    . rw [ho] at hi hpos
      simp only [owed, recreates, calls_completed, answers_completed, List.map_cons, List.sum_cons,
        Frame.owes, ho, if_true, Function.update_self, List.length_eraseIdx, hi, Bool.toNat_false]
      omega
    . simp [owed, recreates, Frame.owes, ho, Function.update_of_ne (Ne.symm ho)]
  | refuse r b stack hstack =>
    simp [owed, recreates, hstack, Frame.owes]
  | accept r b stack hstack hsession =>
    by_cases hr : r.kind = .create
    . simp [owed, recreates, hstack, Frame.owes, hr]
      omega
    . simp [owed, recreates, hstack, Frame.owes, hr, Function.update_of_ne (Ne.symm hr)]
  | replace n t stack hstack hsession => simp [owed, recreates, hstack, Frame.owes]
  | create n t stack hstack hsession => simp [owed, recreates, hstack, Frame.owes]
  | join r stack hstack => simp [owed, recreates, hstack, Frame.owes]
  | register f r stack hstack hf hcreate settings search nextId =>
    have hrequest : (Frame.request r (startedByCreateSession r stack)).owes .create = f.owes .create := by
      rw [owes_of_registers .create hf]
      rfl
    have hrecreates : recreates s .resume = false := by
      by_contra hrec
      obtain ⟨_, _, _, _, _, heq⟩ := recreates_spec (Bool.not_eq_false _ ▸ hrec)
      rw [hstack, List.cons.injEq] at heq
      rw [heq.1] at hf
      cases hf
    simp only [owed, hstack, List.map_cons, List.sum_cons, hrequest, hrecreates, calls_requested,
      answers_requested, Bool.toNat_false]
    omega
  | callback o handle handles stack hstack hflag =>
    have hrecreates : recreates s .resume = false := by
      by_contra hrec
      obtain ⟨_, hon, _, _, _, heq⟩ := recreates_spec (Bool.not_eq_false _ ▸ hrec)
      rw [hstack, List.cons.injEq, Frame.completing.injEq] at heq
      rw [hflag heq.1.1] at hon
      cases hon
    rw [hrecreates]
    by_cases ho : o.kind = .create
    . simp [owed, hstack, Frame.owes, ho]
      omega
    . simp [owed, hstack, Frame.owes, ho]
  | recreate handle handles stack hstack hflag =>
    simp only [owed, recreates, hstack, hflag, List.map_cons, List.sum_cons, Frame.owes,
      Outcome.kind, Bool.toNat_true, reduceCtorEq, if_true, if_false]
    omega
  | broadcast o stack hstack =>
    simp [owed, recreates, hstack, Frame.owes]
    omega
  | pop f stack hstack hf =>
    rcases hf with rfl | ⟨o, rfl⟩ | ⟨o, rfl⟩ <;> simp [owed, recreates, hstack, Frame.owes]

theorem answersPaired_of_not_recreates {subsystemName : String} {bSessionExists namesJoined : Bool}
    {ms : List Move}
    (hpolite : machine.Along Polite (initial subsystemName bSessionExists namesJoined) ms)
    (hrecreates : machine.Along (fun s m => recreates s m = false)
      (initial subsystemName bSessionExists namesJoined) ms)
    : machine.Always AnswersPaired (initial subsystemName bSessionExists namesJoined) ms := by
  apply Machine.always_of_along
    (I := fun s => Reached s ∧ ∀ k, k ≠ .destroy → Paired k s)
    (G := fun s m => Polite s m ∧ recreates s m = false)
  . rintro s m s' ⟨hreached, h⟩ ⟨hp, hr⟩ hstep
    refine ⟨hreached.step hstep, ?_⟩
    intro k hk
    exact (h k hk).step hk hp hr (hreached.transition hstep)
  . rintro s ⟨_, h⟩
    apply answersPaired_of_paired h
  . exact ⟨reached_initial subsystemName bSessionExists namesJoined,
      fun k _ => paired_initial subsystemName bSessionExists namesJoined k⟩
  . apply hpolite.and hrecreates

theorem not_recreates_of_answersPaired {subsystemName : String} {bSessionExists namesJoined : Bool}
    {ms : List Move} {s : State}
    (hrun : machine.run (initial subsystemName bSessionExists namesJoined) ms = some s)
    (hstack : s.stack = []) (hout : s.outstanding .create = []) (hpaired : AnswersPaired s)
    : machine.Along (fun s m => recreates s m = false)
        (initial subsystemName bSessionExists namesJoined) ms := by
  apply Machine.along_of_not_bad
    (I := fun s => Reached s ∧ calls .create s.log ≤ answers .create s.log + owed .create s)
    (B := fun s => calls .create s.log < answers .create s.log + owed .create s)
  . rintro s m s' ⟨hreached, h⟩ hstep
    have := surplus_step hreached (hreached.transition hstep)
    exact ⟨hreached.step hstep, by omega⟩
  . rintro s m s' ⟨hreached, h⟩ hrec hstep
    have := surplus_step hreached (hreached.transition hstep)
    rw [Bool.not_eq_false] at hrec
    rw [hrec, Bool.toNat_true] at this
    omega
  . rintro s m s' ⟨hreached, _⟩ h hstep
    have := surplus_step hreached (hreached.transition hstep)
    omega
  . exact ⟨reached_initial subsystemName bSessionExists namesJoined, Nat.zero_le _⟩
  . exact hrun
  . have := hpaired.never_exceed .create (by decide)
    simp only [owed, hstack, hout, List.map_nil, List.sum_nil, List.length_nil]
    omega

/--
Calls and answers pair up throughout a run in which no destroy succeeds while
`bCreateSessionOnDestroy` is set, and in no other run that comes to rest.
-/
theorem answersPaired_iff_not_recreates (subsystemName : String) (bSessionExists namesJoined : Bool)
    (ms : List Move)
    (hpolite : machine.Along Polite (initial subsystemName bSessionExists namesJoined) ms)
    : (machine.Along (fun s m => recreates s m = false)
          (initial subsystemName bSessionExists namesJoined) ms →
        machine.Always AnswersPaired (initial subsystemName bSessionExists namesJoined) ms) ∧
      ∀ s, machine.run (initial subsystemName bSessionExists namesJoined) ms = some s →
        s.stack = [] → s.outstanding .create = [] →
        (machine.Always AnswersPaired (initial subsystemName bSessionExists namesJoined) ms ↔
          machine.Along (fun s m => recreates s m = false)
            (initial subsystemName bSessionExists namesJoined) ms) := by
  refine ⟨answersPaired_of_not_recreates hpolite, ?_⟩
  intro s hrun hstack hout
  constructor
  . intro h
    apply not_recreates_of_answersPaired hrun hstack hout (h.last hrun)
  . apply answersPaired_of_not_recreates hpolite

-- The destroy is refused, so the only answer is the refusal of the create request.
theorem answersPaired_destroy_refused
    : machine.Always AnswersPaired (initial "NULL" true true)
        [.call (.createSession 4 "FreeForAll"), .resume, .resume, .refuse, .resume, .resume,
          .resume, .refuse, .resume, .resume] :=
  (answersPaired_iff_not_recreates _ _ _ _ (by decide)).1 (by decide)

-- The outer `CreateSession` goes on to a request that is refused, the inner one succeeds.
theorem not_answersPaired
    : ¬∀ (subsystemName : String) (bSessionExists namesJoined : Bool) (ms : List Move),
        machine.Along Polite (initial subsystemName bSessionExists namesJoined) ms →
          machine.Always AnswersPaired (initial subsystemName bSessionExists namesJoined) ms := by
  intro h
  have hrun := h "NULL" true true
    [.call (.createSession 4 "FreeForAll"), .resume, .resume, .accept, .resume, .resume, .refuse,
      .resume, .resume, .complete 0 (.destroy true), .resume, .resume, .resume, .accept, .resume,
      .resume, .resume, .resume, .complete 0 (.create true), .resume, .resume] (by decide)
  obtain ⟨s, hs, hcount⟩ := hrun.exists_map
    (fun s => (answers .create s.log, calls .create s.log)) (b := (2, 1)) (by decide)
  have := hs.never_exceed .create (by decide)
  simp only [Prod.mk.injEq] at hcount
  omega

end Sessions
