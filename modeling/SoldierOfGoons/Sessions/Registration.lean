import SoldierOfGoons.Sessions.Transition

/-!
The callbacks of the subsystem that are registered with the service, kind by kind. A kind is tidy
when each registration belongs to a request that is being made, is outstanding, or is completing,
and there is at most one. It is leaky when a registration is older than the one in the handle field:
nothing can clear it any more. The weight of an activation is the number of the registrations that
belong to it, `adding` is the kind of the delegate that a step is about to add.
-/

namespace Sessions

def Frame.weight (k : RequestKind) : Frame → Nat
  | .request r _ => if r.kind = k then 1 else 0
  | .completing o handles => if o.kind = k then handles.length else 0
  | _ => 0

def topWeight (k : RequestKind) : List Frame → Nat
  | [] => 0
  | f :: _ => f.weight k

@[simp]
theorem topWeight_nil (k : RequestKind) : topWeight k [] = 0 := rfl

@[simp]
theorem topWeight_cons (k : RequestKind) (f : Frame) (stack : List Frame)
    : topWeight k (f :: stack) = f.weight k := rfl

@[simp]
theorem weight_request (k : RequestKind) (r : Request) (b : Bool)
    : (Frame.request r b).weight k = if r.kind = k then 1 else 0 := rfl

@[simp]
theorem weight_completing (k : RequestKind) (o : Outcome) (handles : List Nat)
    : (Frame.completing o handles).weight k = if o.kind = k then handles.length else 0 := rfl

@[simp]
theorem weight_serving (k : RequestKind) : Frame.serving.weight k = 0 := rfl

@[simp]
theorem weight_broadcast (k : RequestKind) (o : Outcome) : (Frame.broadcast o).weight k = 0 := rfl

@[simp]
theorem weight_listeners (k : RequestKind) (o : Outcome) : (Frame.listeners o).weight k = 0 := rfl

@[simp]
theorem weight_frame (k : RequestKind) (c : Call) : c.frame.weight k = 0 := by
  cases c <;> rfl

theorem weight_of_registers {k j : RequestKind} {f : Frame} (h : f.registers = some j)
    : f.weight k = 0 := by
  cases f with
  | request => cases h
  | completing => cases h
  | _ => rfl

theorem serviceTurn_of_clientTurn {stack : List Frame} (h : clientTurn stack) : serviceTurn stack := by
  unfold serviceTurn
  split
  . rfl
  . exact h

theorem topWeight_of_serviceTurn (k : RequestKind) {stack : List Frame} (h : serviceTurn stack)
    : topWeight k stack = 0 := by
  unfold serviceTurn at h
  split at h
  . rfl
  . unfold clientTurn at h
    split at h
    . rfl
    . rfl
    . cases h

def live (k : RequestKind) (s : State) : Nat :=
  topWeight k s.stack + (s.outstanding k).length

structure Tidy (k : RequestKind) (s : State) : Prop where
  buried : ∀ f ∈ s.stack.tail, f.weight k = 0
  handles : (s.delegates k).handles = List.replicate (live k s) (s.handle k)
  le_one : live k s ≤ 1

def Leaky (k : RequestKind) (s : State) : Prop :=
  ∃ handle ∈ (s.delegates k).handles, handle < s.handle k

def adding (s : State) (m : Move) : Option RequestKind :=
  match m, s.stack with
  | .resume, f :: _ => f.registers
  | _, _ => none

theorem adding_resume {s : State} {f : Frame} {stack : List Frame} (h : s.stack = f :: stack)
    : adding s .resume = f.registers := by
  simp [adding, h]

theorem weight_stack {k : RequestKind} {stack : List Frame} (htop : topWeight k stack = 0)
    (h : ∀ f ∈ stack.tail, f.weight k = 0) : ∀ f ∈ stack, f.weight k = 0 := by
  cases stack with
  | nil => simp
  | cons f stack =>
    intro g hg
    rcases List.mem_cons.mp hg with rfl | hg
    . exact htop
    . apply h g hg

theorem tidy_of_eq {k : RequestKind} {s : State} (n : Nat) (hle : n ≤ 1)
    (hburied : ∀ f ∈ s.stack.tail, f.weight k = 0) (hlive : live k s = n)
    (hhandles : (s.delegates k).handles = List.replicate n (s.handle k)) : Tidy k s := by
  constructor
  . exact hburied
  . rw [hlive, hhandles]
  . omega

theorem Tidy.handles_clear {k : RequestKind} {s : State} (h : Tidy k s)
    : ((s.delegates k).clear (s.handle k)).handles = [] := by
  apply Registrations.handles_clear_of_subset
  rw [h.handles]
  intro a ha
  apply List.eq_of_mem_replicate ha

theorem Tidy.of_stack {k : RequestKind} {s s' : State} (h : Tidy k s)
    (hburied : ∀ f ∈ s'.stack.tail, f.weight k = 0)
    (htop : topWeight k s'.stack = topWeight k s.stack)
    (hout : s'.outstanding k = s.outstanding k) (hdel : s'.delegates k = s.delegates k)
    (hhandle : s'.handle k = s.handle k) : Tidy k s' := by
  apply tidy_of_eq (live k s) h.le_one hburied
  . unfold live
    rw [htop, hout]
  . rw [hdel, hhandle]
    apply h.handles

theorem Tidy.of_callback {k : RequestKind} {s s' : State} (h : Tidy k s) {o : Outcome}
    {handle : Nat} {handles : List Nat} {stack : List Frame}
    (hstack : s.stack = .completing o (handle :: handles) :: stack) (f : Frame) (fs : List Frame)
    (hstack' : s'.stack = f :: (fs ++ .completing o handles :: stack))
    (hf : ∀ g ∈ f :: fs, g.weight k = 0) (hout : s'.outstanding = s.outstanding)
    (hdel : s'.delegates =
      Function.update s.delegates o.kind ((s.delegates o.kind).clear (s.handle o.kind)))
    (hhandle : s'.handle = s.handle) : Tidy k s' := by
  have hburied := h.buried
  have hle := h.le_one
  have htop : topWeight k s'.stack = 0 := by
    rw [hstack']
    apply hf f (by simp)
  simp only [hstack, List.tail_cons] at hburied
  simp only [live, hstack, topWeight_cons, weight_completing] at hle
  have hrest : (Frame.completing o handles).weight k = 0 := by
    by_cases hk : o.kind = k
    . simp only [hk, if_true, List.length_cons] at hle
      simp only [weight_completing, hk, if_true]
      omega
    . simp [hk]
  have hburied' : ∀ g ∈ s'.stack.tail, g.weight k = 0 := by
    rw [hstack']
    intro g hg
    rcases List.mem_append.mp hg with hg | hg
    . apply hf g (List.mem_cons_of_mem f hg)
    . rcases List.mem_cons.mp hg with rfl | hg
      . exact hrest
      . apply hburied g hg
  by_cases hk : o.kind = k
  . subst hk
    simp only [if_true, List.length_cons] at hle
    apply tidy_of_eq 0 (Nat.zero_le 1) hburied'
    . unfold live
      rw [htop, hout]
      omega
    . simpa [hdel] using h.handles_clear
  . apply h.of_stack hburied'
    . simp [htop, hstack, hk]
    . rw [hout]
    . rw [hdel, Function.update_of_ne (Ne.symm hk)]
    . rw [hhandle]

theorem Tidy.step {k : RequestKind} {s s' : State} {m : Move} (h : Tidy k s)
    (ht : Transition s m s') (hadd : adding s m = some k → s.outstanding k = []) : Tidy k s' := by
  have hle := h.le_one
  have hburied := h.buried
  have hhandles := h.handles
  have hclear := h.handles_clear
  cases ht with
  | call c hturn =>
    have htop := topWeight_of_serviceTurn k (serviceTurn_of_clientTurn hturn)
    apply h.of_stack
    . apply weight_stack htop hburied
    . simp [htop]
    . rfl
    . rfl
    . rfl
  | complete i p o hturn hp =>
    have htop := topWeight_of_serviceTurn k hturn
    by_cases hk : o.kind = k
    . subst hk
      have hi : i < (s.outstanding o.kind).length := (List.getElem?_eq_some_iff.mp hp).1
      have hone : live o.kind s = 1 := by
        unfold live at hle ⊢
        omega
      have hlen : (s.outstanding o.kind).length = 1 := by
        unfold live at hone
        omega
      rw [hone] at hhandles
      apply tidy_of_eq 1 (Nat.le_refl 1)
      . apply weight_stack htop hburied
      . have : i = 0 := by omega
        simp [live, hhandles, hlen, this]
      . exact hhandles
    . apply h.of_stack
      . apply weight_stack htop hburied
      . simp [hk, htop]
      . simp [Function.update_of_ne (Ne.symm hk)]
      . rfl
      . rfl
  | refuse r b stack hstack =>
    rw [hstack] at hburied
    by_cases hk : r.kind = k
    . subst hk
      have hnone : (s.outstanding r.kind).length = 0 := by
        simp only [live, hstack, topWeight_cons, weight_request, if_true] at hle
        omega
      apply tidy_of_eq 0 (Nat.zero_le 1) hburied
      . simp [live, hnone]
      . simpa using hclear
    . apply h.of_stack hburied
      . simp [hstack, hk]
      . rfl
      . simp [Function.update_of_ne (Ne.symm hk)]
      . rfl
  | accept r b stack hstack hsession =>
    rw [hstack] at hburied
    by_cases hk : r.kind = k
    . subst hk
      simp only [live, hstack, topWeight_cons, weight_request, if_true] at hle hhandles
      apply tidy_of_eq (1 + (s.outstanding r.kind).length) hle hburied
      . simp [live, Nat.add_comm]
      . exact hhandles
    . apply h.of_stack hburied
      . simp [hstack, hk]
      . simp [Function.update_of_ne (Ne.symm hk)]
      . rfl
      . rfl
  | replace n t stack hstack hsession =>
    rw [hstack] at hburied
    apply h.of_stack
    . intro f hf
      rcases List.mem_cons.mp hf with rfl | hf
      . rfl
      . apply hburied f hf
    . simp only [hstack]
      rfl
    . rfl
    . rfl
    . rfl
  | create n t stack hstack hsession =>
    rw [hstack] at hburied
    exact h.of_stack hburied (by simp only [hstack]; rfl) rfl rfl rfl
  | join r stack hstack =>
    rw [hstack] at hburied
    exact h.of_stack hburied (by simp only [hstack]; rfl) rfl rfl rfl
  | register f r stack hstack hf hcreate settings search nextId =>
    rw [hstack] at hburied
    have hweight := weight_of_registers (k := k) hf
    by_cases hk : r.kind = k
    . subst hk
      have hnone : s.outstanding r.kind = [] := hadd (by rw [adding_resume hstack, hf])
      simp only [live, hstack, topWeight_cons, hweight, hnone, List.length_nil] at hhandles
      apply tidy_of_eq 1 (Nat.le_refl 1) hburied
      . simp [live, hnone]
      . simp [hhandles]
    . apply h.of_stack hburied
      . simp [hstack, hk, hweight]
      . rfl
      . simp [Function.update_of_ne (Ne.symm hk)]
      . simp [Function.update_of_ne (Ne.symm hk)]
  | callback o handle handles stack hstack hflag =>
    exact h.of_callback hstack (.broadcast (o.announced s)) [] rfl (by simp) rfl rfl rfl
  | recreate handle handles stack hstack hflag =>
    refine h.of_callback hstack (.createSession s.lastNumPublicConnections s.lastMatchType)
      [.broadcast (.destroy true)] rfl ?_ rfl rfl rfl
    simp [Frame.weight]
  | broadcast o stack hstack =>
    rw [hstack] at hburied
    exact h.of_stack hburied (by simp [hstack]) rfl rfl rfl
  | pop f stack hstack hf =>
    rw [hstack] at hburied
    have hweight : f.weight k = 0 := by
      rcases hf with rfl | ⟨o, rfl⟩ | ⟨o, rfl⟩ <;> simp
    have htop : topWeight k stack = 0 := by
      cases stack with
      | nil => rfl
      | cons g stack => exact hburied g (by simp)
    apply h.of_stack
    . intro g hg
      apply hburied g (List.mem_of_mem_tail hg)
    . simp [hstack, hweight, htop]
    . rfl
    . rfl
    . rfl

def Issued (k : RequestKind) (s : State) : Prop :=
  s.handle k < (s.delegates k).next

theorem Issued.step {k : RequestKind} {s s' : State} {m : Move} (h : Issued k s)
    (ht : Transition s m s') : Issued k s' := by
  unfold Issued at h ⊢
  cases ht with
  | register f r stack hstack hf hcreate settings search nextId =>
    by_cases hr : r.kind = k
    . subst hr
      simp
    . simpa [Function.update_of_ne (Ne.symm hr)] using h
  | refuse r b stack hstack =>
    by_cases hr : r.kind = k
    . subst hr
      simpa using h
    . simpa [Function.update_of_ne (Ne.symm hr)] using h
  | callback o handle handles stack hstack hflag =>
    by_cases ho : o.kind = k
    . subst ho
      simpa using h
    . simpa [Function.update_of_ne (Ne.symm ho)] using h
  | recreate handle handles stack hstack hflag =>
    by_cases ho : RequestKind.destroy = k
    . subst ho
      simpa using h
    . simpa [Function.update_of_ne (Ne.symm ho)] using h
  | _ => exact h

theorem Leaky.step {k : RequestKind} {s s' : State} {m : Move} (h : Leaky k s) (hissued : Issued k s)
    (ht : Transition s m s') : Leaky k s' := by
  obtain ⟨old, hmem, hlt⟩ := h
  have hclear : old ∈ ((s.delegates k).clear (s.handle k)).handles := by
    rw [Registrations.mem_clear]
    exact ⟨hmem, by omega⟩
  refine ⟨old, ?_⟩
  cases ht with
  | register f r stack hstack hf hcreate settings search nextId =>
    by_cases hr : r.kind = k
    . subst hr
      unfold Issued at hissued
      simp only [Function.update_self, Registrations.handles_add, List.mem_append]
      exact ⟨Or.inl hmem, by omega⟩
    . simpa [Function.update_of_ne (Ne.symm hr)] using ⟨hmem, hlt⟩
  | refuse r b stack hstack =>
    by_cases hr : r.kind = k
    . subst hr
      simpa using ⟨hclear, hlt⟩
    . simpa [Function.update_of_ne (Ne.symm hr)] using ⟨hmem, hlt⟩
  | callback o handle handles stack hstack hflag =>
    by_cases ho : o.kind = k
    . subst ho
      simpa using ⟨hclear, hlt⟩
    . simpa [Function.update_of_ne (Ne.symm ho)] using ⟨hmem, hlt⟩
  | recreate handle handles stack hstack hflag =>
    by_cases ho : RequestKind.destroy = k
    . subst ho
      simpa using ⟨hclear, hlt⟩
    . simpa [Function.update_of_ne (Ne.symm ho)] using ⟨hmem, hlt⟩
  | _ => exact ⟨hmem, hlt⟩

/-!
Adding a delegate while a request of its kind is outstanding is what makes a kind leaky, and the
only thing that does.
-/

theorem Tidy.adding_leaks {k : RequestKind} {s s' : State} {m : Move} (h : Tidy k s)
    (hissued : Issued k s) (ht : Transition s m s') (hadd : adding s m = some k)
    (hout : s.outstanding k ≠ [])
    : (s'.delegates k).handles = [s.handle k, s'.handle k] ∧ s.handle k < s'.handle k := by
  have hpos : 0 < (s.outstanding k).length := List.length_pos_iff.mpr hout
  cases ht with
  | register f r stack hstack hf hcreate settings search nextId =>
    rw [adding_resume hstack, hf] at hadd
    have hk : r.kind = k := by simpa using hadd
    subst hk
    have hone : live r.kind s = 1 := by
      have := h.le_one
      unfold live at this ⊢
      omega
    simpa [h.handles, hone] using show s.handle r.kind < (s.delegates r.kind).next from hissued
  | pop f stack hstack hf =>
    rw [adding_resume hstack] at hadd
    rcases hf with rfl | ⟨o, rfl⟩ | ⟨o, rfl⟩ <;> cases hadd
  | _ => simp_all [adding, Frame.registers]

theorem tidy_or_leaky_step {k : RequestKind} {s s' : State} {m : Move}
    (h : Tidy k s ∨ Leaky k s) (hissued : Issued k s) (ht : Transition s m s')
    : Tidy k s' ∨ Leaky k s' := by
  rcases h with h | h
  . by_cases hadd : adding s m = some k ∧ s.outstanding k ≠ []
    . right
      obtain ⟨hhandles, hlt⟩ := h.adding_leaks hissued ht hadd.1 hadd.2
      exact ⟨s.handle k, by simp [hhandles], hlt⟩
    . left
      apply h.step ht
      intro hk
      by_contra hout
      exact hadd ⟨hk, hout⟩
  . exact Or.inr (h.step hissued ht)

theorem handles_ne_nil_of_outstanding {k : RequestKind} {s : State} (h : Tidy k s ∨ Leaky k s)
    (hout : s.outstanding k ≠ []) : (s.delegates k).handles ≠ [] := by
  have hpos : 0 < (s.outstanding k).length := List.length_pos_iff.mpr hout
  rcases h with h | ⟨old, hmem, hlt⟩
  . rw [h.handles, Ne, List.replicate_eq_nil_iff]
    unfold live
    omega
  . apply List.ne_nil_of_mem hmem

/-!
A run may also start with registrations that are left over, as long as nothing of the kind has been
asked for yet.
-/

structure Untouched (k : RequestKind) (s : State) : Prop where
  outstanding : s.outstanding k = []
  weight : ∀ f ∈ s.stack, f.weight k = 0

theorem Untouched.of_stack {k : RequestKind} {s s' : State} (h : Untouched k s)
    (fs : List Frame) (hfs : ∀ f ∈ fs, f.weight k = 0) (hstack : ∀ f ∈ s'.stack, f ∈ fs ∨ f ∈ s.stack)
    (hout : s'.outstanding k = s.outstanding k) : Untouched k s' := by
  constructor
  . rw [hout]
    apply h.outstanding
  . intro f hf
    rcases hstack f hf with hf | hf
    . apply hfs f hf
    . apply h.weight f hf

-- The first delegate of the kind joins those that are left over, which nothing clears then.
theorem Untouched.register {k : RequestKind} {s s' : State} (h : Untouched k s) {r : Request}
    {b : Bool} {f : Frame} {stack : List Frame} (hr : r.kind = k) (hstack : s.stack = f :: stack)
    (hstack' : s'.stack = .request r b :: stack) (hout : s'.outstanding = s.outstanding)
    (hdel : (s'.delegates k).handles = (s.delegates k).handles ++ [(s.delegates k).next])
    (hhandle : s'.handle k = (s.delegates k).next) : Tidy k s' ∨ Leaky k s' := by
  cases hold : (s.delegates k).handles with
  | nil =>
    left
    apply tidy_of_eq 1 (Nat.le_refl 1)
    . rw [hstack']
      intro g hg
      apply h.weight
      rw [hstack]
      apply List.mem_cons_of_mem f hg
    . simp [live, hstack', hout, hr, h.outstanding]
    . simp [hdel, hold, hhandle]
  | cons old handles =>
    right
    refine ⟨old, ?_, ?_⟩
    . simp [hdel, hold]
    . rw [hhandle]
      exact (s.delegates k).fresh old (by simp [hold])

theorem Untouched.step {k : RequestKind} {s s' : State} {m : Move} (h : Untouched k s)
    (ht : Transition s m s')
    : Untouched k s' ∨ Issued k s' ∧ (Tidy k s' ∨ Leaky k s') := by
  have hweight {f : Frame} {stack : List Frame} (hstack : s.stack = f :: stack) : f.weight k = 0 := by
    apply h.weight
    simp [hstack]
  cases ht with
  | call c hturn =>
    left
    apply h.of_stack [c.frame]
    . simp
    . simp
    . rfl
  | complete i p o hturn hp =>
    have hk : o.kind ≠ k := by
      rintro rfl
      simp [h.outstanding] at hp
    left
    apply h.of_stack [.completing o (s.delegates o.kind).handles]
    . simp [hk]
    . simp
    . simp [Function.update_of_ne (Ne.symm hk)]
  | refuse r b stack hstack =>
    left
    apply h.of_stack [.broadcast r.refusal]
    . simp
    . simp +contextual [hstack]
    . rfl
  | accept r b stack hstack hsession =>
    have hk : r.kind ≠ k := by
      simpa using hweight hstack
    left
    apply h.of_stack [.serving]
    . simp
    . simp +contextual [hstack]
    . simp [Function.update_of_ne (Ne.symm hk)]
  | replace n t stack hstack hsession =>
    left
    apply h.of_stack [.destroySession, .createSessionRest n t]
    . simp [Frame.weight]
    . simp +contextual [hstack]
    . rfl
  | create n t stack hstack hsession =>
    left
    apply h.of_stack [.createSessionRest n t]
    . simp [Frame.weight]
    . simp +contextual [hstack]
    . rfl
  | join r stack hstack =>
    left
    apply h.of_stack [.joinSessionRest r]
    . simp [Frame.weight]
    . simp +contextual [hstack]
    . rfl
  | register f r stack hstack hf hcreate settings search nextId =>
    by_cases hk : r.kind = k
    . subst hk
      right
      constructor
      . simp [Issued]
      . refine h.register (b := startedByCreateSession r stack) rfl hstack ?_ ?_ ?_ ?_
        . rfl
        . rfl
        . simp
        . simp
    . left
      apply h.of_stack [.request r (startedByCreateSession r stack)]
      . simp [hk]
      . simp +contextual [hstack]
      . rfl
  | callback o handle handles stack hstack hflag =>
    have hk : o.kind ≠ k := by
      simpa using hweight hstack
    left
    apply h.of_stack [.broadcast (o.announced s), .completing o handles]
    . simp [hk]
    . simp +contextual [hstack]
    . rfl
  | recreate handle handles stack hstack hflag =>
    have hk : Outcome.kind (.destroy true) ≠ k := by
      simpa using hweight hstack
    left
    apply h.of_stack [.createSession s.lastNumPublicConnections s.lastMatchType,
      .broadcast (.destroy true), .completing (.destroy true) handles]
    . simp [Frame.weight, hk]
    . simp +contextual [hstack]
    . rfl
  | broadcast o stack hstack =>
    left
    apply h.of_stack [.listeners o]
    . simp
    . simp +contextual [hstack]
    . rfl
  | pop f stack hstack hf =>
    left
    apply h.of_stack []
    . simp
    . simp +contextual [hstack]
    . rfl

def Accounted (k : RequestKind) (s : State) : Prop :=
  Untouched k s ∨ Issued k s ∧ (Tidy k s ∨ Leaky k s)

theorem Accounted.step {k : RequestKind} {s s' : State} {m : Move} (h : Accounted k s)
    (ht : Transition s m s') : Accounted k s' := by
  rcases h with h | ⟨hissued, h⟩
  . apply h.step ht
  . exact Or.inr ⟨hissued.step ht, tidy_or_leaky_step h hissued ht⟩

theorem Accounted.handles_ne_nil {k : RequestKind} {s : State} (h : Accounted k s)
    (hout : s.outstanding k ≠ []) : (s.delegates k).handles ≠ [] := by
  rcases h with h | ⟨_, h⟩
  . exact absurd h.outstanding hout
  . apply handles_ne_nil_of_outstanding h hout

theorem issued_initial (subsystemName : String) (bSessionExists namesJoined : Bool) (k : RequestKind)
    : Issued k (initial subsystemName bSessionExists namesJoined) :=
  Nat.zero_lt_one

theorem tidy_initial (subsystemName : String) (bSessionExists namesJoined : Bool) (k : RequestKind)
    : Tidy k (initial subsystemName bSessionExists namesJoined) := by
  constructor <;> simp [initial, live]

structure Reached (s : State) : Prop where
  valid : s.sessionInterface = true
  issued : ∀ k, Issued k s
  tidy_or_leaky : ∀ k, Tidy k s ∨ Leaky k s

theorem reached_initial (subsystemName : String) (bSessionExists namesJoined : Bool)
    : Reached (initial subsystemName bSessionExists namesJoined) := by
  constructor
  . rfl
  . apply issued_initial subsystemName bSessionExists namesJoined
  . intro k
    exact Or.inl (tidy_initial subsystemName bSessionExists namesJoined k)

theorem Reached.transition {s s' : State} {m : Move} (h : Reached s)
    (hstep : machine.step s m = some s') : Transition s m s' :=
  transition_of_step h.valid hstep

theorem Reached.step {s s' : State} {m : Move} (h : Reached s)
    (hstep : machine.step s m = some s') : Reached s' := by
  have ht := h.transition hstep
  constructor
  . rw [ht.sessionInterface_eq]
    apply h.valid
  . intro k
    exact (h.issued k).step ht
  . intro k
    apply tidy_or_leaky_step (h.tidy_or_leaky k) (h.issued k) ht

theorem Reached.handles_ne_nil {s : State} (h : Reached s) {k : RequestKind}
    (hout : s.outstanding k ≠ []) : (s.delegates k).handles ≠ [] :=
  handles_ne_nil_of_outstanding (h.tidy_or_leaky k) hout

theorem Reached.handles_pos {s : State} (h : Reached s) {k : RequestKind} {i : Nat} {p : Pending}
    (hp : (s.outstanding k)[i]? = some p) : 0 < (s.delegates k).handles.length := by
  apply List.length_pos_iff.mpr
  apply h.handles_ne_nil
  apply List.ne_nil_of_mem (List.mem_of_getElem? hp)

structure Balanced (s : State) : Prop where
  at_most_one : ∀ k, (s.delegates k).handles.length ≤ 1
  none_at_rest : s.stack = [] → ∀ k, s.outstanding k = [] → (s.delegates k).handles = []

def AddsWhenIdle (s : State) (m : Move) : Prop :=
  ∀ k ∈ adding s m, s.outstanding k = []

theorem balanced_of_tidy {s : State} (h : ∀ k, Tidy k s) : Balanced s := by
  constructor
  . intro k
    rw [(h k).handles, List.length_replicate]
    exact (h k).le_one
  . intro hstack k hout
    rw [(h k).handles]
    simp [live, hstack, hout]

theorem not_balanced_of_busy {s s' : State} {m : Move} (hissued : ∀ k, Issued k s)
    (h : ∀ k, Tidy k s) (hbusy : ¬AddsWhenIdle s m) (ht : Transition s m s') : ¬Balanced s' := by
  intro hbalanced
  simp only [AddsWhenIdle, not_forall] at hbusy
  obtain ⟨k, hadd, hout⟩ := hbusy
  have hhandles := ((h k).adding_leaks (hissued k) ht hadd hout).1
  have := hbalanced.at_most_one k
  simp [hhandles] at this

/--
The registrations stay balanced throughout a run exactly if no delegate is added while a request of
its kind is outstanding.
-/
theorem balanced_iff_addsWhenIdle (subsystemName : String) (bSessionExists namesJoined : Bool)
    (ms : List Move)
    : machine.Always Balanced (initial subsystemName bSessionExists namesJoined) ms
        ↔
      machine.Along AddsWhenIdle (initial subsystemName bSessionExists namesJoined) ms := by
  apply Machine.always_iff_along (I := fun s => Reached s ∧ ∀ k, Tidy k s)
  . rintro s m s' ⟨hreached, htidy⟩ hidle hstep
    refine ⟨hreached.step hstep, ?_⟩
    intro k
    exact (htidy k).step (hreached.transition hstep) (hidle k)
  . rintro s ⟨_, htidy⟩
    apply balanced_of_tidy htidy
  . rintro s m s' ⟨hreached, htidy⟩ hbusy hstep
    apply not_balanced_of_busy hreached.issued htidy hbusy (hreached.transition hstep)
  . exact ⟨reached_initial subsystemName bSessionExists namesJoined,
      tidy_initial subsystemName bSessionExists namesJoined⟩

-- The outer `CreateSession` adds its delegate while the request of the inner one is outstanding.
theorem not_balanced
    : ¬∀ (subsystemName : String) (bSessionExists namesJoined : Bool) (ms : List Move),
        machine.Always Balanced (initial subsystemName bSessionExists namesJoined) ms := by
  intro h
  have hrun := h "NULL" true true
    [.call (.createSession 4 "FreeForAll"), .resume, .resume, .accept, .complete 0 (.destroy true),
      .resume, .resume, .resume, .accept, .resume, .resume, .resume, .resume, .resume, .resume]
  obtain ⟨s, hs, hlength⟩ := hrun.exists_map
    (fun s => (s.delegates .create).handles.length) (b := 2) (by decide)
  have := hs.at_most_one .create
  omega

end Sessions
