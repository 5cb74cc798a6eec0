import SoldierOfGoons.Sessions.HostTravel

/-!
The buttons of the menu. A click disables its button, and what is under way for it has to enable it
again or end in a success: an activation that goes on to a request or to a broadcast that the menu
answers by enabling the button, or an outstanding request. For the host these include the destroy
requests of `CreateSession`, as long as `bCreateSessionOnDestroy` makes their completion create the
session again.
-/

namespace Sessions

inductive Button where
  | host
  | join
  deriving DecidableEq, Repr

def Menu.enabled (menu : Menu) : Button → Bool
  | .host => menu.hostButton
  | .join => menu.joinButton

def RequestKind.button (byCreateSession : Bool) : RequestKind → Option Button
  | .create => some .host
  | .find => some .join
  | .join => some .join
  | .destroy => if byCreateSession then some .host else none

-- The button that the menu enables, or keeps for a join, when the outcome is broadcast.
def Outcome.releases : Outcome → Option Button
  | .create false => some .host
  | .create true => none
  | .find _ _ => some .join
  | .join result => if result = .success then none else some .join
  | .destroy _ => none

def Frame.holds (bCreateSessionOnDestroy : Bool) : Frame → Option Button
  | .createSession _ _ => some .host
  | .createSessionRest _ _ => some .host
  | .findSessions _ => some .join
  | .joinSession _ => some .join
  | .joinSessionRest _ => some .join
  | .request r _ => r.kind.button false
  | .completing (.find _ _) (_ :: _) => some .join
  | .completing (.join result) (_ :: _) => if result = .success then none else some .join
  | .completing (.destroy true) (_ :: _) => if bCreateSessionOnDestroy then some .host else none
  | .broadcast o => o.releases
  | _ => none

def lastCreate : List Event → Option Bool
  | [] => none
  | .completed _ (.create bWasSuccessful) :: _ => some bWasSuccessful
  | _ :: log => lastCreate log

def lastJoin : List Event → Option JoinResult
  | [] => none
  | .completed _ (.join result) :: _ => some result
  | _ :: log => lastJoin log

def succeeded (log : List Event) : Button → Bool
  | .host => lastCreate log = some true
  | .join => lastJoin log = some .success

def Asked (outstanding : RequestKind → List Pending) : Button → Prop
  | .host => outstanding .create ≠ [] ∨ ∃ p ∈ outstanding .destroy, p.byCreateSession = true
  | .join => outstanding .find ≠ [] ∨ outstanding .join ≠ []

instance (outstanding : RequestKind → List Pending) (b : Button)
    : Decidable (Asked outstanding b) := by
  unfold Asked
  split <;> infer_instance

def Busy (b : Button) (s : State) : Prop :=
  (∃ f ∈ s.stack, f.holds s.bCreateSessionOnDestroy = some b) ∨ Asked s.outstanding b

def Held (b : Button) (s : State) : Prop :=
  Busy b s ∨ succeeded s.log b = true

instance (b : Button) (s : State) : Decidable (Busy b s) := by
  unfold Busy
  infer_instance

instance (b : Button) (s : State) : Decidable (Held b s) := by
  unfold Held
  infer_instance

def State.without (k : RequestKind) (i : Nat) (s : State) : State :=
  { s with outstanding := Function.update s.outstanding k ((s.outstanding k).eraseIdx i) }

-- What a step must not take away for a button to stay held.
def Keeps (b : Button) (s : State) : Move → Prop
  | .complete i (.create false) => b = .host → Busy b (s.without .create i)
  | .complete i (.destroy bWasSuccessful) =>
    b = .host → Held b (s.without .destroy i) ∨
      (bWasSuccessful && s.bCreateSessionOnDestroy) = true
  | .resume => ∀ o stack, s.stack = .broadcast o :: stack → o.releases = some b →
      Held b { s with stack }
  | _ => True

@[simp]
theorem holds_frame (flag : Bool) (c : Call) : c.frame.holds flag = c.kind.button false := by
  cases c <;> rfl

theorem holds_of_registers {f : Frame} {k : RequestKind} (h : f.registers = some k) (flag : Bool)
    : f.holds flag = k.button false := by
  cases f <;> cases h <;> rfl

theorem releases_refusal (r : Request) : r.refusal.releases = r.kind.button false := by
  cases r <;> rfl

theorem holds_join (f : Frame) (flag flag' : Bool)
    : f.holds flag = some .join ↔ f.holds flag' = some .join := by
  cases flag <;> cases flag' <;> (unfold Frame.holds; split <;> simp)

theorem holds_announced (b : Button) (o : Outcome) (s : State) (handle : Nat) (handles : List Nat)
    (hflag : o = .destroy true → s.bCreateSessionOnDestroy = false)
    : (∃ g ∈ [Frame.broadcast (o.announced s), .completing o handles],
          g.holds s.bCreateSessionOnDestroy = some b)
        ↔
      (Frame.completing o (handle :: handles)).holds s.bCreateSessionOnDestroy = some b := by
  cases o with
  | create ok => cases handles <;> simp [Frame.holds, Outcome.announced, Outcome.releases]
  | find results ok => cases handles <;> simp [Frame.holds, Outcome.announced, Outcome.releases]
  | join result => cases handles <;> simp [Frame.holds, Outcome.announced, Outcome.releases]
  | destroy ok =>
    cases ok with
    | true =>
      have := hflag rfl
      cases handles <;> simp [Frame.holds, Outcome.announced, Outcome.releases, this]
    | false => cases handles <;> simp [Frame.holds, Outcome.announced, Outcome.releases]

theorem succeeded_called (c : Call) (log : List Event) (b : Button)
    : succeeded (.called c :: log) b = succeeded log b := by
  cases b <;> rfl

theorem succeeded_requested (r : Request) (e : Bool) (log : List Event) (b : Button)
    : succeeded (.requested r e :: log) b = succeeded log b := by
  cases b <;> rfl

theorem succeeded_broadcast (o : Outcome) (log : List Event) (b : Button)
    : succeeded (.broadcast o :: log) b = succeeded log b := by
  cases b <;> rfl

theorem succeeded_completed_of_ne {o : Outcome} {b : Button} (h : o.kind.button false ≠ some b)
    (r : Request) (log : List Event) : succeeded (.completed r o :: log) b = succeeded log b := by
  cases b <;> cases o <;> first | rfl | exact absurd rfl h

theorem asked_iff (outstanding : RequestKind → List Pending) (b : Button)
    : Asked outstanding b
        ↔
      ∃ k, ∃ p ∈ outstanding k, k.button p.byCreateSession = some b := by
  cases b with
  | host =>
    constructor
    . rintro (hne | ⟨p, hp, hby⟩)
      . obtain ⟨p, hp⟩ := List.exists_mem_of_ne_nil _ hne
        exact ⟨.create, p, hp, rfl⟩
      . exact ⟨.destroy, p, hp, by simp [RequestKind.button, hby]⟩
    . rintro ⟨k, p, hp, hk⟩
      cases k with
      | create => exact Or.inl (List.ne_nil_of_mem hp)
      | destroy => exact Or.inr ⟨p, hp, by simpa [RequestKind.button] using hk⟩
      | _ => cases hk
  | join =>
    constructor
    . rintro (hne | hne)
      . obtain ⟨p, hp⟩ := List.exists_mem_of_ne_nil _ hne
        exact ⟨.find, p, hp, rfl⟩
      . obtain ⟨p, hp⟩ := List.exists_mem_of_ne_nil _ hne
        exact ⟨.join, p, hp, rfl⟩
    . rintro ⟨k, p, hp, hk⟩
      cases k with
      | find => exact Or.inl (List.ne_nil_of_mem hp)
      | join => exact Or.inr (List.ne_nil_of_mem hp)
      | destroy => simp [RequestKind.button] at hk
      | create => cases hk

theorem asked_append (outstanding : RequestKind → List Pending) (k : RequestKind) (p : Pending)
    (b : Button)
    : Asked (Function.update outstanding k (outstanding k ++ [p])) b
        ↔
      Asked outstanding b ∨ k.button p.byCreateSession = some b := by
  rw [asked_iff, asked_iff]
  constructor
  . rintro ⟨j, q, hq, hbutton⟩
    rcases mem_append.mp hq with hq | ⟨rfl, rfl⟩
    . exact Or.inl ⟨j, q, hq, hbutton⟩
    . exact Or.inr hbutton
  . rintro (⟨j, q, hq, hbutton⟩ | hbutton)
    . exact ⟨j, q, mem_append.mpr (Or.inl hq), hbutton⟩
    . exact ⟨k, p, mem_append.mpr (Or.inr ⟨rfl, rfl⟩), hbutton⟩

-- Only destroy requests may belong to a button or to none.
theorem asked_update_of_ne {k : RequestKind} {b : Button} (hk : k.button true ≠ some b)
    (outstanding : RequestKind → List Pending) (ps : List Pending)
    : Asked (Function.update outstanding k ps) b ↔ Asked outstanding b := by
  rw [asked_iff, asked_iff]
  have hne (k' : RequestKind) (p : Pending) (h : k'.button p.byCreateSession = some b)
      : k' ≠ k := by
    rintro rfl
    apply hk
    revert h
    cases k' <;> simp +contextual [RequestKind.button]
  constructor
  . rintro ⟨k', p, hp, h⟩
    rw [Function.update_of_ne (hne k' p h)] at hp
    exact ⟨k', p, hp, h⟩
  . rintro ⟨k', p, hp, h⟩
    rw [← Function.update_of_ne (hne k' p h) ps outstanding] at hp
    exact ⟨k', p, hp, h⟩

def DestroysInside : List Frame → Prop
  | [] => True
  | .destroySession :: stack => startedByCreateSession .destroy stack = true ∧ DestroysInside stack
  | .request .destroy byCreateSession :: stack =>
    byCreateSession = true ∧ startedByCreateSession .destroy stack = true ∧ DestroysInside stack
  | _ :: stack => DestroysInside stack

-- The menu destroys sessions through `CreateSession` only.
structure Started (s : State) : Prop where
  outstanding : ∀ p ∈ s.outstanding .destroy, p.byCreateSession = true
  stack : DestroysInside s.stack

theorem destroysInside_frame {c : Call} (hc : c ≠ .destroySession) (stack : List Frame)
    : DestroysInside (c.frame :: stack) ↔ DestroysInside stack := by
  cases c with
  | destroySession => exact absurd rfl hc
  | _ => rfl

theorem destroysInside_request {r : Request} (hr : r ≠ .destroy) (e : Bool) (stack : List Frame)
    : DestroysInside (.request r e :: stack) ↔ DestroysInside stack := by
  cases r with
  | destroy => exact absurd rfl hr
  | _ => rfl

theorem destroysInside_of_cons {f : Frame} {stack : List Frame} (h : DestroysInside (f :: stack))
    : DestroysInside stack := by
  unfold DestroysInside at h
  split at h
  . next heq => cases heq
  . next heq =>
    cases heq
    exact h.2
  . next heq =>
    cases heq
    exact h.2.2
  . next heq =>
    cases heq
    exact h

theorem Started.step {s s' : State} {m : Move} (h : Started s) (ht : Transition s m s')
    (hcall : m ≠ .call .destroySession) : Started s' := by
  have hinside {f : Frame} {stack : List Frame} (hstack : s.stack = f :: stack)
      : DestroysInside (f :: stack) := by
    rw [← hstack]
    exact h.stack
  have houter {f : Frame} {stack : List Frame} (hstack : s.stack = f :: stack)
      : DestroysInside stack := destroysInside_of_cons (hinside hstack)
  cases ht with
  | call c hturn =>
    refine ⟨h.outstanding, (destroysInside_frame ?_ s.stack).mpr h.stack⟩
    rintro rfl
    exact hcall rfl
  | complete i p o hturn hp => exact ⟨fun q hq => h.outstanding q (mem_withdraw hq), h.stack⟩
  | refuse r e stack hstack =>
    have hrest := houter hstack
    exact ⟨h.outstanding, hrest⟩
  | accept r e stack hstack hsession =>
    have hrest := houter hstack
    refine ⟨?_, hrest⟩
    intro q hq
    rcases mem_append.mp hq with hq | ⟨hk, rfl⟩
    . exact h.outstanding q hq
    . cases r with
      | destroy => exact (hinside hstack).1
      | _ => cases hk
  | replace n t stack hstack hsession =>
    have hrest := houter hstack
    exact ⟨h.outstanding, rfl, hrest⟩
  | create n t stack hstack hsession =>
    have hrest := houter hstack
    exact ⟨h.outstanding, hrest⟩
  | join r stack hstack =>
    have hrest := houter hstack
    exact ⟨h.outstanding, hrest⟩
  | register f r stack hstack hf hcreate settings search nextId =>
    refine ⟨h.outstanding, ?_⟩
    by_cases hr : r = .destroy
    . subst hr
      cases f with
      | destroySession => exact ⟨(hinside hstack).1, hinside hstack⟩
      | _ => cases hf
    . exact (destroysInside_request hr _ stack).mpr (houter hstack)
  | callback o handle handles stack hstack hflag =>
    have hrest := houter hstack
    exact ⟨h.outstanding, hrest⟩
  | recreate handle handles stack hstack hflag =>
    have hrest := houter hstack
    exact ⟨h.outstanding, hrest⟩
  | broadcast o stack hstack =>
    have hrest := houter hstack
    exact ⟨h.outstanding, hrest⟩
  | pop f stack hstack hf =>
    have hrest := houter hstack
    exact ⟨h.outstanding, hrest⟩

theorem started_initial (subsystemName : String) (bSessionExists namesJoined : Bool)
    : Started (initial subsystemName bSessionExists namesJoined) := by
  constructor
  . intro p hp
    cases hp
  . trivial

-- An activation gives way to others that belong to the same button.
theorem busy_congr {b : Button} {s s' : State} {f : Frame} {stack : List Frame}
    (hstack : s.stack = f :: stack) (fs : List Frame) (hstack' : s'.stack = fs ++ stack)
    (hfs : (∃ g ∈ fs, g.holds s.bCreateSessionOnDestroy = some b) ↔
      f.holds s.bCreateSessionOnDestroy = some b)
    (hout : s'.outstanding = s.outstanding)
    (hflag : s'.bCreateSessionOnDestroy = s.bCreateSessionOnDestroy) : Busy b s' ↔ Busy b s := by
  unfold Busy
  rw [hstack, hstack', hout, hflag]
  simp only [List.mem_append, or_and_right, exists_or, List.exists_mem_cons_iff, hfs]

theorem held_congr {b : Button} {s s' : State} (hbusy : Busy b s' ↔ Busy b s)
    (hlog : succeeded s'.log b = succeeded s.log b) : Held b s' ↔ Held b s := by
  unfold Held
  rw [hbusy, hlog]

theorem busy_complete {b : Button} {s s' : State} {i : Nat} {o : Outcome} {handles : List Nat}
    (hstack : s'.stack = .completing o handles :: s.stack)
    (hout : s'.outstanding = (s.without o.kind i).outstanding)
    (hflag : s'.bCreateSessionOnDestroy = s.bCreateSessionOnDestroy)
    : Busy b s' ↔ (Frame.completing o handles).holds s.bCreateSessionOnDestroy = some b ∨
        Busy b (s.without o.kind i) := by
  unfold Busy
  rw [hstack, hout, hflag, List.exists_mem_cons_iff, or_assoc]
  rfl

theorem button_of_holds_completing {b : Button} {o : Outcome} {handles : List Nat} {flag : Bool}
    (h : (Frame.completing o handles).holds flag = some b) : o.kind.button true = some b := by
  unfold Frame.holds at h
  split at h <;> grind [Outcome.kind, RequestKind.button]

theorem held_complete {b : Button} {s s' : State} {i : Nat} {o : Outcome} (hreached : Reached s)
    (hstarted : Started s) (ht : Transition s (.complete i o) s')
    : Held b s' ↔ Held b s ∧ Keeps b s (.complete i o) := by
  obtain ⟨p, hp, hstack, hlog, hout, hflag⟩ := ht.of_complete
  have hmem : p ∈ s.outstanding o.kind := List.mem_of_getElem? hp
  obtain ⟨handle, handles, heq⟩ := List.exists_cons_of_length_pos (hreached.handles_pos hp)
  unfold Held
  rw [busy_complete hstack hout hflag, heq, hlog]
  by_cases hk : o.kind.button true = some b
  . have hbusy (hbutton : o.kind.button p.byCreateSession = some b) : Busy b s :=
      Or.inr ((asked_iff s.outstanding b).mpr ⟨o.kind, p, hmem, hbutton⟩)
    cases o with
    | create ok =>
      cases hk
      have := hbusy rfl
      cases ok <;> simp [this, Keeps, Frame.holds, succeeded, lastCreate, Outcome.kind]
    | find results ok =>
      cases hk
      have := hbusy rfl
      simp [this, Keeps, Frame.holds]
    | join result =>
      cases hk
      have := hbusy rfl
      by_cases hresult : result = .success <;>
        simp [this, Keeps, Frame.holds, succeeded, lastJoin, hresult]
    | destroy ok =>
      have hby := hstarted.outstanding p hmem
      cases hk
      have := hbusy (by simp [RequestKind.button, Outcome.kind, hby])
      have hlast : succeeded (.completed p.request (.destroy ok) :: s.log) .host
          = succeeded (s.without .destroy i).log .host := rfl
      rw [hlast]
      cases ok <;>
        simp [this, Keeps, Frame.holds, Held, Outcome.kind, or_comm, or_assoc]
  . have hframe : (Frame.completing o (handle :: handles)).holds s.bCreateSessionOnDestroy
        ≠ some b := fun h => hk (button_of_holds_completing h)
    have hbusy : Busy b (s.without o.kind i) ↔ Busy b s := by
      unfold Busy State.without
      rw [asked_update_of_ne hk]
    have hkind : o.kind.button false ≠ some b := by
      intro h
      apply hk
      revert h
      cases o <;> simp [Outcome.kind, RequestKind.button]
    have hkeeps : Keeps b s (.complete i o) := by
      cases o with
      | create ok =>
        cases ok with
        | true => trivial
        | false =>
          rintro rfl
          exact absurd rfl hk
      | destroy ok =>
        rintro rfl
        exact absurd rfl hk
      | _ => trivial
    simp [hframe, hbusy, hkeeps, succeeded_completed_of_ne hkind]

theorem held_call {b : Button} {s s' : State} {c : Call} (ht : Transition s (.call c) s')
    : Held b s' ↔ Held b s ∨ c.kind.button false = some b := by
  cases ht with
  | call c hturn =>
    unfold Held Busy
    rw [succeeded_called, List.exists_mem_cons_iff, holds_frame]
    constructor
    . rintro (((h | h) | h) | h)
      . exact Or.inr h
      . exact Or.inl (Or.inl (Or.inl h))
      . exact Or.inl (Or.inl (Or.inr h))
      . exact Or.inl (Or.inr h)
    . rintro (((h | h) | h) | h)
      . exact Or.inl (Or.inl (Or.inr h))
      . exact Or.inl (Or.inr h)
      . exact Or.inr h
      . exact Or.inl (Or.inl (Or.inl h))

-- What a flag in the other position changes belongs to the host, which is busy then anyway.
theorem busy_flag {b : Button} {s s' : State} {f g : Frame} {stack : List Frame}
    (hstack : s.stack = f :: stack) (fs : List Frame) (hstack' : s'.stack = fs ++ stack)
    (hout : s'.outstanding = s.outstanding)
    (hf : f.holds s.bCreateSessionOnDestroy = some .host) (hg : g ∈ fs)
    (hghost : g.holds s'.bCreateSessionOnDestroy = some .host)
    (hfs : ∀ f ∈ fs, f.holds s'.bCreateSessionOnDestroy ≠ some .join) : Busy b s' ↔ Busy b s := by
  unfold Busy
  rw [hstack, hstack', hout]
  cases b with
  | host =>
    have hs : ∃ f' ∈ f :: stack, f'.holds s.bCreateSessionOnDestroy = some .host :=
      ⟨f, List.mem_cons_self, hf⟩
    have hs' : ∃ f' ∈ fs ++ stack, f'.holds s'.bCreateSessionOnDestroy = some .host :=
      ⟨g, List.mem_append_left stack hg, hghost⟩
    simp only [hs, hs', true_or]
  | join =>
    have hne : f.holds s.bCreateSessionOnDestroy ≠ some .join := by simp [hf]
    simp only [List.mem_append, or_and_right, exists_or, List.exists_mem_cons_iff, hne, false_or,
      holds_join _ s'.bCreateSessionOnDestroy s.bCreateSessionOnDestroy]
    have hnone : ¬∃ f ∈ fs, f.holds s.bCreateSessionOnDestroy = some .join := by
      rintro ⟨f', hf', hjoin⟩
      exact hfs f' hf' ((holds_join f' _ _).mp hjoin)
    simp only [hnone, false_or]

theorem held_broadcast {b : Button} {s : State} {o : Outcome} {stack : List Frame}
    (hstack : s.stack = .broadcast o :: stack)
    : Held b s ↔ o.releases = some b ∨ Held b { s with stack } := by
  unfold Held Busy
  rw [hstack]
  simp only [List.exists_mem_cons_iff, or_assoc]
  rfl

theorem keeps_broadcast {b : Button} {s : State} {o : Outcome} {stack : List Frame}
    (hstack : s.stack = .broadcast o :: stack)
    : Keeps b s .resume ↔ (o.releases = some b → Held b { s with stack }) := by
  constructor
  . intro h
    exact h o stack hstack
  . intro h o' stack' hstack'
    rw [hstack, List.cons.injEq, Frame.broadcast.injEq] at hstack'
    obtain ⟨rfl, rfl⟩ := hstack'
    exact h

theorem held_resume {b : Button} {s s' : State} (ht : Transition s .resume s')
    : Held b s' ↔ Held b s ∧ Keeps b s .resume := by
  have hquiet {f : Frame} {stack : List Frame} (hstack : s.stack = f :: stack)
      (hf : ∀ o, f ≠ .broadcast o) : Keeps b s .resume := by
    intro o stack' hstack'
    rw [hstack, List.cons.injEq] at hstack'
    exact absurd hstack'.1 (hf o)
  cases ht with
  | replace n t stack hstack hsession =>
    rw [and_iff_left (hquiet hstack (by simp))]
    refine held_congr ?_ rfl
    refine busy_flag hstack [.destroySession, .createSessionRest n t] rfl rfl rfl
      (g := .createSessionRest n t) (by simp) rfl (by simp [Frame.holds])
  | create n t stack hstack hsession =>
    rw [and_iff_left (hquiet hstack (by simp))]
    refine held_congr ?_ rfl
    refine busy_congr hstack [.createSessionRest n t] rfl (by simp [Frame.holds]) rfl rfl
  | join r stack hstack =>
    rw [and_iff_left (hquiet hstack (by simp))]
    refine held_congr ?_ rfl
    refine busy_congr hstack [.joinSessionRest r] rfl (by simp [Frame.holds]) rfl rfl
  | register f r stack hstack hf hcreate settings search nextId =>
    have hne (o : Outcome) : f ≠ .broadcast o := by
      rintro rfl
      cases hf
    rw [and_iff_left (hquiet hstack hne)]
    refine held_congr ?_ (succeeded_requested r s.namedSession.isSome s.log b)
    refine busy_congr hstack [.request r (startedByCreateSession r stack)] rfl ?_ rfl rfl
    rw [holds_of_registers hf]
    simp [Frame.holds]
  | callback o handle handles stack hstack hflag =>
    rw [and_iff_left (hquiet hstack (by simp))]
    refine held_congr ?_ rfl
    refine busy_congr hstack [.broadcast (o.announced s), .completing o handles] rfl
      (holds_announced b o s handle handles hflag) rfl rfl
  | recreate handle handles stack hstack hflag =>
    rw [and_iff_left (hquiet hstack (by simp))]
    refine held_congr ?_ rfl
    refine busy_flag hstack [.createSession s.lastNumPublicConnections s.lastMatchType,
      .broadcast (.destroy true), .completing (.destroy true) handles] rfl rfl
      (by simp [Frame.holds, hflag])
      (g := .createSession s.lastNumPublicConnections s.lastMatchType) (by simp) rfl ?_
    cases handles <;> simp [Frame.holds, Outcome.releases]
  | broadcast o stack hstack =>
    have hafter : Held b { s with stack := .listeners o :: stack, log := .broadcast o :: s.log } ↔
        Held b { s with stack } := by
      unfold Held Busy
      simp [succeeded_broadcast, Frame.holds]
    rw [hafter, held_broadcast hstack, keeps_broadcast hstack]
    constructor
    . intro h
      exact ⟨Or.inr h, fun _ => h⟩
    . rintro ⟨h | h, hkeep⟩
      . exact hkeep h
      . exact h
  | pop f stack hstack hf =>
    have hne (o : Outcome) : f ≠ .broadcast o := by
      rintro rfl
      simp at hf
    rw [and_iff_left (hquiet hstack hne)]
    refine held_congr ?_ rfl
    refine busy_congr hstack [] rfl ?_ rfl rfl
    rcases hf with rfl | ⟨o, rfl⟩ | ⟨o, rfl⟩
    . simp [Frame.holds]
    . simp [Frame.holds]
    . cases o <;> simp [Frame.holds]

theorem host_of_startedByCreateSession {stack : List Frame}
    (h : startedByCreateSession .destroy stack = true) (flag : Bool)
    : ∃ f ∈ stack, f.holds flag = some .host := by
  unfold startedByCreateSession at h
  split at h
  . next n t rest _ => exact ⟨.createSessionRest n t, List.mem_cons_self, rfl⟩
  . cases h

-- The marked destroy requests are made while `CreateSession` is active, which holds the button.
theorem held_accept {b : Button} {s s' : State} (hstarted : Started s)
    (ht : Transition s .accept s') : Held b s' ↔ Held b s := by
  cases ht with
  | accept r e stack hstack hsession =>
    refine held_congr ?_ rfl
    unfold Busy
    rw [asked_append, hstack, List.exists_mem_cons_iff, List.exists_mem_cons_iff]
    by_cases hr : r = .destroy
    . subst hr
      have hinside := hstarted.stack
      rw [hstack] at hinside
      obtain ⟨rfl, hby, _⟩ := hinside
      have hhost := host_of_startedByCreateSession hby s.bCreateSessionOnDestroy
      cases b with
      | host => simp [hhost]
      | join => simp [Frame.holds, RequestKind.button, Request.kind]
    . have hbutton : r.kind.button e = r.kind.button false := by
        cases r with
        | destroy => exact absurd rfl hr
        | _ => rfl
      have hserving : Frame.serving.holds s.bCreateSessionOnDestroy ≠ some b := nofun
      have hrequest : (Frame.request r e).holds s.bCreateSessionOnDestroy = r.kind.button false := rfl
      simp only [hserving, hrequest, hbutton, false_or, or_assoc, or_comm]

theorem held_refuse {b : Button} {s s' : State} (ht : Transition s .refuse s')
    : Held b s' ↔ Held b s := by
  cases ht with
  | refuse r e stack hstack =>
    refine held_congr (busy_congr hstack [.broadcast r.refusal] rfl ?_ rfl rfl) rfl
    simp [Frame.holds, releases_refusal]

theorem held_iff_keeps {b : Button} {s s' : State} {m : Move} (hreached : Reached s)
    (hstarted : Started s) (ht : Transition s m s') (hcall : ∀ c, m ≠ .call c)
    : Held b s' ↔ Held b s ∧ Keeps b s m := by
  cases m with
  | call c => exact absurd rfl (hcall c)
  | complete i o => exact held_complete hreached hstarted ht
  | refuse => exact (held_refuse ht).trans (and_iff_left trivial).symm
  | accept => exact (held_accept hstarted ht).trans (and_iff_left trivial).symm
  | resume => exact held_resume ht

end Sessions
