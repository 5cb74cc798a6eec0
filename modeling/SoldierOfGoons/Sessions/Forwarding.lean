import SoldierOfGoons.Sessions.Registration
import SoldierOfGoons.Lib.Conduit

/-!
The subsystem as a conduit between its callers and the service: of searches and joins it hands on
each call as one request, in the order of the calls, and of all kinds but destroy it hands back each
answer of the service as one broadcast, in the order of the answers, as long as no delegate is added
while a request of that kind is outstanding. The only answer it changes is that of a create request
that was accepted. What is on its way is held by the innermost activation alone.
-/

namespace Sessions

-- The call that leads to this request.
def Request.asks : Request → Call
  | .create settings => .createSession settings.numPublicConnections (settings.matchType.getD "")
  | .find search => .findSessions search.maxSearchResults
  | .join result => .joinSession result
  | .destroy => .destroySession

def Frame.asks : Frame → Option Call
  | .createSession n t => some (.createSession n t)
  | .createSessionRest n t => some (.createSession n t)
  | .findSessions m => some (.findSessions m)
  | .joinSession r => some (.joinSession r)
  | .joinSessionRest r => some (.joinSession r)
  | .destroySession => some .destroySession
  | _ => none

@[simp]
theorem asks_frame (c : Call) : c.frame.asks = some c := by
  cases c <;> rfl

theorem asks_of_registers {f : Frame} {k : RequestKind} (h : f.registers = some k)
    : ∃ c, f.asks = some c ∧ c.kind = k := by
  cases f <;> cases h <;> exact ⟨_, rfl, rfl⟩

def Frame.asksFor (k : RequestKind) (f : Frame) : List Call :=
  f.asks.toList.filter (·.kind = k)

def top {α : Type} (g : Frame → List α) : List Frame → List α
  | [] => []
  | f :: _ => g f

@[simp]
theorem top_cons {α : Type} (g : Frame → List α) (f : Frame) (stack : List Frame)
    : top g (f :: stack) = g f := rfl

theorem top_eq_nil {α : Type} {g : Frame → List α} {stack : List Frame}
    (h : ∀ f ∈ stack, g f = []) : top g stack = [] := by
  cases stack with
  | nil => rfl
  | cons f stack => exact h f List.mem_cons_self

def callsTaken (k : RequestKind) (_s : State) : Move → List Call
  | .call c => if c.kind = k then [c] else []
  | _ => []

def requestsMade (k : RequestKind) (s : State) : Move → List Call
  | .resume => top (fun f => if f.registers = some k then f.asks.toList else []) s.stack
  | _ => []

-- What the listeners are told of an answer: the one of a create request does not matter.
def Outcome.told : Outcome → Outcome
  | .create _ => .create true
  | o => o

@[simp]
theorem kind_told (o : Outcome) : o.told.kind = o.kind := by
  cases o <;> rfl

def Frame.tells (k : RequestKind) : Frame → List Outcome
  | .completing o (_ :: _) => if o.kind = k then [o.told] else []
  | .broadcast o => if o.kind = k then [o] else []
  | _ => []

def Frame.refused (k : RequestKind) : Frame → List Outcome
  | .request r _ => if r.kind = k then [r.refusal] else []
  | _ => []

def Frame.announces (k : RequestKind) : Frame → List Outcome
  | .broadcast o => if o.kind = k then [o] else []
  | _ => []

theorem tells_of_registers {f : Frame} {j : RequestKind} (h : f.registers = some j)
    (k : RequestKind) : f.tells k = [] ∧ f.announces k = [] := by
  cases f with
  | completing => cases h
  | broadcast => cases h
  | _ => exact ⟨rfl, rfl⟩

def verdicts (k : RequestKind) (s : State) : Move → List Outcome
  | .complete _ o => if o.kind = k then [o.told] else []
  | .refuse => top (Frame.refused k) s.stack
  | _ => []

def broadcastsMade (k : RequestKind) (s : State) : Move → List Outcome
  | .resume => top (Frame.announces k) s.stack
  | _ => []

def eventsOf {α : Type} (f : Event → Option α) (log : List Event) : List α :=
  log.reverse.filterMap f

theorem eventsOf_cons {α : Type} (f : Event → Option α) (e : Event) (log : List Event)
    : eventsOf f (e :: log) = eventsOf f log ++ (f e).toList := by
  unfold eventsOf
  rw [List.reverse_cons, List.filterMap_append]
  cases h : f e <;> simp [h]

section Log

variable {s s' : State} {m : Move} {e : Event}

-- What a step can write into the log.
inductive Logs (s : State) : Move → Event → Prop where
  | called (c : Call) : Logs s (.call c) (.called c)
  | completed (i : Nat) (r : Request) (o : Outcome) : Logs s (.complete i o) (.completed r o)
  | requested (f : Frame) (stack : List Frame) (hstack : s.stack = f :: stack) (r : Request)
      (hf : f.registers = some r.kind)
    : Logs s .resume (.requested r s.namedSession.isSome)
  | broadcast (o : Outcome) (stack : List Frame) (hstack : s.stack = .broadcast o :: stack)
    : Logs s .resume (.broadcast o)

theorem log_step (ht : Transition s m s')
    : s'.log = s.log ∨ ∃ e, Logs s m e ∧ s'.log = e :: s.log := by
  cases ht with
  | call c hturn => exact Or.inr ⟨_, .called c, rfl⟩
  | complete i p o hturn hp => exact Or.inr ⟨_, .completed i p.request o, rfl⟩
  | register f r stack hstack hf hcreate settings search nextId =>
    exact Or.inr ⟨_, .requested f stack hstack r hf, rfl⟩
  | broadcast o stack hstack => exact Or.inr ⟨_, .broadcast o stack hstack, rfl⟩
  | _ => exact Or.inl rfl

theorem mem_log_step (ht : Transition s m s') (he : e ∈ s.log) : e ∈ s'.log := by
  rcases log_step ht with hlog | ⟨e', _, hlog⟩
  . rwa [hlog]
  . rw [hlog]
    exact List.mem_cons_of_mem e' he

theorem logs_of_mem (ht : Transition s m s') (he : e ∈ s'.log) : e ∈ s.log ∨ Logs s m e := by
  rcases log_step ht with hlog | ⟨e', hlogs, hlog⟩
  . rw [hlog] at he
    exact Or.inl he
  . rw [hlog] at he
    rcases List.mem_cons.mp he with rfl | he
    . exact Or.inr hlogs
    . exact Or.inl he

-- Neither a call nor a broadcast, so nothing that can be seen from the outside.
theorem eventsOf_service {α : Type} (f : Event → Option α) (hcompleted : ∀ r o, f (.completed r o) = none)
    (hrequested : ∀ r b, f (.requested r b) = none) (ht : Transition s m s') (hcall : ∀ c, m ≠ .call c)
    (hquiet : m = .resume → ∀ o stack, s.stack ≠ .broadcast o :: stack)
    : eventsOf f s'.log = eventsOf f s.log := by
  rcases log_step ht with hlog | ⟨e, hlogs, hlog⟩
  . rw [hlog]
  . have hnone : f e = none := by
      cases hlogs with
      | called c => exact absurd rfl (hcall c)
      | completed i r o => exact hcompleted r o
      | requested f' stack hstack r hf => exact hrequested r _
      | broadcast o stack hstack => exact absurd hstack (hquiet rfl o stack)
    rw [hlog, eventsOf_cons, hnone, Option.toList_none, List.append_nil]

end Log

def Event.call (k : RequestKind) : Event → Option Call
  | .called c => if c.kind = k then some c else none
  | _ => none

def Event.request (k : RequestKind) : Event → Option Request
  | .requested r _ => if r.kind = k then some r else none
  | _ => none

def Event.answer (k : RequestKind) : Event → Option Outcome
  | .broadcast o => if o.kind = k then some o else none
  | _ => none

-- What every request is made of, whatever the call.
def Request.Built (subsystemName : String) : Request → Prop
  | .create settings => ∃ n t, settings = sessionSettings subsystemName n t
  | .find search =>
    search.bIsLanQuery = (subsystemName == "NULL") ∧ search.searchPresence = true ∧
      search.searchResults = []
  | .join _ => True
  | .destroy => True

-- A delegate of this kind is only added while no request of the kind is outstanding.
def IdleFor (k : RequestKind) (s : State) (m : Move) : Prop :=
  adding s m = some k → s.outstanding k = []

instance (k : RequestKind) (s : State) (m : Move) : Decidable (IdleFor k s m) :=
  inferInstanceAs (Decidable (_ → _))

section Register

variable {s s' : State} {f : Frame} {stack : List Frame} {k : RequestKind}

theorem registered (hvalid : s.sessionInterface = true) (hstack : s.stack = f :: stack)
    (hf : f.registers = some k) (hstep : machine.step s .resume = some s')
    : ∃ r, r.kind = k ∧ f.asks = some r.asks ∧ r.Built s.subsystemName ∧
        s'.log = .requested r s.namedSession.isSome :: s.log ∧
        s'.stack = .request r (startedByCreateSession r stack) :: stack ∧
        s'.outstanding = s.outstanding ∧
        (∀ search, r = .find search → s'.lastSessionSearch = some search) ∧
        (k ≠ .find → s'.lastSessionSearch = s.lastSessionSearch) := by
  simp only [machine, step, hstack] at hstep
  cases f with
  | createSessionRest n t =>
    cases hf
    cases hstep
    exact ⟨.create (sessionSettings s.subsystemName n t), rfl, rfl, ⟨n, t, rfl⟩, rfl, rfl, rfl,
      by simp, by intro _; rfl⟩
  | findSessions m =>
    cases hf
    simp only [Frame.resume, findSessions, hvalid, Bool.not_true, Bool.false_eq_true, if_false,
      Option.some.injEq] at hstep
    subst hstep
    refine ⟨.find _, rfl, rfl, ⟨rfl, rfl, rfl⟩, rfl, rfl, rfl, ?_, ?_⟩
    . rintro search ⟨⟩
      rfl
    . intro h
      exact absurd rfl h
  | joinSessionRest r =>
    cases hf
    simp only [Frame.resume, joinSessionRest, hvalid, Bool.not_true, Bool.false_eq_true, if_false,
      Option.some.injEq] at hstep
    subst hstep
    exact ⟨.join r, rfl, rfl, trivial, rfl, rfl, rfl, by simp, by intro _; rfl⟩
  | destroySession =>
    cases hf
    simp only [Frame.resume, destroySession, hvalid, Bool.not_true, Bool.false_eq_true, if_false,
      Option.some.injEq] at hstep
    subst hstep
    exact ⟨.destroy, rfl, rfl, trivial, rfl, rfl, rfl, by simp, by intro _; rfl⟩
  | _ => cases hf

end Register

theorem serviceTurn_cases {stack : List Frame} (h : serviceTurn stack)
    : stack = [] ∨ ∃ f rest, stack = f :: rest ∧ (f = .serving ∨ ∃ o, f = .listeners o) := by
  unfold serviceTurn at h
  split at h
  . next rest => exact Or.inr ⟨.serving, rest, rfl, Or.inl rfl⟩
  . unfold clientTurn at h
    split at h
    . exact Or.inl rfl
    . exact Or.inr ⟨_, _, rfl, Or.inr ⟨_, rfl⟩⟩
    . cases h

theorem forall_of_top {α : Type} {g : Frame → List α} {stack : List Frame}
    (htop : top g stack = []) (htail : ∀ f ∈ stack.tail, g f = []) : ∀ f ∈ stack, g f = [] := by
  cases stack with
  | nil => simp
  | cons f stack =>
    intro g' hg
    rcases List.mem_cons.mp hg with rfl | hg
    . exact htop
    . exact htail g' hg

/--
What only the innermost activation can hold. None of it is with an activation that waits for others,
and none with those that are put below another one.
-/
structure Surfaces {α : Type} (g : Frame → List α) : Prop where
  serving : g .serving = []
  listeners : ∀ o, g (.listeners o) = []
  createSessionRest : ∀ n t, g (.createSessionRest n t) = []
  destroyed : g (.broadcast (.destroy true)) = []
  completed : ∀ o, g (.completing o []) = []

theorem Surfaces.top_of_serviceTurn {α : Type} {g : Frame → List α} (hg : Surfaces g)
    {stack : List Frame} (h : serviceTurn stack) : top g stack = [] := by
  rcases serviceTurn_cases h with rfl | ⟨f, rest, rfl, rfl | ⟨o, rfl⟩⟩
  . rfl
  . exact hg.serving
  . exact hg.listeners o

def Surfaced {α : Type} (g : Frame → List α) (s : State) : Prop :=
  ∀ f ∈ s.stack.tail, g f = []

theorem Surfaced.step {α : Type} {g : Frame → List α} {s s' : State} {m : Move} (h : Surfaced g s)
    (hg : Surfaces g) (ht : Transition s m s')
    (hrest : ∀ o handle handles stack, s.stack = .completing o (handle :: handles) :: stack →
      g (.completing o handles) = []) : Surfaced g s' := by
  unfold Surfaced at h ⊢
  have htail {f : Frame} {stack : List Frame} (hstack : s.stack = f :: stack)
      : ∀ f' ∈ stack, g f' = [] := by
    rwa [hstack] at h
  cases ht with
  | call c hturn =>
    apply forall_of_top (hg.top_of_serviceTurn (serviceTurn_of_clientTurn hturn)) h
  | complete i p o hturn hp =>
    apply forall_of_top (hg.top_of_serviceTurn hturn) h
  | refuse r b stack hstack => exact htail hstack
  | accept r b stack hstack hsession => exact htail hstack
  | replace n t stack hstack hsession =>
    intro f hf
    rcases List.mem_cons.mp hf with rfl | hf
    . exact hg.createSessionRest n t
    . exact htail hstack f hf
  | create n t stack hstack hsession => exact htail hstack
  | join r stack hstack => exact htail hstack
  | register f r stack hstack hf hcreate settings search nextId => exact htail hstack
  | callback o handle handles stack hstack hflag =>
    intro f hf
    rcases List.mem_cons.mp hf with rfl | hf
    . exact hrest o handle handles stack hstack
    . exact htail hstack f hf
  | recreate handle handles stack hstack hflag =>
    intro f hf
    rcases List.mem_cons.mp hf with rfl | hf
    . exact hg.destroyed
    rcases List.mem_cons.mp hf with rfl | hf
    . exact hrest (.destroy true) handle handles stack hstack
    . exact htail hstack f hf
  | broadcast o stack hstack => exact htail hstack
  | pop f stack hstack hf =>
    intro f' hf'
    exact htail hstack f' (List.mem_of_mem_tail hf')

-- What an activation that ends leaves on top was below it.
theorem Surfaced.top_pop {α : Type} {g : Frame → List α} {s : State} (h : Surfaced g s)
    {f : Frame} {stack : List Frame} (hstack : s.stack = f :: stack) : top g stack = [] := by
  apply top_eq_nil
  rwa [Surfaced, hstack] at h

section Calls

variable {k : RequestKind}

@[simp]
theorem asksFor_request (r : Request) (b : Bool) : (Frame.request r b).asksFor k = [] := rfl

theorem surfaces_asksFor (hk : k = .find ∨ k = .join) : Surfaces (Frame.asksFor k) := by
  constructor
  . rfl
  . intro o
    rfl
  . intro n t
    rcases hk with rfl | rfl <;> rfl
  . rfl
  . intro o
    rfl

structure Asking (k : RequestKind) (s : State) : Prop where
  valid : s.sessionInterface = true
  surfaced : Surfaced (Frame.asksFor k) s

theorem asking_initial (k : RequestKind) (subsystemName : String) (bSessionExists namesJoined : Bool)
    : Asking k (initial subsystemName bSessionExists namesJoined) := by
  constructor
  . rfl
  . intro f hf
    cases hf

variable {s s' : State} {m : Move}

theorem Asking.step (h : Asking k s) (hk : k = .find ∨ k = .join)
    (hstep : machine.step s m = some s') : Asking k s' := by
  constructor
  . exact sessionInterface_step h.valid hstep
  . apply h.surfaced.step (surfaces_asksFor hk) (transition_of_step h.valid hstep)
    intro o handle handles stack hstack
    rfl

theorem conduit_calls (hk : k = .find ∨ k = .join)
    : Machine.Conduit machine (Asking k) (fun _ _ => True) (fun s => top (Frame.asksFor k) s.stack)
        (callsTaken k) (requestsMade k) := by
  constructor
  intro s m s' h _ hstep
  have hsurfaces := surfaces_asksFor hk
  have hcreate : RequestKind.create ≠ k ∧ RequestKind.destroy ≠ k := by
    rcases hk with rfl | rfl <;> simp
  cases transition_of_step h.valid hstep with
  | call c hturn =>
    rw [hsurfaces.top_of_serviceTurn (serviceTurn_of_clientTurn hturn)]
    simp [callsTaken, requestsMade, Frame.asksFor, List.filter_singleton]
  | complete i p o hturn hp =>
    rw [hsurfaces.top_of_serviceTurn hturn]
    rfl
  | refuse r b stack hstack => simp [callsTaken, requestsMade, hstack, Frame.asksFor, Frame.asks]
  | accept r b stack hstack hsession =>
    simp [callsTaken, requestsMade, hstack, Frame.asksFor, Frame.asks]
  | register f r stack hstack hf hcreate settings search nextId =>
    obtain ⟨c, hc, hkind⟩ := asks_of_registers hf
    simp only [callsTaken, requestsMade, hstack, top_cons, asksFor_request, List.append_nil]
    by_cases hr : r.kind = k <;> simp [Frame.asksFor, hc, hf, hkind, hr]
  | pop f stack hstack hf =>
    rw [h.surfaced.top_pop hstack]
    rcases hf with rfl | ⟨o, rfl⟩ | ⟨o, rfl⟩ <;>
      simp [callsTaken, requestsMade, hstack, Frame.asksFor, Frame.asks, Frame.registers]
  | _ =>
    simp [callsTaken, requestsMade, *, Frame.asksFor, Frame.asks, Frame.registers, Call.kind]

theorem calls_view (h : Asking k s) (hstep : machine.step s m = some s')
    : eventsOf (Event.call k) s'.log = eventsOf (Event.call k) s.log ++ callsTaken k s m := by
  cases transition_of_step h.valid hstep with
  | call c hturn =>
    simp only [eventsOf_cons, Event.call, callsTaken]
    split <;> rfl
  | _ => simp [eventsOf_cons, Event.call, callsTaken]

theorem requests_view (h : Asking k s) (hstep : machine.step s m = some s')
    : (eventsOf (Event.request k) s'.log).map Request.asks
        =
      (eventsOf (Event.request k) s.log).map Request.asks ++ requestsMade k s m := by
  cases transition_of_step h.valid hstep with
  | register f r stack hstack hf hcreate settings search nextId =>
    obtain ⟨r', hkind, hasks, _, hlog, _⟩ := registered h.valid hstack hf hstep
    simp only [List.cons.injEq, Event.requested.injEq, and_true] at hlog
    subst hlog
    simp only [eventsOf_cons, Event.request, requestsMade, hstack, top_cons, hf, hasks,
      Option.some.injEq, List.map_append]
    split <;> rfl
  | pop f stack hstack hf =>
    rcases hf with rfl | ⟨o, rfl⟩ | ⟨o, rfl⟩ <;> simp [requestsMade, hstack, Frame.registers]
  | _ => simp [eventsOf_cons, Event.request, requestsMade, *, Frame.registers]

end Calls

/--
Every call of `FindSessions` and of `JoinSession` becomes one request, with the arguments of the call
and in the order of the calls; the innermost activation holds the one that is still to be made.
-/
def Forwarded (s : State) : Prop :=
  ∀ k, k = .find ∨ k = .join →
    eventsOf (Event.call k) s.log
      = (eventsOf (Event.request k) s.log).map Request.asks ++ top (Frame.asksFor k) s.stack

theorem forwarded_of_run (subsystemName : String) (bSessionExists namesJoined : Bool) (ms : List Move)
    : machine.Always Forwarded (initial subsystemName bSessionExists namesJoined) ms := by
  apply Machine.always_of_along (G := fun _ _ => True)
    (I := fun s => Forwarded s ∧ ∀ k, k = .find ∨ k = .join → Asking k s)
  . rintro s m s' ⟨hs, hasking⟩ _ hstep
    constructor
    . intro k hk
      rw [calls_view (hasking k hk) hstep]
      exact (conduit_calls hk).keeps (fun s => (eventsOf (Event.request k) s.log).map Request.asks)
        (hasking k hk) trivial hstep (requests_view (hasking k hk) hstep) (hs k hk)
    . intro k hk
      exact (hasking k hk).step hk hstep
  . exact fun h => h.1
  . constructor
    . intro k hk
      rfl
    . intro k hk
      exact asking_initial k subsystemName bSessionExists namesJoined
  . exact machine.along_true _ ms


/-!
The results of a search are read from `LastSessionSearch`, which is the search under way as long as
no other search is started meanwhile.
-/

section Searching

def Frame.seeks (last : Option SessionSearch) : Frame → Prop
  | .request (.find search) _ => ∃ lastSearch, last = some lastSearch ∧ lastSearch.ref = search.ref
  | .completing (.find results _) (_ :: _) => (last.map (·.searchResults)).getD [] = results
  | _ => True

theorem seeks_of_weight {f : Frame} (h : f.weight .find = 0) (last : Option SessionSearch)
    : f.seeks last := by
  unfold Frame.seeks
  split
  . simp [Request.kind] at h
  . simp [Outcome.kind] at h
  . trivial

theorem seeks_completing {results : List SearchResult} {last : Option SessionSearch}
    (h : (last.map (·.searchResults)).getD [] = results) (ok : Bool) (handles : List Nat)
    : (Frame.completing (.find results ok) handles).seeks last := by
  cases handles with
  | nil => trivial
  | cons handle handles => exact h

theorem seeks_rest {o : Outcome} {handle : Nat} {handles : List Nat} {last : Option SessionSearch}
    (h : (Frame.completing o (handle :: handles)).seeks last)
    : (Frame.completing o handles).seeks last := by
  cases o with
  | find results ok =>
    cases handles with
    | nil => trivial
    | cons handle' handles => exact h
  | _ => trivial

structure Seeking (s : State) : Prop where
  stack : ∀ f ∈ s.stack, f.seeks s.lastSessionSearch
  outstanding : ∀ p ∈ s.outstanding .find, ∃ search, p.request = .find search ∧
    ∃ lastSearch, s.lastSessionSearch = some lastSearch ∧ lastSearch.ref = search.ref

theorem seeking_initial (subsystemName : String) (bSessionExists namesJoined : Bool)
    : Seeking (initial subsystemName bSessionExists namesJoined) := by
  constructor <;> simp [initial]

variable {s s' : State} {m : Move}

theorem Seeking.of_stack (h : Seeking s) (fs : List Frame)
    (hfs : ∀ f ∈ fs, f.seeks s.lastSessionSearch) (hstack : ∀ f ∈ s'.stack, f ∈ fs ∨ f ∈ s.stack)
    (hlast : s'.lastSessionSearch = s.lastSessionSearch)
    (hout : ∀ p ∈ s'.outstanding .find, p ∈ s.outstanding .find) : Seeking s' := by
  constructor
  . intro f hf
    rw [hlast]
    rcases hstack f hf with hf | hf
    . exact hfs f hf
    . exact h.stack f hf
  . intro p hp
    rw [hlast]
    exact h.outstanding p (hout p hp)

theorem searchAfter_of_ne {p : Pending} {o : Outcome} (h : o.kind ≠ .find)
    (last : Option SessionSearch) : searchAfter p o last = last := by
  unfold searchAfter
  split
  . exact absurd rfl h
  . rfl

theorem Seeking.complete (h : Seeking s) (htidy : Tidy .find s) {i : Nat} {p : Pending}
    {o : Outcome} (hturn : serviceTurn s.stack) (hp : (s.outstanding o.kind)[i]? = some p)
    {s' : State} (hstack : s'.stack = .completing o (s.delegates o.kind).handles :: s.stack)
    (hlast : s'.lastSessionSearch = searchAfter p o s.lastSessionSearch)
    (hout : ∀ q ∈ s'.outstanding .find, q ∈ s.outstanding .find) : Seeking s' := by
  by_cases hk : o.kind = .find
  . cases o with
    | find results ok =>
      obtain ⟨search, hsearch, lastSearch, hsome, href⟩ :=
        h.outstanding p (List.mem_of_getElem? hp)
      have hafter : s'.lastSessionSearch = some { lastSearch with searchResults := results } := by
        rw [hlast, hsome]
        simp [searchAfter, hsearch, href]
      have hweight : ∀ f ∈ s.stack, f.weight .find = 0 :=
        weight_stack (topWeight_of_serviceTurn .find hturn) htidy.buried
      constructor
      . intro f hf
        rw [hstack] at hf
        rcases List.mem_cons.mp hf with rfl | hf
        . apply seeks_completing
          rw [hafter]
          rfl
        . exact seeks_of_weight (hweight f hf) _
      . intro q hq
        obtain ⟨search', hsearch', lastSearch', hsome', href'⟩ := h.outstanding q (hout q hq)
        rw [hsome, Option.some.injEq] at hsome'
        subst hsome'
        exact ⟨search', hsearch', _, hafter, href'⟩
    | _ => cases hk
  . rw [searchAfter_of_ne hk] at hlast
    apply h.of_stack [.completing o (s.delegates o.kind).handles]
    . intro f hf
      rw [List.mem_singleton.mp hf]
      cases o with
      | find results ok => exact absurd rfl hk
      | _ => trivial
    . intro f hf
      rw [hstack] at hf
      simpa using hf
    . exact hlast
    . exact hout

theorem Seeking.register (h : Seeking s) (htidy : Tidy .find s) (hvalid : s.sessionInterface = true)
    {f : Frame} {stack : List Frame} {k : RequestKind} (hstack : s.stack = f :: stack)
    (hf : f.registers = some k) (hidle : k = .find → s.outstanding .find = [])
    (hstep : machine.step s .resume = some s') : Seeking s' := by
  obtain ⟨r, hr, _, _, _, hstack', hout, hfind, hother⟩ := registered hvalid hstack hf hstep
  have htail : ∀ f' ∈ stack, f' ∈ s.stack := by
    intro f' hf'
    rw [hstack]
    exact List.mem_cons_of_mem f hf'
  by_cases hk : k = .find
  . cases r with
    | find search =>
      have hweight : ∀ f' ∈ stack, f'.weight .find = 0 := by
        have := htidy.buried
        rwa [hstack] at this
      constructor
      . intro f' hf'
        rw [hstack'] at hf'
        rcases List.mem_cons.mp hf' with rfl | hf'
        . exact ⟨search, hfind search rfl, rfl⟩
        . exact seeks_of_weight (hweight f' hf') _
      . intro p hp
        rw [hout, hidle hk] at hp
        cases hp
    | _ =>
      subst hk
      cases hr
  . apply h.of_stack [.request r (startedByCreateSession r stack)]
    . intro f' hf'
      rw [List.mem_singleton.mp hf']
      cases r with
      | find search => exact absurd hr.symm hk
      | _ => trivial
    . intro f' hf'
      rw [hstack'] at hf'
      rcases List.mem_cons.mp hf' with rfl | hf'
      . exact Or.inl (by simp)
      . exact Or.inr (htail f' hf')
    . exact hother hk
    . intro p hp
      rwa [hout] at hp

theorem Seeking.step (h : Seeking s) (htidy : Tidy .find s) (hvalid : s.sessionInterface = true)
    (hidle : IdleFor .find s m) (hstep : machine.step s m = some s') : Seeking s' := by
  have hkeep {f : Frame} {stack : List Frame} (hstack : s.stack = f :: stack) (fs : List Frame)
      (hfs : ∀ f ∈ fs, f.seeks s.lastSessionSearch) {t : State} (ht : t.stack = fs ++ stack)
      (hlast : t.lastSessionSearch = s.lastSessionSearch)
      (hout : ∀ p ∈ t.outstanding .find, p ∈ s.outstanding .find) : Seeking t := by
    apply h.of_stack fs hfs ?_ hlast hout
    intro f' hf'
    rw [ht] at hf'
    rw [hstack]
    rcases List.mem_append.mp hf' with hf' | hf'
    . exact Or.inl hf'
    . exact Or.inr (List.mem_cons_of_mem f hf')
  cases transition_of_step hvalid hstep with
  | call c hturn =>
    refine h.of_stack [c.frame] ?_ ?_ rfl (fun p hp => hp)
    . intro f hf
      rw [List.mem_singleton.mp hf]
      cases c <;> trivial
    . intro f hf
      simpa using hf
  | complete i p o hturn hp =>
    exact h.complete htidy hturn hp rfl rfl (fun q hq => mem_withdraw hq)
  | refuse r b stack hstack =>
    refine hkeep hstack [.broadcast r.refusal] ?_ rfl rfl (fun p hp => hp)
    simp [Frame.seeks]
  | accept r b stack hstack hsession =>
    have hrequest := h.stack (.request r b) (by simp [hstack])
    constructor
    . intro f hf
      rcases List.mem_cons.mp hf with rfl | hf
      . trivial
      . exact h.stack f (by rw [hstack]; exact List.mem_cons_of_mem _ hf)
    . intro p hp
      rcases mem_append.mp hp with hp | ⟨hk, rfl⟩
      . exact h.outstanding p hp
      . cases r with
        | find search => exact ⟨search, rfl, hrequest⟩
        | _ => cases hk
  | replace n t stack hstack hsession =>
    refine hkeep hstack [.destroySession, .createSessionRest n t] ?_ rfl rfl (fun p hp => hp)
    simp [Frame.seeks]
  | create n t stack hstack hsession =>
    refine hkeep hstack [.createSessionRest n t] ?_ rfl rfl (fun p hp => hp)
    simp [Frame.seeks]
  | join r stack hstack =>
    refine hkeep hstack [.joinSessionRest r] ?_ rfl rfl (fun p hp => hp)
    simp [Frame.seeks]
  | register f r stack hstack hf hcreate settings search nextId =>
    apply h.register htidy hvalid hstack hf ?_ hstep
    intro hk
    apply hidle
    rw [adding_resume hstack, hf, hk]
  | callback o handle handles stack hstack hflag =>
    refine hkeep hstack [.broadcast (o.announced s), .completing o handles] ?_ rfl rfl
      (fun p hp => hp)
    intro f hf
    rcases List.mem_pair.mp hf with rfl | rfl
    . trivial
    . exact seeks_rest (h.stack _ (by rw [hstack]; exact List.mem_cons_self))
  | recreate handle handles stack hstack hflag =>
    refine hkeep hstack [.createSession s.lastNumPublicConnections s.lastMatchType,
      .broadcast (.destroy true), .completing (.destroy true) handles] ?_ rfl rfl (fun p hp => hp)
    simp [Frame.seeks]
  | broadcast o stack hstack =>
    refine hkeep hstack [.listeners o] ?_ rfl rfl (fun p hp => hp)
    simp [Frame.seeks]
  | pop f stack hstack hf => exact hkeep hstack [] (by simp) rfl rfl (fun p hp => hp)

end Searching

section Answers

variable {k : RequestKind}

theorem surfaces_tells (hk : k ≠ .destroy) : Surfaces (Frame.tells k) := by
  constructor
  . rfl
  . intro o
    rfl
  . intro n t
    rfl
  . exact if_neg (Ne.symm hk)
  . intro o
    rfl

theorem announced_eq_told {s : State} {o : Outcome}
    (h : ∀ results ok, o = .find results ok →
      (s.lastSessionSearch.map (·.searchResults)).getD [] = results)
    : o.announced s = o.told := by
  cases o with
  | find results ok => simp [Outcome.announced, Outcome.told, h results ok rfl]
  | _ => rfl

structure Telling (k : RequestKind) (s : State) : Prop where
  valid : s.sessionInterface = true
  tidy : Tidy k s
  surfaced : Surfaced (Frame.tells k) s
  seeking : k = .find → Seeking s

theorem telling_initial (k : RequestKind) (subsystemName : String) (bSessionExists namesJoined : Bool)
    : Telling k (initial subsystemName bSessionExists namesJoined) := by
  constructor
  . rfl
  . exact tidy_initial subsystemName bSessionExists namesJoined k
  . intro f hf
    cases hf
  . intro _
    exact seeking_initial subsystemName bSessionExists namesJoined

variable {s s' : State} {m : Move}

theorem Telling.step (h : Telling k s) (hk : k ≠ .destroy) (hidle : IdleFor k s m)
    (hstep : machine.step s m = some s') : Telling k s' := by
  have ht := transition_of_step h.valid hstep
  constructor
  . exact sessionInterface_step h.valid hstep
  . exact h.tidy.step ht hidle
  . apply h.surfaced.step (surfaces_tells hk) ht
    intro o handle handles stack hstack
    cases handles with
    | nil => rfl
    | cons handle' handles =>
      have hle := h.tidy.le_one
      by_cases ho : o.kind = k
      . simp only [live, hstack, topWeight_cons, weight_completing, ho, if_true,
          List.length_cons] at hle
        omega
      . simp [Frame.tells, ho]
  . rintro rfl
    exact (h.seeking rfl).step h.tidy h.valid hidle hstep

theorem conduit_answers (hk : k ≠ .destroy)
    : Machine.Conduit machine (Telling k) (IdleFor k) (fun s => top (Frame.tells k) s.stack)
        (verdicts k) (broadcastsMade k) := by
  constructor
  intro s m s' h hidle hstep
  have hsurfaces := surfaces_tells hk
  cases transition_of_step h.valid hstep with
  | call c hturn =>
    rw [hsurfaces.top_of_serviceTurn (serviceTurn_of_clientTurn hturn)]
    cases c <;> rfl
  | complete i p o hturn hp =>
    rw [hsurfaces.top_of_serviceTurn hturn]
    by_cases ho : o.kind = k
    . have hpos : 0 < live k s := by
        have := (List.getElem?_eq_some_iff.mp hp).1
        simp only [live, ho] at this ⊢
        omega
      obtain ⟨n, hn⟩ : ∃ n, live k s = n + 1 := ⟨live k s - 1, by omega⟩
      simp [verdicts, broadcastsMade, Frame.tells, ho, h.tidy.handles, hn, List.replicate_succ]
    . have htells : ∀ handles, (Frame.completing o handles).tells k = [] := by
        intro handles
        cases handles <;> simp [Frame.tells, ho]
      simp [verdicts, broadcastsMade, ho, htells]
  | refuse r b stack hstack =>
    simp [verdicts, broadcastsMade, hstack, Frame.refused, Frame.tells]
  | accept r b stack hstack hsession => simp [verdicts, broadcastsMade, hstack, Frame.tells]
  | register f r stack hstack hf hcreate settings search nextId =>
    obtain ⟨htells, hannounces⟩ := tells_of_registers hf k
    simp only [verdicts, broadcastsMade, hstack, top_cons, htells, hannounces]
    rfl
  | callback o handle handles stack hstack hflag =>
    by_cases ho : o.kind = k
    . have htold : o.announced s = o.told := by
        apply announced_eq_told
        rintro results ok rfl
        have hseeks := (h.seeking ho.symm).stack (.completing (.find results ok) (handle :: handles))
          (by simp [hstack])
        exact hseeks
      simp [verdicts, broadcastsMade, hstack, Frame.tells, Frame.announces, ho, htold]
    . simp [verdicts, broadcastsMade, hstack, Frame.tells, Frame.announces, ho]
  | pop f stack hstack hf =>
    rw [h.surfaced.top_pop hstack]
    rcases hf with rfl | ⟨o, rfl⟩ | ⟨o, rfl⟩ <;>
      simp [verdicts, broadcastsMade, hstack, Frame.tells, Frame.announces]
  | _ =>
    simp [verdicts, broadcastsMade, *, Frame.tells, Frame.announces, Outcome.kind, Ne.symm hk]

theorem answers_view (h : Telling k s) (hstep : machine.step s m = some s')
    : eventsOf (Event.answer k) s'.log = eventsOf (Event.answer k) s.log ++ broadcastsMade k s m := by
  cases transition_of_step h.valid hstep with
  | broadcast o stack hstack =>
    simp only [eventsOf_cons, Event.answer, broadcastsMade, hstack, top_cons, Frame.announces]
    split <;> rfl
  | register f r stack hstack hf hcreate settings search nextId =>
    simp [eventsOf_cons, Event.answer, broadcastsMade, hstack, (tells_of_registers hf k).2]
  | pop f stack hstack hf =>
    rcases hf with rfl | ⟨o, rfl⟩ | ⟨o, rfl⟩ <;> simp [broadcastsMade, hstack, Frame.announces]
  | _ => simp [eventsOf_cons, Event.answer, broadcastsMade, *, Frame.announces]

/--
Every answer of the service, of an accepted request as of a refused one, becomes one broadcast, in
the order of the answers and with the results that the service has given with it.
-/
theorem broadcasts_of_verdicts (hk : k ≠ .destroy) (subsystemName : String)
    (bSessionExists namesJoined : Bool) (ms : List Move)
    (hidle : machine.Along (IdleFor k) (initial subsystemName bSessionExists namesJoined) ms)
    : machine.AlwaysCollected (verdicts k)
        (fun answers s =>
          answers = eventsOf (Event.answer k) s.log ++ top (Frame.tells k) s.stack)
        [] (initial subsystemName bSessionExists namesJoined) ms := by
  apply Machine.alwaysCollected_of_along
    (J := fun answers s => Telling k s ∧
      answers = eventsOf (Event.answer k) s.log ++ top (Frame.tells k) s.stack)
  . rintro answers s m s' ⟨h, heq⟩ hidle hstep
    exact ⟨h.step hk hidle hstep, (conduit_answers hk).keeps
      (fun s => eventsOf (Event.answer k) s.log) h hidle hstep (answers_view h hstep) heq⟩
  . exact fun h => h.2
  . exact ⟨telling_initial k subsystemName bSessionExists namesJoined, rfl⟩
  . exact hidle

-- A search that is refused and one that finds a session.
theorem broadcasts_two_searches
    : machine.AlwaysCollected (verdicts .find)
        (fun answers s =>
          answers = eventsOf (Event.answer .find) s.log ++ top (Frame.tells .find) s.stack)
        [] (initial "NULL" false true)
        [.call (.findSessions 5), .resume, .refuse, .resume, .resume, .call (.findSessions 7),
          .resume, .accept, .resume, .complete 0 (.find [⟨3, some "FreeForAll"⟩] true), .resume,
          .resume] :=
  broadcasts_of_verdicts (by decide) _ _ _ _ (by decide)

end Answers

end Sessions
