import SoldierOfGoons.Sessions.Provenance
import SoldierOfGoons.Lib.Interleaving

/-!
Players with a menu each and the session service between them. All that the service is asked to do is
to list sessions that somebody has asked it to create, with the match type they were created with.
Then whoever asks to join a session asks for one of a host with the same match type.
-/

universe u

namespace Sessions

/-!
Nothing but the answers of the service makes search results: what holds of those that it delivers
holds of all that a player handles.
-/

section Known

def Frame.results : Frame → List SearchResult
  | .broadcast (.find results _) => results
  | .joinSession r => [r]
  | .joinSessionRest r => [r]
  | .request (.join r) _ => [r]
  | _ => []

def Move.Delivers (P : SearchResult → Prop) : Move → Prop
  | .complete _ (.find results _) => ∀ r ∈ results, P r
  | .call (.joinSession r) => P r
  | _ => True

structure Known (P : SearchResult → Prop) (s : State) : Prop where
  valid : s.sessionInterface = true
  search : ∀ search ∈ s.lastSessionSearch, ∀ r ∈ search.searchResults, P r
  stack : ∀ f ∈ s.stack, ∀ r ∈ f.results, P r
  log : ∀ r b, .requested (.join r) b ∈ s.log → P r

variable {P Q : SearchResult → Prop} {s s' : State} {m : Move}

theorem known_initial (P : SearchResult → Prop) (subsystemName : String)
    (bSessionExists namesJoined : Bool)
    : Known P (initial subsystemName bSessionExists namesJoined) := by
  constructor <;> simp [initial]

theorem Known.mono (h : Known P s) (hPQ : ∀ r, P r → Q r) : Known Q s := by
  refine ⟨h.valid, ?_, ?_, ?_⟩
  . intro search hsearch r hr
    exact hPQ r (h.search search hsearch r hr)
  . intro f hf r hr
    exact hPQ r (h.stack f hf r hr)
  . intro r b hlog
    exact hPQ r (h.log r b hlog)

-- Only the activations that are new have to be looked at.
theorem Known.of_stack (h : Known P s) {stack : List Frame} (hrest : ∀ f ∈ stack, f ∈ s.stack)
    (fs : List Frame) (hstack : s'.stack = fs ++ stack) (hfs : ∀ f ∈ fs, ∀ r ∈ f.results, P r)
    (hvalid : s'.sessionInterface = true) (hlast : s'.lastSessionSearch = s.lastSessionSearch)
    (hlog : ∀ r b, .requested (.join r) b ∈ s'.log → .requested (.join r) b ∈ s.log)
    : Known P s' := by
  refine ⟨hvalid, ?_, ?_, ?_⟩
  . rw [hlast]
    exact h.search
  . rw [hstack]
    intro f hf r hr
    rcases List.mem_append.mp hf with hf | hf
    . exact hfs f hf r hr
    . exact h.stack f (hrest f hf) r hr
  . intro r b hr
    exact h.log r b (hlog r b hr)

theorem Known.results (h : Known P s)
    : ∀ r ∈ (s.lastSessionSearch.map (·.searchResults)).getD [], P r := by
  cases hlast : s.lastSessionSearch with
  | none => simp
  | some search =>
    intro r hr
    exact h.search search hlast r (by simpa using hr)

theorem searchAfter_cases (p : Pending) (o : Outcome) (last : Option SessionSearch)
    : searchAfter p o last = last ∨
        ∃ (results : List SearchResult) (ok : Bool) (search : SessionSearch),
          o = .find results ok ∧
            searchAfter p o last = some { search with searchResults := results } := by
  unfold searchAfter
  split
  . next search results ok lastSearch hrequest =>
    split
    . exact Or.inr ⟨results, ok, lastSearch, rfl, rfl⟩
    . exact Or.inl rfl
  . exact Or.inl rfl

theorem Known.complete (h : Known P s) {i : Nat} {p : Pending} {o : Outcome}
    (hm : (Move.complete i o).Delivers P) (hvalid : s'.sessionInterface = true)
    (hlast : s'.lastSessionSearch = searchAfter p o s.lastSessionSearch)
    (hstack : ∃ handles, s'.stack = .completing o handles :: s.stack)
    (hlog : s'.log = .completed p.request o :: s.log) : Known P s' := by
  refine ⟨hvalid, ?_, ?_, ?_⟩
  . rw [hlast]
    rcases searchAfter_cases p o s.lastSessionSearch with heq | ⟨results, ok, search, rfl, heq⟩
    . rw [heq]
      exact h.search
    . rw [heq]
      rintro search' ⟨⟩
      exact hm
  . obtain ⟨handles, hstack⟩ := hstack
    rw [hstack]
    intro f hf r hr
    rcases List.mem_cons.mp hf with rfl | hf
    . cases hr
    . exact h.stack f hf r hr
  . rw [hlog]
    intro r b hr
    exact h.log r b (by simpa using hr)

theorem Known.register (h : Known P s) {f : Frame} {stack : List Frame} {k : RequestKind}
    (hstack : s.stack = f :: stack) (hf : f.registers = some k)
    (hstep : machine.step s .resume = some s') : Known P s' := by
  obtain ⟨r, hr, hasks, hbuilt, hlog, hstack', _, hfind, hother⟩ :=
    registered h.valid hstack hf hstep
  have hjoin (result : SearchResult) (heq : r = .join result) : P result := by
    apply h.stack f (by simp [hstack])
    subst heq
    cases f with
    | joinSessionRest r' =>
      cases hasks
      exact List.mem_singleton.mpr rfl
    | joinSession r' => cases hf
    | _ => cases hasks
  refine ⟨sessionInterface_step h.valid hstep, ?_, ?_, ?_⟩
  . by_cases hk : k = .find
    . cases r with
      | find search =>
        rw [hfind search rfl]
        rintro search' ⟨⟩
        rw [hbuilt.2.2]
        simp
      | _ =>
        subst hk
        cases hr
    . rw [hother hk]
      exact h.search
  . rw [hstack']
    intro f' hf' r' hr'
    rcases List.mem_cons.mp hf' with rfl | hf'
    . cases r with
      | join result =>
        rw [List.mem_singleton.mp hr']
        exact hjoin result rfl
      | _ => cases hr'
    . exact h.stack f' (by simp [hstack, hf']) r' hr'
  . rw [hlog]
    intro r' b hr'
    rcases List.mem_cons.mp hr' with heq | hr'
    . cases heq
      exact hjoin r' rfl
    . exact h.log r' b hr'

theorem Known.step (h : Known P s) (hstep : machine.step s m = some s') (hm : m.Delivers P)
    : Known P s' := by
  have hvalid := sessionInterface_step h.valid hstep
  have ht := transition_of_step h.valid hstep
  have hrest {f : Frame} {stack : List Frame} (hstack : s.stack = f :: stack)
      : ∀ f' ∈ stack, f' ∈ s.stack := by
    intro f' hf'
    rw [hstack]
    exact List.mem_cons_of_mem f hf'
  have hplain {fs : List Frame} (hfs : fs.flatMap Frame.results = [])
      : ∀ f ∈ fs, ∀ r ∈ f.results, P r := by
    intro f hf r hr
    rw [List.flatMap_eq_nil_iff.mp hfs f hf] at hr
    cases hr
  cases ht with
  | call c hturn =>
    apply h.of_stack (fun f hf => hf) [c.frame] rfl _ hvalid rfl
    . intro r b hr
      simpa using hr
    . intro f hf r hr
      rw [List.mem_singleton.mp hf] at hr
      cases c with
      | joinSession r' =>
        rw [List.mem_singleton.mp hr]
        exact hm
      | _ => cases hr
  | complete i p o hturn hp => exact h.complete hm hvalid rfl ⟨_, rfl⟩ rfl
  | refuse r b stack hstack =>
    have hrefusal : [Frame.broadcast r.refusal].flatMap Frame.results = [] := by cases r <;> rfl
    exact h.of_stack (hrest hstack) [.broadcast r.refusal] rfl (hplain hrefusal) hvalid rfl
      (fun _ _ h => h)
  | accept r b stack hstack hsession =>
    exact h.of_stack (hrest hstack) [.serving] rfl (hplain rfl) hvalid rfl (fun _ _ h => h)
  | replace n t stack hstack hsession =>
    exact h.of_stack (hrest hstack) [.destroySession, .createSessionRest n t] rfl (hplain rfl) hvalid
      rfl (fun _ _ h => h)
  | create n t stack hstack hsession =>
    exact h.of_stack (hrest hstack) [.createSessionRest n t] rfl (hplain rfl) hvalid rfl
      (fun _ _ h => h)
  | join r stack hstack =>
    apply h.of_stack (hrest hstack) [.joinSessionRest r] rfl _ hvalid rfl (fun _ _ h => h)
    intro f hf r' hr'
    rw [List.mem_singleton.mp hf] at hr'
    exact h.stack (.joinSession r) (by simp [hstack]) r' hr'
  | register f r stack hstack hf hcreate settings search nextId =>
    exact h.register hstack hf hstep
  | callback o handle handles stack hstack hflag =>
    apply h.of_stack (hrest hstack) [.broadcast (o.announced s), .completing o handles] rfl _ hvalid
      rfl (fun _ _ h => h)
    intro f hf r hr
    simp only [List.mem_cons, List.not_mem_nil, or_false] at hf
    rcases hf with rfl | rfl
    . cases o with
      | find results ok => exact h.results r hr
      | _ => cases hr
    . cases hr
  | recreate handle handles stack hstack hflag =>
    exact h.of_stack (hrest hstack)
      [.createSession s.lastNumPublicConnections s.lastMatchType, .broadcast (.destroy true),
        .completing (.destroy true) handles]
      rfl (hplain rfl) hvalid rfl (fun _ _ h => h)
  | broadcast o stack hstack =>
    apply h.of_stack (hrest hstack) [.listeners o] rfl (hplain rfl) hvalid rfl
    intro r b hr
    simpa using hr
  | pop f stack hstack hf =>
    exact h.of_stack (hrest hstack) [] rfl (hplain rfl) hvalid rfl (fun _ _ h => h)

end Known

def MenuMove.Delivers (P : SearchResult → Prop) : MenuMove → Prop
  | .complete _ (.find results _) => ∀ r ∈ results, P r
  | _ => True

theorem delivers_move {P : SearchResult → Prop} {m : MenuMove} {n : Move} (hm : m.Delivers P)
    (hn : m.move = some n) : n.Delivers P := by
  cases m with
  | complete i o =>
    cases hn
    cases o with
    | find results ok => exact hm
    | _ => trivial
  | hostButtonClicked => cases hn
  | joinButtonClicked => cases hn
  | _ =>
    cases hn
    trivial

-- What a menu joins is one of the results it was told.
theorem Menu.mem_results_handle {menu menu' : Menu} {o : Outcome}
    {sessionInterface resolvedProperly : Bool} {address : String} {r : SearchResult}
    (h : menu.handle o sessionInterface resolvedProperly address = (menu', some (.joinSession r)))
    : r ∈ (Frame.broadcast o).results := by
  cases o with
  | find results ok =>
    simp only [handle, onFindSession] at h
    split at h
    . next r' hmatch =>
      cases h
      exact List.mem_of_find?_eq_some hmatch
    . split at h <;> cases h
  | _ => cases h

theorem Known.menuStep {P : SearchResult → Prop} {s s' : MenuState} {m : MenuMove}
    (h : Known P s.sessions) (hm : m.Delivers P) (ht : MenuTransition s m s')
    : Known P s'.sessions := by
  cases ht with
  | host sessions hstack hstep => exact h.step hstep trivial
  | join sessions hstack hstep => exact h.step hstep trivial
  | service m n hn hquiet sessions hstep => exact h.step hstep (delivers_move hm hn)
  | notify o stack hstack resolvedProperly address sessions menu hstep hmenu =>
    exact h.step hstep trivial
  | notifyCall o stack hstack resolvedProperly address listening sessions menu c hstep hmenu hcall =>
    apply (h.step hstep trivial).step hcall
    obtain ⟨_, _, r, rfl⟩ := Menu.call_handle (congrArg Prod.snd hmenu)
    exact h.stack (.broadcast o) (by simp [hstack]) r (Menu.mem_results_handle hmenu)

theorem mem_log_menuStep {s s' : MenuState} {m : MenuMove}
    (hvalid : s.sessions.sessionInterface = true) (ht : MenuTransition s m s') {e : Event}
    (he : e ∈ s.sessions.log) : e ∈ s'.sessions.log := by
  have hkept : s'.sessions.sessionInterface = true ∧ e ∈ s'.sessions.log := by
    apply ht.preserves (I := fun t => t.sessionInterface = true ∧ e ∈ t.log) ?_ ⟨hvalid, he⟩
    rintro t n t' ⟨hvalid, he⟩ hstep
    exact ⟨sessionInterface_step hvalid hstep, mem_log_step (transition_of_step hvalid hstep) he⟩
  exact hkept.2

/-!
The players together. The service knows which player hosts each session it lists.
-/

variable {A : Type u}

def Event.advertises (r : SearchResult) : Event → Bool
  | .requested (.create settings) _ => settings.matchType == r.matchType
  | _ => false

def Advertised (host : Nat → A) (s : A → MenuState) (r : SearchResult) : Prop :=
  ∃ e ∈ (s (host r.session)).sessions.log, e.advertises r = true

def Lists (host : Nat → A) (s : A → MenuState) (m : A × MenuMove) : Prop :=
  m.2.Delivers (Advertised host s)

instance decidableAdvertised (host : Nat → A) (s : A → MenuState) (r : SearchResult)
    : Decidable (Advertised host s r) :=
  inferInstanceAs (Decidable (∃ e ∈ (s (host r.session)).sessions.log, e.advertises r = true))

instance decidableDelivers (P : SearchResult → Prop) [DecidablePred P]
    : ∀ m : MenuMove, Decidable (m.Delivers P)
  | .complete _ (.find results _) => inferInstanceAs (Decidable (∀ r ∈ results, P r))
  | .complete _ (.create _) => inferInstanceAs (Decidable True)
  | .complete _ (.join _) => inferInstanceAs (Decidable True)
  | .complete _ (.destroy _) => inferInstanceAs (Decidable True)
  | .hostButtonClicked => inferInstanceAs (Decidable True)
  | .joinButtonClicked => inferInstanceAs (Decidable True)
  | .refuse => inferInstanceAs (Decidable True)
  | .accept => inferInstanceAs (Decidable True)
  | .resume _ _ => inferInstanceAs (Decidable True)

instance decidableLists (host : Nat → A) (s : A → MenuState) (m : A × MenuMove)
    : Decidable (Lists host s m) :=
  inferInstanceAs (Decidable (m.2.Delivers (Advertised host s)))

structure Playing (launch : A → Launch) (host : Nat → A) (s : A → MenuState) (a : A) (t : MenuState)
    : Prop where
  launched : Launched (launch a) t
  known : Known (Advertised host s) t.sessions

theorem playing_menu (launch : A → Launch) (host : Nat → A) (s : A → MenuState) (a : A)
    : Playing launch host s a (launch a).menu :=
  ⟨launched_menu (launch a),
    known_initial _ (launch a).subsystemName (launch a).bSessionExists (launch a).namesJoined⟩

theorem Advertised.step [DecidableEq A] {launch : A → Launch} {host : Nat → A} {s s' : A → MenuState}
    {m : A × MenuMove} {r : SearchResult} (h : Advertised host s r)
    (hplaying : ∀ a, Playing launch host s a (s a))
    (hstep : menuMachine.interleaved.step s m = some s') : Advertised host s' r := by
  obtain ⟨a, m⟩ := m
  obtain ⟨t, ht, rfl⟩ := Machine.interleaved_step.mp hstep
  obtain ⟨e, he, hr⟩ := h
  refine ⟨e, ?_, hr⟩
  by_cases hhost : host r.session = a
  . rw [hhost] at he ⊢
    rw [Function.update_self]
    exact mem_log_menuStep (hplaying a).known.valid (menuTransition_of_step ht) he
  . rwa [Function.update_of_ne hhost]

theorem Playing.own {launch : A → Launch} {host : Nat → A} {s : A → MenuState} {a : A} {m : MenuMove}
    {t : MenuState} (h : Playing launch host s a (s a)) (hlists : Lists host s (a, m))
    (hstep : menuMachine.step (s a) m = some t) : Playing launch host s a t :=
  ⟨h.launched.step hstep, h.known.menuStep hlists (menuTransition_of_step hstep)⟩

-- The host of a session that somebody asks to join has asked for it, and plays the same match type.
structure Matched (launch : A → Launch) (s : A → MenuState) (a host : A) : Prop where
  requested : ∃ b, .requested (.create (sessionSettings (launch host).subsystemName
    (launch host).publicConnections (launch host).matchType)) b ∈ (s host).sessions.log
  matchType : equalsIgnoreCase (launch host).matchType (launch a).matchType = true

theorem matched_of_join {launch : A → Launch} {host : Nat → A} {s : A → MenuState}
    (h : ∀ a, Playing launch host s a (s a)) {a : A} {r : SearchResult} {b : Bool}
    (hlog : .requested (.join r) b ∈ (s a).sessions.log) : Matched launch s a (host r.session) := by
  obtain ⟨e, he, hr⟩ := (h a).known.log r b hlog
  have hjoin : (launch a).menu.menu.Matches r := (h a).launched.ofMenu hlog
  cases e with
  | requested request b' =>
    cases request with
    | create settings =>
      have hsettings : settings = sessionSettings (launch (host r.session)).subsystemName
          (launch (host r.session)).publicConnections (launch (host r.session)).matchType :=
        (h (host r.session)).launched.ofMenu he
      subst hsettings
      refine ⟨⟨b', he⟩, ?_⟩
      have htype : some (launch (host r.session)).matchType = r.matchType := by
        simpa [Event.advertises, sessionSettings] using hr
      unfold Menu.Matches at hjoin
      rw [← htype] at hjoin
      exact hjoin
    | _ => cases hr
  | _ => cases hr

/--
Where the service lists what was advertised only, each session that a player asks to join is one that
its host has asked for, with the host's own settings, and of the match type of both.
-/
theorem matched_of_lists [DecidableEq A] (launch : A → Launch) (host : Nat → A) (ms : List (A × MenuMove))
    (hlists : menuMachine.interleaved.Along (Lists host) (fun a => (launch a).menu) ms)
    : menuMachine.interleaved.Always
        (fun s => ∀ a r b, .requested (.join r) b ∈ (s a).sessions.log →
          Matched launch s a (host r.session))
        (fun a => (launch a).menu) ms := by
  apply Machine.always_of_along (I := fun s => ∀ a, Playing launch host s a (s a)) _ _ _ hlists
  . intro s m s' h hG hstep
    apply Machine.interleaved_keeps (K := Playing launch host) (G := Lists host) _ _ h hG hstep
    . intro s s' m a t hplaying hstep h
      exact ⟨h.launched, h.known.mono fun r hr => hr.step hplaying hstep⟩
    . intro s a m t h hlists hstep
      exact (h a).own hlists hstep
  . intro s h a r b hlog
    exact matched_of_join h hlog
  . exact playing_menu launch host _

-- One player hosts, and another one finds the session and asks to join it.
theorem matched_two_players
    : let launch : Bool → Launch := fun _ =>
        ⟨⟨true, true⟩, "Steam", false, true, 4, "FreeForAll", "/Lobby"⟩
      menuMachine.interleaved.Always
        (fun s => ∀ a r b, .requested (.join r) b ∈ (s a).sessions.log →
          Matched launch s a false)
        (fun a => (launch a).menu)
        [(false, .hostButtonClicked), (false, .resume false ""), (false, .resume false ""),
          (true, .joinButtonClicked), (true, .resume false ""), (false, .accept), (true, .accept),
          (true, .complete 0 (.find [⟨1, some "FreeForAll"⟩] true)), (true, .resume false ""),
          (true, .resume false ""), (true, .resume false ""), (true, .resume false "")] := by
  intro launch
  exact matched_of_lists launch (fun _ => false) _ (by decide +kernel)

end Sessions
