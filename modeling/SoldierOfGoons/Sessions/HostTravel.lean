import SoldierOfGoons.Sessions.Menu
import Mathlib.Algebra.Ring.Nat

/-!
The lobby travels of the host against the create requests that succeeded. `OnSessionCreateComplete`
broadcasts success whatever the service reports, once for each registered callback. A success is
promised by an activation that is going to broadcast it, and the excess of a completion is by how
much it announces more than it reports.
-/

namespace Sessions

def successes (log : List Event) : Nat :=
  log.countP fun
    | .completed _ (.create true) => true
    | _ => false

def announcements (log : List Event) : Nat :=
  log.countP fun
    | .broadcast (.create true) => true
    | _ => false

def Frame.promises : Frame → Nat
  | .completing (.create _) handles => handles.length
  | .broadcast (.create true) => 1
  | _ => 0

def promised (s : State) : Nat :=
  (s.stack.map Frame.promises).sum

def excess (s : State) : Move → Nat
  | .complete _ (.create bWasSuccessful) =>
    (s.delegates .create).handles.length - bWasSuccessful.toNat
  | _ => 0

def HonestCompletion (s : State) : Move → Prop
  | .complete _ (.create bWasSuccessful) =>
    bWasSuccessful = true ∧ (s.delegates .create).handles.length ≤ 1
  | _ => True

instance (s : State) (m : Move) : Decidable (HonestCompletion s m) := by
  unfold HonestCompletion
  split <;> infer_instance

@[simp]
theorem promises_request (r : Request) (b : Bool) : (Frame.request r b).promises = 0 := rfl

theorem promises_of_registers {f : Frame} {k : RequestKind} (h : f.registers = some k)
    : f.promises = 0 := by
  cases f with
  | completing => cases h
  | broadcast => cases h
  | _ => rfl

theorem promises_frame (c : Call) : c.frame.promises = 0 := by
  cases c <;> rfl

theorem promises_refusal (r : Request) : (Frame.broadcast r.refusal).promises = 0 := by
  cases r <;> rfl

theorem promises_announced (o : Outcome) (s : State) (handle : Nat) (handles : List Nat)
    : (Frame.broadcast (o.announced s)).promises + (Frame.completing o handles).promises
        =
      (Frame.completing o (handle :: handles)).promises := by
  cases o with
  | create ok =>
    simp only [Outcome.announced, Frame.promises, List.length_cons]
    omega
  | _ => rfl

theorem balance_step {s s' : State} {m : Move} (hreached : Reached s) (ht : Transition s m s')
    : announcements s'.log + promised s' + successes s.log
        =
      announcements s.log + promised s + successes s'.log + excess s m := by
  cases ht with
  | call c hturn =>
    simp [announcements, successes, promised, excess, promises_frame]
  | complete i p o hturn hp =>
    cases o with
    | create ok =>
      have hpos : 0 < (s.delegates .create).handles.length := hreached.handles_pos hp
      cases ok with
      | true =>
        simp [announcements, successes, promised, excess, Frame.promises, Outcome.kind]
        omega
      | false =>
        simp [announcements, successes, promised, excess, Frame.promises, Outcome.kind]
        omega
    | _ => simp [announcements, successes, promised, excess, Frame.promises]
  | refuse r b stack hstack =>
    simp [promised, excess, hstack, promises_refusal]
  | register f r stack hstack hf hcreate settings search nextId =>
    simp [announcements, successes, promised, excess, hstack, promises_of_registers hf]
  | callback o handle handles stack hstack hflag =>
    have := promises_announced o s handle handles
    simp only [promised, excess, hstack, List.map_cons, List.sum_cons]
    omega
  | broadcast o stack hstack =>
    cases o with
    | create ok =>
      cases ok <;> simp [announcements, successes, promised, excess, hstack, Frame.promises]
      omega
    | _ => simp [announcements, successes, promised, excess, hstack, Frame.promises]
  | pop f stack hstack hf =>
    rcases hf with rfl | ⟨o, rfl⟩ | ⟨o, rfl⟩
    . simp [promised, excess, hstack, Frame.promises]
    . simp [promised, excess, hstack, Frame.promises]
    . cases o <;> simp [promised, excess, hstack, Frame.promises]
  | accept r b stack hstack hsession => simp [promised, excess, hstack, Frame.promises]
  | replace n t stack hstack hsession => simp [promised, excess, hstack, Frame.promises]
  | create n t stack hstack hsession => simp [promised, excess, hstack, Frame.promises]
  | join r stack hstack => simp [promised, excess, hstack, Frame.promises]
  | recreate handle handles stack hstack hflag =>
    simp [promised, excess, hstack, Frame.promises]

theorem excess_eq_zero {s : State} {m : Move} (hhonest : HonestCompletion s m)
    : excess s m = 0 := by
  unfold excess
  split
  . next i ok =>
    obtain ⟨rfl, hle⟩ := hhonest
    simp only [Bool.toNat_true]
    omega
  . rfl

theorem excess_pos {s s' : State} {m : Move} (hreached : Reached s) (ht : Transition s m s')
    (hhonest : ¬HonestCompletion s m) : 0 < excess s m := by
  cases ht with
  | complete i p o hturn hp =>
    cases o with
    | create ok =>
      have hpos : 0 < (s.delegates .create).handles.length := hreached.handles_pos hp
      cases ok with
      | true =>
        simp only [HonestCompletion, true_and, excess, Bool.toNat_true] at hhonest ⊢
        omega
      | false =>
        simp only [excess, Bool.toNat_false]
        omega
    | _ => exact absurd trivial hhonest
  | _ => exact absurd trivial hhonest

theorem announcements_step {s s' : State} {m : Move} (ht : Transition s m s')
    (hquiet : m = .resume → ∀ o stack, s.stack ≠ .broadcast o :: stack)
    : announcements s'.log = announcements s.log := by
  cases ht with
  | broadcast o stack hstack => exact absurd hstack (hquiet rfl o stack)
  | call c hturn => simp [announcements]
  | complete i p o hturn hp => simp [announcements]
  | register f r stack hstack hf hcreate settings search nextId => simp [announcements]
  | _ => rfl

theorem announcements_broadcast {s s' : State} (ht : Transition s .resume s') {o : Outcome}
    {stack : List Frame} (hstack : s.stack = .broadcast o :: stack)
    : announcements s'.log = announcements s.log + if o = .create true then 1 else 0 := by
  rw [(ht.of_broadcast hstack).1]
  cases o with
  | create ok => cases ok <;> simp [announcements]
  | _ => simp [announcements]

namespace Menu

theorem serverTravels_handle (o : Outcome) (sessionInterface resolvedProperly : Bool)
    (address : String) (menu : Menu)
    : (menu.handle o sessionInterface resolvedProperly address).1.serverTravels.length
        =
      menu.serverTravels.length + if o = .create true ∧ menu.world then 1 else 0 := by
  cases o with
  | create ok =>
    simp only [handle, onCreateSession]
    cases ok with
    | true => cases hworld : menu.world <;> simp
    | false => simp
  | find results ok =>
    simp only [handle, onFindSession]
    split
    . simp
    . split <;> simp
  | join result =>
    simp only [handle, onJoinSession]
    split <;> split <;> simp
  | destroy ok => simp [handle]

end Menu

-- Every success that was broadcast to the menu made it travel.
def Travelled (s : MenuState) : Prop :=
  s.menu.serverTravels.length = if s.menu.world then announcements s.sessions.log else 0

theorem travelled_notify {s : MenuState} {o : Outcome} {stack : List Frame} {sessions : State}
    {sessionInterface resolvedProperly : Bool} {address : String} {menu : Menu} {call : Option Call}
    (h : Travelled s) (ht : Transition s.sessions .resume sessions)
    (hstack : s.sessions.stack = .broadcast o :: stack)
    (hmenu : s.menu.handle o sessionInterface resolvedProperly address = (menu, call))
    : Travelled ⟨sessions, menu⟩ := by
  have hsettings := (Menu.settings_handle o sessionInterface resolvedProperly address s.menu).1
  have htravels := Menu.serverTravels_handle o sessionInterface resolvedProperly address s.menu
  rw [hmenu] at hsettings htravels
  unfold Travelled at h ⊢
  rw [htravels, h, hsettings, announcements_broadcast ht hstack]
  cases s.menu.world <;> simp

theorem Travelled.step {s s' : MenuState} {m : MenuMove} (h : Travelled s)
    (hreached : Reached s.sessions) (ht : MenuTransition s m s') : Travelled s' := by
  cases ht with
  | host sessions hstack hstep =>
    have := announcements_step (hreached.transition hstep) (by simp)
    simpa [Travelled, this] using h
  | join sessions hstack hstep =>
    have := announcements_step (hreached.transition hstep) (by simp)
    simpa [Travelled, this] using h
  | service m n hn hquiet sessions hstep =>
    have := announcements_step (hreached.transition hstep) hquiet
    simpa [Travelled, this] using h
  | notify o stack hstack resolvedProperly address sessions menu hstep hmenu =>
    apply travelled_notify h (hreached.transition hstep) hstack hmenu
  | notifyCall o stack hstack resolvedProperly address listening sessions menu c hstep hmenu hcall =>
    have hlistening : Travelled ⟨listening, menu⟩ :=
      travelled_notify h (hreached.transition hstep) hstack hmenu
    have := announcements_step ((hreached.step hstep).transition hcall) (by simp)
    simpa [Travelled, this] using hlistening

def TravelSafe (s : MenuState) : Prop :=
  s.menu.serverTravels.length ≤ successes s.sessions.log

def HonestMenu (s : MenuState) (m : MenuMove) : Prop :=
  ∀ n ∈ m.move, HonestCompletion s.sessions n

instance (s : MenuState) (m : MenuMove) : Decidable (HonestMenu s m) := by
  unfold HonestMenu
  infer_instance

def menuExcess (s : MenuState) (m : MenuMove) : Nat :=
  match m.move with
  | some n => excess s.sessions n
  | none => 0

theorem menuExcess_eq_zero {s : MenuState} {m : MenuMove} (hhonest : HonestMenu s m)
    : menuExcess s m = 0 := by
  unfold menuExcess
  split
  . next n hn => exact excess_eq_zero (hhonest n hn)
  . rfl

theorem balance_menuStep {s s' : MenuState} {m : MenuMove} (hreached : Reached s.sessions)
    (ht : MenuTransition s m s')
    : announcements s'.sessions.log + promised s'.sessions + successes s.sessions.log
        =
      announcements s.sessions.log + promised s.sessions + successes s'.sessions.log
        + menuExcess s m := by
  cases ht with
  | host sessions hstack hstep => exact balance_step hreached (hreached.transition hstep)
  | join sessions hstack hstep => exact balance_step hreached (hreached.transition hstep)
  | service m n hn hquiet sessions hstep =>
    have := balance_step hreached (hreached.transition hstep)
    simpa only [menuExcess, hn] using this
  | notify o stack hstack resolvedProperly address sessions menu hstep hmenu =>
    apply balance_step hreached (hreached.transition hstep)
  | notifyCall o stack hstack resolvedProperly address listening sessions menu c hstep hmenu hcall =>
    have hlistening := hreached.step hstep
    have hbroadcast := balance_step hreached (hreached.transition hstep)
    have hnested := balance_step hlistening (hlistening.transition hcall)
    simp only [menuExcess, MenuMove.move, excess] at hbroadcast hnested ⊢
    omega

theorem menuExcess_pos {s s' : MenuState} {m : MenuMove} (hreached : Reached s.sessions)
    (ht : MenuTransition s m s') (hhonest : ¬HonestMenu s m) : 0 < menuExcess s m := by
  simp only [HonestMenu, not_forall] at hhonest
  obtain ⟨n, hn, hhonest⟩ := hhonest
  cases ht with
  | host sessions hstack hstep => cases hn
  | join sessions hstack hstep => cases hn
  | service m n' hn' hquiet sessions hstep =>
    have : n' = n := by simpa [hn'] using hn
    subst this
    simpa only [menuExcess, hn'] using excess_pos hreached (hreached.transition hstep) hhonest
  | notify o stack hstack resolvedProperly address sessions menu hstep hmenu =>
    cases hn
    exact absurd trivial hhonest
  | notifyCall o stack hstack resolvedProperly address listening sessions menu c hstep hmenu hcall =>
    cases hn
    exact absurd trivial hhonest

structure Travelling (s : MenuState) : Prop where
  reached : Reached s.sessions
  travelled : Travelled s

theorem Travelling.step {s s' : MenuState} {m : MenuMove} (h : Travelling s)
    (ht : MenuTransition s m s') : Travelling s' := by
  constructor
  . apply h.reached.menuStep ht
  . apply h.travelled.step h.reached ht

theorem Travelling.travelSafe {s : MenuState} (h : Travelling s)
    (hbalance : announcements s.sessions.log + promised s.sessions = successes s.sessions.log)
    : TravelSafe s := by
  have htravelled := h.travelled
  unfold Travelled at htravelled
  unfold TravelSafe
  split at htravelled <;> omega

structure Launch extends Surroundings where
  subsystemName : String
  bSessionExists : Bool
  namesJoined : Bool
  publicConnections : Int
  matchType : String
  lobbyPath : String

def Launch.menu (l : Launch) : MenuState :=
  menuInitial l.subsystemName l.bSessionExists l.namesJoined
    (menuSetup l.toSurroundings l.publicConnections l.matchType l.lobbyPath)

theorem travelling_menu (l : Launch) : Travelling l.menu := by
  constructor
  . apply reached_initial l.subsystemName l.bSessionExists l.namesJoined
  . unfold Travelled
    split <;> rfl

theorem travelSafe_of_honest {l : Launch} {ms : List MenuMove}
    (h : menuMachine.Along HonestMenu l.menu ms) : menuMachine.Always TravelSafe l.menu ms := by
  apply Machine.always_of_along (G := HonestMenu)
    (I := fun s => Travelling s ∧
      announcements s.sessions.log + promised s.sessions = successes s.sessions.log)
  . rintro s m s' ⟨htravelling, hbalance⟩ hhonest hstep
    have ht := menuTransition_of_step hstep
    have hstep := balance_menuStep htravelling.reached ht
    rw [menuExcess_eq_zero hhonest] at hstep
    exact ⟨htravelling.step ht, by omega⟩
  . rintro s ⟨htravelling, hbalance⟩
    apply htravelling.travelSafe hbalance
  . exact ⟨travelling_menu l, rfl⟩
  . exact h

theorem honest_of_travelSafe {l : Launch} (hworld : l.world = true) {ms : List MenuMove}
    {s : MenuState} (hrun : menuMachine.run l.menu ms = some s) (hstack : s.sessions.stack = [])
    (hsafe : TravelSafe s) : menuMachine.Along HonestMenu l.menu ms := by
  have hend : Travelling s ∧ s.menu.world = true := by
    apply Machine.run_invariant_of_step (M := menuMachine) _ _ hrun
    . rintro s m s' ⟨htravelling, hworld⟩ hstep
      have ht := menuTransition_of_step hstep
      exact ⟨htravelling.step ht, by rwa [(settings_step ht).1]⟩
    . exact ⟨travelling_menu l, hworld⟩
  apply Machine.along_of_not_bad
    (I := fun s => Travelling s ∧
      successes s.sessions.log ≤ announcements s.sessions.log + promised s.sessions)
    (B := fun s =>
      successes s.sessions.log < announcements s.sessions.log + promised s.sessions)
  . rintro s m s' ⟨h, hle⟩ hstep
    have ht := menuTransition_of_step hstep
    have hbalance := balance_menuStep h.reached ht
    exact ⟨h.step ht, by omega⟩
  . rintro s m s' ⟨h, hle⟩ hhonest hstep
    have ht := menuTransition_of_step hstep
    have hbalance := balance_menuStep h.reached ht
    have hpos := menuExcess_pos h.reached ht hhonest
    omega
  . rintro s m s' ⟨h, hle⟩ hbad hstep
    have hbalance := balance_menuStep h.reached (menuTransition_of_step hstep)
    omega
  . exact ⟨travelling_menu l, Nat.zero_le _⟩
  . exact hrun
  . have htravelled := hend.1.travelled
    unfold Travelled at htravelled
    unfold TravelSafe at hsafe
    rw [hend.2, if_pos rfl] at htravelled
    simp only [promised, hstack, List.map_nil, List.sum_nil]
    omega

-- Only a create completion reported as failed, or one that finds a leaked registration, makes the
-- host travel without a success.
theorem travelSafe_iff_honest (l : Launch) (ms : List MenuMove)
    : (menuMachine.Along HonestMenu l.menu ms → menuMachine.Always TravelSafe l.menu ms) ∧
      ∀ s, l.world = true → menuMachine.run l.menu ms = some s → s.sessions.stack = [] →
        (menuMachine.Always TravelSafe l.menu ms ↔ menuMachine.Along HonestMenu l.menu ms) := by
  refine ⟨travelSafe_of_honest, ?_⟩
  intro s hworld hrun hstack
  constructor
  . intro h
    apply honest_of_travelSafe hworld hrun hstack (h.last hrun)
  . exact travelSafe_of_honest

theorem travelSafe_create_succeeds
    : menuMachine.Always TravelSafe
        (Launch.menu ⟨⟨true, true⟩, "NULL", false, true, 4, "FreeForAll", "/Game/Maps/Lobby"⟩)
        [.hostButtonClicked, .resume true "", .resume true "", .accept, .resume true "",
          .complete 0 (.create true), .resume true "", .resume true ""] :=
  (travelSafe_iff_honest _ _).1 (by decide)

-- The creation fails and the host travels all the same.
theorem not_travelSafe
    : ¬∀ (l : Launch) (ms : List MenuMove), menuMachine.Always TravelSafe l.menu ms := by
  intro h
  have hrun := h ⟨⟨true, true⟩, "NULL", false, true, 4, "FreeForAll", "/Game/Maps/Lobby"⟩
    [.hostButtonClicked, .resume true "", .resume true "", .accept, .resume true "",
      .complete 0 (.create false), .resume true "", .resume true ""]
  obtain ⟨s, hs, hcount⟩ := hrun.exists_map
    (fun s => (s.menu.serverTravels.length, successes s.sessions.log)) (b := (1, 0)) (by decide)
  unfold TravelSafe at hs
  simp only [Prod.mk.injEq] at hcount
  omega

end Sessions
