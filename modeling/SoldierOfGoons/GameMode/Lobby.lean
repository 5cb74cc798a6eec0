import SoldierOfGoons.Lib.Machine
import Mathlib.Data.List.Basic

/-!
`ALobbyGameMode`: the players of a lobby come and go, and each login that leaves two of them there
sends everybody to the map. The engine keeps `PlayerArray`; it has added the new player by the time
of `PostLogin`.
-/

universe u

namespace GameMode

structure Lobby (A : Type u) where
  -- Whether `GetWorld()` is not null.
  world : Bool
  playerArray : List A
  bUseSeamlessTravel : Bool
  serverTravels : List String

inductive LobbyMove (A : Type u) where
  | login (newPlayer : A)
  | logout (player : A)
  deriving DecidableEq, Repr

variable {A : Type u}

namespace Lobby

def initial (world : Bool) : Lobby A where
  world := world
  playerArray := []
  bUseSeamlessTravel := false
  serverTravels := []

def postLogin (s : Lobby A) : Lobby A :=
  if 2 ≤ s.playerArray.length then
    if s.world then
      { s with
        bUseSeamlessTravel := true
        serverTravels := s.serverTravels ++ ["/Game/Maps/SupergoonMap?listen"] }
    else
      s
  else
    s

def step [DecidableEq A] (s : Lobby A) : LobbyMove A → Option (Lobby A)
  | .login newPlayer => some (postLogin { s with playerArray := s.playerArray ++ [newPlayer] })
  | .logout player => some { s with playerArray := s.playerArray.erase player }

def machine [DecidableEq A] : Machine (Lobby A) (LobbyMove A) := ⟨step⟩

section PostLogin

variable (s : Lobby A)

@[simp]
theorem world_postLogin : s.postLogin.world = s.world := by
  unfold postLogin
  split
  . split <;> rfl
  . rfl

@[simp]
theorem playerArray_postLogin : s.postLogin.playerArray = s.playerArray := by
  unfold postLogin
  split
  . split <;> rfl
  . rfl

theorem serverTravels_postLogin (hworld : s.world = true)
    : s.postLogin.serverTravels = s.serverTravels ++
        if 2 ≤ s.playerArray.length then ["/Game/Maps/SupergoonMap?listen"] else [] := by
  unfold postLogin
  rw [if_pos hworld]
  split
  . rfl
  . rw [List.append_nil]

end PostLogin

-- A lobby with a world that has sent everybody away once for each player but the first one.
structure Filled (s : Lobby A) : Prop where
  world : s.world = true
  length_le : s.playerArray.length ≤ s.serverTravels.length + 1
  map : ∀ url ∈ s.serverTravels, url = "/Game/Maps/SupergoonMap?listen"

theorem filled_initial : Filled (initial true : Lobby A) := by
  constructor
  . rfl
  . simp [initial]
  . simp [initial]

variable [DecidableEq A]

theorem world_step {s s' : Lobby A} {m : LobbyMove A} (hstep : machine.step s m = some s')
    : s'.world = s.world := by
  cases m with
  | login newPlayer =>
    cases hstep
    simp
  | logout player =>
    cases hstep
    rfl

theorem serverTravels_step {s s' : Lobby A} {m : LobbyMove A} (hworld : s.world = true)
    (hstep : machine.step s m = some s')
    : s'.serverTravels = s.serverTravels ∧ s'.playerArray.length ≤ max s.playerArray.length 1 ∨
        s'.serverTravels = s.serverTravels ++ ["/Game/Maps/SupergoonMap?listen"] ∧
          s'.playerArray.length = s.playerArray.length + 1 ∧ 2 ≤ s'.playerArray.length := by
  cases m with
  | login newPlayer =>
    cases hstep
    have htravels := serverTravels_postLogin { s with playerArray := s.playerArray ++ [newPlayer] }
      hworld
    simp only [playerArray_postLogin, List.length_append, List.length_singleton] at htravels ⊢
    split at htravels
    . right
      exact ⟨htravels, trivial, by assumption⟩
    . left
      refine ⟨by rw [htravels, List.append_nil], ?_⟩
      omega
  | logout player =>
    cases hstep
    left
    refine ⟨rfl, ?_⟩
    have := List.length_erase_le (a := player) (l := s.playerArray)
    simp only
    omega

theorem Filled.step {s s' : Lobby A} {m : LobbyMove A} (h : Filled s)
    (hstep : machine.step s m = some s') : Filled s' := by
  have hle := h.length_le
  constructor
  . rw [world_step hstep, h.world]
  . rcases serverTravels_step h.world hstep with ⟨htravels, hlength⟩ | ⟨htravels, hlength, _⟩
    . rw [htravels]
      omega
    . rw [htravels, List.length_append, List.length_singleton]
      omega
  . rcases serverTravels_step h.world hstep with ⟨htravels, _⟩ | ⟨htravels, _⟩
    . rw [htravels]
      exact h.map
    . rw [htravels]
      intro url hurl
      rcases List.mem_append.mp hurl with hurl | hurl
      . exact h.map url hurl
      . exact List.mem_singleton.mp hurl

theorem filled_of_run {s : Lobby A} {ms : List (LobbyMove A)}
    (hrun : machine.run (initial true) ms = some s) : Filled s :=
  Machine.run_invariant_of_step (fun h hstep => h.step hstep) filled_initial hrun

theorem serverTravels_ne_nil_of_run {s s' : Lobby A} {ms : List (LobbyMove A)}
    (hworld : s.world = true) (htravels : s.serverTravels ≠ [])
    (hrun : machine.run s ms = some s') : s'.serverTravels ≠ [] := by
  have hkept : s'.world = true ∧ s'.serverTravels ≠ [] := by
    apply Machine.run_invariant_of_step (I := fun s => s.world = true ∧ s.serverTravels ≠ []) ?_
      ⟨hworld, htravels⟩ hrun
    rintro s m s' ⟨hworld, htravels⟩ hstep
    refine ⟨by rw [world_step hstep, hworld], ?_⟩
    rcases serverTravels_step hworld hstep with ⟨hsame, _⟩ | ⟨hmore, _⟩
    . rwa [hsame]
    . simp [hmore]
  exact hkept.2

theorem serverTravels_eq_nil_iff {s s' : Lobby A} {ms : List (LobbyMove A)} (hworld : s.world = true)
    (htravels : s.serverTravels = []) (hlength : s.playerArray.length < 2)
    (hrun : machine.run s ms = some s')
    : s'.serverTravels = [] ↔ machine.Always (fun t => t.playerArray.length < 2) s ms := by
  induction ms generalizing s with
  | nil =>
    simp only [Machine.run_nil, Option.some.injEq] at hrun
    subst hrun
    exact iff_of_true htravels hlength
  | cons m ms ih =>
    obtain ⟨t, ht, hrest⟩ := machine.run_cons.mp hrun
    have hworld' : t.world = true := by rw [world_step ht, hworld]
    have hone : machine.Always (fun t => t.playerArray.length < 2) s (m :: ms) ↔
        machine.Always (fun t => t.playerArray.length < 2) t ms := by
      simp [Machine.Always, ht, hlength]
    rw [hone]
    rcases serverTravels_step hworld ht with ⟨hsame, hle⟩ | ⟨hmore, _, hge⟩
    . exact ih hworld' (by rw [hsame, htravels]) (by omega) hrest
    . have hleft := serverTravels_ne_nil_of_run hworld' (by simp [hmore]) hrest
      refine iff_of_false hleft ?_
      intro halways
      have := halways.head
      omega

/--
A lobby has sent its players to the map if and only if two of them have ever been there together,
also when they have left since.
-/
theorem travelled_iff {s : Lobby A} {ms : List (LobbyMove A)}
    (hrun : machine.run (initial true) ms = some s)
    : s.serverTravels ≠ [] ↔
        ¬machine.Always (fun t => t.playerArray.length < 2) (initial true) ms :=
  not_congr (serverTravels_eq_nil_iff rfl rfl (by simp [initial]) hrun)

end Lobby

end GameMode
