import SoldierOfGoons.Combat.Wielding
import SoldierOfGoons.Lib.Replication

/-!
A server and its clients. Each client has its own copy of the characters and weapons and one link
for each property that is replicated to it; `OverlappedWeapon` goes to the owner of the character
only. The `OnRep` functions run where the arriving value changes the copy.
-/

universe u v x

namespace Combat

inductive Property (C : Type u) (W : Type v) where
  | weaponState (w : W)
  | equippedWeapon (c : C)
  | overlappedWeapon
  deriving DecidableEq, Repr

structure Client (C : Type u) (W : Type v) where
  world : World C W
  weaponState : W → Link EWeaponState
  equippedWeapon : C → Link (Option W)
  overlappedWeapon : Link (Option W)

structure Net (K : Type x) (C : Type u) (W : Type v) where
  server : World C W
  client : K → Client C W

inductive NetMove (K : Type x) (C : Type u) (W : Type v) where
  | pickup (m : PickupMove C W)
  | serverTick (c : C) (t : Tick)
  | clientTick (k : K) (c : C) (t : Tick)
  | send (k : K) (p : Property C W)
  | deliver (k : K) (p : Property C W)

variable {K : Type x} {C : Type u} {W : Type v}

section Tick

variable [DecidableEq C]

def World.tick (c : C) (t : Tick) (s : World C W) : World C W :=
  s.setCharacter c ((s.character c).aimOffset t)

variable (s : World C W) (c d : C) (t : Tick)

theorem character_tick
    : (s.tick c t).character d
        =
      if d = c then (s.character d).aimOffset t else s.character d := by
  unfold World.tick World.setCharacter
  by_cases hd : d = c
  . subst hd
    simp
  . simp [hd]

theorem overlappedWeapon_tick
    : ((s.tick c t).character d).overlappedWeapon = (s.character d).overlappedWeapon := by
  rw [character_tick]
  split
  . apply overlappedWeapon_aimOffset
  . rfl

theorem equippedWeapon_tick
    : ((s.tick c t).character d).equippedWeapon = (s.character d).equippedWeapon := by
  rw [character_tick]
  split
  . apply equippedWeapon_aimOffset
  . rfl

theorem isLocallyControlled_tick
    : ((s.tick c t).character d).isLocallyControlled = (s.character d).isLocallyControlled := by
  rw [character_tick]
  split
  . apply isLocallyControlled_aimOffset
  . rfl

end Tick

variable [DecidableEq K] [DecidableEq C] [DecidableEq W]

def onRepWeaponState (w : W) (s : World C W) : World C W :=
  match (s.weapon w).weaponState with
  | .equipped => showPickupWidget false w s
  | _ => s

def onRepEquippedWeapon (c : C) (s : World C W) : World C W :=
  if (s.character c).equippedWeapon.isSome then
    faceController c s
  else
    s

def showIfAny (bShowWidget : Bool) (weapon : Option W) (s : World C W) : World C W :=
  match weapon with
  | some w => showPickupWidget bShowWidget w s
  | none => s

def onRepOverlappingWeapon (lastWeapon : Option W) (c : C) (s : World C W) : World C W :=
  showIfAny false lastWeapon (showIfAny true (s.character c).overlappedWeapon s)

namespace Client

def arriveWeaponState (w : W) (weaponState : EWeaponState) (s : World C W) : World C W :=
  if (s.weapon w).weaponState = weaponState then
    s
  else
    onRepWeaponState w (s.setWeapon w { s.weapon w with weaponState })

def arriveEquippedWeapon (c : C) (equippedWeapon : Option W) (s : World C W) : World C W :=
  if (s.character c).equippedWeapon = equippedWeapon then
    s
  else
    onRepEquippedWeapon c (s.setCharacter c { s.character c with equippedWeapon })

def arriveOverlappedWeapon (c : C) (overlappedWeapon : Option W) (s : World C W) : World C W :=
  if (s.character c).overlappedWeapon = overlappedWeapon then
    s
  else
    onRepOverlappingWeapon (s.character c).overlappedWeapon c
      (s.setCharacter c { s.character c with overlappedWeapon })

-- `pawn` is the character that the client owns.
def send (pawn : C) (server : World C W) (client : Client C W) : Property C W → Option (Client C W)
  | .weaponState w =>
    ((client.weaponState w).send (server.weapon w).weaponState).map fun l =>
      { client with weaponState := Function.update client.weaponState w l }
  | .equippedWeapon c =>
    ((client.equippedWeapon c).send (server.character c).equippedWeapon).map fun l =>
      { client with equippedWeapon := Function.update client.equippedWeapon c l }
  | .overlappedWeapon =>
    (client.overlappedWeapon.send (server.character pawn).overlappedWeapon).map fun l =>
      { client with overlappedWeapon := l }

def deliver (pawn : C) (client : Client C W) : Property C W → Option (Client C W)
  | .weaponState w =>
    (client.weaponState w).receive.map fun (a, l) =>
      { client with
        world := arriveWeaponState w a client.world
        weaponState := Function.update client.weaponState w l }
  | .equippedWeapon c =>
    (client.equippedWeapon c).receive.map fun (a, l) =>
      { client with
        world := arriveEquippedWeapon c a client.world
        equippedWeapon := Function.update client.equippedWeapon c l }
  | .overlappedWeapon =>
    client.overlappedWeapon.receive.map fun (a, l) =>
      { client with
        world := arriveOverlappedWeapon pawn a client.world
        overlappedWeapon := l }

structure AtRest (pawn : C) (server : World C W) (client : Client C W) : Prop where
  weaponState : ∀ w, (client.weaponState w).Quiet (server.weapon w).weaponState
  equippedWeapon : ∀ c, (client.equippedWeapon c).Quiet (server.character c).equippedWeapon
  overlappedWeapon : client.overlappedWeapon.Quiet (server.character pawn).overlappedWeapon

def initial (pawn : C) (rightHandSocket : C → Bool) : Client C W where
  world := .initial false (fun c => c = pawn) rightHandSocket
  weaponState _ := .initial .initial
  equippedWeapon _ := .initial none
  overlappedWeapon := .initial none

end Client

namespace Net

def setClient (k : K) (client : Client C W) (n : Net K C W) : Net K C W :=
  { n with client := Function.update n.client k client }

def step (pawn : K → C) (n : Net K C W) : NetMove K C W → Option (Net K C W)
  | .pickup m => (pickupMachine.step n.server m).map fun server => { n with server }
  | .serverTick c t => some { n with server := n.server.tick c t }
  | .clientTick k c t =>
    some (n.setClient k { n.client k with world := (n.client k).world.tick c t })
  | .send k p => ((n.client k).send (pawn k) n.server p).map fun client => n.setClient k client
  | .deliver k p => ((n.client k).deliver (pawn k) p).map fun client => n.setClient k client

def machine (pawn : K → C) : Machine (Net K C W) (NetMove K C W) := ⟨step pawn⟩

-- The server controls the character of the host, each client its own.
def initial (host : C) (pawn : K → C) (rightHandSocket : C → Bool) : Net K C W where
  server := .initial true (fun c => c = host) rightHandSocket
  client k := .initial (pawn k) rightHandSocket

end Net

end Combat
