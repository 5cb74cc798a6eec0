import SoldierOfGoons.Sessions.Pairing
import SoldierOfGoons.Sessions.HostTravel
import SoldierOfGoons.Sessions.Replacement
import SoldierOfGoons.Combat.Convergence
import SoldierOfGoons.Combat.Aiming
import SoldierOfGoons.Combat.Turning
import SoldierOfGoons.Lib.Contraction
import SoldierOfGoons.Combat.TurnInPlace
import SoldierOfGoons.Combat.Overlapping
import SoldierOfGoons.Sessions.Unlocking
import SoldierOfGoons.Sessions.Menus
import SoldierOfGoons.Sessions.ClientTravel
import SoldierOfGoons.Lib.Conduit
import SoldierOfGoons.Sessions.Forwarding
import SoldierOfGoons.Sessions.Provenance
import SoldierOfGoons.Sessions.Journey
import SoldierOfGoons.Sessions.JoinChain
import SoldierOfGoons.Sessions.HostJourney
import SoldierOfGoons.Combat.Claiming
import SoldierOfGoons.Combat.Leaning
import SoldierOfGoons.Combat.Pitching
import SoldierOfGoons.Combat.History
import SoldierOfGoons.Lib.Interleaving
import SoldierOfGoons.Sessions.Matching
import SoldierOfGoons.GameMode.Lobby
import SoldierOfGoons.Lib.Inevitability
import SoldierOfGoons.Sessions.Settling
import SoldierOfGoons.Sessions.JourneysEnd
import SoldierOfGoons.Combat.Quiescence
