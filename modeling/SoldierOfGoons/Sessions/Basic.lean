import SoldierOfGoons.Lib.Delegates
import Mathlib.Logic.Function.Basic

/-!
The data of `USupergoonSessionsSubsystem`, of the session service behind its `SessionInterface`, and
of the control stack they share: the subsystem calls the service, the service calls the completion
callbacks of the subsystem, and those broadcast to listeners that may call the subsystem again.

Of the session settings and the search results only the entry under `"MatchType"` is kept, beside
the fields that the subsystem sets. Objects and accepted requests have an identity: the `ref` of a
search, the `id` of a pending request and, for the session `NAME_GameSession`, the request that made
it. A create request that is accepted makes it, and where `namesJoined` holds so does a join request,
as it does with the services of the engine, which register a joined session under the name that came
with the request. The fields of `Subsystem` are those of the class, the four delegate handles as one
function of the kind of the request, and `sessionInterface` says whether the pointer is valid. The
innermost activation is the first on the stack, the latest event the first of the log.
-/

namespace Sessions

inductive RequestKind where
  | create
  | find
  | join
  | destroy
  deriving DecidableEq, Repr

inductive JoinResult where
  | success
  | sessionIsFull
  | sessionDoesNotExist
  | couldNotRetrieveAddress
  | alreadyInSession
  | unknownError
  deriving DecidableEq, Repr

structure SessionSettings where
  bIsLANMatch : Bool
  numPublicConnections : Int
  bAllowJoinInProgress : Bool
  bAllowJoinViaPresence : Bool
  bShouldAdvertise : Bool
  bUsesPresence : Bool
  bUseLobbiesIfAvailable : Bool
  buildUniqueId : Int
  matchType : Option String
  deriving DecidableEq, Repr

structure SearchResult where
  session : Nat
  matchType : Option String
  deriving DecidableEq, Repr

structure SessionSearch where
  ref : Nat
  maxSearchResults : Int
  bIsLanQuery : Bool
  searchPresence : Bool
  searchResults : List SearchResult
  deriving DecidableEq, Repr

inductive Request where
  | create (settings : SessionSettings)
  | find (search : SessionSearch)
  | join (result : SearchResult)
  | destroy
  deriving DecidableEq, Repr

def Request.kind : Request → RequestKind
  | .create _ => .create
  | .find _ => .find
  | .join _ => .join
  | .destroy => .destroy

inductive Outcome where
  | create (bWasSuccessful : Bool)
  | find (sessionResults : List SearchResult) (bWasSuccessful : Bool)
  | join (result : JoinResult)
  | destroy (bWasSuccessful : Bool)
  deriving DecidableEq, Repr

def Outcome.kind : Outcome → RequestKind
  | .create _ => .create
  | .find _ _ => .find
  | .join _ => .join
  | .destroy _ => .destroy

/--
A request the service has accepted and not completed. `byCreateSession` marks the destroy requests
that `CreateSession` starts.
-/
structure Pending where
  id : Nat
  request : Request
  byCreateSession : Bool
  deriving DecidableEq, Repr

inductive Call where
  | createSession (numMaxSessions : Int) (matchType : String)
  | findSessions (maxSessions : Int)
  | joinSession (sessionResult : SearchResult)
  | destroySession
  deriving DecidableEq, Repr

def Call.kind : Call → RequestKind
  | .createSession _ _ => .create
  | .findSessions _ => .find
  | .joinSession _ => .join
  | .destroySession => .destroy

/--
An activation on the control stack. `createSessionRest` and `joinSessionRest` are what is left of
`CreateSession` after its first `if`, and of `JoinSession` after its own. A `request` waits for the
service to decide, a `serving` service has accepted and not returned, a `completing` event still has
to call the registrations `handles`, and a `broadcast` is about to call the listeners.
-/
inductive Frame where
  | createSession (numMaxSessions : Int) (matchType : String)
  | createSessionRest (numMaxSessions : Int) (matchType : String)
  | findSessions (maxSessions : Int)
  | joinSession (sessionResult : SearchResult)
  | joinSessionRest (sessionResult : SearchResult)
  | destroySession
  | request (r : Request) (byCreateSession : Bool)
  | serving
  | completing (o : Outcome) (handles : List Nat)
  | broadcast (o : Outcome)
  | listeners (o : Outcome)
  deriving DecidableEq, Repr

def Call.frame : Call → Frame
  | .createSession n t => .createSession n t
  | .findSessions m => .findSessions m
  | .joinSession r => .joinSession r
  | .destroySession => .destroySession

inductive Event where
  | called (c : Call)
  | requested (r : Request) (bSessionExists : Bool)
  | completed (r : Request) (o : Outcome)
  | broadcast (o : Outcome)
  deriving DecidableEq, Repr

structure Subsystem where
  sessionInterface : Bool
  handle : RequestKind → Nat
  lastSessionSettings : Option SessionSettings
  lastSessionSearch : Option SessionSearch
  bCreateSessionOnDestroy : Bool
  lastNumPublicConnections : Int
  lastMatchType : String

structure Service where
  subsystemName : String
  namesJoined : Bool
  delegates : RequestKind → Registrations
  outstanding : RequestKind → List Pending
  namedSession : Option Nat
  nextId : Nat

structure State extends Subsystem, Service where
  stack : List Frame
  log : List Event

def initial (subsystemName : String) (bSessionExists namesJoined : Bool) : State where
  sessionInterface := true
  handle := fun _ => 0
  lastSessionSettings := none
  lastSessionSearch := none
  bCreateSessionOnDestroy := false
  lastNumPublicConnections := 0
  lastMatchType := ""
  subsystemName := subsystemName
  namesJoined := namesJoined
  delegates := fun _ => .empty
  outstanding := fun _ => []
  namedSession := if bSessionExists then some 0 else none
  nextId := 1
  stack := []
  log := []

namespace State

def push (s : State) (f : Frame) : State :=
  { s with stack := f :: s.stack }

def emit (s : State) (e : Event) : State :=
  { s with log := e :: s.log }

end State

end Sessions
