import SoldierOfGoons.Sessions.Basic
import SoldierOfGoons.Lib.Machine

/-!
The functions of `USupergoonSessionsSubsystem`, each run from one suspension point to the next, and
the machine of all their interleavings with the service and the listeners. The named session lives
until the request that made it fails or a destroy request succeeds. The service fills in the search
object that came with the request, which need not be `LastSessionSearch` any more. Calls come from
outside or from a listener, completion events at any time the subsystem is not running, also from
inside a request.
-/

namespace Sessions

def addDelegate (k : RequestKind) (s : State) : State :=
  { s with
    delegates := Function.update s.delegates k (s.delegates k).add
    handle := Function.update s.handle k (s.delegates k).next }

def clearDelegate (k : RequestKind) (s : State) : State :=
  { s with delegates := Function.update s.delegates k ((s.delegates k).clear (s.handle k)) }

def startedByCreateSession : Request → List Frame → Bool
  | .destroy, .createSessionRest _ _ :: _ => true
  | _, _ => false

def request (r : Request) (s : State) : State :=
  (s.emit (.requested r s.namedSession.isSome)).push (.request r (startedByCreateSession r s.stack))

def createSession (numMaxSessions : Int) (matchType : String) (s : State) : State :=
  if !s.sessionInterface then
    s
  else if s.namedSession.isSome then
    let s := { s with
      bCreateSessionOnDestroy := true
      lastNumPublicConnections := numMaxSessions
      lastMatchType := matchType }
    (s.push (.createSessionRest numMaxSessions matchType)).push .destroySession
  else
    s.push (.createSessionRest numMaxSessions matchType)

def sessionSettings (subsystemName : String) (numMaxSessions : Int) (matchType : String)
    : SessionSettings where
  bIsLANMatch := subsystemName == "NULL"
  numPublicConnections := numMaxSessions
  bAllowJoinInProgress := true
  bAllowJoinViaPresence := true
  bShouldAdvertise := true
  bUsesPresence := true
  bUseLobbiesIfAvailable := true
  buildUniqueId := 1
  matchType := some matchType

def createSessionRest (numMaxSessions : Int) (matchType : String) (s : State) : State :=
  let s := addDelegate .create s
  let settings := sessionSettings s.subsystemName numMaxSessions matchType
  request (.create settings) { s with lastSessionSettings := some settings }

def findSessions (maxSessions : Int) (s : State) : State :=
  if !s.sessionInterface then
    s
  else
    let s := addDelegate .find s
    let search := {
      ref := s.nextId
      maxSearchResults := maxSessions
      bIsLanQuery := s.subsystemName == "NULL"
      searchPresence := true
      searchResults := [] }
    request (.find search) { s with lastSessionSearch := some search, nextId := s.nextId + 1 }

def joinSession (sessionResult : SearchResult) (s : State) : State :=
  let s := s.push (.joinSessionRest sessionResult)
  if !s.sessionInterface then
    s.push (.broadcast (.join .unknownError))
  else
    s

def joinSessionRest (sessionResult : SearchResult) (s : State) : Option State :=
  if !s.sessionInterface then
    -- `JoinSession` does not return here: it goes on to dereference the invalid `SessionInterface`.
    none
  else
    some (request (.join sessionResult) (addDelegate .join s))

def destroySession (s : State) : State :=
  if !s.sessionInterface then
    s.push (.broadcast (.destroy false))
  else
    request .destroy (addDelegate .destroy s)

def Request.refusal : Request → Outcome
  | .create _ => .create false
  | .find _ => .find [] false
  | .join _ => .join .unknownError
  | .destroy => .destroy false

def refused (r : Request) (s : State) : State :=
  (clearDelegate r.kind s).push (.broadcast r.refusal)

def onSessionCreateComplete (_bWasSuccessful : Bool) (s : State) : State :=
  if s.sessionInterface then
    (clearDelegate .create s).push (.broadcast (.create true))
  else
    s

def onFindSessionsComplete (bWasSuccessful : Bool) (s : State) : State :=
  let s := if s.sessionInterface then clearDelegate .find s else s
  let searchResults := (s.lastSessionSearch.map (·.searchResults)).getD []
  if searchResults.length = 0 then
    s.push (.broadcast (.find [] bWasSuccessful))
  else
    s.push (.broadcast (.find searchResults bWasSuccessful))

def onJoinSessionComplete (result : JoinResult) (s : State) : State :=
  let s := if s.sessionInterface then clearDelegate .join s else s
  s.push (.broadcast (.join result))

def onDestroySessionComplete (bWasSuccessful : Bool) (s : State) : State :=
  if s.sessionInterface then
    let s := clearDelegate .destroy s
    -- The broadcast comes after the `CreateSession` below, so it goes on the stack first.
    let s := s.push (.broadcast (.destroy bWasSuccessful))
    if bWasSuccessful && s.bCreateSessionOnDestroy then
      let s := { s with bCreateSessionOnDestroy := false }
      s.push (.createSession s.lastNumPublicConnections s.lastMatchType)
    else
      s
  else
    s

def callback : Outcome → State → State
  | .create bWasSuccessful, s => onSessionCreateComplete bWasSuccessful s
  | .find _ bWasSuccessful, s => onFindSessionsComplete bWasSuccessful s
  | .join result, s => onJoinSessionComplete result s
  | .destroy bWasSuccessful, s => onDestroySessionComplete bWasSuccessful s

def Frame.resume : Frame → State → Option State
  | .createSession n t, s => some (Sessions.createSession n t s)
  | .createSessionRest n t, s => some (Sessions.createSessionRest n t s)
  | .findSessions m, s => some (Sessions.findSessions m s)
  | .joinSession r, s => some (Sessions.joinSession r s)
  | .joinSessionRest r, s => Sessions.joinSessionRest r s
  | .destroySession, s => some (Sessions.destroySession s)
  | .request _ _, _ => none
  | .serving, s => some s
  | .completing _ [], s => some s
  | .completing o (_ :: handles), s => some (callback o (s.push (.completing o handles)))
  | .broadcast o, s => some ((s.emit (.broadcast o)).push (.listeners o))
  | .listeners _, s => some s

def clientTurn : List Frame → Bool
  | [] => true
  | .listeners _ :: _ => true
  | _ => false

def serviceTurn : List Frame → Bool
  | .serving :: _ => true
  | stack => clientTurn stack

def sessionAfter (p : Pending) (o : Outcome) (session : Option Nat) : Option Nat :=
  match o with
  | .create true => session
  | .create false => if session = some p.id then none else session
  | .find _ _ => session
  | .join .success => session
  | .join _ => if session = some p.id then none else session
  | .destroy true => none
  | .destroy false => session

def searchAfter (p : Pending) (o : Outcome) (last : Option SessionSearch) : Option SessionSearch :=
  match p.request, o, last with
  | .find search, .find results _, some lastSearch =>
    if lastSearch.ref = search.ref then
      some { lastSearch with searchResults := results }
    else
      last
  | _, _, _ => last

def completed (i : Nat) (p : Pending) (o : Outcome) (s : State) : State :=
  let s := { s with
    outstanding := Function.update s.outstanding o.kind ((s.outstanding o.kind).eraseIdx i)
    namedSession := sessionAfter p o s.namedSession
    lastSessionSearch := searchAfter p o s.lastSessionSearch }
  (s.emit (.completed p.request o)).push (.completing o (s.delegates o.kind).handles)

-- A join under a name that is taken makes no other session.
def sessionMade (r : Request) (s : State) : Option Nat :=
  match r with
  | .create _ => some s.nextId
  | .join _ => if s.namesJoined && s.namedSession.isNone then some s.nextId else s.namedSession
  | _ => s.namedSession

def accepted (r : Request) (byCreateSession : Bool) (s : State) : State :=
  let p : Pending := ⟨s.nextId, r, byCreateSession⟩
  let s := { s with
    outstanding := Function.update s.outstanding r.kind (s.outstanding r.kind ++ [p])
    namedSession := sessionMade r s
    nextId := s.nextId + 1 }
  s.push .serving

inductive Move where
  | call (c : Call)
  -- The `i`-th outstanding request of the kind of `o` completes with `o`.
  | complete (i : Nat) (o : Outcome)
  | refuse
  | accept
  -- The innermost activation goes on.
  | resume
  deriving DecidableEq, Repr

def step (s : State) : Move → Option State
  | .call c =>
    if clientTurn s.stack then
      some ((s.emit (.called c)).push c.frame)
    else
      none
  | .complete i o =>
    match serviceTurn s.stack, (s.outstanding o.kind)[i]? with
    | true, some p => some (completed i p o s)
    | _, _ => none
  | .refuse =>
    match s.stack with
    | .request r _ :: stack => some (refused r { s with stack })
    | _ => none
  | .accept =>
    match s.stack with
    | .request r byCreateSession :: stack =>
      if r.kind = RequestKind.create ∧ s.namedSession.isSome then
        none
      else
        some (accepted r byCreateSession { s with stack })
    | _ => none
  | .resume =>
    match s.stack with
    | f :: stack => f.resume { s with stack }
    | [] => none

def machine : Machine State Move := ⟨step⟩

end Sessions
