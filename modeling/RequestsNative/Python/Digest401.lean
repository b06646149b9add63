import RequestsNative.Lib.Effect
import RequestsNative.Python.BridgeRuns

/-!
# Answering a digest challenge

`handle_401` of `auth.py` sends a request again, with the credentials that the response asks for. `_digest_401_trial` of
`auth.rs` does it from a worker: `Digest401Machine` has the steps in their order, and the worker asks its origin for each
of them. Both are here, with the calls of Python that they make; the trial falls back on `handle_401` for the responses it
does not take.
-/

namespace RequestsNative.Python

open RequestsNative.Lib

/-- The types of the objects. -/
structure DigestObjects where
  World : Type
  Response : Type
  Request : Type
  Body : Type
  Seek : Type
  Position : Type
  Challenge : Type
  Error : Type

/-- The state of the thread, and what the two call; each call may change the world and raise. -/
structure DigestLibrary (D : DigestObjects) where
  /-- What the trial checks before it runs without Python. -/
  pristine : D.Response → D.World → Bool
  pos : D.World → Option D.Position
  num401Calls : D.World → Option Nat
  setNum401Calls : Nat → D.World → D.World
  setChal : D.Challenge → D.World → D.World
  statusCode : D.Response → D.World → Int
  /-- `r.request.body`. -/
  body : D.Response → D.World → D.Body
  /-- `seek` of the body, without one for `AttributeError`. -/
  getSeek : D.Body → Effect D.World D.Error (Option D.Seek)
  isNone : D.Seek → Bool
  seek : D.Seek → D.Position → Effect D.World D.Error Unit
  /-- `r.headers.get("www-authenticate", "")`. -/
  authenticate : D.Response → D.World → Bytes
  /-- `lower` and `to_lowercase`. -/
  lower : Bytes → Bytes
  /-- `parse_dict_header`, without the first `digest `. -/
  parseChallenge : Bytes → Effect D.World D.Error D.Challenge
  content : D.Response → Effect D.World D.Error Unit
  close : D.Response → Effect D.World D.Error Unit
  /-- `r.request.copy()`. -/
  copy : D.Response → Effect D.World D.Error D.Request
  /-- `extract_cookies_to_jar(prep._cookies, r.request, r.raw)`. -/
  extractCookies : D.Request → D.Response → Effect D.World D.Error Unit
  prepareCookies : D.Request → Effect D.World D.Error Unit
  /-- The header, if it is truthy. -/
  buildDigestHeader : D.Request → Effect D.World D.Error (Option Bytes)
  setAuthorization : D.Request → Bytes → Effect D.World D.Error Unit
  /-- `r.connection.send(prep, **kwargs)`. -/
  send : D.Response → D.Request → Effect D.World D.Error D.Response
  appendHistory (sent response : D.Response) : Effect D.World D.Error Unit
  setRequest : D.Response → D.Request → Effect D.World D.Error Unit
  typeError : String → D.Error
  runtimeError : String → D.Error

variable {D : DigestObjects} (library : DigestLibrary D)

/-- `"digest" in s_auth.lower()`. -/
def DigestLibrary.mentionsDigest (header : Bytes) : Bool := (library.lower header).tails.any (text "digest").isPrefixOf

/-! ### `auth.py` -/

/-- The body is brought back to where it was. -/
def rewindTo (response : D.Response) : Effect D.World D.Error Unit := do
  let world ← Effect.read
  match library.pos world with
  | none => pure ()
  | some position =>
      let seek ← library.getSeek (library.body response world)
      match seek with
      | none => pure ()
      | some seek => if library.isNone seek then pure () else library.seek seek position

/-- `prep.headers["Authorization"]`, if there is a header for it. -/
def attachDigest (prep : D.Request) : Effect D.World D.Error Unit := do
  let header ← library.buildDigestHeader prep
  match header with
  | none => pure ()
  | some header => library.setAuthorization prep header

/-- The request is sent again, with the credentials. -/
def resend (response : D.Response) (num401Calls : Nat) (sAuth : Bytes) : Effect D.World D.Error D.Response := do
  Effect.modify (library.setNum401Calls (num401Calls + 1))
  let chal ← library.parseChallenge sAuth
  Effect.modify (library.setChal chal)
  library.content response
  library.close response
  let prep ← library.copy response
  library.extractCookies prep response
  library.prepareCookies prep
  attachDigest library prep
  let sent ← library.send response prep
  library.appendHistory sent response
  library.setRequest sent prep
  return sent

def keepResponse (response : D.Response) : Effect D.World D.Error D.Response := do
  Effect.modify (library.setNum401Calls 1)
  return response

/-- The second half of `handle_401`. -/
def tryDigest (response : D.Response) : Effect D.World D.Error D.Response := do
  let world ← Effect.read
  let sAuth := library.authenticate response world
  if library.mentionsDigest sAuth then
    match library.num401Calls world with
    | none => Effect.fail (library.typeError "'<' not supported between instances of 'NoneType' and 'int'")
    | some num401Calls =>
        if num401Calls < 2 then resend library response num401Calls sAuth else keepResponse library response
  else keepResponse library response

def handle401 (response : D.Response) : Effect D.World D.Error D.Response := do
  let world ← Effect.read
  if library.statusCode response world < 400 ∨ 500 ≤ library.statusCode response world then keepResponse library response
  else do
    rewindTo library response
    tryDigest library response

/-! ### `auth.rs` -/

inductive Digest401Step
  | seek | challenge | increment | parse | consume | close | copy | extractCookies | prepareCookies | preparedParts
  | updateNonceCount | ctime | random | updateLastNonce | setHeader | send | appendHistory | replaceRequest
  deriving DecidableEq, Repr

/-- What `Digest401Machine` goes through. -/
def digest401Steps : List Digest401Step :=
  [.seek, .challenge, .increment, .parse, .consume, .close, .copy, .extractCookies, .prepareCookies, .preparedParts,
    .updateNonceCount, .ctime, .random, .updateLastNonce, .setHeader, .send, .appendHistory, .replaceRequest]

inductive Digest401Action
  | seek | challenge | reset401 | increment401 (value : Nat) | parse (header : Bytes) | consume | close | copy
  | extractCookies | prepareCookies | buildDigestHeader | send | appendHistory | replaceRequest
  deriving DecidableEq, Repr

inductive Digest401Reply
  | ack
  | header (value : Bytes)
  | failed
  deriving DecidableEq, Repr

inductive Digest401Outcome
  | original
  | sent
  | handlerFailed
  | bridgeClosed (error : BridgeClosed)
  /-- An `expect` of the worker. -/
  | panicked (message : String)
  deriving DecidableEq, Repr

/-- Where the worker stands: before the rest of the steps, or about to return. -/
inductive Digest401Point
  | stepping (steps : List Digest401Step) (header : Option Bytes)
  | returning (outcome : Digest401Outcome)

/-- How the worker goes on with a reply that is to be an acknowledgement. -/
def acked (next : Digest401Point) : Except BridgeClosed Digest401Reply → Digest401Point
  | .ok .ack => next
  | .ok _ => .returning .handlerFailed
  | .error error => .returning (.bridgeClosed error)

def headed (steps : List Digest401Step) : Except BridgeClosed Digest401Reply → Digest401Point
  | .ok (.header value) => .stepping steps (some value)
  | .ok _ => .returning .handlerFailed
  | .error error => .returning (.bridgeClosed error)

/-- The loop of `digest_401_worker`, up to its next request. -/
def digest401Walk (num401Calls : Nat) (header : Option Bytes) :
    List Digest401Step → FutureTurn Digest401Point Digest401Outcome Digest401Action Digest401Reply
  | [] => .complete .sent
  | step :: steps =>
      match step with
      | .seek => .ask .seek (acked (.stepping steps header))
      | .challenge => .ask .challenge (headed steps)
      | .increment =>
          match header with
          | none => .complete (.panicked "challenge precedes increment")
          | some value =>
              if !library.mentionsDigest value || 2 ≤ num401Calls then .ask .reset401 (acked (.returning .original))
              else .ask (.increment401 (num401Calls + 1)) (acked (.stepping steps header))
      | .parse =>
          match header with
          | none => .complete (.panicked "challenge precedes parse")
          | some value => .ask (.parse value) (acked (.stepping steps none))
      | .consume => .ask .consume (acked (.stepping steps header))
      | .close => .ask .close (acked (.stepping steps header))
      | .copy => .ask .copy (acked (.stepping steps header))
      | .extractCookies => .ask .extractCookies (acked (.stepping steps header))
      | .prepareCookies => .ask .prepareCookies (acked (.stepping steps header))
      | .preparedParts => .ask .buildDigestHeader (acked (.stepping steps header))
      | .updateNonceCount | .ctime | .random | .updateLastNonce | .setHeader => digest401Walk num401Calls header steps
      | .send => .ask .send (acked (.stepping steps header))
      | .appendHistory => .ask .appendHistory (acked (.stepping steps header))
      | .replaceRequest => .ask .replaceRequest (acked (.stepping steps header))

/-- `digest_401_worker`. -/
def digest401Worker (num401Calls : Nat) :
    Digest401Point → FutureTurn Digest401Point Digest401Outcome Digest401Action Digest401Reply
  | .stepping steps header => digest401Walk library num401Calls header steps
  | .returning outcome => .complete outcome

/-- With the world that the actions change. -/
structure OriginDigest401Owner (D : DigestObjects) where
  response : D.Response
  prepared : Option D.Request := none
  sent : Option D.Response := none
  handlerError : Option D.Error := none
  world : D.World

abbrev OriginEffect (D : DigestObjects) (α : Type) : Type := Effect (OriginDigest401Owner D) D.Error α

/-- What an action does to the world. -/
def inWorld {α : Type} (x : Effect D.World D.Error α) : OriginEffect D α := fun owner =>
  ((x owner.world).1, { owner with world := (x owner.world).2 })

/-- `.ok()`: an error leaves nothing. -/
def okOrNone {α : Type} (x : Effect D.World D.Error (Option α)) : Effect D.World D.Error (Option α) := fun world =>
  (.ok ((x world).1.toOption.join), (x world).2)

/-- `prepared.as_ref().ok_or_else(..)`. -/
def preparedRequest : OriginEffect D D.Request := do
  let owner ← Effect.read
  match owner.prepared with
  | some prepared => return prepared
  | none => Effect.fail (library.runtimeError "digest resend has no prepared request")

def sentResponse : OriginEffect D D.Response := do
  let owner ← Effect.read
  match owner.sent with
  | some sent => return sent
  | none => Effect.fail (library.runtimeError "digest resend has no response")

def seekAction : OriginEffect D Unit := do
  let owner ← Effect.read
  match library.pos owner.world with
  | none => pure ()
  | some position =>
      let seek ← inWorld (okOrNone (library.getSeek (library.body owner.response owner.world)))
      match seek with
      | none => pure ()
      | some seek => inWorld (library.seek seek position)

/-- The part of `digest_401_action` behind the actions that answer with an acknowledgement. -/
def plainAction : Digest401Action → OriginEffect D Unit
  | .seek => seekAction library
  | .challenge => pure ()
  | .reset401 => inWorld (Effect.modify (library.setNum401Calls 1))
  | .increment401 value => inWorld (Effect.modify (library.setNum401Calls value))
  | .parse header => do
      let challenge ← inWorld (library.parseChallenge header)
      inWorld (Effect.modify (library.setChal challenge))
  | .consume => do
      let owner ← Effect.read
      inWorld (library.content owner.response)
  | .close => do
      let owner ← Effect.read
      inWorld (library.close owner.response)
  | .copy => do
      let owner ← Effect.read
      let prepared ← inWorld (library.copy owner.response)
      Effect.modify fun owner => { owner with prepared := some prepared }
  | .extractCookies => do
      let owner ← Effect.read
      let prepared ← preparedRequest library
      inWorld (library.extractCookies prepared owner.response)
  | .prepareCookies => do
      let prepared ← preparedRequest library
      inWorld (library.prepareCookies prepared)
  | .buildDigestHeader => do
      let prepared ← preparedRequest library
      let header ← inWorld (library.buildDigestHeader prepared)
      match header with
      | none => pure ()
      | some header => inWorld (library.setAuthorization prepared header)
  | .send => do
      let owner ← Effect.read
      let prepared ← preparedRequest library
      let sent ← inWorld (library.send owner.response prepared)
      Effect.modify fun owner => { owner with sent := some sent }
  | .appendHistory => do
      let owner ← Effect.read
      let sent ← sentResponse library
      inWorld (library.appendHistory sent owner.response)
  | .replaceRequest => do
      let prepared ← preparedRequest library
      let sent ← sentResponse library
      inWorld (library.setRequest sent prepared)

/-- `digest_401_action`. -/
def digest401Action : Digest401Action → OriginEffect D Digest401Reply
  | .challenge => do
      let owner ← Effect.read
      return .header (library.authenticate owner.response owner.world)
  | action => do
      plainAction library action
      return .ack

namespace OriginDigest401Owner

/-- The action as the loop of the origin executes it, with `store_digest_401_error`. -/
def executeAction (owner : OriginDigest401Owner D) (action : Digest401Action) :
    ActionReplyDisposition Digest401Reply × OriginDigest401Owner D :=
  match digest401Action library action owner with
  | (.ok reply, owner) => (.reply reply, owner)
  | (.error error, owner) => (.reply .failed, { owner with handlerError := owner.handlerError.or (some error) })

/-- The end of `_digest_401_trial`. -/
def conclude (owner : OriginDigest401Owner D) (outcome : Digest401Outcome) : Except D.Error D.Response :=
  match owner.handlerError with
  | some error => .error error
  | none =>
      match outcome with
      | .original => .ok owner.response
      | .sent =>
          match owner.sent with
          | some sent => .ok sent
          | none => .error (library.runtimeError "digest resend lost its response")
      | .handlerFailed => .error (library.runtimeError "digest 401 action failed without preserving its Python exception")
      | .bridgeClosed error => .error (library.runtimeError error.fmt)
      | .panicked message => .error (library.runtimeError message)

end OriginDigest401Owner

/-- The call goes to the worker: with this count. -/
def taken (response : D.Response) (world : D.World) : Option Nat :=
  if library.pristine response world && decide (library.statusCode response world = 401) then
    (library.num401Calls world).filter fun num401Calls => num401Calls < 2 ^ 32
  else none

/-- `_digest_401_trial` returns or raises so, with some order of the steps of its bridge. -/
def Handles401 (processId : Nat) (response : D.Response) (world : D.World) (result : Except D.Error D.Response)
    (world' : D.World) : Prop :=
  match taken library response world with
  | none => handle401 library response world = (result, world')
  | some num401Calls =>
      ∃ trace b outcome owner,
        (Bridge.machine processId (digest401Worker library num401Calls)
          fun action owner => OriginDigest401Owner.executeAction library owner action).Run
          (Bridge.start processId (.stepping digest401Steps none) { response, world }) trace b ∧
        (outcome, owner) ∈ returnedIn (bridgeLog trace) ∧ owner.conclude library outcome = result ∧ owner.world = world'

end RequestsNative.Python
