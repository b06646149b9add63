import Mathlib.Data.Nat.Log
import RequestsNative.Lib.Effect
import RequestsNative.Lib.IndexMap
import RequestsNative.Python.BridgeRuns
import RequestsNative.Python.UrlParse

/-!
# The digest header

`build_digest_header` of `auth.py` answers the challenge of its thread. `_digest_auth_trial` of `auth.rs` prepares the answer
with the core crate, asks its origin for the time and for random bytes, and stores what changes in the state of the thread;
what it does not take it leaves to `build_digest_header`. Both are here, over the same hashes and callbacks.
-/

namespace RequestsNative.Python

open RequestsNative.Lib
open RequestsNative.Request (DigestChallenge DigestEnv DigestOutput DigestPlan DigestPreparation DigestRequest DigestState
  digestRequestTarget hexDigest lowerHex prepareDigest upperCase)
open RequestsNative.Url (chars)

/-! ### The thread -/

/-- `_thread_local`, without the counters of `handle_401`. -/
structure DigestLocal where
  chal : IndexMap Bytes (Option Bytes) := .empty
  lastNonce : Bytes := []
  nonceCount : Nat := 0

/-- A value of the challenge; a parameter without one has `None`. -/
def DigestLocal.item (threadLocal : DigestLocal) (key : String) : Option (Option Bytes) :=
  threadLocal.chal.entries.lookup (text key)

structure DigestWorld (Outer : Type) where
  threadLocal : DigestLocal := {}
  outer : Outer

namespace DigestWorld

variable {Outer : Type}

def setNonceCount (nonceCount : Nat) (world : DigestWorld Outer) : DigestWorld Outer :=
  { world with threadLocal := { world.threadLocal with nonceCount } }

def setLastNonce (lastNonce : Bytes) (world : DigestWorld Outer) : DigestWorld Outer :=
  { world with threadLocal := { world.threadLocal with lastNonce } }

end DigestWorld

/-- What the two call, and what they raise. -/
structure DigestCallbacks (Outer Error : Type) where
  /-- `time.ctime().encode("utf-8")`. -/
  ctime : Effect Outer Error Bytes
  /-- `os.urandom(size)`. -/
  urandom : Nat → Effect Outer Error Bytes
  /-- What `urlparse` refuses. -/
  refusesNetloc : Bytes → Bool
  valueError : Error
  keyError : String → Error
  attributeError : String → Error
  runtimeError : String → Error
  panicException : Panic → Error

/-- The arguments, and the credentials of the object. -/
structure DigestCall where
  username : Bytes
  password : Bytes
  method : Bytes
  url : Bytes

variable {Outer Error : Type}

/-- A call leaves the state of the thread. -/
def outside {α : Type} (call : Effect Outer Error α) : Effect (DigestWorld Outer) Error α := fun world =>
  let (result, outer) := call world.outer
  (result, { world with outer })

/-! ### `auth.py` -/

/-- The code points of a name. -/
def codes (name : String) : List Nat := (text name).map UInt8.toNat

/-- `_algorithm`, with `str.upper`. -/
def algorithmName : Option Bytes → List Nat
  | none => codes "MD5"
  | some algorithm => (chars algorithm).flatMap upperCase

/-- `hash_utf8`. -/
def hashUtf8 (env : DigestEnv) (algorithm : List Nat) : Option (Bytes → Bytes) :=
  if algorithm = codes "MD5" ∨ algorithm = codes "MD5-SESS" then some (hexDigest env.md5)
  else if algorithm = codes "SHA" then some (hexDigest env.sha1)
  else if algorithm = codes "SHA-256" then some (hexDigest env.sha256)
  else if algorithm = codes "SHA-512" then some (hexDigest env.sha512)
  else none

/-- `KD`. -/
def keyedDigest (hash : Bytes → Bytes) (s d : Bytes) : Bytes := hash (s ++ text ":" ++ d)

/-- `f"{count:08x}"`. -/
def ncValue (nonceCount : Nat) : Bytes := lowerHex (max 8 (Nat.log 16 nonceCount + 1)) nonceCount

/-- `respdig`, unless the quality of protection is another one. -/
def respdig (hash : Bytes → Bytes) (ha1 ha2 nonce ncvalue cnonce : Bytes) (qop : Option Bytes) : Option Bytes :=
  match qop with
  | none | some [] => some (keyedDigest hash ha1 (nonce ++ text ":" ++ ha2))
  | some qop =>
      if qop = text "auth" ∨ (qop.splitOn 44).any (· = text "auth") = true then
        some (keyedDigest hash ha1 (nonce ++ text ":" ++ ncvalue ++ text ":" ++ cnonce ++ text ":auth:" ++ ha2))
      else none

/-- A string that is not `None` and not empty. -/
def truthyText : Option Bytes → Bool
  | none | some [] => false
  | some _ => true

/-- `base`, behind its scheme. -/
def digestFields (username realm nonce path response : Bytes) (opaqueText algorithm qop : Option Bytes)
    (ncvalue cnonce : Bytes) : Bytes :=
  let base := text "username=\"" ++ username ++ text "\", realm=\"" ++ realm ++ text "\", nonce=\"" ++ nonce ++
    text "\", uri=\"" ++ path ++ text "\", response=\"" ++ response ++ text "\""
  let base := if truthyText opaqueText then base ++ text ", opaque=\"" ++ opaqueText.getD [] ++ text "\"" else base
  let base := if truthyText algorithm then base ++ text ", algorithm=\"" ++ algorithm.getD [] ++ text "\"" else base
  let base := if truthyText qop then base ++ text ", qop=\"auth\", nc=" ++ ncvalue ++ text ", cnonce=\"" ++ cnonce ++ text "\""
    else base
  text "Digest " ++ base

/-- `chal[key]`. -/
def challengeItem (callbacks : DigestCallbacks Outer Error) (threadLocal : DigestLocal) (key : String) :
    Effect (DigestWorld Outer) Error (Option Bytes) :=
  match threadLocal.item key with
  | none => Effect.fail (callbacks.keyError key)
  | some value => pure value

/-- A value in an f-string. -/
def shown (value : Option Bytes) : Bytes := value.getD (text "None")

def buildDigestHeader (env : DigestEnv) (callbacks : DigestCallbacks Outer Error) (call : DigestCall) :
    Effect (DigestWorld Outer) Error (Option Bytes) := do
  let threadLocal := (← Effect.read).threadLocal
  let realm ← challengeItem callbacks threadLocal "realm"
  let nonce ← challengeItem callbacks threadLocal "nonce"
  let qop := (threadLocal.item "qop").join
  let algorithm := (threadLocal.item "algorithm").join
  let opaqueText := (threadLocal.item "opaque").join
  match hashUtf8 env (algorithmName algorithm) with
  | none => return none
  | some hash =>
      match urlparse callbacks.refusesNetloc call.url with
      | none => Effect.fail callbacks.valueError
      | some parsed =>
          let path := parsed.target
          let ha1 := hash (call.username ++ text ":" ++ shown realm ++ text ":" ++ call.password)
          let ha2 := hash (call.method ++ text ":" ++ path)
          let nonceCount := if nonce = some threadLocal.lastNonce then threadLocal.nonceCount + 1 else 1
          Effect.modify (DigestWorld.setNonceCount nonceCount)
          match nonce with
          | none => Effect.fail (callbacks.attributeError "'NoneType' object has no attribute 'encode'")
          | some nonce =>
              let ctime ← outside callbacks.ctime
              let random ← outside (callbacks.urandom 8)
              let cnonce := (hexDigest env.sha1 (decimal nonceCount ++ nonce ++ ctime ++ random)).take 16
              let ha1 :=
                if algorithmName algorithm = codes "MD5-SESS" then hash (ha1 ++ text ":" ++ nonce ++ text ":" ++ cnonce) else ha1
              match respdig hash ha1 ha2 nonce (ncValue nonceCount) cnonce qop with
              | none => return none
              | some response =>
                  Effect.modify (DigestWorld.setLastNonce nonce)
                  return some (digestFields call.username (shown realm) nonce path response opaqueText algorithm qop
                    (ncValue nonceCount) cnonce)

/-! ### `auth.rs` -/

inductive DigestAction
  | ctime
  | random (size : Nat)
  deriving DecidableEq, Repr

inductive DigestReply
  | bytes (value : Bytes)
  | failed
  deriving DecidableEq, Repr

inductive DigestOutcome
  | complete (output : DigestOutput)
  | handlerFailed
  | bridgeClosed (error : BridgeClosed)
  deriving DecidableEq, Repr

/-- Where `digest_worker` stands. -/
inductive DigestPoint
  | askTime
  | askRandom (ctime : Bytes)
  | returning (outcome : DigestOutcome)
  deriving DecidableEq, Repr

/-- How `digest_worker` goes on with a reply. -/
def DigestPoint.resume (go : Bytes → DigestPoint) : Except BridgeClosed DigestReply → DigestPoint
  | .ok (.bytes value) => go value
  | .ok .failed => .returning .handlerFailed
  | .error error => .returning (.bridgeClosed error)

/-- `digest_worker`. -/
def digestWorker (env : DigestEnv) (plan : DigestPlan) : DigestPoint → FutureTurn DigestPoint DigestOutcome DigestAction DigestReply
  | .askTime => .ask .ctime (DigestPoint.resume .askRandom)
  | .askRandom ctime => .ask (.random 8) (DigestPoint.resume fun random => .returning (.complete (plan.finish env ctime random)))
  | .returning outcome => .complete outcome

structure OriginDigestOwner (Outer Error : Type) where
  handlerError : Option Error := none
  world : DigestWorld Outer

/-- `digest_action`. -/
def digestAction (callbacks : DigestCallbacks Outer Error) : DigestAction → Effect (DigestWorld Outer) Error Bytes
  | .ctime => outside callbacks.ctime
  | .random size => outside (callbacks.urandom size)

/-- The loop of the origin replies with the bytes, or stores the error. -/
def digestDisposition (callbacks : DigestCallbacks Outer Error) (action : DigestAction) (owner : OriginDigestOwner Outer Error) :
    ActionReplyDisposition DigestReply × OriginDigestOwner Outer Error :=
  match digestAction callbacks action owner.world with
  | (.ok value, world) => (.reply (.bytes value), { owner with world })
  | (.error error, world) => (.reply .failed, { owner with world, handlerError := owner.handlerError.or (some error) })

/-- What the trial does before it asks anything. -/
inductive DigestSelection (Error : Type)
  /-- It leaves the call to `build_digest_header`. -/
  | compat
  | raised (error : Error)
  | unsupported
  | planned (plan : DigestPlan)

/-- `required_challenge_string`. -/
def requiredChallengeString (callbacks : DigestCallbacks Outer Error) (threadLocal : DigestLocal) (key : String) :
    Except Error Bytes :=
  match threadLocal.item key with
  | none => .error (callbacks.keyError key)
  | some none => .error (callbacks.runtimeError "digest trial requires exact string challenge values")
  | some (some value) => .ok value

def DigestCall.request (call : DigestCall) (threadLocal : DigestLocal) (realm nonce : Bytes) : DigestRequest where
  username := call.username
  password := call.password
  method := call.method
  url := call.url
  challenge :=
    { realm
      nonce
      qop := (threadLocal.item "qop").join
      algorithm := (threadLocal.item "algorithm").join
      opaqueText := (threadLocal.item "opaque").join }

/-- `_digest_auth_trial`, up to its plan. -/
def selectDigest (env : DigestEnv) (callbacks : DigestCallbacks Outer Error) (pristine : Bool) (call : DigestCall)
    (threadLocal : DigestLocal) : DigestSelection Error :=
  if pristine = false ∨ digestRequestTarget env call.url = none then .compat
  else
    match requiredChallengeString callbacks threadLocal "realm" with
    | .error error => .raised error
    | .ok realm =>
        match requiredChallengeString callbacks threadLocal "nonce" with
        | .error error => .raised error
        | .ok nonce =>
            -- `extract::<u32>` of the count
            if 2 ^ 32 ≤ threadLocal.nonceCount then .compat
            else
              match prepareDigest env (call.request threadLocal realm nonce)
                ⟨threadLocal.lastNonce, UInt32.ofNat threadLocal.nonceCount⟩ with
              | .error panic => .raised (callbacks.panicException panic)
              | .ok (.unsupported _) => .unsupported
              | .ok (.ready plan) => .planned plan

/-- The end of `_digest_auth_trial`. -/
def OriginDigestOwner.conclude (callbacks : DigestCallbacks Outer Error) (owner : OriginDigestOwner Outer Error) :
    DigestOutcome → Except Error (Option Bytes) × DigestWorld Outer
  | outcome =>
      match owner.handlerError with
      | some error => (.error error, owner.world)
      | none =>
          match outcome with
          | .complete output =>
              (.ok output.header, if output.header.isSome then owner.world.setLastNonce output.state.lastNonce else owner.world)
          | .handlerFailed =>
              (.error (callbacks.runtimeError "digest callback failed without preserving its Python exception"), owner.world)
          | .bridgeClosed error => (.error (callbacks.runtimeError error.fmt), owner.world)

/-- `_digest_auth_trial` returns or raises so, with some order of the steps of its bridge. -/
def DigestTrial (env : DigestEnv) (callbacks : DigestCallbacks Outer Error) (processId : Nat) (pristine : Bool) (call : DigestCall)
    (world : DigestWorld Outer) (result : Except Error (Option Bytes)) (world' : DigestWorld Outer) : Prop :=
  match selectDigest env callbacks pristine call world.threadLocal with
  | .compat => buildDigestHeader env callbacks call world = (result, world')
  | .raised error => result = .error error ∧ world' = world
  | .unsupported => result = .ok none ∧ world' = world
  | .planned plan =>
      ∃ trace b outcome owner,
        (Bridge.machine processId (digestWorker env plan) (digestDisposition callbacks)).Run
          (Bridge.start processId .askTime { world := world.setNonceCount plan.state.nonceCount.toNat }) trace b ∧
        (outcome, owner) ∈ returnedIn (bridgeLog trace) ∧ owner.conclude callbacks outcome = (result, world')

end RequestsNative.Python
