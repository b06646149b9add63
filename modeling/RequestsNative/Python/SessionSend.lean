import RequestsNative.Python.Redirects

/-!
# Sending with a session

`Session.send` of `sessions.py`, and `session_send_with_builtins` of `sessions.rs`: a request goes to its adapter, the hooks
see the response, the cookies are kept, and the redirects are followed or the next request is prepared for later. Both
follow the redirects with their own loop, and each hop is a `send` that follows none.

A `StopIteration` that some call raises ends the loop of the cursor; a generator does not let it through.
-/

namespace RequestsNative.Python

open Lib (Effect)

/-- What `send` reads of the session. -/
structure SendSession extends Session where
  stream : Bool
  proxies : Proxies

/-- The arguments of `send`; those that are `none` are not passed. -/
structure SendArguments where
  allowRedirects : Bool := true
  stream : Option Bool := none
  proxies : Option Proxies := none

/-- What the hooks make of a response, with the history they gave it and the requests of that. -/
structure HookedResponse (T : Objects) where
  response : Response T
  history : List (Response T × PreparedRequest T)

/-- A response as `send` returns it: with its history and `_next`. -/
structure SentResponse (T : Objects) where
  response : Response T
  history : List (Response T)
  next : Option (PreparedRequest T)

structure Transmission (T : Objects) where
  /-- `get_adapter` and the `send` of the adapter. -/
  adapterSend : PreparedRequest T → Proxies → T.World → Except Exception (Response T) × T.World
  /-- `dispatch_hook` with the hooks of the request. -/
  dispatchHook : PreparedRequest T → Response T → T.World → Except Exception (HookedResponse T) × T.World

variable {T : Objects} (lib : Library T) (transmission : Transmission T) (session : SendSession)

/-! ### The part before the redirects -/

def sendProxies (args : SendArguments) (request : PreparedRequest T) : Proxies :=
  args.proxies.getD (lib.resolveProxies request (some session.proxies) session.trustEnv)

def persistCookies (request : PreparedRequest T) (hooked : HookedResponse T) (env : Env T) : Env T :=
  let world := hooked.history.foldl (fun world item => lib.extractCookiesToSession item.2 item.1.raw world) env.world
  { env with world := lib.extractCookiesToSession request hooked.response.raw world }

/-- The request is sent, and its response is what the hooks make of it. -/
def sendFirst (proxies : Proxies) (request : PreparedRequest T) : Py T (HookedResponse T) := do
  record (.sent request proxies)
  let response ← call (transmission.adapterSend request proxies)
  let hooked ← call (transmission.dispatchHook request response)
  Effect.modify (persistCookies lib request hooked)
  return hooked

/-- The last of the responses is the one to return. -/
def shuffle (hooked : HookedResponse T) (history : List (Response T)) : SentResponse T :=
  match history.getLast? with
  | none => ⟨hooked.response, hooked.history.map (·.1), none⟩
  | some last => ⟨last, hooked.response :: history.dropLast, none⟩

/-- The loop that has prepared a request has also set the history of the response, to an empty one. -/
def SentResponse.withNext (sent : SentResponse T) (next : Option (PreparedRequest T)) : SentResponse T :=
  { sent with next, history := if next.isSome then [] else sent.history }

def readUnlessStream (stream : Bool) (response : Response T) : Py T Unit :=
  if stream then pure () else call (lib.content response)

/-! ### `sessions.py` -/

variable (strips : Bytes → Bytes → Bool)

/-- `[resp for resp in gen]`, for a generator that yields at most so many responses. -/
def listOfGenerator : Nat → Generator T → Py T (List (Response T))
  | 0, _ => Effect.fail (.panic (text "out of fuel"))
  | fuel + 1, generator => fun env =>
      match generator.next lib session.toSession strips false env with
      | (.value (.response response), generator, env) => (do
          let rest ← listOfGenerator fuel generator
          return response :: rest) env
      -- this loop yields no requests
      | (.value (.request _), generator, env) => listOfGenerator fuel generator env
      | (.stopIteration, _, env) => (.ok [], env)
      | (.raised error, _, env) => (.error error, env)

/-- What `next` is kept as, where a `StopIteration` says that there is none. -/
def requestOf : Next T → Except (Raised T) (Option (PreparedRequest T))
  | .value (.request next) => .ok (some next)
  | .value (.response _) | .stopIteration => .ok none
  | .raised error => .error error

/-- `next(self.resolve_redirects(r, request, yield_requests=True, **kwargs))`. -/
def nextRequest (response : Response T) (request : PreparedRequest T) (proxies : Proxies) : Py T (Option (PreparedRequest T)) :=
  fun env =>
    let next := (Generator.created response request (some proxies)).next lib session.toSession strips true env
    (requestOf next.1, next.2.2)

def send (args : SendArguments) (request : PreparedRequest T) : Py T (SentResponse T) := do
  let stream := args.stream.getD session.stream
  let proxies := sendProxies lib session args request
  let hooked ← sendFirst lib transmission proxies request
  let history ←
    if args.allowRedirects then
      listOfGenerator lib session strips (session.maxRedirects + 1) (.created hooked.response request (some proxies))
    else pure []
  let sent := shuffle hooked history
  let next ←
    if args.allowRedirects then pure none else nextRequest lib session strips sent.response request proxies
  readUnlessStream lib stream sent.response
  return sent.withNext next

/-! ### `sessions.rs` -/

/-- The loop over `send_cursor_next`. -/
def cursorHistory : Nat → SessionRedirectCursor T → Py T (List (Response T))
  | 0, _ => Effect.fail (.panic (text "out of fuel"))
  | fuel + 1, cursor => fun env =>
      match cursor.advance lib session.toSession env with
      | (.value (.response response), cursor, env) => (do
          let rest ← cursorHistory fuel cursor
          return response :: rest) env
      | (.value (.request _), cursor, env) => cursorHistory fuel cursor env
      | (.stopIteration, _, env) => (.ok [], env)
      | (.raised error, _, env) => (if isStopIteration error then .ok [] else .error error, env)

def cursorRequestOf : Next T → Except (Raised T) (Option (PreparedRequest T))
  | .value (.request next) => .ok (some next)
  | .value (.response _) | .stopIteration => .ok none
  | .raised error => if isStopIteration error then .ok none else .error error

def cursorNextRequest (response : Response T) (request : PreparedRequest T) (proxies : Proxies) :
    Py T (Option (PreparedRequest T)) := fun env =>
  let next := (fromInvocation response request (some proxies) true).advance lib session.toSession env
  (cursorRequestOf next.1, next.2.2)

/-- `session_send_with_builtins`. -/
def sessionSend (args : SendArguments) (request : PreparedRequest T) : Py T (SentResponse T) := do
  let stream := args.stream.getD session.stream
  let proxies := sendProxies lib session args request
  let hooked ← sendFirst lib transmission proxies request
  let history ←
    if args.allowRedirects then
      cursorHistory lib session (session.maxRedirects + 1) (fromInvocation hooked.response request (some proxies) false)
    else pure []
  let sent := shuffle hooked history
  let next ←
    if !args.allowRedirects then cursorNextRequest lib session sent.response request proxies else pure none
  readUnlessStream lib stream sent.response
  return sent.withNext next

/-! ### Hops -/

def Raised.toException : Raised T → Exception
  | .exception raised => raised
  | .tooManyRedirects .. => .other (text "TooManyRedirects")
  | .valueError _ => .other (text "ValueError")
  | .panic _ => .other (text "PanicException")

/-- A hop is sent by the session itself, with `allow_redirects=False`. -/
def hopSend (sendOne : SendArguments → PreparedRequest T → Py T (SentResponse T)) (stream : Bool)
    (request : PreparedRequest T) (proxies : Proxies) (world : T.World) : Except Exception (Response T) × T.World :=
  let result := sendOne { allowRedirects := false, stream := some stream, proxies := some proxies } request ⟨world, []⟩
  (match result.1 with
    | .ok sent => .ok sent.response
    | .error error => .error error.toException, result.2.world)

/-- The library whose hops are sent by `sessions.py`. -/
def withHops (stream : Bool) : Library T :=
  { lib with send := hopSend (send lib transmission session strips) stream }

/-- The library whose hops are sent by `sessions.rs`. -/
def withNativeHops (stream : Bool) : Library T :=
  { lib with send := hopSend (sessionSend lib transmission session) stream }

/-- A whole `send`, hops included. -/
def sendThrough (args : SendArguments) (request : PreparedRequest T) : Py T (SentResponse T) :=
  send (withHops lib transmission session strips (args.stream.getD session.stream)) transmission session strips args request

def sessionSendThrough (args : SendArguments) (request : PreparedRequest T) : Py T (SentResponse T) :=
  sessionSend (withNativeHops lib transmission session (args.stream.getD session.stream)) transmission session args request

end RequestsNative.Python
