import RequestsNative.Ascii
import RequestsNative.Lib.Effect

/-!
# Following redirects

The redirect loop is written twice: `resolve_redirects` of `sessions.py` is a generator, and `SessionRedirectCursor` of
`sessions.rs` is the same loop as an explicit state, one `next` at a time. Both are here, for a session whose methods are
not overridden, with the functions they call: where the library and the interpreter are called, `Library` gives an
arbitrary function, and where the outside world is involved it may change the world and raise.

A log keeps what the loop did on the way: which response was processed with which history, which request was prepared
with which proxies, and which was sent.
-/

namespace RequestsNative.Python

open Lib (Effect)

/-! ### Headers -/

/-- `CaseInsensitiveDict`, in the order of its items. -/
abbrev Headers := List (Bytes × Bytes)

namespace Headers

def get? (headers : Headers) (name : Bytes) : Option Bytes :=
  (headers.find? fun header => eqIgnoreAsciiCase header.1 name).map (·.2)

def contains (headers : Headers) (name : Bytes) : Bool := headers.any fun header => eqIgnoreAsciiCase header.1 name

/-- `pop(name, None)` and `del`. -/
def pop (headers : Headers) (name : Bytes) : Headers := headers.filter fun header => !eqIgnoreAsciiCase header.1 name

def set (headers : Headers) (name value : Bytes) : Headers :=
  if headers.contains name then
    headers.map fun header => if eqIgnoreAsciiCase header.1 name then (name, value) else header
  else headers ++ [(name, value)]

end Headers

/-! ### Requests, responses and what is called -/

/-- The types of the objects that are only passed on. -/
structure Objects where
  World : Type
  Jar : Type
  Body : Type
  Raw : Type
  Auth : Type

/-- `_body_position`; a failed `tell` leaves an object that is no position. -/
inductive BodyPosition
  | tell (position : Nat)
  | failed
  deriving DecidableEq, Repr

/-- The result of `urlparse`. `rest` is the path, the parameters and the query. -/
structure ParseResult where
  scheme : Bytes
  netloc : Bytes
  hostname : Option Bytes
  port : Option Nat
  rest : Bytes
  fragment : Bytes
  deriving DecidableEq, Repr

/-- A dictionary from schemes to proxy URLs. -/
abbrev Proxies := List (Bytes × Bytes)

inductive Exception
  | chunkedEncodingError | contentDecodingError | runtimeError | other (name : Bytes)
  deriving DecidableEq, Repr

variable (T : Objects)

structure PreparedRequest where
  method : Bytes
  url : Bytes
  headers : Headers
  cookies : T.Jar
  body : Option T.Body
  bodyPosition : Option BodyPosition

/-- `Response`, with the URL of the request it answers. -/
structure Response where
  statusCode : Nat
  url : Bytes
  location : Option Bytes
  requestUrl : Bytes
  raw : T.Raw

structure Session where
  maxRedirects : Nat
  trustEnv : Bool

/-- The functions that are called. -/
structure Library where
  urlparse : Bytes → ParseResult
  geturl : ParseResult → Bytes
  urljoin : Bytes → Bytes → Bytes
  requoteUri : Bytes → Bytes
  /-- `to_native_string(location.encode("latin1"), "utf8")`. -/
  locationText : Bytes → Except Exception Bytes
  content : Response T → T.World → Except Exception Unit × T.World
  rawRead : Response T → T.World → Except Exception Unit × T.World
  close : Response T → T.World → Except Exception Unit × T.World
  /-- `Session.send`, with the arguments that stay the same for the whole chain. -/
  send : PreparedRequest T → Proxies → T.World → Except Exception (Response T) × T.World
  rewindBody : PreparedRequest T → T.World → Except Exception Unit × T.World
  sessionCookies : T.World → T.Jar
  extractCookiesToSession : PreparedRequest T → T.Raw → T.World → T.World
  extractCookiesToJar : T.Jar → PreparedRequest T → T.Raw → T.Jar
  mergeCookies : T.Jar → T.Jar → T.Jar
  getCookieHeader : T.Jar → PreparedRequest T → Option Bytes
  resolveProxies : PreparedRequest T → Option Proxies → Bool → Proxies
  getAuthFromUrl : Bytes → Bytes × Bytes
  basicAuthStr : Bytes → Bytes → Bytes
  getNetrcAuth : Bytes → Option T.Auth
  prepareAuth : PreparedRequest T → T.Auth → PreparedRequest T

inductive Event
  | processed (response : Response T) (history : List (Response T))
  | prepared (previous : Bytes) (request : PreparedRequest T) (proxies : Proxies)
  | sent (request : PreparedRequest T) (proxies : Proxies)

structure Env where
  world : T.World
  log : List (Event T)

inductive Raised
  | exception (exception : Exception)
  | tooManyRedirects (message : Bytes) (response : Response T)
  | valueError (message : Bytes)
  | panic (message : Bytes)

/-- What the loop yields. -/
inductive Yielded
  | request (request : PreparedRequest T)
  | response (response : Response T)

/-- What a call of `next` ends with. -/
inductive Next
  | value (value : Yielded T)
  | stopIteration
  | raised (error : Raised T)

abbrev Py (α : Type) : Type := Effect (Env T) (Raised T) α

variable {T}

/-- A call of the outside world. -/
def call {α : Type} (f : T.World → Except Exception α × T.World) : Py T α := fun env =>
  match f env.world with
  | (.ok value, world) => (.ok value, { env with world })
  | (.error exception, world) => (.error (.exception exception), { env with world })

def record (event : Event T) : Py T Unit := Effect.modify fun env => { env with log := env.log ++ [event] }

/-- A function that may raise. -/
def liftPy {α : Type} : Except Exception α → Py T α
  | .ok value => pure value
  | .error exception => Effect.fail (.exception exception)

/-- `REDIRECT_STATI`. -/
def redirectStati : List Nat := [301, 302, 303, 307, 308]

def Response.isRedirect (response : Response T) : Bool :=
  response.location.isSome && redirectStati.contains response.statusCode

/-- A string or `None` that counts as true. -/
def isTruthy (value : Option Bytes) : Bool := value.any (· != [])

def PreparedRequest.copy (request : PreparedRequest T) : PreparedRequest T :=
  { method := request.method, url := request.url, headers := request.headers, cookies := request.cookies,
    body := request.body, bodyPosition := request.bodyPosition }

variable (lib : Library T) (session : Session)

/-- `models.py`, `prepare_cookies`. -/
def prepareCookies (request : PreparedRequest T) (jar : T.Jar) : PreparedRequest T :=
  let request := { request with cookies := jar }
  match lib.getCookieHeader jar request with
  | none => request
  | some header => { request with headers := request.headers.set (text "Cookie") header }

/-! ### Steps that both loops take -/

/-- The exceptions that `resp.content` may raise here. -/
def isCaught : Exception → Bool
  | .chunkedEncodingError | .contentDecodingError | .runtimeError => true
  | .other _ => false

/-- `content_or_fallback`: the socket is emptied, if need be without decoding. -/
def contentOrFallback (response : Response T) : Py T Unit := fun env =>
  match lib.content response env.world with
  | (.ok (), world) => (.ok (), { env with world })
  | (.error exception, world) =>
      if isCaught exception then call (lib.rawRead response) { env with world }
      else (.error (.exception exception), { env with world })

def tooManyRedirects (response : Response T) : Raised T :=
  .tooManyRedirects (text "Exceeded " ++ decimal session.maxRedirects ++ text " redirects.") response

def purgedHeaders : List Bytes := [text "Content-Length", text "Content-Type", text "Transfer-Encoding"]

def purge (request : PreparedRequest T) : PreparedRequest T :=
  { request with headers := purgedHeaders.foldl Headers.pop request.headers, body := none }

/-- The cookies of the response and of the session, for the new request. `request` is the one before it. -/
def rebuildCookies (sessionJar : T.Jar) (prepared request : PreparedRequest T) (response : Response T) :
    PreparedRequest T :=
  let prepared := { prepared with headers := prepared.headers.pop (text "Cookie") }
  let jar := lib.extractCookiesToJar prepared.cookies request response.raw
  prepareCookies lib prepared (lib.mergeCookies jar sessionJar)

/-- `rebuild_proxies` and `rebuild_proxies_value`. -/
def rebuildProxies (prepared : PreparedRequest T) (proxies : Option Proxies) : PreparedRequest T × Proxies :=
  let scheme := (lib.urlparse prepared.url).scheme
  let newProxies := lib.resolveProxies prepared proxies session.trustEnv
  let headers := prepared.headers.pop (text "Proxy-Authorization")
  let (username, password) :=
    match newProxies.find? (·.1 = scheme) with
    | none => ([], [])
    | some (_, proxy) => lib.getAuthFromUrl proxy
  let headers :=
    if ¬(text "https").isPrefixOf scheme ∧ username ≠ [] ∧ password ≠ [] then
      headers.set (text "Proxy-Authorization") (lib.basicAuthStr username password)
    else headers
  ({ prepared with headers }, newProxies)

/-- `.netrc` might have more auth for us on our new host. -/
def netrcAuth (prepared : PreparedRequest T) : PreparedRequest T :=
  match (if session.trustEnv then lib.getNetrcAuth prepared.url else none) with
  | none => prepared
  | some auth => lib.prepareAuth prepared auth

def isRewindable (prepared : PreparedRequest T) : Bool :=
  prepared.bodyPosition.isSome &&
    (prepared.headers.contains (text "Content-Length") || prepared.headers.contains (text "Transfer-Encoding"))

def rewindIfNeeded (prepared : PreparedRequest T) : Py T Unit :=
  if isRewindable prepared then call (lib.rewindBody prepared) else pure ()

/-- `get_redirect_target` and `redirect_target_value`. -/
def getRedirectTarget (response : Response T) : Except Exception (Option Bytes) :=
  match response.isRedirect, response.location with
  | true, some location => (lib.locationText location).map some
  | _, _ => .ok none

/-! ### The generator -/

/-- `DEFAULT_PORTS`. -/
def defaultPorts (scheme : Bytes) : Option Nat :=
  if scheme = text "http" then some 80 else if scheme = text "https" then some 443 else none

def shouldStripAuth (oldUrl newUrl : Bytes) : Bool :=
  let old := lib.urlparse oldUrl
  let new := lib.urlparse newUrl
  if old.hostname ≠ new.hostname then true
  else if old.scheme = text "http" ∧ old.port ∈ [some 80, none] ∧ new.scheme = text "https" ∧
      new.port ∈ [some 443, none] then false
  else
    let changedPort := old.port != new.port
    let changedScheme := old.scheme != new.scheme
    let defaultPort := [defaultPorts old.scheme, none]
    if ¬changedScheme ∧ old.port ∈ defaultPort ∧ new.port ∈ defaultPort then false
    else changedPort || changedScheme

def rebuildMethod (prepared : PreparedRequest T) (response : Response T) : PreparedRequest T :=
  let method := prepared.method
  let method := if response.statusCode = 303 ∧ method ≠ text "HEAD" then text "GET" else method
  let method := if response.statusCode = 302 ∧ method ≠ text "HEAD" then text "GET" else method
  let method := if response.statusCode = 301 ∧ method = text "POST" then text "GET" else method
  { prepared with method }

/-- `strips` is `self.should_strip_auth`. -/
def rebuildAuth (strips : Bytes → Bytes → Bool) (prepared : PreparedRequest T) (response : Response T) :
    PreparedRequest T :=
  let prepared :=
    if prepared.headers.contains (text "Authorization") ∧ strips response.requestUrl prepared.url then
      { prepared with headers := prepared.headers.pop (text "Authorization") }
    else prepared
  netrcAuth lib session prepared

/-- The local variables of `resolve_redirects`. -/
structure Frame (T : Objects) where
  resp : Response T
  req : PreparedRequest T
  url : Option Bytes
  previousFragment : Bytes
  hist : List (Response T)
  proxies : Option Proxies

/-- The URL of the next request and the fragment to inherit. -/
def redirectUrl (resp : Response T) (url previousFragment : Bytes) : Bytes × Bytes :=
  let url :=
    if (text "//").isPrefixOf url then (lib.urlparse resp.url).scheme ++ text ":" ++ url else url
  let parsed := lib.urlparse url
  let (parsed, previousFragment) :=
    if parsed.fragment = [] ∧ previousFragment ≠ [] then ({ parsed with fragment := previousFragment }, previousFragment)
    else if parsed.fragment ≠ [] then (parsed, parsed.fragment)
    else (parsed, previousFragment)
  let url := lib.geturl parsed
  let url := if parsed.netloc = [] then lib.urljoin resp.url (lib.requoteUri url) else lib.requoteUri url
  (url, previousFragment)

variable (strips : Bytes → Bytes → Bool) (yieldRequests : Bool)

/-- One turn of the `while` loop, up to its `yield`. -/
def resolveRedirectsTurn (frame : Frame T) (url : Bytes) : Py T (Yielded T × Frame T) := do
  let preparedRequest := frame.req.copy
  record (.processed frame.resp frame.hist)
  let hist := frame.hist ++ [frame.resp]
  contentOrFallback lib frame.resp
  if session.maxRedirects ≤ frame.hist.length then Effect.fail (tooManyRedirects session frame.resp)
  else do
    call (lib.close frame.resp)
    let (url, previousFragment) := redirectUrl lib frame.resp url frame.previousFragment
    let preparedRequest := { preparedRequest with url }
    let preparedRequest := rebuildMethod preparedRequest frame.resp
    let preparedRequest := if frame.resp.statusCode ∉ [307, 308] then purge preparedRequest else preparedRequest
    let env ← Effect.read
    let preparedRequest := rebuildCookies lib (lib.sessionCookies env.world) preparedRequest frame.req frame.resp
    let (preparedRequest, proxies) := rebuildProxies lib session preparedRequest frame.proxies
    let preparedRequest := rebuildAuth lib session strips preparedRequest frame.resp
    record (.prepared frame.resp.requestUrl preparedRequest proxies)
    rewindIfNeeded lib preparedRequest
    let req := preparedRequest
    if yieldRequests then
      return (.request req, { frame with req, url := some url, previousFragment, hist, proxies := some proxies })
    else do
      record (.sent req proxies)
      let resp ← call (lib.send req proxies)
      Effect.modify fun env =>
        { env with world := lib.extractCookiesToSession preparedRequest resp.raw env.world }
      let url ← liftPy (getRedirectTarget lib resp)
      return (.response resp, { resp, req, url, previousFragment, hist, proxies := some proxies })

/-- A generator: not started, at a `yield`, or returned. -/
inductive Generator (T : Objects)
  | created (resp : Response T) (req : PreparedRequest T) (proxies : Option Proxies)
  | suspended (frame : Frame T)
  | finished

/-- The test of the `while` loop and the turn behind it. -/
def resolveRedirectsLoop (frame : Frame T) : Py T (Option (Yielded T × Frame T)) :=
  match frame.url with
  | some url =>
      if url = [] then pure none
      else do return some (← resolveRedirectsTurn lib session strips yieldRequests frame url)
  | none => pure none

/-- What `next` runs, from the start or from the last `yield`. -/
def resolveRedirects : Generator T → Py T (Option (Yielded T × Frame T))
  | .created resp req proxies => do
      let url ← liftPy (getRedirectTarget lib resp)
      let previousFragment := (lib.urlparse req.url).fragment
      resolveRedirectsLoop lib session strips yieldRequests { resp, req, url, previousFragment, hist := [], proxies }
  | .suspended frame => resolveRedirectsLoop lib session strips yieldRequests frame
  | .finished => pure none

/-- Going on with the generator: one that returned or raised is finished. -/
def Generator.resume (generator : Generator T) (env : Env T) : Next T × Generator T × Env T :=
  match resolveRedirects lib session strips yieldRequests generator env with
  | (.ok (some (value, frame)), env) => (.value value, .suspended frame, env)
  | (.ok none, env) => (.stopIteration, .finished, env)
  | (.error error, env) => (.raised error, .finished, env)

/-- `is_instance_of::<PyStopIteration>`. -/
def isStopIteration : Raised T → Bool
  | .exception (.other name) => name = text "StopIteration"
  | _ => false

/-- A `StopIteration` that is raised in a generator leaves it as a `RuntimeError`. -/
def guardStop (error : Raised T) : Raised T := if isStopIteration error then .exception .runtimeError else error

def Next.guarded : Next T → Next T
  | .value yielded => .value yielded
  | .stopIteration => .stopIteration
  | .raised error => .raised (guardStop error)

/-- `next` on the generator. -/
def Generator.next (generator : Generator T) (env : Env T) : Next T × Generator T × Env T :=
  ((generator.resume lib session strips yieldRequests env).1.guarded, (generator.resume lib session strips yieldRequests env).2)

/-! ### The cursor -/

/-- `rebuild_method_value`: every test reads the method the request came with. -/
def rebuildMethodValue (prepared : PreparedRequest T) (response : Response T) : PreparedRequest T :=
  let original := prepared.method
  let selected := original
  let selected := if response.statusCode = 303 ∧ original ≠ text "HEAD" then text "GET" else selected
  let selected := if response.statusCode = 302 ∧ original ≠ text "HEAD" then text "GET" else selected
  let selected := if response.statusCode = 301 ∧ original = text "POST" then text "GET" else selected
  { prepared with method := selected }

/-- Whether `rebuild_auth_value` strips the header: only the host is compared. -/
def stripsAuthValue (originalUrl url : Bytes) : Bool := (lib.urlparse originalUrl).hostname != (lib.urlparse url).hostname

def rebuildAuthValue (prepared : PreparedRequest T) (response : Response T) : PreparedRequest T :=
  let prepared :=
    if prepared.headers.contains (text "Authorization") then
      if stripsAuthValue lib response.requestUrl prepared.url then
        { prepared with headers := prepared.headers.pop (text "Authorization") }
      else prepared
    else prepared
  netrcAuth lib session prepared

/-- `RedirectCursorState`. `url` is a string or `None` once it is set. -/
structure RedirectCursorState (T : Objects) where
  response : Response T
  request : PreparedRequest T
  proxies : Option Proxies
  history : List (Response T)
  url : Option (Option Bytes)
  previousFragment : Option Bytes
  yieldRequests : Bool
  created : Bool

inductive RedirectAdvance (T : Objects)
  | yield (value : Yielded T)
  | done

/-- The URL and the fragment, as `advance_state` has them. -/
def advanceUrl (response : Response T) (url previousFragment : Bytes) : Bytes × Bytes :=
  let url :=
    if (text "//").isPrefixOf url then (lib.urlparse response.url).scheme ++ text ":" ++ url else url
  let parsed := lib.urlparse url
  let (parsed, previousFragment) :=
    if parsed.fragment = [] then
      if previousFragment ≠ [] then ({ parsed with fragment := previousFragment }, previousFragment)
      else (parsed, previousFragment)
    else (parsed, parsed.fragment)
  let url := lib.geturl parsed
  let url :=
    if parsed.netloc = [] then
      let quoted := lib.requoteUri url
      lib.urljoin response.url quoted
    else lib.requoteUri url
  (url, previousFragment)

/-- The branch of `advance_state` that runs once, before the first hop. -/
def startState (state : RedirectCursorState T) : Py T (RedirectCursorState T) :=
  if state.created then do
    let url ← liftPy (getRedirectTarget lib state.response)
    let parsed := lib.urlparse state.request.url
    return { state with url := some url, previousFragment := some parsed.fragment, created := false }
  else return state

def advanceHop (state : RedirectCursorState T) (url : Bytes) : Py T (RedirectAdvance T × RedirectCursorState T) := do
  let response := state.response
  let request := state.request
  let prepared := request.copy
  record (.processed response state.history)
  let history := state.history ++ [response]
  contentOrFallback lib response
  if session.maxRedirects ≤ state.history.length then Effect.fail (tooManyRedirects session response)
  else do
    call (lib.close response)
    match state.previousFragment with
    | none => Effect.fail (.panic (text "previous fragment is initialized"))
    | some previousFragment => do
        let (url, previousFragment) := advanceUrl lib response url previousFragment
        let prepared := { prepared with url }
        let prepared := rebuildMethodValue prepared response
        let preserve := response.statusCode == 307 || response.statusCode == 308
        let prepared := if !preserve then purge prepared else prepared
        let env ← Effect.read
        let prepared := rebuildCookies lib (lib.sessionCookies env.world) prepared request response
        let (prepared, proxies) := rebuildProxies lib session prepared state.proxies
        let prepared := rebuildAuthValue lib session prepared response
        record (.prepared response.requestUrl prepared proxies)
        rewindIfNeeded lib prepared
        let state :=
          { state with
            url := some (some url), previousFragment := some previousFragment, history, proxies := some proxies,
            request := prepared }
        if state.yieldRequests then return (.yield (.request prepared), state)
        else do
          record (.sent prepared proxies)
          let response ← call (lib.send prepared proxies)
          Effect.modify fun env =>
            { env with world := lib.extractCookiesToSession prepared response.raw env.world }
          let nextUrl ← liftPy (getRedirectTarget lib response)
          return (.yield (.response response), { state with response, url := some nextUrl })

def advanceState (state : RedirectCursorState T) : Py T (RedirectAdvance T × RedirectCursorState T) := do
  let state ← startState lib state
  match state.url with
  | none => return (.done, state)
  | some url =>
      match url with
      | some target =>
          if target = [] then return (.done, { state with url := none })
          else advanceHop lib session state target
      | none => return (.done, { state with url := none })

inductive RedirectCursorTerminal
  | live | done | errored | closed
  deriving DecidableEq, Repr

structure SessionRedirectCursor (T : Objects) where
  running : Bool
  state : Option (RedirectCursorState T)
  terminal : RedirectCursorTerminal

/-- `from_invocation`. -/
def fromInvocation (response : Response T) (request : PreparedRequest T) (proxies : Option Proxies)
    (yieldRequests : Bool) : SessionRedirectCursor T :=
  { running := false
    state := some
      { response, request, proxies, history := [], url := none, previousFragment := none, yieldRequests, created := true }
    terminal := .live }

/-- `advance`: the state is put back only if the loop yielded. -/
def SessionRedirectCursor.advance (cursor : SessionRedirectCursor T) (env : Env T) :
    Next T × SessionRedirectCursor T × Env T :=
  if cursor.running then (.raised (.valueError (text "generator already executing")), cursor, env)
  else
    match cursor.state with
    | none => (.stopIteration, { cursor with running := false }, env)
    | some state =>
        match advanceState lib session state env with
        | (.ok (.yield value, state), env) => (.value value, ⟨false, some state, .live⟩, env)
        | (.ok (.done, _), env) => (.stopIteration, ⟨false, none, .done⟩, env)
        | (.error error, env) => (.raised error, ⟨false, none, .errored⟩, env)

end RequestsNative.Python
