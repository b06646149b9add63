import RequestsNative.Transport.Uri

/-!
# The key of a request's connection

`pool.rs`, `PoolKey`, and the part of `Transport::send` that derives it. The key always has a port: if the
authority has no number for one, the default port of the scheme is appended and the result parsed again, and
the code expects that to succeed. It does for an authority without a port colon. After a colon with no number
behind it, such as the one of `host:`, it does not.
-/

namespace RequestsNative.Transport

variable {reader : AuthorityReader}

/-! ### Proxies and TLS -/

inductive Proxy (reader : AuthorityReader)
  | http (uri : Uri reader)
  | https (uri : Uri reader)
  | socks4 (uri : Uri reader)
  | socks5 (uri : Uri reader) (remoteDns : Bool)

def Proxy.uri : Proxy reader → Uri reader
  | .http uri | .https uri | .socks4 uri | .socks5 uri _ => uri

inductive CertificateSource
  | platform | pemBundle (path : Bytes) | pemDirectory (path : Bytes) | disabled
  deriving DecidableEq, Repr

structure Identity where
  certificateChain : Bytes
  privateKey : Option Bytes
  deriving DecidableEq, Repr

structure TlsConfig where
  roots : CertificateSource
  identity : Option Identity
  deriving DecidableEq, Repr

/-! ### The key -/

/-- `ProxyKey`, a text. -/
def proxyKey (proxy : Proxy reader) : Bytes :=
  proxy.uri.display ++
    match proxy with
    | .socks5 _ true => text "#remote-dns"
    | .socks5 _ false => text "#local-dns"
    | _ => []

inductive TlsPoolKey
  | plain | platform | pemBundle (path : Bytes) | pemDirectory (path : Bytes) | disabled
  deriving DecidableEq, Repr

def TlsPoolKey.fromConfig (tls : TlsConfig) : TlsPoolKey :=
  match tls.roots with
  | .platform => .platform
  | .pemBundle path => .pemBundle path
  | .pemDirectory path => .pemDirectory path
  | .disabled => .disabled

structure PoolKey (reader : AuthorityReader) where
  scheme : Scheme
  authority : Authority reader
  proxy : Option Bytes
  tls : TlsPoolKey
  identity : Option Identity

/-- `format!("{authority}:{default_port}")`. -/
def withDefaultPort (scheme : Scheme) (authority : Authority reader) : Bytes :=
  authority.asStr ++ 58 :: decimal scheme.defaultPort

def PoolKey.new (scheme : Scheme) (authority : Authority reader) (proxy : Option Bytes) (tls : TlsPoolKey)
    (identity : Option Identity) : Except Panic (PoolKey reader) :=
  if authority.portU16.isNone then
    match Authority.parse reader (withDefaultPort scheme authority) with
    | none => .error ⟨"existing URI authority plus effective port remains valid"⟩
    | some authority => .ok ⟨scheme, authority, proxy, tls, identity⟩
  else .ok ⟨scheme, authority, proxy, tls, identity⟩

/-! ### The start of `Transport::send` -/

structure Request (reader : AuthorityReader) where
  url : Bytes
  uri : Uri reader
  headers : HeaderMap

def parsedContentLength (value : Bytes) : Option Nat := do
  let value := trimAscii (← headerToStr value)
  if value = [] ∨ value.all isAsciiDigit = false then none else parseU64 value

/-- The loop of `validate_content_lengths`. -/
def validateContentLengthsFrom : Option Nat → List Nat → Except Error Unit
  | _, [] => .ok ()
  | first, value :: rest =>
      if first.any (value != ·) then .error .conflictingContentLength else validateContentLengthsFrom (some value) rest

def validateContentLengths (headers : HeaderMap) : Except Error Unit :=
  validateContentLengthsFrom none ((headers.getAll (text "content-length")).filterMap parsedContentLength)

def validateRequest (request : Request reader) : Except Error Unit :=
  if request.uri.scheme = some .http ∨ request.uri.scheme = some .https then validateContentLengths request.headers
  else .error (.unsupportedScheme request.url (request.uri.scheme.map Scheme.asStr))

/-- The parts of the request `send` reads before it derives the key. -/
structure SendTarget (reader : AuthorityReader) where
  host : Bytes
  scheme : Scheme
  port : Nat
  authority : Authority reader

def sendTarget (request : Request reader) : Except Error (SendTarget reader) := do
  validateRequest request
  let some host := request.uri.host | .error (.invalidUrl request.url)
  let some scheme := request.uri.scheme | .error (.invalidUrl request.url)
  let port := request.uri.portU16.getD scheme.defaultPort
  let some authority := request.uri.authority | .error (.invalidUrl request.url)
  return ⟨host, scheme, port, authority⟩

/-- What `Transport` is configured with. -/
structure TransportConfig (reader : AuthorityReader) where
  proxy : Option (Proxy reader)
  tls : TlsConfig

/-- Only a connection with TLS is told apart by its configuration. -/
def TlsConfig.keysFor (tls : TlsConfig) (scheme : Scheme) : TlsPoolKey × Option Identity :=
  if scheme = .https then (.fromConfig tls, tls.identity) else (.plain, none)

/-- `Transport::send` up to the key, which it then asks the pool for. -/
def sendKey (transport : TransportConfig reader) (request : Request reader) :
    Except Panic (Except Error (PoolKey reader)) :=
  match sendTarget request with
  | .error error => .ok (.error error)
  | .ok target =>
      let keys := transport.tls.keysFor target.scheme
      (PoolKey.new target.scheme target.authority (transport.proxy.map proxyKey) keys.1 keys.2).map .ok

/-! ### When the authority with the port is read -/

/-- A number for a port, or no port at all. -/
def HasPlainPort (authority : Authority reader) : Prop :=
  authority.portU16.isSome = true ∨ portColons authority.asStr = 0

theorem defaultPort_lt (scheme : Scheme) : scheme.defaultPort < 2 ^ 16 := by
  unfold Scheme.defaultPort
  split <;> decide

theorem accepts_withDefaultPort (scheme : Scheme) (authority : Authority reader) :
    reader.accepts (withDefaultPort scheme authority) = true ↔ portColons authority.asStr = 0 := by
  constructor
  · intro haccepts
    have hone := reader.one_port haccepts
    rw [withDefaultPort, portColons_port _ (decimal_digits _)] at hone
    omega
  · exact fun hnone => reader.with_port authority.2 hnone _ (defaultPort_lt scheme)

theorem parse_isSome {text : Bytes} : (Authority.parse reader text).isSome = true ↔ reader.accepts text = true := by
  unfold Authority.parse
  split
  · rename_i haccepts
    exact iff_of_true rfl haccepts
  · rename_i hrejects
    exact iff_of_false nofun hrejects

theorem poolKey_new_ok_iff (scheme : Scheme) (authority : Authority reader) (proxy : Option Bytes) (tls : TlsPoolKey)
    (identity : Option Identity) :
    (∃ key, PoolKey.new scheme authority proxy tls identity = .ok key) ↔ HasPlainPort authority := by
  unfold PoolKey.new HasPlainPort
  cases hport : authority.portU16 with
  | some port => simp
  | none =>
      rw [← accepts_withDefaultPort scheme authority, ← parse_isSome]
      cases Authority.parse reader (withDefaultPort scheme authority) with
      | none => simp
      | some _ => simp

/-! ### When a request gets as far as the key -/

theorem validateRequest_scheme {request : Request reader} (h : validateRequest request = .ok ()) :
    ∃ scheme, request.uri.scheme = some scheme := by
  unfold validateRequest at h
  split at h
  · rename_i hscheme
    rcases hscheme with hhttp | hhttps
    · exact ⟨_, hhttp⟩
    · exact ⟨_, hhttps⟩
  · cases h

theorem sendTarget_cases (request : Request reader) :
    (∃ target, sendTarget request = .ok target ∧ validateRequest request = .ok () ∧
      request.uri.authority = some target.authority) ∨
    ∃ error, sendTarget request = .error error ∧
      (validateRequest request = .ok () → request.uri.authority = none) := by
  unfold sendTarget
  cases hvalid : validateRequest request with
  | error error => exact .inr ⟨error, rfl, nofun⟩
  | ok _ =>
      obtain ⟨scheme, hscheme⟩ := validateRequest_scheme hvalid
      cases hauthority : request.uri.authority with
      | none => exact .inr ⟨.invalidUrl request.url, by simp [Uri.host, hauthority, bind, Except.bind], fun _ => rfl⟩
      | some authority =>
          refine .inl ⟨⟨authority.host, scheme, request.uri.portU16.getD scheme.defaultPort, authority⟩, ?_, rfl, rfl⟩
          simp [Uri.host, hauthority, hscheme, bind, Except.bind, pure, Except.pure]

/-- Deriving the key of a request returns a key or an error, and does not panic, exactly if the request fails
the checks before or its authority has a plain port. -/
theorem send_key_returns_iff (transport : TransportConfig reader) (request : Request reader) :
    (∃ result, sendKey transport request = .ok result) ↔
      ∀ authority, request.uri.authority = some authority → validateRequest request = .ok () →
        HasPlainPort authority := by
  unfold sendKey
  obtain ⟨target, htarget, hvalid, hauthority⟩ | ⟨error, herror, hnone⟩ := sendTarget_cases request
  · rw [htarget]
    simp only [hauthority, hvalid, Option.some.injEq, forall_const, forall_eq']
    have hkey := poolKey_new_ok_iff target.scheme target.authority (transport.proxy.map proxyKey)
      (transport.tls.keysFor target.scheme).1 (transport.tls.keysFor target.scheme).2
    rw [← hkey]
    cases PoolKey.new target.scheme target.authority (transport.proxy.map proxyKey)
        (transport.tls.keysFor target.scheme).1 (transport.tls.keysFor target.scheme).2 with
    | error panic => exact iff_of_false nofun nofun
    | ok key => exact iff_of_true ⟨_, rfl⟩ ⟨_, rfl⟩
  · rw [herror]
    refine iff_of_true ⟨_, rfl⟩ ?_
    intro authority hauthority hvalid
    rw [hnone hvalid] at hauthority
    cases hauthority

/-- A request for a URL with this authority, without a proxy. -/
private def requestTo (authority : Authority httpAuthority) : Request httpAuthority :=
  ⟨text "http://" ++ authority.asStr ++ text "/", ⟨some .http, some authority, some ⟨text "/", none⟩⟩, []⟩

private def direct : TransportConfig httpAuthority := ⟨none, ⟨.platform, none⟩⟩

/-- Credentials, an address in brackets and no port. -/
theorem send_key_returns_ipv6 : ∃ authority : Authority httpAuthority, authority.asStr = text "u:p@[::1]" ∧
    ∃ result, sendKey direct (requestTo authority) = .ok result := by
  refine ⟨⟨text "u:p@[::1]", by decide⟩, rfl, (send_key_returns_iff direct _).mpr ?_⟩
  rintro authority hauthority -
  cases hauthority
  exact .inr (by decide)

/-- An empty port. -/
theorem send_key_panics_empty_port : ∃ authority : Authority httpAuthority, authority.asStr = text "host:" ∧
    authority.portU16 = none ∧ validateRequest (requestTo authority) = .ok () ∧
      sendKey direct (requestTo authority) =
        .error ⟨"existing URI authority plus effective port remains valid"⟩ := by
  exact ⟨⟨text "host:", by decide⟩, rfl, by decide, by rfl, by rfl⟩

end RequestsNative.Transport
