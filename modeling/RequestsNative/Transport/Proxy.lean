import RequestsNative.Ip
import RequestsNative.Lib.Talk
import RequestsNative.Transport.PoolKey

/-!
# Talking to a proxy

`transport/proxy.rs`: the requests that ask a proxy for a connection to the target, and the replies that grant
it. The three handshakes are programs over the stream to the proxy. Two things come from outside: what
`url::Url` reads in the URL of the proxy, and what the local resolver answers.
-/

namespace RequestsNative.Transport

open RequestsNative.Lib

/-- What is read of the proxy's `url::Url`. -/
structure ProxyUrl where
  username : Bytes
  password : Option Bytes
  deriving DecidableEq, Repr

/-- `url::Url::parse`, with the text of its error. -/
abbrev ProxyUrlParser := Bytes → Except Bytes ProxyUrl

/-- `tokio::net::lookup_host`, with the text of its error. -/
abbrev Resolver := Bytes → Nat → Except Bytes (List IpAddr)

abbrev ProxyTalk (α : Type) := Talk Error α

namespace Proxy

variable {reader : AuthorityReader} (parseUrl : ProxyUrlParser) (resolve : Resolver)

def maxResponseHead : Nat := 16 * 1024

def parse (proxy : Proxy reader) : Except Error ProxyUrl := (parseUrl proxy.uri.display).mapError .invalidProxy

/-! ### Texts -/

def hex (b : UInt8) : Option UInt8 :=
  if 48 ≤ b && b ≤ 57 then some (b - 48)
  else if 97 ≤ b && b ≤ 102 then some (b - 97 + 10)
  else if 65 ≤ b && b ≤ 70 then some (b - 65 + 10)
  else none

/-- The loop of `percent_decode`. -/
def percentDecodeBytes : Bytes → Option Bytes
  | [] => some []
  | 37 :: high :: low :: rest => do
      let high ← hex high
      let low ← hex low
      return (high <<< 4 ||| low) :: (← percentDecodeBytes rest)
  | 37 :: _ => none
  | b :: rest => do return b :: (← percentDecodeBytes rest)

def percentDecode (value : Bytes) : Except Error Bytes :=
  match percentDecodeBytes value with
  | none => .error (.invalidProxy (text "invalid percent escape in credentials"))
  | some decoded =>
      if isUtf8 decoded then .ok decoded
      else .error (.invalidProxy (text "proxy credentials are not valid UTF-8"))

def base64Alphabet : Bytes := text "ABCDEFGHIJKLMNOPQRSTUVWXYZabcdefghijklmnopqrstuvwxyz0123456789+/"

def base64Char (index : UInt8) : UInt8 := base64Alphabet.getD index.toNat 0

def base64 : Bytes → Bytes
  | [] => []
  | [first] => [base64Char (first >>> 2), base64Char ((first &&& 0x03) <<< 4), 61, 61]
  | [first, second] =>
      [base64Char (first >>> 2), base64Char (((first &&& 0x03) <<< 4) ||| (second >>> 4)),
        base64Char ((second &&& 0x0f) <<< 2), 61]
  | first :: second :: third :: rest =>
      base64Char (first >>> 2) :: base64Char (((first &&& 0x03) <<< 4) ||| (second >>> 4)) ::
        base64Char (((second &&& 0x0f) <<< 2) ||| (third >>> 6)) :: base64Char (third &&& 0x3f) :: base64 rest

def authority (host : Bytes) (port : Nat) : Bytes :=
  if host.contains 58 then 91 :: host ++ text "]:" ++ decimal port else host ++ 58 :: decimal port

def lengthPrefixed (value role : Bytes) : Except Error Bytes :=
  if value.length ≤ 255 then .ok (.ofNat value.length :: value) else .error (.proxy (role ++ text " exceeds 255 bytes"))

/-- `u16::to_be_bytes`. -/
def toBeBytes (port : Nat) : Bytes := [.ofNat (port / 256), .ofNat (port % 256)]

/-- The text of the `Proxy-Authorization` header of an HTTP proxy with a username. -/
def authorization (proxy : Proxy reader) : Except Error (Option Bytes) :=
  match proxy with
  | .socks4 _ | .socks5 _ _ => .ok none
  | .http _ | .https _ => do
      let parsed ← parse parseUrl proxy
      if parsed.username = [] then return none
      else
        let username ← percentDecode parsed.username
        let password ← percentDecode (parsed.password.getD [])
        match headerValue (text "Basic " ++ base64 (username ++ 58 :: password)) with
        | none => .error (.invalidProxy (text "failed to parse header value"))
        | some value => return some value

/-! ### The stream -/

def writeAll (bytes : Bytes) : ProxyTalk Unit := Talk.writeAll .proxy bytes

def readExact (n : Nat) : ProxyTalk Bytes := Talk.readExact (fun fault => .proxy (fault.getD (text "early eof"))) n

/-- The loop of `read_head`, with room for `left` bytes. -/
def readHeadFrom (left : Nat) (response : Bytes) : ProxyTalk Bytes :=
  if text "\r\n\r\n" <:+ response then pure response
  else
    match left with
    | 0 => Talk.fail (.proxy (text "proxy response head exceeded 16 KiB"))
    | left + 1 => do
        match ← Talk.readByte Error.proxy with
        | none => Talk.fail (.proxy (text "proxy closed before completing the response head"))
        | some b => readHeadFrom left (response ++ [b])

def readHead : ProxyTalk Bytes := readHeadFrom maxResponseHead []

/-! ### The handshakes -/

/-- The head `http_connect` writes. -/
def connectRequest (host : Bytes) (port : Nat) (authorization : Option Bytes) : Bytes :=
  text "CONNECT " ++ authority host port ++ text " HTTP/1.1\r\nHost: " ++ authority host port ++ text "\r\n" ++
    authorization.elim [] (fun value => text "Proxy-Authorization: " ++ value ++ text "\r\n") ++ text "\r\n"

def httpConnect (proxy : Proxy reader) (host : Bytes) (port : Nat) : ProxyTalk Unit := do
  let authorization ← Talk.lift (authorization parseUrl proxy)
  writeAll (connectRequest host port authorization)
  Talk.flush Error.proxy
  let response ← readHead
  match (response.splitOn 32)[1]?.bind parseU16 with
  | none => Talk.fail (.proxy (text "CONNECT response has no valid status"))
  | some status =>
      if 200 ≤ status ∧ status < 300 then pure ()
      else Talk.fail (.proxy (text "CONNECT proxy returned status " ++ decimal status))

/-- The address a SOCKS4 request asks for. With remote DNS it is one that no host has. -/
def socks4Address (host : Bytes) (port : Nat) (remoteDns : Bool) : Except Error Ipv4Addr :=
  if remoteDns then .ok ⟨0, 0, 0, 1⟩
  else
    match resolve host port with
    | .error fault => .error (.proxy (text "local DNS resolution failed: " ++ fault))
    | .ok addresses =>
        match addresses.findSome? fun | .v4 address => some address | .v6 _ => none with
        | none => .error (.proxy (text "SOCKS4 local DNS returned no IPv4 address"))
        | some address => .ok address

def socks4Connect (proxy : Proxy reader) (host : Bytes) (port : Nat) (remoteDns : Bool) : ProxyTalk Unit := do
  let parsed ← Talk.lift (parse parseUrl proxy)
  let user ← Talk.lift (percentDecode parsed.username)
  if user.contains 0 || host.contains 0 then Talk.fail (.proxy (text "SOCKS4 credentials or host contain NUL"))
  else
    let address ← Talk.lift (socks4Address resolve host port remoteDns)
    writeAll ([4, 1] ++ toBeBytes port ++ address.octets ++ user ++ [0] ++ if remoteDns then host ++ [0] else [])
    let response ← readExact 8
    if response.getD 0 0 ≠ 0 ∨ response.getD 1 0 ≠ 90 then
      Talk.fail (.proxy (text "SOCKS4 proxy rejected connection with code " ++ decimal (response.getD 1 0).toNat))
    else pure ()

/-- Username and password in the form of the subnegotiation. -/
def socks5Credentials (username password : Bytes) : Except Error Bytes := do
  let username ← lengthPrefixed username (text "SOCKS5 username")
  let password ← lengthPrefixed password (text "SOCKS5 password")
  return 1 :: username ++ password

/-- The methods offered: no authentication, and a password if there is one. -/
def socks5Methods (username password : Bytes) : Bytes :=
  if username ≠ [] ∧ password ≠ [] then [5, 2, 0, 2] else [5, 1, 0]

def socks5Negotiate (username password : Bytes) : ProxyTalk Unit := do
  writeAll (socks5Methods username password)
  let method ← readExact 2
  if method.getD 0 0 ≠ 5 ∨ (method.getD 1 0 ≠ 0 ∧ ((username = [] ∨ password = []) ∨ method.getD 1 0 ≠ 2)) then
    Talk.fail (.proxy (text "SOCKS5 proxy selected unsupported authentication method " ++
      decimal (method.getD 1 0).toNat))
  else if method.getD 1 0 = 2 then do
    let credentials ← Talk.lift (socks5Credentials username password)
    writeAll credentials
    let response ← readExact 2
    if response ≠ [1, 0] then Talk.fail (.proxy (text "SOCKS5 username/password authentication failed"))
    else pure ()
  else pure ()

/-- The address of a host that is sent as an address. -/
def socks5Address (host : Bytes) (port : Nat) : Except Error IpAddr :=
  match parseIpAddr host with
  | some address => .ok address
  | none =>
      match resolve host port with
      | .error fault => .error (.proxy (text "local DNS resolution failed: " ++ fault))
      | .ok [] => .error (.proxy (text "SOCKS5 local DNS returned no address"))
      | .ok (address :: _) => .ok address

/-- An address with its type. -/
def addressField : IpAddr → Bytes
  | .v4 address => 1 :: (IpAddr.v4 address).octets
  | .v6 groups => 4 :: (IpAddr.v6 groups).octets

/-- The address type and the address of a request. -/
def socks5Target (host : Bytes) (port : Nat) (remoteDns : Bool) : Except Error Bytes :=
  if remoteDns && (parseIpAddr host).isNone then do return 3 :: (← lengthPrefixed host (text "SOCKS5 hostname"))
  else do return addressField (← socks5Address resolve host port)

def socks5Request (host : Bytes) (port : Nat) (remoteDns : Bool) : Except Error Bytes := do
  return [5, 1, 0] ++ (← socks5Target resolve host port remoteDns) ++ toBeBytes port

/-- The length of the address in a reply. -/
def replyAddressLength (addressType : UInt8) : ProxyTalk Nat :=
  if addressType = 1 then pure 4
  else if addressType = 4 then pure 16
  else if addressType = 3 then do
    let length ← readExact 1
    return (length.getD 0 0).toNat
  else Talk.fail (.proxy (text "SOCKS5 proxy returned unknown address type " ++ decimal addressType.toNat))

/-- The reply to a request; the address in it is not used. -/
def socks5Reply : ProxyTalk Unit := do
  let response ← readExact 4
  if response.getD 0 0 ≠ 5 ∨ response.getD 1 0 ≠ 0 then
    Talk.fail (.proxy (text "SOCKS5 proxy rejected connection with code " ++ decimal (response.getD 1 0).toNat))
  else
    let addressLength ← replyAddressLength (response.getD 3 0)
    let _ ← readExact (addressLength + 2)
    pure ()

def socks5Connect (proxy : Proxy reader) (host : Bytes) (port : Nat) (remoteDns : Bool) : ProxyTalk Unit := do
  let parsed ← Talk.lift (parse parseUrl proxy)
  let username ← Talk.lift (percentDecode parsed.username)
  let password ← Talk.lift (percentDecode (parsed.password.getD []))
  socks5Negotiate username password
  let request ← Talk.lift (socks5Request resolve host port remoteDns)
  writeAll request
  socks5Reply

end Proxy

end RequestsNative.Transport
