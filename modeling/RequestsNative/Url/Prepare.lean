import RequestsNative.Url.Pieces
import RequestsNative.Transport.Uri

/-!
# `prepare_url`

`models.rs`. A URL is prepared from the scheme and the host that `url::Url` reads and from the text behind the authority
as it was given: its escapes are put in upper case and the whole is requoted. A URL of scheme `http+unix` keeps its
authority, which is the path of a socket, and the case of its escapes.

`url::Url::parse` is a parameter, `UrlParser`, with the facts about schemes and hosts that the code relies on, and so is
`char::is_alphanumeric` outside ASCII.
-/

namespace RequestsNative.Url

open Transport (afterUserinfo)

/-! ### Characters -/

/-- The code point of a character of UTF-8. -/
def codePoint : Bytes → Nat
  | [b] => b.toNat
  | [b, c] => b.toNat % 32 * 64 + c.toNat % 64
  | [b, c, d] => (b.toNat % 16 * 64 + c.toNat % 64) * 64 + d.toNat % 64
  | [b, c, d, e] => ((b.toNat % 8 * 64 + c.toNat % 64) * 64 + d.toNat % 64) * 64 + e.toNat % 64
  | _ => 0

/-- The first character of a text and what follows it. -/
def nextChar (value : Bytes) : Nat × Bytes :=
  let width := (utf8Chunk value).2
  (codePoint (value.take width), value.drop width)

/-- `str::chars`. `fuel` bounds the number of characters. -/
def charsWith : Nat → Bytes → List Nat
  | 0, _ => []
  | fuel + 1, value => if value = [] then [] else (nextChar value).1 :: charsWith fuel (nextChar value).2

def chars (value : Bytes) : List Nat := charsWith value.length value

/-- `char::is_whitespace`: the characters with the property `White_Space`. -/
def isWhitespace (c : Nat) : Bool :=
  (9 ≤ c && c ≤ 13) || c == 0x20 || c == 0x85 || c == 0xA0 || c == 0x1680 || (0x2000 ≤ c && c ≤ 0x200A) ||
    c == 0x2028 || c == 0x2029 || c == 0x202F || c == 0x205F || c == 0x3000

def isPythonWhitespace (c : Nat) : Bool := isWhitespace c || (0x1C ≤ c && c ≤ 0x1F)

def trimStartWith : Nat → Bytes → Bytes
  | 0, value => value
  | fuel + 1, value =>
      if value ≠ [] ∧ isPythonWhitespace (nextChar value).1 = true then trimStartWith fuel (nextChar value).2 else value

def trimPythonWhitespaceStart (value : Bytes) : Bytes := trimStartWith value.length value

/-! ### The parts of a URL -/

/-- `str::split_once`, at the first place the pattern stands. -/
def splitOnce (pattern : Bytes) : Bytes → Option (Bytes × Bytes)
  | [] => if pattern = [] then some ([], []) else none
  | b :: rest =>
      if pattern.isPrefixOf (b :: rest) then some ([], (b :: rest).drop pattern.length)
      else (splitOnce pattern rest).map fun parts => (b :: parts.1, parts.2)

/-- The bytes that end an authority. -/
def isDelimiter (b : UInt8) : Bool := b == 47 || b == 63 || b == 35

def rawAuthority (remainder : Bytes) : Bytes := remainder.takeWhile (!isDelimiter ·)

/-- What follows the authority, with the slash a path starts with. -/
def rawSuffix (remainder : Bytes) : Bytes :=
  let suffix := remainder.drop (rawAuthority remainder).length
  if suffix.head? = some 47 then suffix else 47 :: suffix

def startsWithHttp (value : Bytes) : Bool := eqIgnoreAsciiCase (value.take 4) (text "http")

def isNonHttpUrl (rawUrl : Bytes) : Bool :=
  let rawUrl := trimPythonWhitespaceStart rawUrl
  rawUrl.contains 58 && !startsWithHttp rawUrl

/-- The host of an authority, without the userinfo and a port of digits. -/
def rawHost (authority : Bytes) : Bytes :=
  let hostPort := afterUserinfo authority
  if hostPort.head? = some 91 then hostPort
  else
    let port := hostPort.rtakeWhile (· != 58)
    if hostPort.contains 58 ∧ port.all isAsciiDigit then hostPort.take (hostPort.length - port.length - 1) else hostPort

def rawHostHasDisallowedUnicode (alphanumeric : Nat → Bool) (rawUrl : Bytes) : Bool :=
  match splitOnce (text "://") rawUrl with
  | none => false
  | some (_, remainder) =>
      (chars (rawHost (rawAuthority remainder))).any fun c => 128 ≤ c && !alphanumeric c && c != 45

/-! ### Preparing -/

/-- `url::Url`, by the parts that are read. -/
structure ParsedUrl where
  scheme : Bytes
  hostStr : Option Bytes
  deriving DecidableEq, Repr

inductive ParseError
  | relativeUrlWithoutBase | emptyHost | other
  deriving DecidableEq, Repr

inductive UrlPreparationError
  | invalidLabel | missingHost | missingScheme | parse
  deriving DecidableEq, Repr

def isSchemeByte (b : UInt8) : Bool := (97 ≤ b && b ≤ 122) || isAsciiDigit b || b == 43 || b == 45 || b == 46

/-- `url::Url::parse`. -/
structure UrlParser where
  parse : Bytes → Except ParseError ParsedUrl
  /-- A scheme is in lower case. -/
  scheme_plain : ∀ {value parsed}, parse value = .ok parsed → ∀ b ∈ parsed.scheme, isSchemeByte b = true
  scheme_http : ∀ {value parsed}, parse value = .ok parsed → startsWithHttp value = true →
    startsWithHttp parsed.scheme = true
  /-- A host is in ASCII and ends where the path starts. -/
  host_plain : ∀ {value parsed host}, parse value = .ok parsed → parsed.hostStr = some host →
    ∀ b ∈ host, b < 128 ∧ isDelimiter b = false
  /-- Only an opaque host, of a scheme other than `http` and `https`, has escapes: it stands in the text as it is. -/
  host_opaque : ∀ {value parsed host before remainder}, parse value = .ok parsed → parsed.hostStr = some host →
    37 ∈ host → 64 ∉ host ∧ 58 ∉ host ∧ ((∀ b ∈ value, 33 ≤ b ∧ b ≤ 126) →
      splitOnce (text "://") value = some (before, remainder) →
      64 ∉ rawAuthority remainder → 58 ∉ rawAuthority remainder → host = rawAuthority remainder)

def appendUrlParams (preparedUrl encodedParams : Bytes) : Bytes :=
  if encodedParams = [] then requoteUri preparedUrl
  else
    let front := preparedUrl.takeWhile (· != 35)
    let separator : UInt8 := if front.contains 63 then 38 else 63
    requoteUri (front ++ separator :: encodedParams ++ preparedUrl.drop front.length)

variable (url : UrlParser) (alphanumeric : Nat → Bool)

def prepareUrl (rawUrl encodedParams : Bytes) : Except UrlPreparationError Bytes :=
  let rawUrl := trimPythonWhitespaceStart rawUrl
  if isNonHttpUrl rawUrl then .ok rawUrl
  else
    match url.parse rawUrl with
    | .error .relativeUrlWithoutBase => .error .missingScheme
    | .error .emptyHost => .error .missingHost
    | .error .other => .error .parse
    | .ok parsed =>
        match parsed.hostStr with
        | none => .error .missingHost
        | some host =>
            if host.head? = some 42 ∨ host.head? = some 46 then .error .invalidLabel
            else if rawHostHasDisallowedUnicode alphanumeric rawUrl then .error .parse
            else
              match splitOnce (text "://") rawUrl with
              | none => .error .parse
              | some (_, remainder) =>
                  let (authority, suffix) :=
                    if parsed.scheme = text "http+unix" then (rawAuthority remainder, rawSuffix remainder)
                    else (host, normalizePercentEscapeHex (rawSuffix remainder))
                  .ok (appendUrlParams (parsed.scheme ++ text "://" ++ authority ++ suffix) encodedParams)

end RequestsNative.Url
