import Mathlib.Algebra.GroupWithZero.Nat
import Mathlib.Data.List.Basic

/-!
# Bytes, panics and errors

The vocabulary every module of the model shares. A Rust `&[u8]`, `Vec<u8>`, `Bytes`, `&str` or
`String` is the list of its bytes: the transport compares, splits and writes texts by their UTF-8
bytes and never by their characters. A call that can panic returns `Except Panic`, so that
"unreachable" is a theorem about the model and not a convention.
-/

namespace RequestsNative

abbrev Bytes := List UInt8

/-- The UTF-8 bytes of a literal of the source. -/
def text (literal : String) : Bytes := literal.toUTF8.data.toList

/-- The message of a failed `expect`. -/
structure Panic where
  message : String
  deriving DecidableEq, Repr

/-- The `?` operator: both parts of a computation that succeeds succeed. -/
theorem bind_eq_ok {ε α β : Type} {x : Except ε α} {f : α → Except ε β} {b : β} :
    (x >>= f) = .ok b ↔ ∃ a, x = .ok a ∧ f a = .ok b := by
  cases x <;> simp [bind, Except.bind]

/-- `std::task::Poll`. -/
inductive Poll (α : Type)
  | ready (value : α)
  | pending
  deriving DecidableEq, Repr

/-- `u64::MAX`. -/
def u64Max : Nat := 2 ^ 64 - 1

/-- `u64::checked_add`. -/
def checkedAdd (a b : Nat) : Option Nat := if a + b ≤ u64Max then some (a + b) else none

/-- `u64::saturating_add`. -/
def saturatingAdd (a b : Nat) : Nat := min (a + b) u64Max

/-- The decimal digits of a number, as `Display` writes it. -/
def decimal (n : Nat) : Bytes := (Nat.toDigits 10 n).map fun c => UInt8.ofNat c.toNat

/-- The fraction of a `Duration`, `width` digits less the trailing zeroes, with its point. -/
def decimalFraction (n width : Nat) : Bytes :=
  let digits := List.replicate (width - (decimal n).length) 48 ++ decimal n
  let shown := (digits.reverse.dropWhile (· == 48)).reverse
  if n = 0 then [] else 46 :: shown

/-- A `Duration`, in nanoseconds, as `Debug` writes it. -/
def durationDebug (nanos : Nat) : Bytes :=
  if 10 ^ 9 ≤ nanos then decimal (nanos / 10 ^ 9) ++ decimalFraction (nanos % 10 ^ 9) 9 ++ text "s"
  else if 10 ^ 6 ≤ nanos then decimal (nanos / 10 ^ 6) ++ decimalFraction (nanos % 10 ^ 6) 6 ++ text "ms"
  else if 10 ^ 3 ≤ nanos then decimal (nanos / 10 ^ 3) ++ decimalFraction (nanos % 10 ^ 3) 3 ++ text "µs"
  else decimal nanos ++ text "ns"

example : durationDebug 1500000000 = text "1.5s" := by decide

/-- `error.rs`, `ErrorKind`. -/
inductive ErrorKind
  | body | blocking | builder | chunkedEncoding | connect | connectTimeout | connection
  | contentDecoding | dns | handshake | invalidHeader | invalidUrl | missingSchema | proxy
  | readTimeout | responseBody | retry | send | tls
  deriving DecidableEq, Repr

/-- `error.rs`, `Error`, without the raw OS error, which only a Python exception reads. -/
structure Error where
  kind : ErrorKind
  message : Bytes
  incompleteBody : Option (Nat × Nat) := none
  deriving DecidableEq, Repr

namespace Error

def invalidUrl (url : Bytes) : Error := ⟨.invalidUrl, text "invalid URL: " ++ url, none⟩

def unsupportedScheme (url : Bytes) (scheme : Option Bytes) : Error :=
  ⟨.invalidUrl, text "unsupported URL scheme \"" ++ scheme.getD (text "<missing>") ++
    text "\" for direct HTTP request: " ++ url, none⟩

def conflictingContentLength : Error := ⟨.builder, text "conflicting Content-Length headers", none⟩

def invalidProxy (message : Bytes) : Error :=
  ⟨.proxy, text "invalid proxy configuration: " ++ message, none⟩

def proxy (message : Bytes) : Error := ⟨.proxy, text "proxy transport failed: " ++ message, none⟩

def connection (message : Bytes) : Error :=
  ⟨.connection, text "HTTP/1.1 connection driver failed: " ++ message, none⟩

def chunkedEncoding (message : Bytes) : Error :=
  ⟨.chunkedEncoding, text "HTTP/1.1 chunked response body failed: " ++ message, none⟩

def responseBody (message : Bytes) : Error :=
  ⟨.responseBody, text "HTTP/1.1 response body failed: " ++ message, none⟩

/-- `Error::response_body_hyper`: the same text, with how much of a declared body is missing. -/
def responseBodyHyper (message : Bytes) (incompleteBody : Option (Nat × Nat)) : Error :=
  { responseBody message with incompleteBody }

def contentDecoding : Error := ⟨.contentDecoding, text "response content decoding failed", none⟩

def readTimeout (timeout : Nat) : Error :=
  ⟨.readTimeout, text "HTTP/1.1 response body read timed out after " ++ durationDebug timeout, none⟩

def responseBodyTotalTimeout (timeout : Nat) : Error :=
  ⟨.readTimeout, text "HTTP/1.1 response body total timeout after " ++ durationDebug timeout, none⟩

end Error

end RequestsNative
