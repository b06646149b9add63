import RequestsNative.Url.Prepare

/-!
# Digest authentication

`auth.rs`. `prepare_digest` looks at the algorithm of a challenge and at the URL, and counts the use of the nonce; `finish` hashes
the credentials and writes the header, unless the quality of protection is one it does not know. The count changes in the first
of the two and the remembered nonce in the second.

The hashes of the crates `md5`, `sha1` and `sha2` and `url::Url::parse` are parameters, and so is whether the build checks its
arithmetic for overflow.
-/

namespace RequestsNative.Request

open Url (chars hexValue rawAuthority splitOnce)

structure DigestChallenge where
  realm : Bytes
  nonce : Bytes
  qop : Option Bytes
  algorithm : Option Bytes
  /-- `opaque`. -/
  opaqueText : Option Bytes
  deriving DecidableEq, Repr

structure DigestState where
  lastNonce : Bytes
  nonceCount : UInt32
  deriving DecidableEq, Repr

structure DigestRequest where
  username : Bytes
  password : Bytes
  method : Bytes
  url : Bytes
  challenge : DigestChallenge
  deriving DecidableEq, Repr

inductive DigestAlgorithm
  | md5 | md5Sess | sha1 | sha256 | sha512
  deriving DecidableEq, Repr

structure DigestPlan where
  request : DigestRequest
  algorithm : DigestAlgorithm
  path : Bytes
  state : DigestState
  deriving DecidableEq, Repr

inductive DigestPreparation
  | unsupported (state : DigestState)
  | ready (plan : DigestPlan)
  deriving DecidableEq, Repr

structure DigestOutput where
  header : Option Bytes
  state : DigestState
  deriving DecidableEq, Repr

/-- `url::Url`, by the parts that are read. -/
structure DigestUrl where
  scheme : Bytes
  hasHost : Bool
  path : Bytes
  query : Option Bytes
  deriving DecidableEq, Repr

structure DigestEnv where
  md5 : Bytes → Bytes
  sha1 : Bytes → Bytes
  sha256 : Bytes → Bytes
  sha512 : Bytes → Bytes
  sha1_length : ∀ value, (sha1 value).length = 20
  parse : Bytes → Option DigestUrl
  overflowChecks : Bool

/-! ### Hexadecimal numbers -/

def lowerHexDigit (n : Nat) : UInt8 := UInt8.ofNat (if n < 10 then 48 + n else 87 + n)

/-- The last digits of a number, as many as asked for. -/
def lowerHex : Nat → Nat → Bytes
  | 0, _ => []
  | width + 1, n => lowerHex width (n / 16) ++ [lowerHexDigit (n % 16)]

theorem length_lowerHex (width n : Nat) : (lowerHex width n).length = width := by
  induction width generalizing n with
  | zero => rfl
  | succ width ih => rw [lowerHex, List.length_append, ih, List.length_singleton]

/-- The number that digits are read as. -/
def hexNumber (digits : Bytes) : Nat := digits.foldl (fun value b => value * 16 + ((hexValue b).map UInt8.toNat).getD 0) 0

theorem hexValue_lowerHexDigit {n : Nat} (h : n < 16) : ((hexValue (lowerHexDigit n)).map UInt8.toNat).getD 0 = n := by
  have hall : ∀ digit : Fin 16, ((hexValue (lowerHexDigit digit)).map UInt8.toNat).getD 0 = digit := by decide
  exact hall ⟨n, h⟩

theorem hexNumber_lowerHex (width n : Nat) : hexNumber (lowerHex width n) = n % 16 ^ width := by
  induction width generalizing n with
  | zero =>
      rw [Nat.pow_zero, Nat.mod_one]
      rfl
  | succ width ih =>
      have hlast : hexNumber (lowerHex width (n / 16) ++ [lowerHexDigit (n % 16)]) =
          hexNumber (lowerHex width (n / 16)) * 16 + n % 16 := by
        rw [hexNumber, List.foldl_append, List.foldl_cons, List.foldl_nil, hexValue_lowerHexDigit (Nat.mod_lt n (by decide))]
        rfl
      rw [lowerHex, hlast, ih, Nat.pow_succ', Nat.mod_mul, Nat.mul_comm, Nat.add_comm]

/-- `hex_digest`. -/
def hexDigest (hash : Bytes → Bytes) (value : Bytes) : Bytes := (hash value).flatMap fun byte => lowerHex 2 byte.toNat

theorem length_hexDigest (hash : Bytes → Bytes) (value : Bytes) : (hexDigest hash value).length = 2 * (hash value).length := by
  rw [hexDigest]
  induction hash value with
  | nil => rfl
  | cons byte digest ih =>
      rw [List.flatMap_cons, List.length_append, length_lowerHex, ih, List.length_cons, Nat.mul_succ, Nat.add_comm]

/-! ### The request target -/

def stripPrefix (front value : Bytes) : Option Bytes := if front.isPrefixOf value then some (value.drop front.length) else none

/-- The target with a path that ends before the parameters of its last segment, and no empty query. -/
def withoutParams (lexicalTarget : Bytes) : Bytes :=
  let (path, query) := match splitOnce (text "?") lexicalTarget with
    | some (path, query) => (path, some query)
    | none => (lexicalTarget, none)
  let path := if path = [] then text "/" else path
  let finalSegment := path.rtakeWhile (· != 47)
  let path := match finalSegment.findIdx? (· == 59) with
    | none => path
    | some params => path.take (path.length - finalSegment.length + params)
  match query with
  | none | some [] => path
  | some query => path ++ text "?" ++ query

def digestRequestTarget (env : DigestEnv) (url : Bytes) : Option Bytes := do
  let remainder ← (stripPrefix (text "http://") url).or (stripPrefix (text "https://") url)
  let authority := rawAuthority remainder
  let suffix := remainder.drop authority.length
  if authority = [] then none
  else
    let lexicalSuffix := suffix.takeWhile (· != 35)
    let lexicalTarget :=
      if lexicalSuffix = [] then text "/" else if lexicalSuffix.head? = some 63 then 47 :: lexicalSuffix else lexicalSuffix
    let parsed ← env.parse url
    if (parsed.scheme ≠ text "http" ∧ parsed.scheme ≠ text "https") ∨ parsed.hasHost = false then none
    else
      let path := if parsed.path = [] then text "/" else parsed.path
      let path := match parsed.query with
        | none => path
        | some query => path ++ text "?" ++ query
      if path ≠ lexicalTarget then none else some (withoutParams lexicalTarget)

/-! ### Preparing -/

/-- `char::to_uppercase`, where all of it is in ASCII. Any other character outside ASCII keeps one outside ASCII and stands for
itself. -/
def upperCase : Nat → List Nat
  | 0xDF => [83, 83]
  | 0x131 => [73]
  | 0x17F => [83]
  | 0xFB00 => [70, 70]
  | 0xFB01 => [70, 73]
  | 0xFB02 => [70, 76]
  | 0xFB03 => [70, 70, 73]
  | 0xFB04 => [70, 70, 76]
  | 0xFB05 | 0xFB06 => [83, 84]
  | c => [if 97 ≤ c ∧ c ≤ 122 then c - 32 else c]

def digestAlgorithm (algorithmName : Bytes) : Option DigestAlgorithm :=
  let upper := (chars algorithmName).flatMap upperCase
  if upper = (text "MD5").map UInt8.toNat then some .md5
  else if upper = (text "MD5-SESS").map UInt8.toNat then some .md5Sess
  else if upper = (text "SHA").map UInt8.toNat then some .sha1
  else if upper = (text "SHA-256").map UInt8.toNat then some .sha256
  else if upper = (text "SHA-512").map UInt8.toNat then some .sha512
  else none

example : digestAlgorithm (text "md5-Seß") = some .md5Sess := by decide

/-- `nonce_count += 1`. -/
def increment (env : DigestEnv) (nonceCount : UInt32) : Except Panic UInt32 :=
  if env.overflowChecks = true ∧ nonceCount.toNat = 2 ^ 32 - 1 then .error ⟨"attempt to add with overflow"⟩ else .ok (nonceCount + 1)

def prepareDigest (env : DigestEnv) (request : DigestRequest) (state : DigestState) : Except Panic DigestPreparation :=
  match digestAlgorithm (request.challenge.algorithm.getD (text "MD5")) with
  | none => .ok (.unsupported state)
  | some algorithm =>
      match digestRequestTarget env request.url with
      | none => .ok (.unsupported state)
      | some path => do
          let nonceCount ← if request.challenge.nonce = state.lastNonce then increment env state.nonceCount else .ok 1
          return .ready ⟨request, algorithm, path, { state with nonceCount }⟩

/-! ### Finishing -/

def digestHex (env : DigestEnv) : DigestAlgorithm → Bytes → Bytes
  | .md5 | .md5Sess => hexDigest env.md5
  | .sha1 => hexDigest env.sha1
  | .sha256 => hexDigest env.sha256
  | .sha512 => hexDigest env.sha512

namespace DigestPlan

def cnonce (env : DigestEnv) (plan : DigestPlan) (ctime random : Bytes) : Bytes :=
  let cnonceSeed := decimal plan.state.nonceCount.toNat ++ plan.request.challenge.nonce ++ ctime ++ random
  (hexDigest env.sha1 cnonceSeed).take 16

/-- The response to the challenge, if its quality of protection is known. -/
def response (env : DigestEnv) (plan : DigestPlan) (ncvalue cnonce : Bytes) : Option Bytes :=
  let challenge := plan.request.challenge
  let ha1Seed := plan.request.username ++ text ":" ++ challenge.realm ++ text ":" ++ plan.request.password
  let ha2Seed := plan.request.method ++ text ":" ++ plan.path
  let ha1 := digestHex env plan.algorithm ha1Seed
  let ha2 := digestHex env plan.algorithm ha2Seed
  let ha1 :=
    if plan.algorithm = .md5Sess then digestHex env plan.algorithm (ha1 ++ text ":" ++ challenge.nonce ++ text ":" ++ cnonce) else ha1
  match challenge.qop with
  | none | some [] => some (digestHex env plan.algorithm (ha1 ++ text ":" ++ challenge.nonce ++ text ":" ++ ha2))
  | some qop =>
      if qop = text "auth" ∨ (qop.splitOn 44).any (· = text "auth") = true then
        let noncebit := challenge.nonce ++ text ":" ++ ncvalue ++ text ":" ++ cnonce ++ text ":auth:" ++ ha2
        some (digestHex env plan.algorithm (ha1 ++ text ":" ++ noncebit))
      else none

def finish (env : DigestEnv) (plan : DigestPlan) (ctime random : Bytes) : DigestOutput :=
  let challenge := plan.request.challenge
  let ncvalue := lowerHex 8 plan.state.nonceCount.toNat
  let cnonce := plan.cnonce env ctime random
  match plan.response env ncvalue cnonce with
  | none => ⟨none, plan.state⟩
  | some response =>
      let fields := text "username=\"" ++ plan.request.username ++ text "\", realm=\"" ++ challenge.realm ++ text "\", nonce=\"" ++
        challenge.nonce ++ text "\", uri=\"" ++ plan.path ++ text "\", response=\"" ++ response ++ text "\""
      let fields := match challenge.opaqueText with
        | none | some [] => fields
        | some opaqueText => fields ++ text ", opaque=\"" ++ opaqueText ++ text "\""
      let fields := match challenge.algorithm with
        | none | some [] => fields
        | some algorithm => fields ++ text ", algorithm=\"" ++ algorithm ++ text "\""
      let fields := match challenge.qop with
        | none | some [] => fields
        | some _ => fields ++ text ", qop=\"auth\", nc=" ++ ncvalue ++ text ", cnonce=\"" ++ cnonce ++ text "\""
      ⟨some (text "Digest " ++ fields), { plan.state with lastNonce := challenge.nonce }⟩

end DigestPlan

/-! ### What a challenge does to the count -/

/-- The algorithm is known and the URL has a target, so that the challenge gets as far as the count. -/
def DigestRequest.supported (env : DigestEnv) (request : DigestRequest) : Bool :=
  (digestAlgorithm (request.challenge.algorithm.getD (text "MD5"))).isSome && (digestRequestTarget env request.url).isSome

/-- The count of a nonce that is used once more. -/
def DigestState.next (state : DigestState) (nonce : Bytes) : UInt32 := if nonce = state.lastNonce then state.nonceCount + 1 else 1

/-- Counting the nonce once more leaves the range of the counter. -/
def DigestState.Overflows (state : DigestState) (nonce : Bytes) : Prop :=
  nonce = state.lastNonce ∧ state.nonceCount.toNat = 2 ^ 32 - 1

theorem DigestState.next_toNat {state : DigestState} (h : ¬ state.Overflows state.lastNonce) :
    (state.next state.lastNonce).toNat = state.nonceCount.toNat + 1 := by
  have hbound := state.nonceCount.toNat_lt
  have hroom : state.nonceCount.toNat ≠ 2 ^ 32 - 1 := fun hmax => h ⟨rfl, hmax⟩
  rw [DigestState.next, if_pos rfl, UInt32.toNat_add, UInt32.toNat_one, Nat.mod_eq_of_lt (by omega)]

/-- Preparing counts the nonce of a supported challenge and leaves everything else. -/
theorem prepareDigest_cases (env : DigestEnv) (request : DigestRequest) (state : DigestState) :
    (request.supported env = false ∧ prepareDigest env request state = .ok (.unsupported state)) ∨
      (request.supported env = true ∧ env.overflowChecks = true ∧ state.Overflows request.challenge.nonce ∧
        prepareDigest env request state = .error ⟨"attempt to add with overflow"⟩) ∨
      (request.supported env = true ∧ (env.overflowChecks = true → ¬ state.Overflows request.challenge.nonce) ∧
        ∃ algorithm path, prepareDigest env request state =
          .ok (.ready ⟨request, algorithm, path, ⟨state.lastNonce, state.next request.challenge.nonce⟩⟩)) := by
  unfold prepareDigest DigestRequest.supported
  cases halgorithm : digestAlgorithm (request.challenge.algorithm.getD (text "MD5")) with
  | none => exact .inl ⟨rfl, rfl⟩
  | some algorithm =>
      cases htarget : digestRequestTarget env request.url with
      | none => exact .inl ⟨rfl, rfl⟩
      | some path =>
          refine .inr ?_
          by_cases hsame : request.challenge.nonce = state.lastNonce
          · by_cases hover : env.overflowChecks = true ∧ state.nonceCount.toNat = 2 ^ 32 - 1
            · refine .inl ⟨rfl, hover.1, ⟨hsame, hover.2⟩, ?_⟩
              simp only [if_pos hsame, increment, if_pos hover]
              rfl
            · refine .inr ⟨rfl, fun hchecks hoverflows => hover ⟨hchecks, hoverflows.2⟩, algorithm, path, ?_⟩
              simp only [if_pos hsame, increment, if_neg hover, DigestState.next]
              rfl
          · refine .inr ⟨rfl, fun _ hoverflows => hsame hoverflows.1, algorithm, path, ?_⟩
            simp only [if_neg hsame, DigestState.next]
            rfl

/-! ### The count in the header -/

def DigestChallenge.hasQop (challenge : DigestChallenge) : Bool :=
  match challenge.qop with
  | none | some [] => false
  | some _ => true

/-- The count that a header with a `qop` names: its digits stand before the last field, which has sixteen. -/
def ncOf (header : Bytes) : Nat := hexNumber ((header.rdrop 27).rtake 8)

theorem ncOf_append (front : Bytes) (nonceCount : UInt32) {cnonce : Bytes} (hcnonce : cnonce.length = 16) :
    ncOf (front ++ lowerHex 8 nonceCount.toNat ++ text ", cnonce=\"" ++ cnonce ++ text "\"") = nonceCount.toNat := by
  have htail : (text ", cnonce=\"" ++ cnonce ++ text "\"").length = 27 := by
    rw [List.length_append, List.length_append, hcnonce]
    decide
  have hdrop : (front ++ lowerHex 8 nonceCount.toNat ++ text ", cnonce=\"" ++ cnonce ++ text "\"").rdrop 27 =
      front ++ lowerHex 8 nonceCount.toNat := by
    rw [List.append_assoc, List.append_assoc, List.rdrop, List.length_append, ← List.append_assoc (text ", cnonce=\""), htail,
      Nat.add_sub_cancel, List.take_left]
  have htake : (front ++ lowerHex 8 nonceCount.toNat).rtake 8 = lowerHex 8 nonceCount.toNat := by
    rw [List.rtake, List.length_append, length_lowerHex, Nat.add_sub_cancel, List.drop_left]
  rw [ncOf, hdrop, htake, hexNumber_lowerHex]
  exact Nat.mod_eq_of_lt nonceCount.toNat_lt

namespace DigestPlan

variable (env : DigestEnv) (plan : DigestPlan) (ctime random : Bytes)

theorem length_cnonce : (plan.cnonce env ctime random).length = 16 := by
  rw [cnonce, List.length_take, length_hexDigest, env.sha1_length]
  decide

/-- Finishing remembers the nonce exactly if it writes a header, and a header with a `qop` names the count. -/
theorem finish_cases :
    plan.finish env ctime random = ⟨none, plan.state⟩ ∨
      ∃ header, plan.finish env ctime random = ⟨some header, { plan.state with lastNonce := plan.request.challenge.nonce }⟩ ∧
        (plan.request.challenge.hasQop = true → ncOf header = plan.state.nonceCount.toNat) := by
  cases hresponse : plan.response env (lowerHex 8 plan.state.nonceCount.toNat) (plan.cnonce env ctime random) with
  | none =>
      left
      simp only [finish, hresponse]
  | some response =>
      simp only [finish, hresponse]
      refine .inr ⟨_, rfl, fun hqop => ?_⟩
      unfold DigestChallenge.hasQop at hqop
      split at hqop
      · cases hqop
      · cases hqop
      · -- everything before the count is the front of the text
        simp only [← List.append_assoc]
        exact ncOf_append _ _ (plan.length_cnonce env ctime random)

end DigestPlan

end RequestsNative.Request
