import RequestsNative.Ascii
import Mathlib.Data.List.DropRight

/-!
# URIs, as the `http` crate reads them

The transport keeps a URI as the parts `http::Uri` gives it. Which texts are authorities, and what host and
port one has, is decided by that crate, so it is a parameter, `AuthorityReader`, with the facts about the userinfo and
the port that the transport relies on. An `Authority` is a text the reader accepts.
-/

namespace RequestsNative.Transport

/-- The text after the last `@`. -/
def afterUserinfo (authority : Bytes) : Bytes := authority.rtakeWhile (· != 64)

theorem afterUserinfo_plain (authority : Bytes) : 64 ∉ afterUserinfo authority := by
  intro hmem
  have hne := List.mem_rtakeWhile_imp hmem
  cases hne

/-- The colons after the userinfo and the brackets: an authority has a port if there is one. -/
def portColons (authority : Bytes) : Nat := (authority.rtakeWhile fun b => b != 93 && b != 64).count 58

theorem portColons_snoc (authority : Bytes) (b : UInt8) : portColons (authority ++ [b]) =
    if b = 93 ∨ b = 64 then 0 else if b = 58 then portColons authority + 1 else portColons authority := by
  unfold portColons
  rw [List.rtakeWhile_concat]
  by_cases hreset : b = 93 ∨ b = 64
  · have hstop : (b != 93 && b != 64) = false := by
      rcases hreset with rfl | rfl <;> rfl
    rw [if_pos hreset, hstop]
    rfl
  · have hgo : (b != 93 && b != 64) = true := by simpa using hreset
    rw [if_neg hreset, if_pos hgo, List.count_append]
    by_cases hcolon : b = 58
    · simp [hcolon]
    · simp [hcolon]

theorem portColons_digits (authority : Bytes) {digits : Bytes} (h : digits.all isAsciiDigit = true) :
    portColons (authority ++ digits) = portColons authority := by
  induction digits using List.reverseRecOn with
  | nil => rw [List.append_nil]
  | append_singleton digits b ih =>
      rw [List.all_append, Bool.and_eq_true] at h
      have hdigit : isAsciiDigit b = true := by simpa using h.2
      rw [← List.append_assoc, portColons_snoc, ih h.1, if_neg, if_neg]
      · rintro rfl
        cases hdigit
      · rintro (rfl | rfl) <;> cases hdigit

theorem portColons_port (authority : Bytes) {digits : Bytes} (h : digits.all isAsciiDigit = true) :
    portColons (authority ++ 58 :: digits) = portColons authority + 1 := by
  rw [show authority ++ 58 :: digits = authority ++ [58] ++ digits by simp, portColons_digits _ h, portColons_snoc]
  rfl

/-- `http::uri::Authority`: which texts it accepts, and its `host` and `port_u16`. -/
structure AuthorityReader where
  accepts : Bytes → Bool
  host : Bytes → Bytes
  portU16 : Bytes → Option Nat
  /-- The host stands behind the userinfo. -/
  host_plain : ∀ authority, 64 ∉ host authority
  /-- Things like `localhost:8080:3030` are rejected. -/
  one_port : ∀ {authority}, accepts authority = true → portColons authority ≤ 1
  /-- An authority without a port stays one with a port. -/
  with_port : ∀ {authority}, accepts authority = true → portColons authority = 0 →
    ∀ port < 2 ^ 16, accepts (authority ++ 58 :: decimal port) = true

variable {reader : AuthorityReader}

def Authority (reader : AuthorityReader) : Type := { text : Bytes // reader.accepts text = true }

namespace Authority

def asStr (authority : Authority reader) : Bytes := authority.1

/-- `str::parse::<Authority>`. -/
def parse (reader : AuthorityReader) (text : Bytes) : Option (Authority reader) :=
  if h : reader.accepts text = true then some ⟨text, h⟩ else none

def host (authority : Authority reader) : Bytes := reader.host authority.asStr

def portU16 (authority : Authority reader) : Option Nat := reader.portU16 authority.asStr

end Authority

inductive Scheme
  | http | https | other (name : Bytes)
  deriving DecidableEq, Repr

def Scheme.asStr : Scheme → Bytes
  | .http => text "http"
  | .https => text "https"
  | .other name => name

/-- The port a scheme stands for. -/
def Scheme.defaultPort (scheme : Scheme) : Nat := if scheme = .https then 443 else 80

structure PathAndQuery where
  path : Bytes
  query : Option Bytes
  deriving DecidableEq, Repr

namespace PathAndQuery

def queryText (target : PathAndQuery) : Bytes := target.query.elim [] (63 :: ·)

/-- `as_str`: nothing at all is the root. -/
def asStr (target : PathAndQuery) : Bytes :=
  if target.path ++ target.queryText = [] then text "/" else target.path ++ target.queryText

/-- `Display`: the path is never empty. -/
def display (target : PathAndQuery) : Bytes :=
  (if target.path = [] then text "/" else target.path) ++ target.queryText

end PathAndQuery

/-- `http::Uri`, by its parts. It has no fragment: parsing a text drops it. -/
structure Uri (reader : AuthorityReader) where
  scheme : Option Scheme
  authority : Option (Authority reader)
  pathAndQuery : Option PathAndQuery

namespace Uri

def host (uri : Uri reader) : Option Bytes := uri.authority.map Authority.host

def portU16 (uri : Uri reader) : Option Nat := uri.authority.bind Authority.portU16

def display (uri : Uri reader) : Bytes :=
  uri.scheme.elim [] (·.asStr ++ text "://") ++ uri.authority.elim [] Authority.asStr ++
    uri.pathAndQuery.elim [] PathAndQuery.display

end Uri

/-! ### Header maps -/

/-- `http::HeaderMap`, with names in lower case. -/
abbrev HeaderMap := List (Bytes × Bytes)

namespace HeaderMap

def getAll (headers : HeaderMap) (name : Bytes) : List Bytes := (headers.filter (·.1 = name)).map (·.2)

def containsKey (headers : HeaderMap) (name : Bytes) : Bool := headers.any (·.1 = name)

/-- `insert` replaces every value of the name. -/
def insert (headers : HeaderMap) (name value : Bytes) : HeaderMap := headers.filter (·.1 ≠ name) ++ [(name, value)]

theorem getAll_insert (headers : HeaderMap) (name value : Bytes) : (headers.insert name value).getAll name = [value] := by
  simp [getAll, insert, List.filter_append, List.filter_filter]

end HeaderMap

/-- `str::parse::<HeaderValue>`: no control characters but the tab. -/
def headerValue (value : Bytes) : Option Bytes :=
  if value.all fun b => (32 ≤ b && b != 127) || b == 9 then some value else none

/-- `HeaderValue::to_str`: visible ASCII only. -/
def headerToStr (value : Bytes) : Option Bytes :=
  if value.all fun b => (32 ≤ b && b < 127) || b == 9 then some value else none

/-! ### A reader

`Authority::parse` in one pass, and `host` and `port_u16` on what it accepts. -/

/-- The characters of a URI, `%` apart. -/
def isUriChar (b : UInt8) : Bool :=
  (97 ≤ b && b ≤ 122) || (65 ≤ b && b ≤ 90) || isAsciiDigit b || (text "!#$&'()*+,-./:;=?@[]_~").contains b

structure AuthorityScan where
  colons : Nat := 0
  startBracket : Bool := false
  endBracket : Bool := false
  percent : Bool := false
  lastAt : Bool := false

namespace AuthorityScan

/-- A colon, bracket or percent sign of the userinfo, and those inside the brackets, are forgotten at their end. -/
def step (scan : AuthorityScan) (b : UInt8) : Option AuthorityScan :=
  let scan := { scan with lastAt := false }
  if b = 47 ∨ b = 63 ∨ b = 35 then none
  else if b = 58 then if 8 ≤ scan.colons then none else some { scan with colons := scan.colons + 1 }
  else if b = 91 then if scan.percent || scan.startBracket then none else some { scan with startBracket := true }
  else if b = 93 then
    if !scan.startBracket || scan.endBracket then none
    else some { scan with endBracket := true, colons := 0, percent := false }
  else if b = 64 then some { scan with lastAt := true, colons := 0, percent := false }
  else if b = 37 then some { scan with percent := true }
  else if isUriChar b then some scan
  else none

def run (authority : Bytes) : Option AuthorityScan := authority.foldlM step {}

/-- The checks after the loop. -/
def complete (scan : AuthorityScan) : Bool :=
  scan.startBracket == scan.endBracket && scan.colons ≤ 1 && !scan.lastAt && !scan.percent

theorem run_snoc {authority : Bytes} {b : UInt8} {scan : AuthorityScan} (h : run (authority ++ [b]) = some scan) :
    ∃ before, run authority = some before ∧ before.step b = some scan := by
  rw [run, List.foldlM_append] at h
  obtain ⟨before, hbefore, hone⟩ := Option.bind_eq_some_iff.mp h
  exact ⟨before, hbefore, by simpa using hone⟩

theorem step_colons {before scan : AuthorityScan} {b : UInt8} (h : before.step b = some scan) :
    scan.colons = if b = 93 ∨ b = 64 then 0 else if b = 58 then before.colons + 1 else before.colons := by
  unfold step at h
  grind

theorem run_colons {authority : Bytes} {scan : AuthorityScan} (h : run authority = some scan) :
    scan.colons = portColons authority := by
  induction authority using List.reverseRecOn generalizing scan with
  | nil => cases h; rfl
  | append_singleton authority b ih =>
      obtain ⟨before, hbefore, hone⟩ := run_snoc h
      rw [step_colons hone, ih hbefore, portColons_snoc]

theorem step_digit {scan : AuthorityScan} (hat : scan.lastAt = false) {b : UInt8} (h : isAsciiDigit b = true) :
    scan.step b = some scan := by
  have hne : ∀ c : UInt8, isAsciiDigit c = false → b ≠ c := by
    rintro c hc rfl
    rw [h] at hc
    cases hc
  have hchar : isUriChar b = true := by
    unfold isUriChar
    simp [h]
  obtain ⟨colons, startBracket, endBracket, percent, lastAt⟩ := scan
  cases hat
  unfold step
  simp [hne 47 rfl, hne 63 rfl, hne 35 rfl, hne 58 rfl, hne 91 rfl, hne 93 rfl, hne 64 rfl, hne 37 rfl, hchar]

theorem run_digits {scan : AuthorityScan} (hat : scan.lastAt = false) {digits : Bytes}
    (h : digits.all isAsciiDigit = true) : digits.foldlM step scan = some scan := by
  induction digits with
  | nil => rfl
  | cons b digits ih =>
      rw [List.all_cons, Bool.and_eq_true] at h
      rw [List.foldlM_cons, step_digit hat h.1]
      exact ih h.2

theorem run_port {authority : Bytes} {scan : AuthorityScan} (hrun : run authority = some scan) (hcolons : scan.colons = 0)
    {digits : Bytes} (h : digits.all isAsciiDigit = true) :
    run (authority ++ 58 :: digits) = some { scan with colons := 1, lastAt := false } := by
  have hcolon : scan.step 58 = some { scan with colons := 1, lastAt := false } := by
    unfold step
    simp [hcolons]
  have hsplit : run (authority ++ 58 :: digits) = (run authority).bind fun scan => (scan.step 58).bind (digits.foldlM step) := by
    rw [run, List.foldlM_append]
    rfl
  rw [hsplit, hrun, Option.bind_some, hcolon]
  exact run_digits rfl h

end AuthorityScan

/-- The crate's own reading. -/
def httpAccepts (authority : Bytes) : Bool :=
  authority != [] && (AuthorityScan.run authority).any AuthorityScan.complete

theorem httpAccepts_scan {authority : Bytes} (h : httpAccepts authority = true) :
    ∃ scan, AuthorityScan.run authority = some scan ∧ scan.complete = true := by
  rw [httpAccepts, Bool.and_eq_true] at h
  exact (Option.any_eq_true _ _).mp h.2

/-- An address in brackets, or the text before the port. -/
def httpHost (authority : Bytes) : Bytes :=
  let hostPort := afterUserinfo authority
  if hostPort.head? = some 91 then hostPort.takeWhile (· != 93) ++ [93] else hostPort.takeWhile (· != 58)

theorem httpHost_plain (authority : Bytes) : 64 ∉ httpHost authority := by
  have hbefore : ∀ p, 64 ∉ (afterUserinfo authority).takeWhile p :=
    fun p hmem => afterUserinfo_plain authority ((List.takeWhile_prefix p).subset hmem)
  unfold httpHost
  simp only
  split
  · simp [hbefore]
  · exact hbefore _

def httpAuthority : AuthorityReader where
  accepts := httpAccepts
  host := httpHost
  host_plain := httpHost_plain
  portU16 authority := if authority.contains 58 then parseU16 (authority.rtakeWhile (· != 58)) else none
  one_port := by
    intro authority h
    obtain ⟨scan, hrun, hcomplete⟩ := httpAccepts_scan h
    simp only [AuthorityScan.complete, Bool.and_eq_true, decide_eq_true_eq] at hcomplete
    rw [← AuthorityScan.run_colons hrun]
    exact hcomplete.1.1.2
  with_port := by
    intro authority h hnone port _
    obtain ⟨scan, hrun, hcomplete⟩ := httpAccepts_scan h
    have hcolons := (AuthorityScan.run_colons hrun).trans hnone
    have hport := AuthorityScan.run_port hrun hcolons (decimal_digits port)
    simp only [AuthorityScan.complete, Bool.and_eq_true, decide_eq_true_eq] at hcomplete
    rw [httpAccepts, hport]
    simp [AuthorityScan.complete, hcomplete]

end RequestsNative.Transport
