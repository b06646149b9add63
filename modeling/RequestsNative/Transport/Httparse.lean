import Mathlib.Data.List.DropRight
import RequestsNative.Lib.Head
import RequestsNative.Transport.ResponseHead

/-!
# The response heads the parser accepts

`httparse::Response` with its default configuration, as its documentation describes it: leading
empty lines are skipped, every line may end in CR LF or in a bare LF, a status line is a version, three
digits and an optional reason, and a header line is a token, a colon and a value without its surrounding
blanks. The library of heads turns this line syntax into a parser with the facts `HeadParser` asks for.
-/

namespace RequestsNative.Transport

open RequestsNative.Lib

structure StatusLine where
  version : Nat
  code : Nat
  reason : Bytes
  deriving DecidableEq, Repr

/-- Tab, space, the visible ASCII characters and everything above ASCII. -/
def isFieldByte (b : UInt8) : Bool := b == 9 || (32 ≤ b && b != 127)

def isHeaderNameToken (b : UInt8) : Bool :=
  isAsciiDigit b || (65 ≤ b && b ≤ 90) || (97 ≤ b && b ≤ 122) || (text "!#$%&'*+-.^_`|~").contains b

def isBlank (b : UInt8) : Bool := b == 32 || b == 9

/-- A reason with bytes above ASCII is read as the empty one. -/
def readReason (reason : Bytes) : Bytes := if reason.any (128 ≤ ·) then [] else reason

def readStatusLine : Bytes → Option StatusLine
  | 72 :: 84 :: 84 :: 80 :: 47 :: 49 :: 46 :: minor :: 32 :: a :: b :: c :: tail =>
      if (minor = 48 ∨ minor = 49) ∧ [a, b, c].all isAsciiDigit = true then
        match tail with
        | [] => some ⟨minor.toNat - 48, digitsValue [a, b, c], []⟩
        | 32 :: reason =>
            if reason.all isFieldByte then some ⟨minor.toNat - 48, digitsValue [a, b, c], readReason reason⟩
            else none
        | _ => none
      else none
  | _ => none

def trimBlanks (value : Bytes) : Bytes := (value.dropWhile isBlank).rdropWhile isBlank

def readHeaderLine (line : Bytes) : Option RawHeader :=
  match line.dropWhile isHeaderNameToken with
  | 58 :: value =>
      if line.takeWhile isHeaderNameToken ≠ [] ∧ value.all isFieldByte = true then
        some (line.takeWhile isHeaderNameToken, trimBlanks value)
      else none
  | _ => none

/-! ### The texts of accepted lines -/

theorem isFieldByte_plain {b : UInt8} (h : isFieldByte b = true) : b ≠ 13 ∧ b ≠ 10 := by
  constructor <;> rintro rfl <;> simp [isFieldByte] at h

theorem isHeaderNameToken_plain {b : UInt8} (h : isHeaderNameToken b = true) : b ≠ 13 ∧ b ≠ 10 := by
  constructor <;> rintro rfl <;> exact absurd h (by decide)

theorem isAsciiDigit_plain {b : UInt8} (h : isAsciiDigit b = true) : b ≠ 13 ∧ b ≠ 10 := by
  constructor <;> rintro rfl <;> exact absurd h (by decide)

theorem readStatusLine_plain {line : Bytes} {found : StatusLine} (h : readStatusLine line = some found) :
    Plain line ∧ line ≠ [] := by
  unfold readStatusLine at h
  split at h
  · rename_i minor a b c tail
    refine ⟨?_, by simp⟩
    split at h
    · rename_i hguard
      simp only [List.all_cons, List.all_nil, Bool.and_true, Bool.and_eq_true] at hguard
      obtain ⟨hminor, ha, hb, hc⟩ := hguard
      have hminor' : minor ≠ 13 ∧ minor ≠ 10 := by
        rcases hminor with rfl | rfl <;> decide
      have htail : Plain tail := by
        split at h
        · exact fun _ hmem => by cases hmem
        · rename_i reason
          split at h
          · rename_i hreason
            intro x hx
            rcases List.mem_cons.mp hx with rfl | hx
            · decide
            · exact isFieldByte_plain (List.all_eq_true.mp hreason x hx)
          · cases h
        · cases h
      intro x hx
      simp only [List.mem_cons] at hx
      rcases hx with rfl | rfl | rfl | rfl | rfl | rfl | rfl | rfl | rfl | rfl | rfl | rfl | hx
      all_goals first | decide | exact hminor' | exact isAsciiDigit_plain ‹_› | exact htail x hx
    · cases h
  · cases h

theorem readHeaderLine_split {line : Bytes} {header : RawHeader} (h : readHeaderLine line = some header) :
    ∃ value, line = header.1 ++ 58 :: value ∧ header.1 ≠ [] ∧ (∀ b ∈ header.1, isHeaderNameToken b = true) ∧
      (∀ b ∈ value, isFieldByte b = true) ∧ header.2 = trimBlanks value := by
  unfold readHeaderLine at h
  split at h
  · rename_i value hvalue
    split at h
    · rename_i hguard
      obtain rfl := Option.some.inj h
      refine ⟨value, ?_, hguard.1, fun b hb => List.mem_takeWhile_imp hb, List.all_eq_true.mp hguard.2, rfl⟩
      rw [← hvalue, List.takeWhile_append_dropWhile]
    · cases h
  · cases h

theorem readHeaderLine_plain {line : Bytes} {header : RawHeader} (h : readHeaderLine line = some header) :
    Plain line ∧ line ≠ [] := by
  obtain ⟨value, rfl, -, hname, hvalue, -⟩ := readHeaderLine_split h
  refine ⟨?_, by simp⟩
  intro b hb
  simp only [List.mem_append, List.mem_cons] at hb
  rcases hb with hb | rfl | hb
  · exact isHeaderNameToken_plain (hname b hb)
  · decide
  · exact isFieldByte_plain (hvalue b hb)

/-- The line syntax of `httparse`, with the observer's limit on headers. -/
def responseLines : LineSyntax StatusLine RawHeader where
  status := readStatusLine
  header := readHeaderLine
  maxHeaders := 100
  status_plain := readStatusLine_plain
  header_plain := readHeaderLine_plain

/-! ### Header lines in canonical form -/

theorem readHeaderLine_canonical {name value : Bytes} (hname : name ≠ [])
    (htoken : ∀ b ∈ name, isHeaderNameToken b = true) (hvalue : ∀ b ∈ value, isFieldByte b = true)
    (htrim : trimBlanks value = value) :
    readHeaderLine (name ++ text ": " ++ value) = some (name, value) := by
  have hcolon : isHeaderNameToken 58 = false := by decide
  have hline : name ++ text ": " ++ value = name ++ 58 :: 32 :: value := by
    rw [List.append_assoc]
    rfl
  have hdrop : (name ++ 58 :: 32 :: value).dropWhile isHeaderNameToken = 58 :: 32 :: value := by
    rw [List.dropWhile_append_of_pos htoken, List.dropWhile_cons_of_neg (by simp [hcolon])]
  have htake : (name ++ 58 :: 32 :: value).takeWhile isHeaderNameToken = name := by
    rw [List.takeWhile_append_of_pos htoken, List.takeWhile_cons_of_neg (by simp [hcolon]), List.append_nil]
  have hblank : trimBlanks (32 :: value) = value := by
    rw [trimBlanks, List.dropWhile_cons_of_pos (by decide)]
    exact htrim
  have hall : (32 :: value).all isFieldByte = true := by
    rw [List.all_cons, List.all_eq_true.mpr hvalue]
    decide
  unfold readHeaderLine
  rw [hline, hdrop]
  simp only [htake, hall, hblank, hname, ne_eq, not_false_iff, and_self, if_true]

theorem trimBlanks_trimBlanks (value : Bytes) : trimBlanks (trimBlanks value) = trimBlanks value := by
  have hhead : (trimBlanks value).dropWhile isBlank = trimBlanks value := by
    have hfront : trimBlanks value <+: value.dropWhile isBlank := List.rdropWhile_prefix _ _
    generalize trimBlanks value = trimmed at hfront
    cases trimmed with
    | nil => rfl
    | cons b rest =>
        obtain ⟨tail, htail⟩ := hfront
        have hfirst := List.head?_dropWhile_not isBlank value
        rw [← htail] at hfirst
        exact List.dropWhile_cons_of_neg (by simpa using hfirst)
  conv_lhs => rw [trimBlanks, hhead]
  exact List.rdropWhile_idempotent _ _

/-- A header written as name, colon, space and value is read back. -/
theorem readHeaderLine_rewritten {line : Bytes} {header : RawHeader} (h : readHeaderLine line = some header) :
    readHeaderLine (header.1 ++ text ": " ++ header.2) = some header := by
  obtain ⟨value, -, hname, htoken, hvalue, heq⟩ := readHeaderLine_split h
  refine readHeaderLine_canonical hname htoken ?_ (by rw [heq]; exact trimBlanks_trimBlanks value)
  intro b hb
  rw [heq] at hb
  exact hvalue b ((List.dropWhile_sublist _).mem ((List.rdropWhile_prefix _ _).mem hb))

/-- A header line is no status line: a slash ends its token. -/
theorem readStatusLine_header {name : Bytes} (htoken : ∀ b ∈ name, isHeaderNameToken b = true) (value : Bytes) :
    readStatusLine (name ++ text ": " ++ value) = none := by
  have hdrop : (name ++ text ": " ++ value).dropWhile isHeaderNameToken = 58 :: 32 :: value := by
    rw [List.append_assoc, List.dropWhile_append_of_pos htoken]
    exact List.dropWhile_cons_of_neg (by decide)
  unfold readStatusLine
  split
  · rename_i tail heq
    rw [heq] at hdrop
    have hslash : ∀ s, (72 :: 84 :: 84 :: 80 :: 47 :: s : Bytes).dropWhile isHeaderNameToken = 47 :: s := fun s => rfl
    rw [hslash] at hdrop
    exact absurd (List.cons.inj hdrop).1 (by decide)
  · rfl

/-! ### The parser -/

def readResponseHead (s : Bytes) : Option (Nat × ResponseHead) :=
  (responseLines.readHead s).map fun (status, headers, rest) =>
    (s.length - rest.length, ⟨status.version, status.code, status.reason, headers⟩)

/-- A head that is read was written as some layout, and its length is what was consumed. -/
theorem readResponseHead_layout {s : Bytes} {consumed : Nat} {head : ResponseHead}
    (h : readResponseHead s = some (consumed, head)) :
    ∃ layout rest, s = Layout.bytes layout ++ rest ∧ consumed = layout.bytes.length ∧
      layout.Means responseLines ⟨head.version, head.code, head.reason⟩ head.headers := by
  obtain ⟨⟨status, headers, rest⟩, hread, heq⟩ := Option.map_eq_some_iff.mp h
  simp only [Prod.mk.injEq] at heq
  obtain ⟨rfl, rfl⟩ := heq
  obtain ⟨layout, rfl, hmeans⟩ := exists_layout hread
  refine ⟨layout, rest, rfl, ?_, hmeans⟩
  rw [List.length_append]
  omega

theorem readResponseHead_bytes {layout : Layout} {head : ResponseHead}
    (h : layout.Means responseLines ⟨head.version, head.code, head.reason⟩ head.headers) (rest : Bytes) :
    readResponseHead (layout.bytes ++ rest) = some (layout.bytes.length, head) := by
  simp only [readResponseHead, readHead_layout h, Option.map_some, List.length_append, Nat.add_sub_cancel]

def referenceParser : HeadParser where
  parse := readResponseHead
  consumed_pos h := by
    obtain ⟨layout, _, -, rfl, -⟩ := readResponseHead_layout h
    exact layout.bytes_pos
  consumed_le h := by
    obtain ⟨layout, rest, rfl, rfl, -⟩ := readResponseHead_layout h
    rw [List.length_append]
    exact Nat.le_add_right _ _
  parse_stable h t := by
    obtain ⟨layout, rest, rfl, rfl, hmeans⟩ := readResponseHead_layout h
    rw [List.take_left]
    exact readResponseHead_bytes hmeans t

end RequestsNative.Transport
