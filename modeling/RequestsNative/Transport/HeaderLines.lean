import Mathlib.Data.List.Forall2
import RequestsNative.Lib.Crlf
import RequestsNative.Transport.HeadWrites
import RequestsNative.Utf8

/-!
# What the rewriting of a request head keeps

A request head is a request line, header lines and an empty line. The rewriting spells the names of the header lines
anew and puts the lines of `Host` first; everything else is to stay as it is. It does, but for names that are not UTF-8:
the spelling is looked up by the name's lossy text, and where that has as many bytes as the name it takes its place.
-/

namespace RequestsNative.Transport

open RequestsNative.Lib ResponseHeadState

/-! ### The parts of a head -/

/-- The bytes of a request, cut at the first empty line and at the line ends before it. -/
structure HeadParts where
  requestLine : Bytes
  headerLines : List Bytes
  rest : Bytes
  deriving DecidableEq, Repr

def headParts (bytes : Bytes) : Option HeadParts :=
  (headEnd bytes).map fun i =>
    ⟨(splitCrlf (bytes.take i)).headD [], (splitCrlf (bytes.take i)).tail, bytes.drop (i + 4)⟩

namespace HeadParts

def bytes (parts : HeadParts) : Bytes :=
  parts.requestLine ++ 13 :: 10 :: (endLines parts.headerLines ++ 13 :: 10 :: parts.rest)

/-- The lines are lines, and none of the header lines is the empty line. -/
structure Sound (parts : HeadParts) : Prop where
  requestLine : Whole parts.requestLine
  headerLines : ∀ line ∈ parts.headerLines, line ≠ [] ∧ Whole line

theorem headEnd_bytes {parts : HeadParts} (h : parts.Sound) :
    headEnd parts.bytes = some (parts.requestLine.length + (endLines parts.headerLines).length) := by
  obtain ⟨requestLine, lines, rest⟩ := parts
  obtain ⟨hfirst, hlines⟩ := h
  show position [13, 10, 13, 10] (requestLine ++ 13 :: 10 :: (endLines lines ++ 13 :: 10 :: rest)) = _
  induction lines generalizing requestLine with
  | nil =>
      rw [position_emptyLine hfirst, if_pos ⟨rest, rfl⟩]
      rfl
  | cons line lines ih =>
      obtain ⟨hne, hwhole⟩ := hlines line List.mem_cons_self
      have hnot : ¬[13, 10] <+: endLines (line :: lines) ++ 13 :: 10 :: rest := by
        obtain ⟨b, tail, rfl⟩ := List.exists_cons_of_ne_nil hne
        rw [endLines_cons, List.append_assoc]
        exact not_crlf_append hwhole _
      rw [position_emptyLine hfirst, if_neg hnot, endLines_cons, List.append_assoc]
      have hrest := ih line hwhole fun other hother => hlines other (List.mem_cons_of_mem _ hother)
      rw [List.cons_append, List.cons_append, hrest, Option.map_some]
      simp only [List.length_append, List.length_cons]
      congr 1
      omega

theorem take_bytes (parts : HeadParts) :
    parts.bytes.take (parts.requestLine.length + (endLines parts.headerLines).length) ++ [13, 10] =
      endLines (parts.requestLine :: parts.headerLines) ∧
    parts.bytes.drop (parts.requestLine.length + (endLines parts.headerLines).length + 4) = parts.rest := by
  obtain ⟨requestLine, lines, rest⟩ := parts
  obtain ⟨s, hs⟩ := endLines_ends (List.cons_ne_nil requestLine lines)
  have hlength : s.length = requestLine.length + (endLines lines).length := by
    have hcount := congrArg List.length hs
    simp only [endLines_cons, List.length_append, List.length_cons, List.length_nil] at hcount
    omega
  have hbytes : (⟨requestLine, lines, rest⟩ : HeadParts).bytes = s ++ ([13, 10, 13, 10] ++ rest) := by
    have hjoined := congrArg (· ++ 13 :: 10 :: rest) hs
    simpa [HeadParts.bytes] using hjoined
  rw [hbytes, ← hlength, List.take_left, hs]
  refine ⟨rfl, ?_⟩
  rw [← List.drop_drop, List.drop_left]
  rfl

theorem headParts_bytes {parts : HeadParts} (h : parts.Sound) : headParts parts.bytes = some parts := by
  obtain ⟨htake, hdrop⟩ := parts.take_bytes
  have hwhole : ∀ line ∈ parts.requestLine :: parts.headerLines, Whole line := by
    intro line hline
    rcases List.mem_cons.mp hline with rfl | hline
    · exact h.requestLine
    · exact (h.headerLines line hline).2
  rw [headParts, headEnd_bytes h, Option.map_some, hdrop, splitCrlf_endLines hwhole htake.symm]
  rfl

theorem nonempty_of_headEnd {requestLine : Bytes} {lines : List Bytes} {rest : Bytes} (hfirst : Whole requestLine)
    (hwhole : ∀ line ∈ lines, Whole line)
    (h : headEnd (⟨requestLine, lines, rest⟩ : HeadParts).bytes = some (requestLine.length + (endLines lines).length)) :
    ∀ line ∈ lines, line ≠ [] := by
  have hposition : position [13, 10, 13, 10] (requestLine ++ 13 :: 10 :: (endLines lines ++ 13 :: 10 :: rest)) =
      some (requestLine.length + (endLines lines).length) := h
  clear h
  induction lines generalizing requestLine with
  | nil => exact fun _ hmem => absurd hmem List.not_mem_nil
  | cons line lines ih =>
      rw [position_emptyLine hfirst] at hposition
      split at hposition
      · simp only [endLines_cons, List.length_append, List.length_cons, Option.some.injEq] at hposition
        omega
      · rename_i hnot
        have hne : line ≠ [] := by
          rintro rfl
          exact hnot ⟨endLines lines ++ 13 :: 10 :: rest, rfl⟩
        obtain ⟨i, hi, hsum⟩ := Option.map_eq_some_iff.mp hposition
        have htail : i = line.length + (endLines lines).length := by
          simp only [endLines_cons, List.length_append, List.length_cons] at hsum
          omega
        rw [endLines_cons, List.append_assoc, htail] at hi
        have hothers := ih (hwhole line List.mem_cons_self) (fun other hother => hwhole other (List.mem_cons_of_mem _ hother)) hi
        intro other hother
        rcases List.mem_cons.mp hother with rfl | hother
        · exact hne
        · exact hothers other hother

end HeadParts

theorem bytes_of_headParts {bytes : Bytes} {parts : HeadParts} (h : headParts bytes = some parts) :
    parts.Sound ∧ parts.bytes = bytes := by
  obtain ⟨i, hend, rfl⟩ := Option.map_eq_some_iff.mp h
  have hposition : position [13, 10, 13, 10] bytes = some i := hend
  obtain ⟨requestLine, lines, hsplit⟩ := List.exists_cons_of_ne_nil (splitCrlf_ne_nil (bytes.take i))
  have hjoined := endLines_splitCrlf (bytes.take i)
  have hwhole := splitCrlf_whole (bytes.take i)
  rw [hsplit] at hjoined hwhole
  simp only [hsplit, List.headD_cons, List.tail_cons]
  have hbytes : (⟨requestLine, lines, bytes.drop (i + 4)⟩ : HeadParts).bytes = bytes := by
    have hfound := position_split hposition
    have hwithEnd := congrArg (· ++ 13 :: 10 :: bytes.drop (i + 4)) hjoined
    simp only [endLines_cons, List.append_assoc] at hwithEnd
    rw [HeadParts.bytes]
    simpa using hwithEnd.trans hfound.symm
  refine ⟨⟨hwhole requestLine List.mem_cons_self, ?_⟩, hbytes⟩
  have hlines : ∀ line ∈ lines, Whole line := fun line hline => hwhole line (List.mem_cons_of_mem _ hline)
  have hlength : i = requestLine.length + (endLines lines).length := by
    have hbound := position_bound hposition
    have hcount := congrArg List.length hjoined
    simp only [endLines_cons, List.length_append, List.length_cons, List.length_nil, List.length_take] at hcount hbound
    omega
  rw [← hbytes, hlength] at hend
  intro line hline
  exact ⟨HeadParts.nonempty_of_headEnd (hwhole requestLine List.mem_cons_self) hlines hend line hline, hlines line hline⟩

/-! ### Names and spellings -/

/-- The name of a header line is what stands before its first colon. -/
def lineName (line : Bytes) : Option Bytes := (position [58] line).map line.take

/-- The spelling the caller asked for; of several the last. -/
def callerSpelling (names : List Bytes) (name : Bytes) : Option Bytes := names.reverse.find? (eqIgnoreAsciiCase name)

/-- The two lines differ at most in the case of their name. -/
def SameButCase (line line' : Bytes) : Prop :=
  match position [58] line with
  | none => line' = line
  | some colon => eqIgnoreAsciiCase (line'.take colon) (line.take colon) = true ∧ line'.drop colon = line.drop colon

structure Respelled (names : List Bytes) (line line' : Bytes) : Prop where
  same : SameButCase line line'
  asked : ∀ name spelling, lineName line = some name → callerSpelling names name = some spelling → lineName line' = some spelling

def isHostLine (line : Bytes) : Bool := (lineName line).any (eqIgnoreAsciiCase (text "host"))

/-- The lines of `Host` come first, unless the caller named it. -/
def hostFirst (names : List Bytes) (lines : List Bytes) : List Bytes :=
  if (callerSpelling names (text "host")).isSome then lines else lines.filter isHostLine ++ lines.filter (!isHostLine ·)

theorem hostFirst_perm (names lines : List Bytes) : (hostFirst names lines).Perm lines := by
  unfold hostFirst
  split
  · exact .refl _
  · exact List.filter_append_perm isHostLine lines

/-- The lossy text of the name is another text of the same length. -/
def garbles (line : Bytes) : Bool :=
  (lineName line).any fun name => (fromUtf8Lossy name).length == name.length && fromUtf8Lossy name != name

theorem lookup_headerSpellings (names : List Bytes) (key : Bytes) :
    (headerSpellings names).lookup key = names.reverse.find? fun name => key == toAsciiLowercase name := by
  induction names using List.reverseRecOn with
  | nil => rfl
  | append_singleton names name ih =>
      rw [headerSpellings, List.foldl_append, List.foldl_cons, List.foldl_nil, List.reverse_append, List.reverse_singleton,
        List.singleton_append, List.find?_cons]
      by_cases hkey : key = toAsciiLowercase name
      · subst hkey
        rw [AList.lookup_insert, beq_self_eq_true]
      · rw [AList.lookup_insert_ne hkey, beq_false_of_ne hkey]
        exact ih

theorem lookup_lowercase (names : List Bytes) (name : Bytes) :
    (headerSpellings names).lookup (toAsciiLowercase name) = callerSpelling names name := lookup_headerSpellings names _

theorem lowercase_of_lookup {names : List Bytes} {key spelling : Bytes} (h : (headerSpellings names).lookup key = some spelling) :
    spelling ∈ names ∧ toAsciiLowercase spelling = key := by
  rw [lookup_headerSpellings] at h
  have hkey := List.find?_some h
  exact ⟨List.mem_reverse.mp (List.mem_of_find?_eq_some h), (beq_iff_eq.mp hkey).symm⟩

theorem asciiLower_asciiUpper (b : UInt8) : asciiLower (asciiUpper b) = asciiLower b := by
  grind [asciiLower, asciiUpper]

theorem lowercase_intercalate (parts : List Bytes) :
    toAsciiLowercase (List.intercalate [45] parts) = List.intercalate [45] (parts.map toAsciiLowercase) := by
  induction parts with
  | nil => rfl
  | cons part rest ih =>
      cases rest with
      | nil => simp [List.intercalate]
      | cons next rest =>
          rw [List.intercalate_cons_cons, toAsciiLowercase_append, toAsciiLowercase_append, ih, List.map_cons, List.map_cons,
            List.map_cons, List.intercalate_cons_cons]
          rfl

theorem lowercase_capital (part : Bytes) : toAsciiLowercase (part.modifyHead asciiUpper) = toAsciiLowercase part := by
  cases part with
  | nil => rfl
  | cons b rest =>
      rw [List.modifyHead_cons, toAsciiLowercase, List.map_cons, asciiLower_asciiUpper]
      rfl

theorem lowercase_defaultSpelling (lower : Bytes) : toAsciiLowercase (pythonDefaultHeaderSpelling lower) = toAsciiLowercase lower := by
  rw [pythonDefaultHeaderSpelling, lowercase_intercalate, List.map_map]
  have hparts : toAsciiLowercase ∘ List.modifyHead asciiUpper = toAsciiLowercase := funext lowercase_capital
  rw [hparts, ← lowercase_intercalate, List.intercalate_splitOn]

/-- The spelling a name gets. -/
def spellingOf (names : List Bytes) (name : Bytes) : Bytes :=
  ((headerSpellings names).lookup (toAsciiLowercase (fromUtf8Lossy name))).getD
    (pythonDefaultHeaderSpelling (toAsciiLowercase (fromUtf8Lossy name)))

theorem lowercase_spellingOf (names : List Bytes) (name : Bytes) :
    toAsciiLowercase (spellingOf names name) = toAsciiLowercase (fromUtf8Lossy name) := by
  unfold spellingOf
  cases hlookup : (headerSpellings names).lookup (toAsciiLowercase (fromUtf8Lossy name)) with
  | none =>
      rw [Option.getD_none, lowercase_defaultSpelling, toAsciiLowercase_idem]
  | some spelling =>
      rw [Option.getD_some]
      exact (lowercase_of_lookup hlookup).2

theorem fromUtf8Lossy_of_spelling {name spelling : Bytes} (hvalid : fromUtf8Lossy spelling = spelling)
    (h : toAsciiLowercase spelling = toAsciiLowercase name) : fromUtf8Lossy name = name := by
  apply fromUtf8Lossy_case
  rw [← fromUtf8Lossy_toAsciiLowercase, ← h, fromUtf8Lossy_toAsciiLowercase, hvalid]

/-! ### One line -/

/-- A header line in its new spelling. -/
def spelled (names : List Bytes) (line : Bytes) : Bytes := (respellHeaderLine (headerSpellings names) line).2

section Line

variable {names : List Bytes} {line : Bytes} {colon : Nat}

theorem spelled_plain (h : position [58] line = none) : spelled names line = line := by
  rw [spelled, respellHeaderLine, h]

theorem spelled_named (h : position [58] line = some colon) :
    spelled names line =
      if (spellingOf names (line.take colon)).length = colon then spellingOf names (line.take colon) ++ line.drop colon else line := by
  rw [spelled, respellHeaderLine, h]
  rfl

theorem take_colon_length (h : position [58] line = some colon) : (line.take colon).length = colon := by
  have hbound := position_bound h
  rw [List.length_take]
  simp only [List.length_cons, List.length_nil] at hbound
  omega

theorem spelled_length (names : List Bytes) (line : Bytes) : (spelled names line).length = line.length := by
  cases h : position [58] line with
  | none => rw [spelled_plain h]
  | some colon =>
      rw [spelled_named h]
      split
      · rename_i hlength
        have hbound := position_bound h
        simp only [List.length_cons, List.length_nil] at hbound
        rw [List.length_append, hlength, List.length_drop]
        omega
      · rfl

theorem garbles_plain (h : position [58] line = none) : garbles line = false := by
  rw [garbles, lineName, h]
  rfl

theorem garbles_named (h : position [58] line = some colon) :
    garbles line = false ↔ (fromUtf8Lossy (line.take colon)).length ≠ colon ∨ fromUtf8Lossy (line.take colon) = line.take colon := by
  rw [garbles, lineName, h, Option.map_some, Option.any_some, Bool.and_eq_false_iff, beq_eq_false_iff_ne, bne_eq_false_iff_eq,
    take_colon_length h]

theorem spellingOf_length (names : List Bytes) (name : Bytes) : (spellingOf names name).length = (fromUtf8Lossy name).length := by
  have hlower := congrArg List.length (lowercase_spellingOf names name)
  simpa using hlower

theorem spelled_cases (names : List Bytes) (h : position [58] line = some colon) (hkeeps : garbles line = false) :
    (fromUtf8Lossy (line.take colon) = line.take colon ∧
      spelled names line = spellingOf names (line.take colon) ++ line.drop colon) ∨
    ((fromUtf8Lossy (line.take colon)).length ≠ colon ∧ spelled names line = line) := by
  rw [spelled_named h, spellingOf_length]
  by_cases hlength : (fromUtf8Lossy (line.take colon)).length = colon
  · left
    exact ⟨((garbles_named h).mp hkeeps).resolve_left (not_not.mpr hlength), if_pos hlength⟩
  · right
    exact ⟨hlength, if_neg hlength⟩

theorem sameButCase_refl (line : Bytes) : SameButCase line line := by
  unfold SameButCase
  split
  · rfl
  · exact ⟨beq_self_eq_true _, rfl⟩

theorem take_spelling (names : List Bytes) (h : position [58] line = some colon) (hvalid : fromUtf8Lossy (line.take colon) = line.take colon)
    (rest : Bytes) : (spellingOf names (line.take colon) ++ rest).take colon = spellingOf names (line.take colon) ∧
      (spellingOf names (line.take colon) ++ rest).drop colon = rest := by
  have hlength : (spellingOf names (line.take colon)).length = colon := by
    rw [spellingOf_length, hvalid, take_colon_length h]
  exact ⟨List.take_left' hlength, List.drop_left' hlength⟩

theorem spelled_sameButCase (hkeeps : garbles line = false) : SameButCase line (spelled names line) := by
  cases h : position [58] line with
  | none =>
      rw [spelled_plain h]
      exact sameButCase_refl line
  | some colon =>
      obtain ⟨hvalid, hspelled⟩ | ⟨-, hspelled⟩ := spelled_cases names h hkeeps
      · obtain ⟨htake, hdrop⟩ := take_spelling names h hvalid (line.drop colon)
        rw [hspelled]
        simp only [SameButCase, h, htake, hdrop, and_true, eqIgnoreAsciiCase_iff, lowercase_spellingOf, hvalid]
      · rw [hspelled]
        exact sameButCase_refl line

theorem not_sameButCase (hgarbles : garbles line = true) : ¬SameButCase line (spelled names line) := by
  cases h : position [58] line with
  | none =>
      rw [garbles_plain h] at hgarbles
      cases hgarbles
  | some colon =>
      have hnot := mt (garbles_named h).mpr (by simp [hgarbles])
      push Not at hnot
      obtain ⟨hlength, hother⟩ := hnot
      intro hsame
      simp only [SameButCase, h, spelled_named h, spellingOf_length, hlength, if_true] at hsame
      have htake : (spellingOf names (line.take colon) ++ line.drop colon).take colon = spellingOf names (line.take colon) :=
        List.take_left' ((spellingOf_length names _).trans hlength)
      rw [htake, eqIgnoreAsciiCase_iff, lowercase_spellingOf] at hsame
      exact hother (fromUtf8Lossy_case hsame.1)

theorem not_mem_of_position {α : Type} [DecidableEq α] {a : α} {s : List α} {i : Nat} (h : position [a] s = some i) :
    ∀ b ∈ s.take i, b ≠ a := by
  induction s generalizing i with
  | nil => cases h
  | cons b rest ih =>
      rw [position] at h
      split at h
      · cases h
        exact fun _ hmem => absurd hmem List.not_mem_nil
      · rename_i hnot
        obtain ⟨j, hj, rfl⟩ := Option.map_eq_some_iff.mp h
        intro c hc
        rw [List.take_succ_cons] at hc
        rcases List.mem_cons.mp hc with rfl | hc
        · rintro rfl
          exact hnot ⟨rest, rfl⟩
        · exact ih hj c hc

theorem position_spelling {spelling : Bytes} (h : position [58] line = some colon)
    (hspelling : toAsciiLowercase spelling = toAsciiLowercase (line.take colon)) :
    position [58] (spelling ++ line.drop colon) = some colon := by
  have hlength : spelling.length = colon := by
    have hcount := congrArg List.length hspelling
    rwa [toAsciiLowercase_length, toAsciiLowercase_length, take_colon_length h] at hcount
  have hplain : ∀ b ∈ spelling, b ≠ 58 := by
    rintro b hb rfl
    have hlower : (58 : UInt8) ∈ toAsciiLowercase (line.take colon) := by
      rw [← hspelling]
      exact List.mem_map.mpr ⟨58, hb, rfl⟩
    obtain ⟨c, hc, hcolon⟩ := List.mem_map.mp hlower
    exact not_mem_of_position h c hc ((asciiLower_eq_iff rfl rfl).mp hcolon)
  have hdrop : line.drop colon = 58 :: line.drop (colon + 1) := by
    have hsplit := congrArg (List.drop colon) (position_split h)
    rwa [List.drop_left' (take_colon_length h)] at hsplit
  rw [position_skip hplain, hdrop, position, if_pos ⟨_, rfl⟩, Option.map_some, Nat.zero_add, hlength]

theorem spelled_asked (hnames : ∀ name ∈ names, isUtf8 name = true) {name spelling : Bytes} (hname : lineName line = some name)
    (hasked : callerSpelling names name = some spelling) : lineName (spelled names line) = some spelling := by
  obtain ⟨colon, h, rfl⟩ := Option.map_eq_some_iff.mp hname
  rw [← lookup_lowercase] at hasked
  obtain ⟨hmem, hlower⟩ := lowercase_of_lookup hasked
  have hvalid := fromUtf8Lossy_of_spelling (fromUtf8Lossy_valid (hnames spelling hmem)) hlower
  have hspelling : spellingOf names (line.take colon) = spelling := by
    rw [spellingOf, hvalid, hasked, Option.getD_some]
  have hlength : spelling.length = colon := by rw [← hspelling, spellingOf_length, hvalid, take_colon_length h]
  rw [spelled_named h, hspelling, if_pos hlength, lineName, position_spelling h hlower, Option.map_some,
    List.take_left' hlength]

theorem respelled_spelled (hnames : ∀ name ∈ names, isUtf8 name = true) (hkeeps : garbles line = false) :
    Respelled names line (spelled names line) :=
  ⟨spelled_sameButCase hkeeps, fun _ _ hname hasked => spelled_asked hnames hname hasked⟩

theorem spelled_spelled (hkeeps : garbles line = false) : spelled names (spelled names line) = spelled names line := by
  cases h : position [58] line with
  | none => rw [spelled_plain h, spelled_plain h]
  | some colon =>
      obtain ⟨hvalid, hspelled⟩ | ⟨-, hspelled⟩ := spelled_cases names h hkeeps
      · have hlower := lowercase_spellingOf names (line.take colon)
        rw [hvalid] at hlower
        have hposition := position_spelling h hlower
        obtain ⟨htake, hdrop⟩ := take_spelling names h hvalid (line.drop colon)
        have hagain : spellingOf names (spellingOf names (line.take colon)) = spellingOf names (line.take colon) := by
          have hkey : toAsciiLowercase (fromUtf8Lossy (spellingOf names (line.take colon))) =
              toAsciiLowercase (fromUtf8Lossy (line.take colon)) := by
            rw [← fromUtf8Lossy_toAsciiLowercase, hlower, fromUtf8Lossy_toAsciiLowercase]
          rw [spellingOf, hkey]
          rfl
        rw [hspelled, spelled_named hposition, htake, hdrop, hagain, ite_self]
      · rw [hspelled, hspelled]

theorem isHostLine_spelled (hkeeps : garbles line = false) : isHostLine (spelled names line) = isHostLine line := by
  cases h : position [58] line with
  | none => rw [spelled_plain h]
  | some colon =>
      obtain ⟨hvalid, hspelled⟩ | ⟨-, hspelled⟩ := spelled_cases names h hkeeps
      · have hlower := lowercase_spellingOf names (line.take colon)
        rw [hvalid] at hlower
        obtain ⟨htake, -⟩ := take_spelling names h hvalid (line.drop colon)
        rw [hspelled, isHostLine, isHostLine, lineName, lineName, position_spelling h hlower, h, Option.map_some, Option.map_some,
          htake, Option.any_some, Option.any_some, eqIgnoreAsciiCase, eqIgnoreAsciiCase, hlower]
      · rw [hspelled]

/-- The code looks for `host` in the lossy text of the name. -/
theorem respellHeaderLine_host (names : List Bytes) (line : Bytes) :
    (respellHeaderLine (headerSpellings names) line).1 = (isHostLine line && (callerSpelling names (text "host")).isNone) := by
  cases h : position [58] line with
  | none =>
      rw [respellHeaderLine, h, isHostLine, lineName, h]
      rfl
  | some colon =>
      rw [respellHeaderLine, h, isHostLine, lineName, h, ← lookup_lowercase]
      show (toAsciiLowercase (fromUtf8Lossy (line.take colon)) == text "host" &&
        ((headerSpellings names).lookup (text "host")).isNone) = _
      congr 1
      rw [Option.map_some, Option.any_some, Bool.eq_iff_iff, beq_iff_eq, eqIgnoreAsciiCase_iff]
      have hhost : toAsciiLowercase (text "host") = text "host" := by decide
      rw [hhost]
      constructor
      · intro hlower
        have hascii : ∀ b ∈ fromUtf8Lossy (line.take colon), b < 128 := by
          intro b hb
          have hmem : asciiLower b ∈ text "host" := by
            rw [← hlower]
            exact List.mem_map_of_mem hb
          have hsmall : (text "host").all (· < 128) = true := by decide
          by_contra hwide
          have hsame := (asciiLower_wide b).1 (UInt8.not_lt.mp hwide)
          rw [hsame] at hmem
          exact hwide (of_decide_eq_true (List.all_eq_true.mp hsmall b hmem))
        rw [← hlower, fromUtf8Lossy_ascii hascii]
      · intro hlower
        have hvalid : fromUtf8Lossy (text "host") = text "host" := by decide
        rw [← fromUtf8Lossy_toAsciiLowercase, ← hlower, hvalid]

end Line

/-! ### The head -/

section Head

variable {names : List Bytes} {parts : HeadParts}

theorem respellHeaderLines_endLines (spellings : KeyMap Bytes Bytes) {lines : List Bytes}
    (h : ∀ line ∈ lines, line ≠ [] ∧ Whole line) :
    respellHeaderLines spellings (endLines lines) = lines.map (respellHeaderLine spellings) := by
  induction lines with
  | nil =>
      rw [respellHeaderLines]
      rfl
  | cons line lines ih =>
      obtain ⟨hne, hwhole⟩ := h line List.mem_cons_self
      have hpos : 0 < line.length := List.length_pos_of_ne_nil hne
      have hlong : ¬(endLines (line :: lines)).length ≤ 2 := by
        simp only [endLines_cons, List.length_append, List.length_cons]
        omega
      have hfound : position (text "\r\n") (endLines (line :: lines)) = some line.length := by
        rw [endLines_cons]
        exact position_whole hwhole _
      have hrest : (endLines (line :: lines)).drop (line.length + 2) = endLines lines := by
        rw [endLines_cons, ← List.drop_drop, List.drop_left]
        rfl
      have htake : (endLines (line :: lines)).take line.length = line := by rw [endLines_cons, List.take_left]
      rw [respellHeaderLines, if_neg hlong, hfound]
      simp only
      rw [htake, hrest, ih fun other hother => h other (List.mem_cons_of_mem _ hother), List.map_cons]

theorem position_requestLine (h : parts.Sound) (hlines : parts.headerLines ≠ []) :
    position (text "\r\n") (parts.bytes.take (parts.requestLine.length + (endLines parts.headerLines).length)) =
      some parts.requestLine.length := by
  obtain ⟨s, hs⟩ := endLines_ends hlines
  have htaken : parts.bytes.take (parts.requestLine.length + (endLines parts.headerLines).length) =
      parts.requestLine ++ 13 :: 10 :: s := by
    have hcut := parts.take_bytes.1
    conv_rhs at hcut => rw [endLines_cons, hs]
    refine List.append_cancel_right (hcut.trans ?_)
    rw [List.append_assoc]
    rfl
  rw [htaken]
  exact position_whole h.requestLine s

theorem written_order (names lines : List Bytes) :
    (((lines.map (respellHeaderLine (headerSpellings names))).filter (·.1)).map (·.2)) ++
      (((lines.map (respellHeaderLine (headerSpellings names))).filter (!·.1)).map (·.2)) =
        (hostFirst names lines).map (spelled names) := by
  have hhost := respellHeaderLine_host names
  rw [List.filter_map, List.filter_map, List.map_map, List.map_map, ← List.map_append]
  show (_ : List Bytes).map (spelled names) = _
  congr 1
  unfold hostFirst
  cases hcaller : callerSpelling names (text "host") with
  | none =>
      rw [hcaller] at hhost
      simp only [Option.isNone_none, Bool.and_true] at hhost
      simp only [Function.comp_def, hhost, Option.isSome_none, Bool.false_eq_true, if_false]
  | some spelling =>
      rw [hcaller] at hhost
      simp only [Option.isNone_some, Bool.and_false] at hhost
      simp [Function.comp_def, hhost]

theorem rewrite_parts (state : ResponseHeadState) (names : List Bytes) (h : parts.Sound) (hlines : parts.headerLines ≠ []) :
    (state.begin (some names)).rewritePythonRequestHead parts.bytes =
      { parts with headerLines := (hostFirst names parts.headerLines).map (spelled names) : HeadParts }.bytes := by
  have hend : position (text "\r\n\r\n") parts.bytes =
      some (parts.requestLine.length + (endLines parts.headerLines).length) := HeadParts.headEnd_bytes h
  have hfirst := position_requestLine h hlines
  have htail := parts.take_bytes.2
  have hregion : (parts.bytes.take (parts.requestLine.length + (endLines parts.headerLines).length + 2)).drop
      (parts.requestLine.length + 2) = endLines parts.headerLines := by
    have hsplit : parts.bytes = (parts.requestLine ++ [13, 10]) ++ (endLines parts.headerLines ++ 13 :: 10 :: parts.rest) := by
      rw [HeadParts.bytes, List.append_assoc]
      rfl
    have hlength : (parts.requestLine ++ [13, 10]).length = parts.requestLine.length + 2 := by simp
    rw [List.drop_take, hsplit, List.drop_left' hlength]
    exact List.take_left' (by omega)
  have hrequest : parts.bytes.take parts.requestLine.length = parts.requestLine := List.take_left
  unfold rewritePythonRequestHead
  simp only [begin, Option.map_some, hend, hfirst, htail, hregion, hrequest, respellHeaderLines_endLines _ h.headerLines]
  rw [HeadParts.bytes, ← written_order, endLines_append]
  simp only [List.append_assoc]
  rfl

theorem whole_of_lowercase {line line' : Bytes} (h : toAsciiLowercase line' = toAsciiLowercase line) (hwhole : Whole line) :
    Whole line' := by
  induction line generalizing line' with
  | nil =>
      obtain rfl := List.map_eq_nil_iff.mp h
      exact hwhole
  | cons b line ih =>
      obtain ⟨b', line', rfl, hb, hline⟩ := List.map_eq_cons_iff.mp h
      refine whole_cons (ih hline hwhole.tail) ?_
      rintro rest hcrlf
      obtain ⟨rfl, rfl⟩ := List.cons.inj hcrlf
      obtain rfl : b = 13 := (asciiLower_eq_iff rfl rfl).mp hb.symm
      cases line with
      | nil => cases hline
      | cons c line =>
          obtain rfl : c = 10 := (asciiLower_eq_iff rfl rfl).mp (List.cons.inj hline).1.symm
          exact hwhole.not_crlf rfl

theorem SameButCase.lowercase {line line' : Bytes} (h : SameButCase line line') : toAsciiLowercase line' = toAsciiLowercase line := by
  unfold SameButCase at h
  split at h
  · rw [h]
  · rename_i colon _
    rw [eqIgnoreAsciiCase_iff] at h
    rw [← List.take_append_drop colon line', ← List.take_append_drop colon line, toAsciiLowercase_append,
      toAsciiLowercase_append, h.1, h.2]

theorem sound_rewritten (names : List Bytes) (h : parts.Sound) (hkeeps : ∀ line ∈ parts.headerLines, garbles line = false) :
    { parts with headerLines := (hostFirst names parts.headerLines).map (spelled names) : HeadParts }.Sound := by
  refine ⟨h.requestLine, ?_⟩
  intro line' hline'
  obtain ⟨line, hline, rfl⟩ := List.mem_map.mp hline'
  have hmem : line ∈ parts.headerLines := (hostFirst_perm names parts.headerLines).mem_iff.mp hline
  obtain ⟨hne, hwhole⟩ := h.headerLines line hmem
  refine ⟨?_, whole_of_lowercase (spelled_sameButCase (hkeeps line hmem)).lowercase hwhole⟩
  rw [← List.length_pos_iff, spelled_length]
  exact List.length_pos_of_ne_nil hne

theorem hostFirst_rewritten (names : List Bytes) {lines : List Bytes} (hkeeps : ∀ line ∈ lines, garbles line = false) :
    hostFirst names ((hostFirst names lines).map (spelled names)) = (hostFirst names lines).map (spelled names) := by
  unfold hostFirst
  split
  · rfl
  · have hhost : ∀ line ∈ lines, isHostLine (spelled names line) = isHostLine line := fun line hline =>
      isHostLine_spelled (hkeeps line hline)
    have hfirst : ((lines.filter isHostLine).map (spelled names)).filter isHostLine =
        (lines.filter isHostLine).map (spelled names) := by
      rw [List.filter_eq_self]
      intro line' hline'
      obtain ⟨line, hline, rfl⟩ := List.mem_map.mp hline'
      obtain ⟨hmem, hyes⟩ := List.mem_filter.mp hline
      rw [hhost line hmem, hyes]
    have hother : ((lines.filter (!isHostLine ·)).map (spelled names)).filter (!isHostLine ·) =
        (lines.filter (!isHostLine ·)).map (spelled names) := by
      rw [List.filter_eq_self]
      intro line' hline'
      obtain ⟨line, hline, rfl⟩ := List.mem_map.mp hline'
      obtain ⟨hmem, hno⟩ := List.mem_filter.mp hline
      rw [hhost line hmem, hno]
    have hnone : ((lines.filter (!isHostLine ·)).map (spelled names)).filter isHostLine = [] := by
      rw [List.filter_eq_nil_iff]
      intro line' hline'
      have hno := (List.filter_eq_self.mp hother) line' hline'
      simpa using hno
    have hall : ((lines.filter isHostLine).map (spelled names)).filter (!isHostLine ·) = [] := by
      rw [List.filter_eq_nil_iff]
      intro line' hline'
      have hyes := (List.filter_eq_self.mp hfirst) line' hline'
      simpa using hyes
    rw [List.map_append, List.filter_append, List.filter_append, hfirst, hnone, hall, hother, List.append_nil, List.nil_append]

theorem endLines_length (lines : List Bytes) : (endLines lines).length = (lines.map (·.length + 2)).sum := by
  rw [endLines, List.length_flatMap]
  congr 1
  exact List.map_congr_left fun line _ => List.length_append

theorem endLines_length_spelled (names lines : List Bytes) :
    (endLines ((hostFirst names lines).map (spelled names))).length = (endLines lines).length := by
  rw [endLines_length, endLines_length, List.map_map]
  have hlengths : ((fun line : Bytes => line.length + 2) ∘ spelled names) = fun line => line.length + 2 :=
    funext fun line => congrArg (· + 2) (spelled_length names line)
  rw [hlengths]
  exact ((hostFirst_perm names lines).map _).sum_nat

end Head

/-- What a rewritten request has in common with the request. -/
structure OnlyNamesChange (state : ResponseHeadState) (names : List Bytes) (bytes : Bytes) (parts : HeadParts) : Prop where
  /-- Request line and body are as they were, and the header lines are the same lines, those of `Host` first unless
  the caller named it, with names in the spelling that was asked for. -/
  lines : ∃ lines, headParts ((state.begin (some names)).rewritePythonRequestHead bytes) =
      some { parts with headerLines := lines } ∧
    (hostFirst names parts.headerLines).Perm parts.headerLines ∧
    List.Forall₂ (Respelled names) (hostFirst names parts.headerLines) lines
  length : ((state.begin (some names)).rewritePythonRequestHead bytes).length = bytes.length
  twice : (state.begin (some names)).rewritePythonRequestHead ((state.begin (some names)).rewritePythonRequestHead bytes) =
    (state.begin (some names)).rewritePythonRequestHead bytes

theorem endLines_inj_length {lines lines' : List Bytes} (h : List.Forall₂ (fun line line' => line.length = line'.length) lines lines')
    (heq : endLines lines = endLines lines') : lines = lines' := by
  induction h with
  | nil => rfl
  | cons hlength _ ih =>
      rw [endLines_cons, endLines_cons] at heq
      obtain ⟨rfl, htail⟩ := List.append_inj heq hlength
      rw [ih (List.cons.inj (List.cons.inj htail).2).2]

section Request

variable {state : ResponseHeadState} {names : List Bytes} {parts : HeadParts}

theorem keeps_of_onlyNamesChange (hsound : parts.Sound) (hlines : parts.headerLines ≠ [])
    (h : OnlyNamesChange state names parts.bytes parts) : ∀ line ∈ parts.headerLines, garbles line = false := by
  obtain ⟨⟨lines, hafter, -, hrespelled⟩, -, -⟩ := h
  have hlengths : List.Forall₂ (fun line line' => line.length = line'.length) lines
      ((hostFirst names parts.headerLines).map (spelled names)) := by
    rw [List.forall₂_map_right_iff]
    refine (hrespelled.imp fun line line' h => ?_).flip
    have hlower := congrArg List.length h.same.lowercase
    show line'.length = (spelled names line).length
    rw [spelled_length]
    simpa using hlower
  have hsame : lines = (hostFirst names parts.headerLines).map (spelled names) := by
    have hbytes := (bytes_of_headParts hafter).2.trans (rewrite_parts state names hsound hlines)
    have hbehind := List.append_cancel_left hbytes
    exact endLines_inj_length hlengths (List.append_cancel_right (List.cons.inj (List.cons.inj hbehind).2).2)
  rw [hsame, List.forall₂_map_right_iff, List.forall₂_same] at hrespelled
  intro line hline
  have hline' := hrespelled line ((hostFirst_perm names parts.headerLines).mem_iff.mpr hline)
  by_contra hgarbles
  exact not_sameButCase (by simpa using hgarbles) hline'.same

theorem onlyNamesChange_of_keeps (hnames : ∀ name ∈ names, isUtf8 name = true) (hsound : parts.Sound)
    (hlines : parts.headerLines ≠ []) (hkeeps : ∀ line ∈ parts.headerLines, garbles line = false) :
    OnlyNamesChange state names parts.bytes parts := by
  have hrewrite := rewrite_parts state names hsound hlines
  have hsound' := sound_rewritten names hsound hkeeps
  have hperm := hostFirst_perm names parts.headerLines
  have hne : (hostFirst names parts.headerLines).map (spelled names) ≠ [] := by
    rw [← List.length_pos_iff, List.length_map, hperm.length_eq]
    exact List.length_pos_of_ne_nil hlines
  refine ⟨⟨(hostFirst names parts.headerLines).map (spelled names), ?_, hperm, ?_⟩, ?_, ?_⟩
  · rw [hrewrite, HeadParts.headParts_bytes hsound']
  · rw [List.forall₂_map_right_iff, List.forall₂_same]
    exact fun line hline => respelled_spelled hnames (hkeeps line (hperm.mem_iff.mp hline))
  · rw [hrewrite]
    simp only [HeadParts.bytes, List.length_append, List.length_cons, endLines_length_spelled]
  · have hagain := rewrite_parts state names hsound' hne
    rw [hostFirst_rewritten names hkeeps, List.map_map] at hagain
    have hspelled : (hostFirst names parts.headerLines).map (spelled names ∘ spelled names) =
        (hostFirst names parts.headerLines).map (spelled names) :=
      List.map_congr_left fun line hline => spelled_spelled (hkeeps line (hperm.mem_iff.mp hline))
    rw [hrewrite, hagain, hspelled]

end Request

/-- The rewriting changes nothing but the case of names and the place of `Host` exactly if no header name is broken UTF-8
whose lossy text has the same length. -/
theorem rewrite_changes_names_iff (state : ResponseHeadState) {names : List Bytes} (hnames : ∀ name ∈ names, isUtf8 name = true)
    {bytes : Bytes} {parts : HeadParts} (hparts : headParts bytes = some parts) (hlines : parts.headerLines ≠ []) :
    OnlyNamesChange state names bytes parts ↔ ∀ line ∈ parts.headerLines, garbles line = false := by
  obtain ⟨hsound, rfl⟩ := bytes_of_headParts hparts
  constructor
  · exact keeps_of_onlyNamesChange hsound hlines
  · exact onlyNamesChange_of_keeps hnames hsound hlines

/-- `Host` comes first and a name gets the spelling of the caller. -/
theorem rewrite_changes_names_host :
    (({} : ResponseHeadState).begin (some [text "X-TRACE"])).rewritePythonRequestHead
        (text "GET / HTTP/1.1\r\nx-trace: 1\r\nhost: a\r\n\r\nbody") =
      text "GET / HTTP/1.1\r\nHost: a\r\nX-TRACE: 1\r\n\r\nbody" ∧
    OnlyNamesChange {} [text "X-TRACE"] (text "GET / HTTP/1.1\r\nx-trace: 1\r\nhost: a\r\n\r\nbody")
      ⟨text "GET / HTTP/1.1", [text "x-trace: 1", text "host: a"], text "body"⟩ :=
  ⟨by decide +kernel, (rewrite_changes_names_iff {} (by decide +kernel) (by decide +kernel) (by decide)).mpr (by decide +kernel)⟩

/-- A truncated character of three bytes, as the name of a header. -/
private def garbledRequest : HeadParts := ⟨text "GET / HTTP/1.1", [[0xF0, 0x90, 0x80] ++ text ": 1"], []⟩

/-- The three bytes of the name are replaced by those of U+FFFD. -/
theorem rewrite_garbles_name : headParts garbledRequest.bytes = some garbledRequest ∧ garbledRequest.headerLines ≠ [] ∧
    (({} : ResponseHeadState).begin (some [])).rewritePythonRequestHead garbledRequest.bytes =
      text "GET / HTTP/1.1\r\n" ++ [0xEF, 0xBF, 0xBD] ++ text ": 1\r\n\r\n" ∧
    ¬OnlyNamesChange {} [] garbledRequest.bytes garbledRequest := by
  have hparts : headParts garbledRequest.bytes = some garbledRequest := by decide
  have hlines : garbledRequest.headerLines ≠ [] := by decide
  refine ⟨hparts, hlines, by decide +kernel, ?_⟩
  intro h
  have hkeeps := keeps_of_onlyNamesChange (bytes_of_headParts hparts).1 hlines h
  have hgarbles : garbles ([0xF0, 0x90, 0x80] ++ text ": 1") = true := by decide
  rw [hkeeps _ List.mem_cons_self] at hgarbles
  cases hgarbles

end RequestsNative.Transport
