import Mathlib.Data.List.Forall2
import RequestsNative.Lib.Lines

/-!
# Message heads

A head is some blank lines, a first line, header lines and a blank line. What the texts of these lines mean is
left to a `LineSyntax`. `readHead` reads a head off the front of a byte string, and `Layout` is a head as
it was written, with the line end of each of its lines; the two describe the same set of heads
(`readHead_layout`, `exists_layout`).
-/

namespace RequestsNative.Lib

structure LineSyntax (Status Header : Type) where
  status : List UInt8 → Option Status
  header : List UInt8 → Option Header
  /-- A head with more header lines is refused. -/
  maxHeaders : Nat
  status_plain : ∀ {line found}, status line = some found → Plain line ∧ line ≠ []
  header_plain : ∀ {line found}, header line = some found → Plain line ∧ line ≠ []

namespace LineSyntax

variable {Status Header : Type} (lines : LineSyntax Status Header)

/-- Read header lines up to the blank one, with room for `room` of them. -/
def headerLines (room : Nat) (s : List UInt8) : Option (List Header × List UInt8) :=
  match lineAt s with
  | none => none
  | some (line, rest) =>
      if line.text = [] then some ([], rest)
      else
        match room with
        | 0 => none
        | room + 1 =>
            match lines.header line.text with
            | none => none
            | some header => (headerLines room rest).map fun r => (header :: r.1, r.2)

/-- Read a head; the last component is what follows it. -/
def readHead (s : List UInt8) : Option (Status × List Header × List UInt8) :=
  match lineAt (skipBlanks s) with
  | none => none
  | some (line, rest) =>
      match lines.status line.text with
      | none => none
      | some status => (lines.headerLines lines.maxHeaders rest).map fun r => (status, r.1, r.2)

end LineSyntax

/-- A head as it was written. -/
structure Layout where
  blanks : List LineEnd
  status : Line
  headers : List Line
  last : LineEnd
  deriving DecidableEq, Repr

namespace Layout

def bytes (layout : Layout) : List UInt8 :=
  renderEnds layout.blanks ++ (layout.status.bytes ++ (renderLines layout.headers ++ layout.last.bytes))

/-- The layout is a head of the syntax, with this meaning. -/
structure Means {Status Header : Type} (layout : Layout) (lines : LineSyntax Status Header) (status : Status)
    (headers : List Header) : Prop where
  statusText : lines.status layout.status.text = some status
  headerTexts : List.Forall₂ (fun line header => lines.header line.text = some header) layout.headers headers
  room : headers.length ≤ lines.maxHeaders

theorem bytes_pos (layout : Layout) : 0 < layout.bytes.length := by
  have hlast : 0 < layout.last.bytes.length := by cases layout.last <;> decide
  simp only [bytes, List.length_append]
  omega

end Layout

variable {Status Header : Type} {lines : LineSyntax Status Header}

theorem line_of_header {written : List Line} {headers : List Header}
    (h : List.Forall₂ (fun line header => lines.header line.text = some header) written headers)
    {header : Header} (hmem : header ∈ headers) : ∃ line ∈ written, lines.header line.text = some header := by
  induction h with
  | nil => cases hmem
  | cons hfirst _ ih =>
      rcases List.mem_cons.mp hmem with rfl | hmem
      · exact ⟨_, List.mem_cons_self, hfirst⟩
      · obtain ⟨line, hline, hread⟩ := ih hmem
        exact ⟨line, List.mem_cons_of_mem _ hline, hread⟩

theorem plain_of_headers {written : List Line} {headers : List Header}
    (h : List.Forall₂ (fun line header => lines.header line.text = some header) written headers)
    {line : Line} (hmem : line ∈ written) : Plain line.text ∧ line.text ≠ [] := by
  induction h with
  | nil => cases hmem
  | cons hfirst _ ih =>
      rcases List.mem_cons.mp hmem with rfl | hmem
      · exact lines.header_plain hfirst
      · exact ih hmem

/-! ### Reading what was written -/

theorem headerLines_render {written : List Line} {headers : List Header}
    (h : List.Forall₂ (fun line header => lines.header line.text = some header) written headers)
    {room : Nat} (hroom : headers.length ≤ room) (last : LineEnd) (rest : List UInt8) :
    lines.headerLines room (renderLines written ++ last.bytes ++ rest) = some (headers, rest) := by
  induction h generalizing room with
  | nil =>
      have hline : lineAt (last.bytes ++ rest) = some (⟨[], last⟩, rest) :=
        lineAt_bytes (show Plain (⟨[], last⟩ : Line).text from fun _ h => by cases h) rest
      rw [LineSyntax.headerLines.eq_def, renderLines, List.flatMap_nil, List.nil_append, hline]
      rfl
  | @cons line header written headers hheader _ ih =>
      obtain ⟨hplain, htext⟩ := lines.header_plain hheader
      obtain ⟨room, rfl⟩ : ∃ smaller, room = smaller + 1 := by
        rw [List.length_cons] at hroom
        exact ⟨room - 1, by omega⟩
      have htail := ih (Nat.le_of_succ_le_succ hroom)
      have hline : lineAt (renderLines (line :: written) ++ last.bytes ++ rest) =
          some (line, renderLines written ++ last.bytes ++ rest) := by
        rw [renderLines, List.flatMap_cons, List.append_assoc, List.append_assoc]
        rw [lineAt_bytes hplain, List.append_assoc]
        rfl
      rw [LineSyntax.headerLines.eq_def, hline]
      simp only [if_neg htext, hheader, htail, Option.map_some]

theorem readHead_layout {layout : Layout} {status : Status} {headers : List Header}
    (h : layout.Means lines status headers) (rest : List UInt8) :
    lines.readHead (layout.bytes ++ rest) = some (status, headers, rest) := by
  obtain ⟨hplain, htext⟩ := lines.status_plain h.statusText
  have hbytes : layout.bytes ++ rest = renderEnds layout.blanks ++ (layout.status.text ++
      (layout.status.lineEnd.bytes ++ (renderLines layout.headers ++ layout.last.bytes ++ rest))) := by
    simp only [Layout.bytes, Line.bytes, List.append_assoc]
  have hline : lineAt (skipBlanks (layout.bytes ++ rest)) =
      some (layout.status, renderLines layout.headers ++ layout.last.bytes ++ rest) := by
    rw [hbytes, skipBlanks_ends, skipBlanks_text hplain htext, ← List.append_assoc]
    exact lineAt_bytes hplain _
  simp only [LineSyntax.readHead, hline, h.statusText, headerLines_render h.headerTexts h.room, Option.map_some]

/-! ### What was read was written -/

theorem exists_headerLines {room : Nat} {s rest : List UInt8} {headers : List Header}
    (h : lines.headerLines room s = some (headers, rest)) :
    ∃ written last, s = renderLines written ++ LineEnd.bytes last ++ rest ∧
      List.Forall₂ (fun line header => lines.header line.text = some header) written headers ∧
      headers.length ≤ room := by
  induction room generalizing s headers with
  | zero =>
      rw [LineSyntax.headerLines.eq_def] at h
      split at h
      · cases h
      · rename_i line tail hline
        split at h
        · rename_i hblank
          cases h
          refine ⟨[], line.lineEnd, ?_, .nil, Nat.le_refl _⟩
          rw [lineAt_split hline, Line.bytes, hblank]
          rfl
        · cases h
  | succ room ih =>
      rw [LineSyntax.headerLines.eq_def] at h
      split at h
      · cases h
      · rename_i line tail hline
        split at h
        · rename_i hblank
          cases h
          refine ⟨[], line.lineEnd, ?_, .nil, Nat.zero_le _⟩
          rw [lineAt_split hline, Line.bytes, hblank]
          rfl
        · simp only at h
          split at h
          · cases h
          · rename_i header hheader
            obtain ⟨⟨headers', rest'⟩, hrest, heq⟩ := Option.map_eq_some_iff.mp h
            obtain ⟨rfl, rfl⟩ := Prod.mk.inj heq
            obtain ⟨written, last, htail, hforall, hle⟩ := ih hrest
            refine ⟨line :: written, last, ?_, .cons hheader hforall, Nat.succ_le_succ hle⟩
            rw [lineAt_split hline, htail, renderLines, renderLines, List.flatMap_cons]
            simp only [List.append_assoc]

theorem exists_layout {s rest : List UInt8} {status : Status} {headers : List Header}
    (h : lines.readHead s = some (status, headers, rest)) :
    ∃ layout : Layout, s = layout.bytes ++ rest ∧ layout.Means lines status headers := by
  unfold LineSyntax.readHead at h
  split at h
  · cases h
  · rename_i line tail hline
    split at h
    · cases h
    · rename_i found hstatus
      obtain ⟨⟨headers', rest'⟩, hread, heq⟩ := Option.map_eq_some_iff.mp h
      simp only [Prod.mk.injEq] at heq
      obtain ⟨rfl, rfl, rfl⟩ := heq
      obtain ⟨written, last, htail, hforall, hroom⟩ := exists_headerLines hread
      obtain ⟨ends, hends⟩ := skipBlanks_split s
      refine ⟨⟨ends, line, written, last⟩, ?_, hstatus, hforall, hroom⟩
      rw [hends, lineAt_split hline, htail]
      simp only [Layout.bytes, List.append_assoc]

/-! ### Lines that are not header lines of a head -/

/-- Reading stops at the first blank line and takes every line before it for a header. -/
theorem headerLines_length {written : List Line} (h : ∀ line ∈ written, Plain line.text ∧ line.text ≠ [])
    {room : Nat} {last : LineEnd} {s rest : List UInt8} {headers : List Header}
    (hread : lines.headerLines room (renderLines written ++ last.bytes ++ s) = some (headers, rest)) :
    headers.length = written.length ∧ rest = s := by
  induction written generalizing room headers with
  | nil =>
      have hline : lineAt (last.bytes ++ s) = some (⟨[], last⟩, s) :=
        lineAt_bytes (show Plain (⟨[], last⟩ : Line).text from fun _ h => by cases h) s
      rw [LineSyntax.headerLines.eq_def, renderLines, List.flatMap_nil, List.nil_append, hline] at hread
      cases hread
      exact ⟨rfl, rfl⟩
  | cons line written ih =>
      obtain ⟨hplain, htext⟩ := h line List.mem_cons_self
      have hline : lineAt (renderLines (line :: written) ++ last.bytes ++ s) =
          some (line, renderLines written ++ last.bytes ++ s) := by
        rw [renderLines, List.flatMap_cons, List.append_assoc, List.append_assoc, lineAt_bytes hplain,
          List.append_assoc]
        rfl
      rw [LineSyntax.headerLines.eq_def, hline] at hread
      simp only [if_neg htext] at hread
      split at hread
      · cases hread
      · split at hread
        · cases hread
        · obtain ⟨⟨tail, left⟩, htail, heq⟩ := Option.map_eq_some_iff.mp hread
          obtain ⟨rfl, rfl⟩ := Prod.mk.inj heq
          obtain ⟨hlength, hrest⟩ := ih (fun l hl => h l (List.mem_cons_of_mem _ hl)) htail
          exact ⟨congrArg Nat.succ hlength, hrest⟩

end RequestsNative.Lib
