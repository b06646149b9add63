import RequestsNative.Transport.Httparse

/-!
# What normalising a response head keeps

`take_normalized_python_response` writes the headers of the final head anew and keeps its status line as the
bytes up to the first CR LF. The parser accepts heads in which the first CR LF ends another line, so the
result is the same response exactly when the first CR LF of the head ends its status line.
-/

namespace RequestsNative.Transport

open RequestsNative.Lib

namespace ResponseHeadState

/-! ### The final head -/

theorem findFinalHead_parse {parser : HeadParser} {captured : Bytes} {from_ start : Nat} {parsed : ParsedResponseHead}
    (h : findFinalHead parser captured from_ = some (start, parsed)) :
    parsedResponseHead parser (captured.drop start) = some parsed ∧ isInterim parsed.status = false := by
  fun_induction findFinalHead parser captured from_ with
  | case1 from_ hparse => cases h
  | case2 from_ found hparse hinterim ih => exact ih h
  | case3 from_ found hparse hfinal =>
      obtain ⟨rfl, rfl⟩ := Prod.mk.inj (Option.some.inj h)
      exact ⟨hparse, by simpa using hfinal⟩

/-- The bytes of the head that was found. -/
def headBytes (captured : Bytes) (start consumed : Nat) : Bytes := (captured.take (start + consumed)).drop start

theorem takeNormalized_inspect {parser : HeadParser} {state : ResponseHeadState} {start : Nat}
    {parsed : ParsedResponseHead} (hfinal : findFinalHead parser state.captured 0 = some (start, parsed))
    (hnormal : parsed.contentLengthNormalization ≠ .none) :
    (takeNormalizedPythonResponse (inspectCompleteResponseHead parser state)).1 =
      (normalizedHead parsed.contentLengthNormalization parsed.rawHeaders
        (headBytes state.captured start parsed.consumed)).map fun head =>
          state.captured.take start ++ head ++ state.captured.drop (start + parsed.consumed) := by
  simp only [inspectCompleteResponseHead, hfinal, takeNormalizedPythonResponse, Bool.false_eq_true, if_false, headBytes]

/-! ### The headers that are written -/

def sentinel : RawHeader := (text "Content-Length", text "9223372036854775807")

def withoutContentLength (headers : List RawHeader) : List RawHeader :=
  headers.filter fun header => !isContentLength header.1

theorem withoutContentLength_cons (header : RawHeader) (rest : List RawHeader) :
    withoutContentLength (header :: rest) =
      if isContentLength header.1 then withoutContentLength rest else header :: withoutContentLength rest := by
  rw [withoutContentLength, List.filter_cons]
  by_cases hlength : isContentLength header.1 = true <;> simp [hlength, withoutContentLength]

/-- The first `Content-Length` gives way to the sentinel, the others go. -/
def withSentinel : List RawHeader → List RawHeader
  | [] => []
  | header :: rest =>
      if isContentLength header.1 then sentinel :: withoutContentLength rest else header :: withSentinel rest

def normalizedHeaders : ContentLengthNormalization → List RawHeader → List RawHeader
  | .none, headers => headers
  | .ignore, headers => withoutContentLength headers
  | .overflow, headers => withSentinel headers

/-- A header line in canonical form. -/
def canonicalLine (header : RawHeader) : Line := ⟨header.1 ++ text ": " ++ header.2, .crlf⟩

theorem normalizedHeaderLines_without (normalization : ContentLengthNormalization) (wroteOverflow : Bool)
    (hskip : normalization = .overflow → wroteOverflow = true) (headers : List RawHeader) :
    normalizedHeaderLines normalization wroteOverflow headers =
      renderLines ((withoutContentLength headers).map canonicalLine) := by
  induction headers with
  | nil => rfl
  | cons header rest ih =>
      obtain ⟨name, value⟩ := header
      have hkept : ¬(normalization = .overflow ∧ wroteOverflow = false) := by simpa using hskip
      rw [normalizedHeaderLines, withoutContentLength_cons, ih, if_neg hkept]
      split <;> rfl

theorem normalizedHeaderLines_eq {normalization : ContentLengthNormalization} (hnormal : normalization ≠ .none)
    (headers : List RawHeader) :
    normalizedHeaderLines normalization false headers =
      renderLines ((normalizedHeaders normalization headers).map canonicalLine) := by
  cases normalization with
  | none => exact absurd rfl hnormal
  | ignore => exact normalizedHeaderLines_without .ignore false (by simp) headers
  | overflow =>
      induction headers with
      | nil => rfl
      | cons header rest ih =>
          obtain ⟨name, value⟩ := header
          unfold normalizedHeaderLines
          split
          · rename_i hlength
            rw [if_pos ⟨rfl, rfl⟩, normalizedHeaderLines_without .overflow true (fun _ => rfl)]
            simp only [normalizedHeaders, withSentinel, hlength, if_true]
            rfl
          · rename_i hlength
            rw [ih]
            simp only [normalizedHeaders, withSentinel, hlength, Bool.false_eq_true, if_false]
            rfl

/-! ### The first CR LF of a head -/

/-- After leading bare line feeds stands a line that is not empty and ends in CR LF. -/
def statusLineFirst (head : Bytes) : Bool :=
  match lineAt (head.dropWhile (· == 10)) with
  | some (line, _) => line.lineEnd == .crlf && line.text != []
  | none => false

theorem normalizedHead_kept {normalization : ContentLengthNormalization} (hnormal : normalization ≠ .none)
    (headers : List RawHeader) {kept : Bytes} (hkept : ∀ b ∈ kept, b ≠ 13) (rest : Bytes) :
    normalizedHead normalization headers (kept ++ 13 :: 10 :: rest) =
      some (kept ++ [13, 10] ++ renderLines ((normalizedHeaders normalization headers).map canonicalLine) ++ [13, 10]) := by
  have hposition : position (text "\r\n") (kept ++ 13 :: 10 :: rest) = some kept.length := position_crlf hkept rest
  have htake : (kept ++ 13 :: 10 :: rest).take (kept.length + 2) = kept ++ [13, 10] := by
    rw [List.take_append, List.take_of_length_le (by omega), Nat.add_sub_cancel_left]
    rfl
  rw [← normalizedHeaderLines_eq hnormal]
  cases normalization with
  | none => exact absurd rfl hnormal
  | ignore => simp only [normalizedHead, hposition, Option.map_some, htake]; rfl
  | overflow => simp only [normalizedHead, hposition, Option.map_some, htake]; rfl

theorem normalizedHead_none {normalization : ContentLengthNormalization} (hnormal : normalization ≠ .none)
    (headers : List RawHeader) {head : Bytes} (hhead : ∀ b ∈ head, b ≠ 13) :
    normalizedHead normalization headers head = none := by
  have hposition : position (text "\r\n") head = none := position_crlf_none hhead
  cases normalization with
  | none => exact absurd rfl hnormal
  | ignore => simp only [normalizedHead, hposition, Option.map_none]
  | overflow => simp only [normalizedHead, hposition, Option.map_none]

theorem renderEnds_noCr {ends : List LineEnd} (h : ∀ e ∈ ends, e = .lf) : ∀ b ∈ renderEnds ends, b ≠ 13 := by
  intro b hb
  obtain ⟨e, he, hmem⟩ := List.mem_flatMap.mp hb
  rw [h e he, LineEnd.bytes, List.mem_singleton] at hmem
  rw [hmem]
  decide

theorem renderLines_noCr {lines : List Line} (hplain : ∀ line ∈ lines, Plain line.text)
    (h : ∀ line ∈ lines, line.lineEnd = .lf) : ∀ b ∈ renderLines lines, b ≠ 13 := by
  intro b hb
  obtain ⟨line, hline, hmem⟩ := List.mem_flatMap.mp hb
  rw [Line.bytes, h line hline, LineEnd.bytes, List.mem_append, List.mem_singleton] at hmem
  rcases hmem with hmem | rfl
  · exact (hplain line hline b hmem).1
  · decide

theorem noCr_before {blanks : List LineEnd} {status : Line} {lines : List Line} (hstatus : Plain status.text)
    (hblanks : ∀ e ∈ blanks, e = .lf) (hlf : status.lineEnd = .lf) (hplain : ∀ line ∈ lines, Plain line.text)
    (hlines : ∀ line ∈ lines, line.lineEnd = .lf) :
    ∀ b ∈ renderEnds blanks ++ status.bytes ++ renderLines lines, b ≠ 13 := by
  have hrest := renderLines_noCr (show ∀ line ∈ status :: lines, Plain line.text by
    simpa using ⟨hstatus, hplain⟩) (by simpa using ⟨hlf, hlines⟩)
  intro b hb
  rw [List.append_assoc, List.mem_append] at hb
  rcases hb with hb | hb
  · exact renderEnds_noCr hblanks b hb
  · exact hrest b hb

/-- The lines of a head, and the one whose end is its first CR LF. -/
inductive FirstCrlf (layout : Layout) : Prop
  | blank (before after : List LineEnd) : layout.blanks = before ++ .crlf :: after → (∀ e ∈ before, e = .lf) →
      FirstCrlf layout
  | status : (∀ e ∈ layout.blanks, e = .lf) → layout.status.lineEnd = .crlf → FirstCrlf layout
  | header (before : List Line) (line : Line) (after : List Line) : (∀ e ∈ layout.blanks, e = .lf) →
      layout.status.lineEnd = .lf → layout.headers = before ++ line :: after → line.lineEnd = .crlf →
      (∀ l ∈ before, l.lineEnd = .lf) → FirstCrlf layout
  | last : (∀ e ∈ layout.blanks, e = .lf) → layout.status.lineEnd = .lf → (∀ l ∈ layout.headers, l.lineEnd = .lf) →
      layout.last = .crlf → FirstCrlf layout
  | nowhere : (∀ e ∈ layout.blanks, e = .lf) → layout.status.lineEnd = .lf →
      (∀ l ∈ layout.headers, l.lineEnd = .lf) → layout.last = .lf → FirstCrlf layout

theorem LineEnd.ne_crlf {e : LineEnd} (h : e ≠ .crlf) : e = .lf := by
  cases e with
  | crlf => exact absurd rfl h
  | lf => rfl

theorem first_crlf_cases {α : Type} (f : α → LineEnd) (l : List α) :
    (∀ x ∈ l, f x = .lf) ∨ ∃ before x after, l = before ++ x :: after ∧ f x = .crlf ∧ ∀ y ∈ before, f y = .lf := by
  cases hfind : l.find? (f · == .crlf) with
  | none =>
      refine .inl fun x hx => LineEnd.ne_crlf ?_
      simpa using List.find?_eq_none.mp hfind x hx
  | some x =>
      obtain ⟨hx, before, after, hsplit, hbefore⟩ := List.find?_eq_some_iff_append.mp hfind
      refine .inr ⟨before, x, after, hsplit, by simpa using hx, fun y hy => LineEnd.ne_crlf ?_⟩
      simpa using hbefore y hy

theorem firstCrlf (layout : Layout) : FirstCrlf layout := by
  rcases first_crlf_cases id layout.blanks with hblanks | ⟨before, e, after, hsplit, rfl, hbefore⟩
  · by_cases hstatus : layout.status.lineEnd = .crlf
    · exact .status hblanks hstatus
    · have hstatus := LineEnd.ne_crlf hstatus
      rcases first_crlf_cases Line.lineEnd layout.headers with hheaders | ⟨before, line, after, hsplit, hline, hbefore⟩
      · by_cases hlast : layout.last = .crlf
        · exact .last hblanks hstatus hheaders hlast
        · exact .nowhere hblanks hstatus hheaders (LineEnd.ne_crlf hlast)
      · exact .header before line after hblanks hstatus hsplit hline hbefore
  · exact .blank before after hsplit hbefore

theorem statusLineFirst_layout {layout : Layout} {status : StatusLine} {headers : List RawHeader}
    (h : layout.Means responseLines status headers) :
    statusLineFirst layout.bytes = true ↔ (∀ e ∈ layout.blanks, e = .lf) ∧ layout.status.lineEnd = .crlf := by
  obtain ⟨hplain, htext⟩ := responseLines.status_plain h.statusText
  obtain ⟨blanks, line, written, last⟩ := layout
  simp only [Layout.bytes] at *
  induction blanks with
  | nil =>
      obtain ⟨b, rest, hb⟩ := List.exists_cons_of_ne_nil htext
      have hdrop : ((line.bytes ++ (renderLines written ++ last.bytes)).dropWhile (· == 10)) =
          line.bytes ++ (renderLines written ++ last.bytes) := by
        rw [Line.bytes, hb, List.cons_append, List.cons_append, List.dropWhile_cons_of_neg]
        simpa using (hplain b (by rw [hb]; exact List.mem_cons_self)).2
      rw [statusLineFirst, renderEnds, List.flatMap_nil, List.nil_append, hdrop, lineAt_bytes hplain]
      simp [htext]
  | cons e blanks ih =>
      cases e with
      | lf =>
          have hsame : statusLineFirst (renderEnds (.lf :: blanks) ++ (line.bytes ++ (renderLines written ++ last.bytes))) =
              statusLineFirst (renderEnds blanks ++ (line.bytes ++ (renderLines written ++ last.bytes))) := by
            unfold statusLineFirst
            rw [renderEnds, List.flatMap_cons, LineEnd.bytes, List.append_assoc, List.singleton_append,
              List.dropWhile_cons_of_pos (by decide)]
            rfl
          rw [hsame, ih ⟨h.statusText, h.headerTexts, h.room⟩]
          simp
      | crlf =>
          have hblank : statusLineFirst (renderEnds (.crlf :: blanks) ++ (line.bytes ++ (renderLines written ++ last.bytes))) =
              false := rfl
          rw [hblank]
          simp

/-! ### When the rewritten head is the same head -/

/-- `head` is one whole head, equal to `old` but for its `Content-Length` headers. -/
def KeepsHead (normalization : ContentLengthNormalization) (old : ResponseHead) (head : Bytes) : Prop :=
  ∃ new, readResponseHead head = some (head.length, new) ∧ new.version = old.version ∧ new.code = old.code ∧
    new.reason = old.reason ∧ new.headers = normalizedHeaders normalization old.headers

section Layout

variable {layout : Layout} {old : ResponseHead} {normalization : ContentLengthNormalization}

theorem mem_normalizedHeaders {header : RawHeader} {headers : List RawHeader}
    (h : header ∈ normalizedHeaders normalization headers) : header = sentinel ∨ header ∈ headers := by
  cases normalization with
  | none => exact .inr h
  | ignore => exact .inr (List.mem_of_mem_filter h)
  | overflow =>
      induction headers with
      | nil => cases h
      | cons first rest ih =>
          simp only [normalizedHeaders, withSentinel] at h ih
          split at h
          · rcases List.mem_cons.mp h with rfl | hmem
            · exact .inl rfl
            · exact .inr (List.mem_cons_of_mem _ (List.mem_of_mem_filter hmem))
          · rcases List.mem_cons.mp h with rfl | hmem
            · exact .inr List.mem_cons_self
            · exact (ih hmem).imp_right (List.mem_cons_of_mem _)

theorem length_normalizedHeaders (headers : List RawHeader) :
    (normalizedHeaders normalization headers).length ≤ headers.length := by
  cases normalization with
  | none => exact Nat.le_refl _
  | ignore => exact List.length_filter_le _ _
  | overflow =>
      induction headers with
      | nil => exact Nat.le_refl _
      | cons first rest ih =>
          simp only [normalizedHeaders, withSentinel] at ih ⊢
          have hfilter : (withoutContentLength rest).length ≤ rest.length := List.length_filter_le _ _
          split <;> simp only [List.length_cons] <;> omega

theorem canonicalLines_read (normalization : ContentLengthNormalization)
    (h : layout.Means responseLines ⟨old.version, old.code, old.reason⟩ old.headers) :
    List.Forall₂ (fun line header => responseLines.header line.text = some header)
      ((normalizedHeaders normalization old.headers).map canonicalLine)
      (normalizedHeaders normalization old.headers) := by
  rw [List.forall₂_map_left_iff, List.forall₂_same]
  intro header hmem
  rcases mem_normalizedHeaders hmem with rfl | hold
  · decide
  · obtain ⟨line, -, hline⟩ := line_of_header h.headerTexts hold
    exact readHeaderLine_rewritten hline

theorem keepsHead_status (h : layout.Means responseLines ⟨old.version, old.code, old.reason⟩ old.headers)
    (hnormal : normalization ≠ .none) (hblanks : ∀ e ∈ layout.blanks, e = .lf)
    (hstatus : layout.status.lineEnd = .crlf) :
    ∃ head, normalizedHead normalization old.headers layout.bytes = some head ∧ KeepsHead normalization old head := by
  have hplain := (responseLines.status_plain h.statusText).1
  have hkept : ∀ b ∈ renderEnds layout.blanks ++ layout.status.text, b ≠ 13 := by
    intro b hb
    rcases List.mem_append.mp hb with hb | hb
    · exact renderEnds_noCr hblanks b hb
    · exact (hplain b hb).1
  have hbytes : layout.bytes = renderEnds layout.blanks ++ layout.status.text ++
      13 :: 10 :: (renderLines layout.headers ++ layout.last.bytes) := by
    simp [Layout.bytes, Line.bytes, hstatus, LineEnd.bytes]
  let rewritten : Layout :=
    ⟨layout.blanks, layout.status, (normalizedHeaders normalization old.headers).map canonicalLine, .crlf⟩
  have hmeans : rewritten.Means responseLines ⟨old.version, old.code, old.reason⟩
      (normalizedHeaders normalization old.headers) :=
    ⟨h.statusText, canonicalLines_read normalization h, (length_normalizedHeaders _).trans h.room⟩
  have hrewritten : rewritten.bytes = renderEnds layout.blanks ++ layout.status.text ++ [13, 10] ++
      renderLines ((normalizedHeaders normalization old.headers).map canonicalLine) ++ [13, 10] := by
    simp [rewritten, Layout.bytes, Line.bytes, hstatus, LineEnd.bytes]
  let new : ResponseHead := { old with headers := normalizedHeaders normalization old.headers }
  have hread := readResponseHead_bytes
    (show rewritten.Means responseLines ⟨new.version, new.code, new.reason⟩ new.headers from hmeans) []
  rw [List.append_nil] at hread
  refine ⟨rewritten.bytes, ?_, new, hread, rfl, rfl, rfl, rfl⟩
  rw [hbytes, normalizedHead_kept hnormal _ hkept, hrewritten]

/-- The first CR LF ends a blank line: the status line is gone. -/
theorem not_keepsHead_blank (h : layout.Means responseLines ⟨old.version, old.code, old.reason⟩ old.headers)
    (ends : List LineEnd) :
    ¬KeepsHead normalization old (renderEnds ends ++
      renderLines ((normalizedHeaders normalization old.headers).map canonicalLine) ++ [13, 10]) := by
  rintro ⟨new, hread, -⟩
  obtain ⟨⟨status, headers, rest⟩, hhead, -⟩ := Option.map_eq_some_iff.mp hread
  unfold LineSyntax.readHead at hhead
  have hnames : ∀ header ∈ normalizedHeaders normalization old.headers,
      ∀ b ∈ header.1, isHeaderNameToken b = true := by
    intro header hmem
    rcases mem_normalizedHeaders hmem with rfl | hold
    · exact List.all_eq_true.mp (by decide)
    · obtain ⟨line, -, hline⟩ := line_of_header h.headerTexts hold
      obtain ⟨_, -, -, htoken, -⟩ := readHeaderLine_split hline
      exact htoken
  have hread := canonicalLines_read normalization h
  rw [List.append_assoc, skipBlanks_ends] at hhead
  cases hlines : normalizedHeaders normalization old.headers with
  | nil =>
      rw [hlines] at hhead
      cases hhead
  | cons first others =>
      rw [hlines] at hhead hnames hread
      obtain ⟨hfirst, -⟩ := List.forall₂_cons.mp hread
      obtain ⟨hplain, htext⟩ := responseLines.header_plain hfirst
      rw [List.map_cons, renderLines, List.flatMap_cons, Line.bytes, List.append_assoc, List.append_assoc,
        skipBlanks_text hplain htext, ← List.append_assoc, ← List.append_assoc, List.append_assoc,
        ← Line.bytes, lineAt_bytes hplain] at hhead
      have hnone : responseLines.status (canonicalLine first).text = none :=
        readStatusLine_header (hnames first List.mem_cons_self) first.2
      simp only [hnone] at hhead
      cases hhead

/-- The first CR LF ends a header line: that line and those before it are there twice. -/
theorem not_keepsHead_header (h : layout.Means responseLines ⟨old.version, old.code, old.reason⟩ old.headers)
    {lines : List Line} (hlines : ∀ line ∈ lines, Plain line.text ∧ line.text ≠ []) (hsome : lines ≠ []) :
    ¬KeepsHead normalization old (renderEnds layout.blanks ++ layout.status.bytes ++ renderLines lines ++
      renderLines ((normalizedHeaders normalization old.headers).map canonicalLine) ++ [13, 10]) := by
  rintro ⟨new, hread, -, -, -, hheaders⟩
  obtain ⟨⟨status, headers, rest⟩, hhead, heq⟩ := Option.map_eq_some_iff.mp hread
  simp only [Prod.mk.injEq] at heq
  obtain ⟨-, rfl⟩ := heq
  obtain ⟨hplain, htext⟩ := responseLines.status_plain h.statusText
  have hall : ∀ line ∈ lines ++ (normalizedHeaders normalization old.headers).map canonicalLine,
      Plain line.text ∧ line.text ≠ [] := by
    intro line hmem
    rcases List.mem_append.mp hmem with hmem | hmem
    · exact hlines line hmem
    · exact plain_of_headers (canonicalLines_read normalization h) hmem
  have hbytes : renderEnds layout.blanks ++ layout.status.bytes ++ renderLines lines ++
      renderLines ((normalizedHeaders normalization old.headers).map canonicalLine) ++ [13, 10] =
      renderEnds layout.blanks ++ (layout.status.text ++ (layout.status.lineEnd.bytes ++
        (renderLines (lines ++ (normalizedHeaders normalization old.headers).map canonicalLine) ++
          LineEnd.crlf.bytes ++ []))) := by
    simp [renderLines, Line.bytes, LineEnd.bytes]
  unfold LineSyntax.readHead at hhead
  rw [hbytes, skipBlanks_ends, skipBlanks_text hplain htext, ← List.append_assoc layout.status.text, ← Line.bytes,
    lineAt_bytes hplain] at hhead
  simp only [h.statusText] at hhead
  obtain ⟨⟨found, left⟩, hfound, heq⟩ := Option.map_eq_some_iff.mp hhead
  simp only [Prod.mk.injEq] at heq
  obtain ⟨-, rfl, rfl⟩ := heq
  have hlength := (headerLines_length hall hfound).1
  simp only at hheaders
  rw [hheaders, List.length_append, List.length_map] at hlength
  have hpos := List.length_pos_iff.mpr hsome
  omega

theorem not_keepsHead_last (h : layout.Means responseLines ⟨old.version, old.code, old.reason⟩ old.headers)
    (more : Bytes) : ¬KeepsHead normalization old (layout.bytes ++ more ++ [13, 10]) := by
  rintro ⟨new, hread, -⟩
  have hwhole := readResponseHead_bytes h (more ++ [13, 10])
  rw [← List.append_assoc, hread] at hwhole
  have hlength := congrArg Prod.fst (Option.some.inj hwhole)
  simp only [List.length_append, List.length_cons] at hlength
  omega

theorem keepsHead_iff (h : layout.Means responseLines ⟨old.version, old.code, old.reason⟩ old.headers)
    (hnormal : normalization ≠ .none) :
    (∃ head, normalizedHead normalization old.headers layout.bytes = some head ∧ KeepsHead normalization old head) ↔
      statusLineFirst layout.bytes = true := by
  have hstatus := responseLines.status_plain h.statusText
  have hheaders : ∀ line ∈ layout.headers, Plain line.text ∧ line.text ≠ [] :=
    fun line hmem => plain_of_headers h.headerTexts hmem
  rw [statusLineFirst_layout h]
  constructor
  · rintro ⟨head, hhead, hkeeps⟩
    cases firstCrlf layout with
    | blank before after hsplit hbefore =>
        have hbytes : layout.bytes = renderEnds before ++ 13 :: 10 :: (renderEnds after ++ (layout.status.bytes ++
            (renderLines layout.headers ++ layout.last.bytes))) := by
          simp [Layout.bytes, hsplit, renderEnds, LineEnd.bytes]
        rw [hbytes, normalizedHead_kept hnormal _ (renderEnds_noCr hbefore)] at hhead
        obtain rfl := Option.some.inj hhead
        refine absurd (?_ : KeepsHead normalization old _) (not_keepsHead_blank h (before ++ [.crlf]))
        simpa [renderEnds, LineEnd.bytes] using hkeeps
    | status hblanks hcrlf => exact ⟨hblanks, hcrlf⟩
    | header before line after hblanks hlf hsplit hline hbefore =>
        have hkept : ∀ b ∈ renderEnds layout.blanks ++ layout.status.bytes ++ renderLines before ++ line.text, b ≠ 13 := by
          intro b hb
          rcases List.mem_append.mp hb with hb | hb
          · exact noCr_before hstatus.1 hblanks hlf
              (fun l hl => (hheaders l (by rw [hsplit]; exact List.mem_append_left _ hl)).1) hbefore b hb
          · exact ((hheaders line (by simp [hsplit])).1 b hb).1
        have hbytes : layout.bytes = renderEnds layout.blanks ++ layout.status.bytes ++ renderLines before ++ line.text ++
            13 :: 10 :: (renderLines after ++ layout.last.bytes) := by
          simp [Layout.bytes, hsplit, renderLines, Line.bytes, hline, LineEnd.bytes]
        rw [hbytes, normalizedHead_kept hnormal _ hkept] at hhead
        obtain rfl := Option.some.inj hhead
        have hlines : ∀ l ∈ before ++ [line], Plain l.text ∧ l.text ≠ [] := by
          intro l hl
          apply hheaders
          rw [hsplit, ← List.singleton_append, ← List.append_assoc]
          exact List.mem_append_left _ hl
        refine absurd (?_ : KeepsHead normalization old _) (not_keepsHead_header h hlines (by simp))
        simpa [renderLines, Line.bytes, hline, LineEnd.bytes] using hkeeps
    | last hblanks hlf hall hlast =>
        have hkept := noCr_before hstatus.1 hblanks hlf (fun l hl => (hheaders l hl).1) hall
        have hbytes : layout.bytes = renderEnds layout.blanks ++ layout.status.bytes ++ renderLines layout.headers ++
            13 :: 10 :: [] := by
          simp [Layout.bytes, hlast, LineEnd.bytes]
        rw [hbytes, normalizedHead_kept hnormal _ hkept] at hhead
        obtain rfl := Option.some.inj hhead
        rw [← hbytes] at hkeeps
        exact absurd hkeeps (not_keepsHead_last h _)
    | nowhere hblanks hlf hall hlast =>
        have hnoCr := noCr_before hstatus.1 hblanks hlf (fun l hl => (hheaders l hl).1) hall
        have hbytes : ∀ b ∈ layout.bytes, b ≠ 13 := by
          intro b hb
          rw [Layout.bytes, hlast, ← List.append_assoc, ← List.append_assoc, List.mem_append] at hb
          rcases hb with hb | hb
          · exact hnoCr b hb
          · rw [LineEnd.bytes, List.mem_singleton] at hb
            rw [hb]
            decide
        rw [normalizedHead_none hnormal _ hbytes] at hhead
        cases hhead
  · rintro ⟨hblanks, hcrlf⟩
    exact keepsHead_status h hnormal hblanks hcrlf

end Layout

/-! ### The whole response -/

theorem filter_withoutContentLength (headers : List RawHeader) :
    (withoutContentLength headers).filter (isContentLength ·.1) = [] := by
  rw [withoutContentLength, List.filter_filter, List.filter_eq_nil_iff]
  intro header _
  simp

theorem filter_withSentinel {headers : List RawHeader} (h : ∃ header ∈ headers, isContentLength header.1 = true) :
    (withSentinel headers).filter (isContentLength ·.1) = [sentinel] := by
  induction headers with
  | nil => obtain ⟨header, hmem, -⟩ := h; cases hmem
  | cons first rest ih =>
      unfold withSentinel
      split
      · rw [List.filter_cons_of_pos (by decide), filter_withoutContentLength]
      · rename_i hnot
        rw [List.filter_cons_of_neg (by simpa using hnot)]
        obtain ⟨header, hmem, hlength⟩ := h
        rcases List.mem_cons.mp hmem with rfl | hmem
        · exact absurd hlength hnot
        · exact ih ⟨header, hmem, hlength⟩

theorem contentLength_of_overflow {headers : List RawHeader} (h : (contentLengthDecision headers).1 = .overflow) :
    ∃ header ∈ headers, isContentLength header.1 = true := by
  by_contra hnone
  have hfilter : headers.filter (isContentLength ·.1) = [] := by
    rw [List.filter_eq_nil_iff]
    exact fun header hmem hlength => hnone ⟨header, hmem, hlength⟩
  simp [contentLengthDecision, contentLengthTokens, hfilter] at h

/-- `output` is the captured response with its final head replaced by one whole head that differs from it in the
`Content-Length` headers only: there are none left, or the sentinel in the place of the first. -/
def Preserves (parser : HeadParser) (captured : Bytes) (start : Nat) (parsed : ParsedResponseHead)
    (output : Option Bytes) : Prop :=
  ∃ old new head, parser.parse (captured.drop start) = some (parsed.consumed, old) ∧
    output = some (captured.take start ++ head ++ captured.drop (start + parsed.consumed)) ∧
    parser.parse head = some (head.length, new) ∧
    new.version = old.version ∧ new.code = old.code ∧ new.reason = old.reason ∧
    new.headers = normalizedHeaders parsed.contentLengthNormalization old.headers ∧
    new.headers.filter (isContentLength ·.1) =
      if parsed.contentLengthNormalization = .overflow then [sentinel] else []

theorem headBytes_eq {captured : Bytes} {start consumed : Nat} : headBytes captured start consumed =
    (captured.drop start).take consumed := by
  rw [headBytes, List.drop_take, Nat.add_sub_cancel_left]

/-- Normalising keeps the response if and only if the first CR LF of its final head ends the status line. -/
theorem normalization_preserves_iff {parser : HeadParser} (hparser : ∀ s, parser.parse s = readResponseHead s)
    {state : ResponseHeadState} {start : Nat} {parsed : ParsedResponseHead}
    (hfinal : findFinalHead parser state.captured 0 = some (start, parsed))
    (hnormal : parsed.contentLengthNormalization ≠ .none) :
    Preserves parser state.captured start parsed
        (takeNormalizedPythonResponse (inspectCompleteResponseHead parser state)).1 ↔
      statusLineFirst (headBytes state.captured start parsed.consumed) = true := by
  obtain ⟨old, hparse, -, hraw, hdecision⟩ := parsedResponseHead_parse (findFinalHead_parse hfinal).1
  have hread := hparse
  rw [hparser] at hread
  obtain ⟨layout, rest, hbytes, hconsumed, hmeans⟩ := readResponseHead_layout hread
  have hhead : headBytes state.captured start parsed.consumed = layout.bytes := by
    rw [headBytes_eq, hbytes, hconsumed, List.take_left]
  rw [takeNormalized_inspect hfinal hnormal, hhead, ← keepsHead_iff hmeans hnormal, hraw]
  constructor
  · rintro ⟨old', new, head, hold, houtput, hnew, hversion, hcode, hreason, hheaders, -⟩
    obtain rfl : old = old' := by
      rw [hparse, Option.some.injEq, Prod.mk.injEq] at hold
      exact hold.2
    obtain ⟨head', hhead', heq⟩ := Option.map_eq_some_iff.mp houtput
    obtain rfl : head' = head := List.append_cancel_left (List.append_cancel_right heq)
    rw [hparser] at hnew
    exact ⟨head', hhead', new, hnew, hversion, hcode, hreason, hheaders⟩
  · rintro ⟨head, hhead, new, hnew, hversion, hcode, hreason, hheaders⟩
    refine ⟨old, new, head, hparse, by rw [hhead]; rfl, by rw [hparser]; exact hnew, hversion, hcode, hreason,
      hheaders, ?_⟩
    rw [hheaders]
    split
    · rename_i hoverflow
      rw [hoverflow]
      exact filter_withSentinel (contentLength_of_overflow (hdecision.symm.trans hoverflow))
    · rename_i hignore
      have hcase : parsed.contentLengthNormalization = .ignore := by
        cases hkind : parsed.contentLengthNormalization with
        | none => exact absurd hkind hnormal
        | ignore => rfl
        | overflow => exact absurd hkind hignore
      rw [hcase]
      exact filter_withoutContentLength old.headers

private def crlfState : ResponseHeadState where
  active := true
  captured := text "HTTP/1.1 200 OK\r\nContent-Length: nope\r\nServer: a\r\n\r\nbody"

private def crlfHead : ParsedResponseHead :=
  ⟨52, 200, .ignore, none, [(text "Content-Length", text "nope"), (text "Server", text "a")]⟩

/-- An ordinary response with an unreadable length. -/
theorem normalization_preserves_crlf :
    Preserves referenceParser crlfState.captured 0 crlfHead
      (takeNormalizedPythonResponse (inspectCompleteResponseHead referenceParser crlfState)).1 := by
  have hfinal : findFinalHead referenceParser crlfState.captured 0 = some (0, crlfHead) := by decide +kernel
  exact (normalization_preserves_iff (fun _ => rfl) hfinal (by decide)).mpr (by decide)

private def lfState : ResponseHeadState where
  active := true
  captured := text "HTTP/1.1 200 OK\nContent-Length: nope\n\nbody"

private def lfHead : ParsedResponseHead := ⟨38, 200, .ignore, none, [(text "Content-Length", text "nope")]⟩

/-- The same response with bare line feeds: nothing comes out and the captured bytes are gone. -/
theorem normalization_loses_lf_head :
    findFinalHead referenceParser lfState.captured 0 = some (0, lfHead) ∧
      ¬Preserves referenceParser lfState.captured 0 lfHead
        (takeNormalizedPythonResponse (inspectCompleteResponseHead referenceParser lfState)).1 ∧
      (takeNormalizedPythonResponse (inspectCompleteResponseHead referenceParser lfState)).1 = none ∧
      (takeNormalizedPythonResponse (inspectCompleteResponseHead referenceParser lfState)).2.captured = [] := by
  have hnone : (takeNormalizedPythonResponse (inspectCompleteResponseHead referenceParser lfState)).1 = none := by
    decide +kernel
  refine ⟨by decide +kernel, ?_, hnone, by decide +kernel⟩
  rw [hnone]
  rintro ⟨_, _, _, -, houtput, -⟩
  cases houtput

end ResponseHeadState

end RequestsNative.Transport
