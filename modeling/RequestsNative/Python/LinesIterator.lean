import Mathlib.Data.List.Chain
import RequestsNative.Base
import RequestsNative.Python.ContentIterator

/-!
# Iterating over lines

`response.rs`, `NativeLinesIterator`, and the generator of `Response.iter_lines`. Both cut every chunk of the content into
lines and hold the last one back when it is not finished: they compare its last byte with that of the chunk, and those
are the same exactly if the chunk ends within a line. The line is put in front of the next chunk, so the lines are those
of the whole content, as long as no carriage return is cut off from its line feed.
-/

namespace RequestsNative.Python

open RequestsNative.Lib

/-! ### `bytes` -/

/-- `bytes.splitlines`: a line ends with a line feed, a carriage return, or both. -/
def splitlines : Bytes → List Bytes
  | [] => []
  | b :: rest =>
      if b = 10 then [] :: splitlines rest
      else if b = 13 then
        match rest with
        | [] => [[]]
        | c :: tail => if c = 10 then [] :: splitlines tail else [] :: splitlines (c :: tail)
      else
        match splitlines rest with
        | [] => [[b]]
        | line :: lines => (b :: line) :: lines

example : splitlines [97, 13, 10, 98, 10, 13, 99] = [[97], [98], [], [99]] := by decide

/-- `bytes.split`; `skip` bytes still belong to the separator that was found. -/
def splitFrom (separator : Bytes) : Nat → Bytes → List Bytes
  | _, [] => [[]]
  | skip + 1, _ :: rest => splitFrom separator skip rest
  | 0, b :: rest =>
      if separator.isPrefixOf (b :: rest) then [] :: splitFrom separator (separator.length - 1) rest
      else
        match splitFrom separator 0 rest with
        | [] => [[b]]
        | part :: parts => (b :: part) :: parts

def split (separator value : Bytes) : List Bytes := splitFrom separator 0 value

example : split [44] [97, 44, 98, 44] = [[97], [98], []] := by decide

/-- The parts of a chunk: a delimiter that is `None` or empty is false. -/
def partsOf (delimiter : Option Bytes) (chunk : Bytes) : List Bytes :=
  match delimiter with
  | some (b :: rest) => split (b :: rest) chunk
  | _ => splitlines chunk

/-! ### The native iterator -/

structure NativeLinesIterator where
  /-- What `iter_content_dispatch` will give. -/
  content : List Bytes
  delimiter : Option Bytes
  chunks : Option (List Bytes) := none
  pending : Option Bytes := none
  ready : List Bytes := []
  readyIndex : Nat := 0
  done : Bool := false
  deriving DecidableEq, Repr

namespace NativeLinesIterator

def takeReady (s : NativeLinesIterator) : Option (Bytes × NativeLinesIterator) :=
  s.ready[s.readyIndex]?.map fun value => (value, { s with readyIndex := s.readyIndex + 1 })

def loadLines (s : NativeLinesIterator) (chunk : Bytes) : NativeLinesIterator :=
  let chunk :=
    match s.pending with
    | some pending => pending ++ chunk
    | none => chunk
  let values := partsOf s.delimiter chunk
  let s := { s with pending := none, ready := values, readyIndex := 0 }
  match values.getLast? with
  | some last =>
      if last ≠ [] ∧ chunk ≠ [] ∧ last.getLast? = chunk.getLast? then
        { s with pending := some last, ready := values.dropLast }
      else s
  | none => s

/-- The loop of `__next__` over the chunks that are left. -/
def nextIn (s : NativeLinesIterator) : List Bytes → Seen Bytes × NativeLinesIterator
  | [] =>
      match s.pending with
      | some line => (.chunk line, { s with chunks := some [], pending := none, done := true })
      | none => (.stopIteration, { s with chunks := some [], done := true })
  | chunk :: rest =>
      match (s.loadLines chunk).takeReady with
      | some (line, s) => (.chunk line, { s with chunks := some rest })
      | none => nextIn (s.loadLines chunk) rest

/-- `__next__`. -/
def next (s : NativeLinesIterator) : Seen Bytes × NativeLinesIterator :=
  match s.takeReady with
  | some (line, s) => (.chunk line, s)
  | none =>
      if s.done then
        match s.pending with
        | some line => (.chunk line, { s with pending := none })
        | none => (.stopIteration, s)
      else s.nextIn (s.chunks.getD s.content)

def close (s : NativeLinesIterator) : Seen Bytes × NativeLinesIterator :=
  (.closed, { s with chunks := none, done := true, pending := none, ready := [] })

end NativeLinesIterator

def nativeLines : Reactive NativeLinesIterator Call (Seen Bytes) where
  call s
    | .next => s.next
    | .close => s.close

/-! ### The generator -/

/-- Where the generator of `iter_lines` stands. -/
inductive LinesGenerator
  | created (content : List Bytes)
  /-- In `yield from lines`, with the lines that are left. -/
  | yielding (lines : List Bytes) (pending : Option Bytes) (content : List Bytes)
  /-- At the last `yield`. -/
  | leaving
  | finished
  deriving DecidableEq, Repr

namespace LinesGenerator

variable (delimiter : Option Bytes)

/-- One turn of the loop: the lines to yield, and the one held back. -/
def turn (pending : Option Bytes) (chunk : Bytes) : List Bytes × Option Bytes :=
  let chunk := pending.getD [] ++ chunk
  let lines := partsOf delimiter chunk
  match lines.getLast? with
  | none => (lines, none)
  | some last =>
      if last ≠ [] ∧ chunk ≠ [] ∧ last.getLast? = chunk.getLast? then (lines.dropLast, some last) else (lines, none)

/-- The rest of the loop, up to the next `yield`. -/
def run (pending : Option Bytes) : List Bytes → Seen Bytes × LinesGenerator
  | [] =>
      match pending with
      | some line => (.chunk line, .leaving)
      | none => (.stopIteration, .finished)
  | chunk :: rest =>
      match turn delimiter pending chunk with
      | (line :: lines, pending) => (.chunk line, .yielding lines pending rest)
      | ([], pending) => run pending rest

def next : LinesGenerator → Seen Bytes × LinesGenerator
  | .created content => run delimiter none content
  | .yielding (line :: lines) pending content => (.chunk line, .yielding lines pending content)
  | .yielding [] pending content => run delimiter pending content
  | .leaving | .finished => (.stopIteration, .finished)

end LinesGenerator

def iterLines (delimiter : Option Bytes) : Reactive LinesGenerator Call (Seen Bytes) where
  call s
    | .next => s.next delimiter
    | .close => (.closed, .finished)

/-! ### Lines and what follows them -/

/-- A byte that ends a line. -/
def endsLine (b : UInt8) : Bool := b == 10 || b == 13

/-- A byte goes to the front of the first line. -/
def prepend (b : UInt8) : List Bytes → List Bytes
  | [] => [[b]]
  | line :: lines => (b :: line) :: lines

theorem splitlines_byte {b : UInt8} (hb : endsLine b = false) (rest : Bytes) :
    splitlines (b :: rest) = prepend b (splitlines rest) := by
  rw [endsLine, Bool.or_eq_false_iff, beq_eq_false_iff_ne, beq_eq_false_iff_ne] at hb
  rw [splitlines.eq_def]
  simp only [if_neg hb.1, if_neg hb.2]
  cases splitlines rest with
  | nil => rfl
  | cons line lines => rfl

theorem splitlines_lf (rest : Bytes) : splitlines (10 :: rest) = [] :: splitlines rest := by
  rw [splitlines.eq_def]
  rfl

theorem splitlines_crlf (rest : Bytes) : splitlines (13 :: 10 :: rest) = [] :: splitlines rest := by
  simp [splitlines]

theorem splitlines_cr {rest : Bytes} (hrest : rest.head? ≠ some 10) : splitlines (13 :: rest) = [] :: splitlines rest := by
  cases rest with
  | nil => rfl
  | cons c tail =>
      have hc : c ≠ 10 := fun h => hrest (congrArg some h)
      simp [splitlines, hc]

@[elab_as_elim]
theorem byLines {motive : Bytes → Prop} (nil : motive []) (lf : ∀ rest, motive rest → motive (10 :: rest))
    (crlf : ∀ rest, motive rest → motive (13 :: 10 :: rest))
    (cr : ∀ rest, rest.head? ≠ some 10 → motive rest → motive (13 :: rest))
    (byte : ∀ b rest, endsLine b = false → motive rest → motive (b :: rest)) (value : Bytes) : motive value := by
  match value with
  | [] => exact nil
  | b :: rest =>
      by_cases hlf : b = 10
      · exact hlf ▸ lf rest (byLines nil lf crlf cr byte rest)
      · by_cases hcr : b = 13
        · subst hcr
          match rest with
          | [] => exact cr [] nofun nil
          | c :: tail =>
              by_cases hc : c = 10
              · exact hc ▸ crlf tail (byLines nil lf crlf cr byte tail)
              · refine cr (c :: tail) (fun h => hc (Option.some.inj h)) (byLines nil lf crlf cr byte (c :: tail))
        · refine byte b rest ?_ (byLines nil lf crlf cr byte rest)
          simp [endsLine, hlf, hcr]
termination_by value.length

theorem prepend_ne_nil (b : UInt8) (lines : List Bytes) : prepend b lines ≠ [] := by
  cases lines <;> exact List.cons_ne_nil _ _

theorem splitlines_eq_nil {value : Bytes} : splitlines value = [] ↔ value = [] := by
  induction value using byLines with
  | nil => exact iff_of_true rfl rfl
  | lf rest _ => simp [splitlines_lf]
  | crlf rest _ => simp [splitlines_crlf]
  | cr rest hrest _ => simp [splitlines_cr hrest]
  | byte b rest hb _ => simp [splitlines_byte hb, prepend_ne_nil]

theorem splitlines_plain (value : Bytes) : ∀ line ∈ splitlines value, ∀ b ∈ line, endsLine b = false := by
  induction value using byLines with
  | nil => exact nofun
  | lf rest ih =>
      rw [splitlines_lf, List.forall_mem_cons]
      exact ⟨nofun, ih⟩
  | crlf rest ih =>
      rw [splitlines_crlf, List.forall_mem_cons]
      exact ⟨nofun, ih⟩
  | cr rest hrest ih =>
      rw [splitlines_cr hrest, List.forall_mem_cons]
      exact ⟨nofun, ih⟩
  | byte b rest hb ih =>
      rw [splitlines_byte hb]
      cases hlines : splitlines rest with
      | nil => simpa [prepend] using hb
      | cons line lines =>
          rw [hlines, List.forall_mem_cons] at ih
          rw [prepend, List.forall_mem_cons, List.forall_mem_cons]
          exact ⟨⟨hb, ih.1⟩, ih.2⟩

theorem splitlines_single {line : Bytes} (hne : line ≠ []) (hplain : ∀ b ∈ line, endsLine b = false) :
    splitlines line = [line] := by
  induction line with
  | nil => exact absurd rfl hne
  | cons b rest ih =>
      rw [List.forall_mem_cons] at hplain
      rw [splitlines_byte hplain.1]
      by_cases hrest : rest = []
      · rw [hrest]
        rfl
      · rw [ih hrest hplain.2]
        rfl

/-- The last byte of a text, if it has one, ends a line. -/
def finishesLine (value : Bytes) : Bool := value.getLast?.any endsLine

/-- Behind a finished line a new one starts, unless a carriage return is followed by its line feed. -/
theorem splitlines_append_finished {front rest : Bytes} (hfinished : finishesLine front = true)
    (hcut : ¬(front.getLast? = some 13 ∧ rest.head? = some 10)) :
    splitlines (front ++ rest) = splitlines front ++ splitlines rest := by
  induction front using byLines with
  | nil => cases hfinished
  | lf tail ih =>
      rw [List.cons_append, splitlines_lf, splitlines_lf, List.cons_append]
      by_cases htail : tail = []
      · rw [htail]
        rfl
      · rw [finishesLine, List.getLast?_cons_of_ne_nil htail] at hfinished
        rw [List.getLast?_cons_of_ne_nil htail] at hcut
        rw [ih hfinished hcut]
  | crlf tail ih =>
      rw [List.cons_append, List.cons_append, splitlines_crlf, splitlines_crlf, List.cons_append]
      by_cases htail : tail = []
      · rw [htail]
        rfl
      · rw [finishesLine, List.getLast?_cons_cons, List.getLast?_cons_of_ne_nil htail] at hfinished
        rw [List.getLast?_cons_cons, List.getLast?_cons_of_ne_nil htail] at hcut
        rw [ih hfinished hcut]
  | cr tail hlf ih =>
      by_cases htail : tail = []
      · subst htail
        rw [List.singleton_append, splitlines_cr (fun h => hcut ⟨rfl, h⟩)]
        rfl
      · rw [finishesLine, List.getLast?_cons_of_ne_nil htail] at hfinished
        rw [List.getLast?_cons_of_ne_nil htail] at hcut
        rw [List.cons_append, splitlines_cr hlf, splitlines_cr (List.head?_append_of_ne_nil _ htail ▸ hlf),
          ih hfinished hcut, List.cons_append]
  | byte b tail hb ih =>
      have htail : tail ≠ [] := by
        rintro rfl
        rw [show finishesLine [b] = endsLine b from rfl, hb] at hfinished
        cases hfinished
      rw [finishesLine, List.getLast?_cons_of_ne_nil htail] at hfinished
      rw [List.getLast?_cons_of_ne_nil htail] at hcut
      rw [List.cons_append, splitlines_byte hb, splitlines_byte hb, ih hfinished hcut]
      obtain ⟨line, lines, hlines⟩ := List.exists_cons_of_ne_nil (mt splitlines_eq_nil.mp htail)
      rw [hlines]
      rfl

/-- A text that ends within a line goes on with that line. -/
theorem splitlines_append_open {front : Bytes} (hne : front ≠ []) (hopen : finishesLine front = false) :
    ∃ lines last, splitlines front = lines ++ [last] ∧ last ≠ [] ∧ last.getLast? = front.getLast? ∧
      ∀ rest, splitlines (front ++ rest) = lines ++ splitlines (last ++ rest) := by
  induction front using byLines with
  | nil => exact absurd rfl hne
  | lf tail ih =>
      have htail : tail ≠ [] := by
        rintro rfl
        cases hopen
      rw [finishesLine, List.getLast?_cons_of_ne_nil htail] at hopen
      obtain ⟨lines, last, heq, hlast, hsame, hrest⟩ := ih htail hopen
      refine ⟨[] :: lines, last, by rw [splitlines_lf, heq]; rfl, hlast, ?_, fun rest => ?_⟩
      · rw [hsame, List.getLast?_cons_of_ne_nil htail]
      · rw [List.cons_append, splitlines_lf, hrest, List.cons_append]
  | crlf tail ih =>
      have htail : tail ≠ [] := by
        rintro rfl
        cases hopen
      rw [finishesLine, List.getLast?_cons_cons, List.getLast?_cons_of_ne_nil htail] at hopen
      obtain ⟨lines, last, heq, hlast, hsame, hrest⟩ := ih htail hopen
      refine ⟨[] :: lines, last, by rw [splitlines_crlf, heq]; rfl, hlast, ?_, fun rest => ?_⟩
      · rw [hsame, List.getLast?_cons_cons, List.getLast?_cons_of_ne_nil htail]
      · rw [List.cons_append, List.cons_append, splitlines_crlf, hrest, List.cons_append]
  | cr tail hlf ih =>
      have htail : tail ≠ [] := by
        rintro rfl
        cases hopen
      rw [finishesLine, List.getLast?_cons_of_ne_nil htail] at hopen
      obtain ⟨lines, last, heq, hlast, hsame, hrest⟩ := ih htail hopen
      refine ⟨[] :: lines, last, by rw [splitlines_cr hlf, heq]; rfl, hlast, ?_, fun rest => ?_⟩
      · rw [hsame, List.getLast?_cons_of_ne_nil htail]
      · rw [List.cons_append, splitlines_cr (List.head?_append_of_ne_nil _ htail ▸ hlf), hrest, List.cons_append]
  | byte b tail hb ih =>
      by_cases htail : tail = []
      · subst htail
        exact ⟨[], [b], by rw [splitlines_byte hb]; rfl, List.cons_ne_nil _ _, rfl, fun rest => rfl⟩
      · rw [finishesLine, List.getLast?_cons_of_ne_nil htail] at hopen
        obtain ⟨lines, last, heq, hlast, hsame, hrest⟩ := ih htail hopen
        cases lines with
        | nil =>
            refine ⟨[], b :: last, by rw [splitlines_byte hb, heq]; rfl, List.cons_ne_nil _ _, ?_, fun rest => ?_⟩
            · rw [List.getLast?_cons_of_ne_nil hlast, hsame, List.getLast?_cons_of_ne_nil htail]
            · rw [List.cons_append, splitlines_byte hb, hrest, List.nil_append, List.nil_append, List.cons_append,
                splitlines_byte hb]
        | cons line lines =>
            refine ⟨(b :: line) :: lines, last, by rw [splitlines_byte hb, heq]; rfl, hlast, ?_, fun rest => ?_⟩
            · rw [hsame, List.getLast?_cons_of_ne_nil htail]
            · rw [List.cons_append, splitlines_byte hb, hrest]
              rfl

/-! ### The lines of the generator -/

namespace LinesGenerator

variable {delimiter : Option Bytes}

/-- The lines that come of the chunks that are left. -/
def linesOf (delimiter : Option Bytes) (pending : Option Bytes) : List Bytes → List Bytes
  | [] => pending.toList
  | chunk :: rest => (turn delimiter pending chunk).1 ++ linesOf delimiter (turn delimiter pending chunk).2 rest

def remaining (delimiter : Option Bytes) : LinesGenerator → List Bytes
  | .created content => linesOf delimiter none content
  | .yielding lines pending content => lines ++ linesOf delimiter pending content
  | .leaving | .finished => []

/-- The next line is yielded, and those behind it remain. -/
def Yields (delimiter : Option Bytes) (lines : List Bytes) (answer : Seen Bytes × LinesGenerator) : Prop :=
  match lines with
  | [] => answer.1 = .stopIteration ∧ remaining delimiter answer.2 = []
  | line :: rest => answer.1 = .chunk line ∧ remaining delimiter answer.2 = rest

theorem run_yields (pending : Option Bytes) (content : List Bytes) :
    Yields delimiter (linesOf delimiter pending content) (run delimiter pending content) := by
  induction content generalizing pending with
  | nil =>
      cases pending with
      | none => exact ⟨rfl, rfl⟩
      | some line => exact ⟨rfl, rfl⟩
  | cons chunk rest ih =>
      rw [linesOf, run]
      cases hturn : turn delimiter pending chunk with
      | mk lines pending' =>
          cases lines with
          | nil => exact ih pending'
          | cons line lines => exact ⟨rfl, rfl⟩

theorem next_yields (delimiter : Option Bytes) (s : LinesGenerator) : Yields delimiter (remaining delimiter s) (s.next delimiter) := by
  match s with
  | .created content => exact run_yields none content
  | .yielding [] pending content => exact run_yields pending content
  | .yielding (line :: lines) pending content => exact ⟨rfl, rfl⟩
  | .leaving => exact ⟨rfl, rfl⟩
  | .finished => exact ⟨rfl, rfl⟩

theorem observe_next (s : LinesGenerator) (n : Nat) : (iterLines delimiter).observe s (List.replicate n .next) =
    ((remaining delimiter s).map Seen.chunk ++ List.replicate n Seen.stopIteration).take n := by
  induction n generalizing s with
  | zero => rfl
  | succ n ih =>
      have hyields := next_yields delimiter s
      have hcall : (iterLines delimiter).call s .next = s.next delimiter := rfl
      rw [List.replicate_succ, Reactive.observe, ih, hcall]
      cases hremaining : remaining delimiter s with
      | nil =>
          rw [hremaining] at hyields
          rw [hyields.1, hyields.2]
          simp [List.replicate_succ]
      | cons line rest =>
          rw [hremaining] at hyields
          have hlength : n ≤ (rest.map Seen.chunk ++ List.replicate n Seen.stopIteration).length := by simp
          rw [hyields.1, hyields.2, List.map_cons, List.cons_append, List.take_succ_cons, List.replicate_succ',
            ← List.append_assoc, List.take_append_of_le_length hlength]

theorem turn_finished {pending : Option Bytes} {chunk : Bytes} (hfinished : finishesLine (pending.getD [] ++ chunk) = true) :
    turn none pending chunk = (splitlines (pending.getD [] ++ chunk), none) := by
  simp only [turn, partsOf]
  cases hlast : (splitlines (pending.getD [] ++ chunk)).getLast? with
  | none => rfl
  | some last =>
      have hplain := splitlines_plain _ last (List.mem_of_getLast? hlast)
      refine if_neg fun hheld => ?_
      obtain ⟨b, hb⟩ := Option.ne_none_iff_exists'.mp (mt List.getLast?_eq_none_iff.mp hheld.1)
      rw [finishesLine, ← hheld.2.2, hb, Option.any_some, hplain b (List.mem_of_getLast? hb)] at hfinished
      cases hfinished

theorem turn_open {pending : Option Bytes} {chunk : Bytes} {lines : List Bytes} {last : Bytes} (hchunk : chunk ≠ [])
    (heq : splitlines (pending.getD [] ++ chunk) = lines ++ [last]) (hlast : last ≠ [])
    (hsame : last.getLast? = (pending.getD [] ++ chunk).getLast?) : turn none pending chunk = (lines, some last) := by
  have hne : pending.getD [] ++ chunk ≠ [] := List.append_ne_nil_of_right_ne_nil _ hchunk
  simp only [turn, partsOf, heq, List.getLast?_concat, List.dropLast_concat]
  exact if_pos ⟨hlast, hne, hsame⟩

/-- No boundary between two chunks falls between a carriage return and its line feed. -/
def KeepsLineEnds (chunks : List Bytes) : Prop :=
  chunks.IsChain fun chunk next => ¬(chunk.getLast? = some 13 ∧ next.head? = some 10)

theorem flatten_head {chunks : List Bytes} (hne : ∀ chunk ∈ chunks, chunk ≠ []) :
    chunks.flatten.head? = chunks.head?.bind List.head? := by
  cases chunks with
  | nil => rfl
  | cons chunk rest =>
      rw [List.flatten_cons, List.head?_append_of_ne_nil _ (hne chunk List.mem_cons_self)]
      rfl

theorem linesOf_eq_splitlines {chunks : List Bytes} (hne : ∀ chunk ∈ chunks, chunk ≠ []) (hcuts : KeepsLineEnds chunks)
    {pending : Option Bytes} (hpending : ∀ line ∈ pending, line ≠ [] ∧ ∀ b ∈ line, endsLine b = false) :
    linesOf none pending chunks = splitlines (pending.getD [] ++ chunks.flatten) := by
  induction chunks generalizing pending with
  | nil =>
      cases pending with
      | none => rfl
      | some line =>
          obtain ⟨hline, hplain⟩ := hpending line rfl
          rw [List.flatten_nil, List.append_nil]
          exact (splitlines_single hline hplain).symm
  | cons chunk rest ih =>
      rw [List.forall_mem_cons] at hne
      have hrest : KeepsLineEnds rest := hcuts.tail
      have hnone : ∀ line ∈ (none : Option Bytes), line ≠ [] ∧ ∀ b ∈ line, endsLine b = false := by simp
      have hgetLast : (pending.getD [] ++ chunk).getLast? = chunk.getLast? := List.getLast?_append_of_ne_nil _ hne.1
      rw [linesOf, List.flatten_cons, ← List.append_assoc]
      by_cases hfinished : finishesLine (pending.getD [] ++ chunk) = true
      · rw [turn_finished hfinished, ih hne.2 hrest hnone, splitlines_append_finished hfinished]
        · rfl
        · rw [hgetLast, flatten_head hne.2]
          rintro ⟨hcr, hlf⟩
          obtain ⟨next, hnext, hlf⟩ := Option.bind_eq_some_iff.mp hlf
          exact hcuts.rel_head? hnext ⟨hcr, hlf⟩
      · have hpiece : pending.getD [] ++ chunk ≠ [] := List.append_ne_nil_of_right_ne_nil _ hne.1
        obtain ⟨lines, last, heq, hlast, hsame, happend⟩ :=
          splitlines_append_open hpiece (eq_false_of_ne_true hfinished)
        rw [turn_open hne.1 heq hlast hsame, happend, ih hne.2 hrest]
        · rfl
        · rintro line ⟨⟩
          refine ⟨hlast, splitlines_plain (pending.getD [] ++ chunk) last ?_⟩
          rw [heq]
          exact List.mem_append_right _ (List.mem_singleton_self last)

end LinesGenerator

/-! ### The two iterators -/

/-- The native iterator stands where the generator stands. -/
inductive LinesRelated (delimiter : Option Bytes) : NativeLinesIterator → LinesGenerator → Prop
  | created (content : List Bytes) : LinesRelated delimiter { content, delimiter } (.created content)
  | yielding (content ready : List Bytes) (pending : Option Bytes) (index : Nat) (rest : List Bytes) :
      LinesRelated delimiter ⟨content, delimiter, some rest, pending, ready, index, false⟩
        (.yielding (ready.drop index) pending rest)
  | ended (content ready : List Bytes) (chunks : Option (List Bytes)) (index : Nat) (generator : LinesGenerator)
      (hready : ready.drop index = []) (hgenerator : generator = .leaving ∨ generator = .finished) :
      LinesRelated delimiter ⟨content, delimiter, chunks, none, ready, index, true⟩ generator

variable {delimiter : Option Bytes}

theorem loadLines_eq (s : NativeLinesIterator) (chunk : Bytes) : s.loadLines chunk =
    { s with
      pending := (LinesGenerator.turn s.delimiter s.pending chunk).2
      ready := (LinesGenerator.turn s.delimiter s.pending chunk).1
      readyIndex := 0 } := by
  have hchunk : (match s.pending with
      | some pending => pending ++ chunk
      | none => chunk) = s.pending.getD [] ++ chunk := by
    cases s.pending <;> rfl
  unfold NativeLinesIterator.loadLines LinesGenerator.turn
  simp only [hchunk]
  cases (partsOf s.delimiter (s.pending.getD [] ++ chunk)).getLast? with
  | none => rfl
  | some last =>
      simp only
      split <;> rfl

theorem takeReady_eq (s : NativeLinesIterator) : s.takeReady =
    match s.ready.drop s.readyIndex with
    | [] => none
    | line :: _ => some (line, { s with readyIndex := s.readyIndex + 1 }) := by
  rw [NativeLinesIterator.takeReady, ← List.head?_drop]
  cases s.ready.drop s.readyIndex <;> rfl

theorem nextIn_related (s : NativeLinesIterator) (hready : s.ready.drop s.readyIndex = []) (hdone : s.done = false)
    (chunks : List Bytes) :
    (s.nextIn chunks).1 = (LinesGenerator.run s.delimiter s.pending chunks).1 ∧
      LinesRelated s.delimiter (s.nextIn chunks).2 (LinesGenerator.run s.delimiter s.pending chunks).2 := by
  induction chunks generalizing s with
  | nil =>
      obtain ⟨content, delimiter, taken, pending, ready, index, done⟩ := s
      cases pending with
      | none => exact ⟨rfl, .ended content ready (some []) index .finished hready (.inr rfl)⟩
      | some line => exact ⟨rfl, .ended content ready (some []) index .leaving hready (.inl rfl)⟩
  | cons chunk rest ih =>
      rw [NativeLinesIterator.nextIn, LinesGenerator.run, takeReady_eq, loadLines_eq]
      cases hturn : LinesGenerator.turn s.delimiter s.pending chunk with
      | mk lines pending =>
          cases lines with
          | nil => exact ih { s with pending, ready := [], readyIndex := 0 } rfl hdone
          | cons line lines =>
              refine ⟨rfl, ?_⟩
              have hrelated : LinesRelated s.delimiter _ (.yielding ((line :: lines).drop 1) pending rest) :=
                .yielding s.content (line :: lines) pending 1 rest
              simpa [hdone] using hrelated

/-- The answers are the same to any call, and the two still stand at the same place. -/
theorem lines_related {s : NativeLinesIterator} {generator : LinesGenerator} (h : LinesRelated delimiter s generator)
    (call : Call) : (nativeLines.call s call).1 = ((iterLines delimiter).call generator call).1 ∧
      LinesRelated delimiter (nativeLines.call s call).2 ((iterLines delimiter).call generator call).2 := by
  cases call with
  | next =>
      cases h with
      | created content =>
          exact nextIn_related { content, delimiter } rfl rfl content
      | yielding content ready pending index rest =>
          cases hready : ready.drop index with
          | nil =>
              have hnext : NativeLinesIterator.next ⟨content, delimiter, some rest, pending, ready, index, false⟩ =
                  NativeLinesIterator.nextIn ⟨content, delimiter, some rest, pending, ready, index, false⟩ rest := by
                rw [NativeLinesIterator.next, takeReady_eq, hready]
                rfl
              change (NativeLinesIterator.next _).1 = _ ∧ LinesRelated _ (NativeLinesIterator.next _).2 _
              rw [hnext]
              exact nextIn_related _ hready rfl rest
          | cons line lines =>
              have hnext : NativeLinesIterator.next ⟨content, delimiter, some rest, pending, ready, index, false⟩ =
                  (.chunk line, ⟨content, delimiter, some rest, pending, ready, index + 1, false⟩) := by
                rw [NativeLinesIterator.next, takeReady_eq, hready]
              have hdrop : ready.drop (index + 1) = lines := by rw [← List.drop_drop, hready]; rfl
              change (NativeLinesIterator.next _).1 = _ ∧ LinesRelated _ (NativeLinesIterator.next _).2 _
              rw [hnext]
              exact ⟨rfl, hdrop ▸ .yielding content ready pending (index + 1) rest⟩
      | ended content ready chunks index generator hready hgenerator =>
          have hnext : NativeLinesIterator.next ⟨content, delimiter, chunks, none, ready, index, true⟩ =
              (.stopIteration, ⟨content, delimiter, chunks, none, ready, index, true⟩) := by
            rw [NativeLinesIterator.next, takeReady_eq, hready]
            rfl
          have hother : (iterLines delimiter).call generator .next = (.stopIteration, .finished) := by
            obtain rfl | rfl := hgenerator <;> rfl
          change (NativeLinesIterator.next _).1 = _ ∧ LinesRelated _ (NativeLinesIterator.next _).2 _
          rw [hnext, hother]
          exact ⟨rfl, .ended content ready chunks index .finished hready (.inr rfl)⟩
  | close =>
      refine ⟨rfl, ?_⟩
      have hdelimiter : s.delimiter = delimiter := by cases h <;> rfl
      obtain ⟨content, delimiter', chunks, pending, ready, index, done⟩ := s
      obtain rfl : delimiter' = delimiter := hdelimiter
      exact .ended content [] none index .finished List.drop_nil (.inr rfl)

theorem observe_lines_eq (delimiter : Option Bytes) (content : List Bytes) (calls : List Call) :
    nativeLines.observe { content, delimiter } calls = (iterLines delimiter).observe (.created content) calls := by
  apply Reactive.observe_eq_of_related (LinesRelated delimiter)
  · intro s generator call h
    exact lines_related h call
  · exact .created content

theorem closed_lines {s : NativeLinesIterator} (hready : s.ready = []) (hpending : s.pending = none) (hdone : s.done = true)
    (calls : List Call) : ∀ answer ∈ nativeLines.observe s calls, answer = .stopIteration ∨ answer = .closed := by
  induction calls generalizing s with
  | nil => exact nofun
  | cons call rest ih =>
      rw [Reactive.observe, List.forall_mem_cons]
      cases call with
      | next =>
          have hnext : nativeLines.call s .next = (.stopIteration, s) := by
            change s.next = _
            simp [NativeLinesIterator.next, NativeLinesIterator.takeReady, hready, hpending, hdone]
          rw [hnext]
          exact ⟨.inl rfl, ih hready hpending hdone⟩
      | close => exact ⟨.inr rfl, ih rfl rfl rfl⟩

/-- The lines do not depend on the chunks, and the native iterator gives those of the generator, whatever is called. -/
theorem lines_independent_of_chunks :
    (∀ (chunks : List Bytes), (∀ chunk ∈ chunks, chunk ≠ []) → LinesGenerator.KeepsLineEnds chunks → ∀ n,
      nativeLines.observe { content := chunks, delimiter := none } (List.replicate n .next) =
        ((splitlines chunks.flatten).map Seen.chunk ++ List.replicate n Seen.stopIteration).take n) ∧
    (∀ (delimiter : Option Bytes) (chunks : List Bytes) (calls : List Call),
      nativeLines.observe { content := chunks, delimiter } calls =
        (iterLines delimiter).observe (.created chunks) calls) ∧
    (∀ (delimiter : Option Bytes) (chunks : List Bytes) (before after : List Call), ∀ answer ∈ nativeLines.observe
      (nativeLines.after { content := chunks, delimiter } (before ++ [.close])) after,
        answer = .stopIteration ∨ answer = .closed) := by
  refine ⟨?_, observe_lines_eq, ?_⟩
  · intro chunks hne hcuts n
    have hlines : LinesGenerator.linesOf none none chunks = splitlines chunks.flatten :=
      LinesGenerator.linesOf_eq_splitlines hne hcuts (by simp)
    rw [observe_lines_eq, LinesGenerator.observe_next, LinesGenerator.remaining, hlines]
  · intro delimiter chunks before after
    rw [Reactive.after_append]
    exact closed_lines rfl rfl rfl after

theorem lines_of_two_chunks :
    nativeLines.observe { content := [[97], [98, 13, 10, 99]], delimiter := none } (List.replicate 3 .next) =
      [.chunk [97, 98], .chunk [99], .stopIteration] := by
  have hne : ∀ chunk ∈ [[97], [98, 13, 10, 99]], chunk ≠ ([] : Bytes) := by decide
  have hcuts : LinesGenerator.KeepsLineEnds [[97], [98, 13, 10, 99]] := by
    simp [LinesGenerator.KeepsLineEnds]
  rw [lines_independent_of_chunks.1 _ hne hcuts 3]
  decide

/-- A carriage return that is cut off from its line feed ends two lines: the boundaries have to keep line ends. -/
example : nativeLines.observe { content := [[97, 13], [10, 98]], delimiter := none } (List.replicate 4 .next) =
    [.chunk [97], .chunk [], .chunk [98], .stopIteration] := by decide

end RequestsNative.Python
