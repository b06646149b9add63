import RequestsNative.Lib.Reactive

/-!
# Iterating over content

`response.rs`, `NativeContentIterator`, and the generator of `Response.iter_content` that it stands for. Both read a raw
source: a stream iterator, or a function to read with. The source is a Python object that goes on as it likes, also
after it has raised an error. Both set `_content_consumed` when the source ends. A generator is finished as soon as an
error leaves it; the native iterator keeps its source. A `StopIteration` never leaves a generator, and a native iterator
that raises one has stopped. So the two are the same as long as no one calls `next` after an error, as opening and closing
the stream raise nothing that the generator would translate, and as nothing but the stream raises `StopIteration`.
-/

namespace RequestsNative.Python

open RequestsNative.Lib

/-! ### Errors -/

/-- The classes `iter_content` tells apart, and those the interpreter does. -/
inductive SourceClass
  | protocolError | decodeError | readTimeoutError | sslError | stopIteration | generatorExit
  deriving DecidableEq, Repr

/-- A Python exception. -/
inductive PyErr
  /-- An exception of the source, with the classes it is an instance of. -/
  | raised (classes : List SourceClass) (value : Nat)
  | chunkedEncodingError (original : PyErr)
  | contentDecodingError (original : PyErr)
  | connectionError (original : PyErr)
  | requestsSslError (original : PyErr)
  | runtimeError (original : PyErr)
  deriving DecidableEq, Repr

def PyErr.isa (error : PyErr) (cls : SourceClass) : Bool :=
  match error with
  | .raised classes _ => decide (cls ∈ classes)
  | _ => false

/-- The `except` clauses of `generate`. -/
def exceptClauses (error : PyErr) : PyErr :=
  if error.isa .protocolError then .chunkedEncodingError error
  else if error.isa .decodeError then .contentDecodingError error
  else if error.isa .readTimeoutError then .connectionError error
  else if error.isa .sslError then .requestsSslError error
  else error

/-- How an exception leaves a generator: a `StopIteration` does so as a `RuntimeError`. -/
def PyErr.leaving (error : PyErr) : PyErr := if error.isa .stopIteration then .runtimeError error else error

/-- The table of `map_stream_error`. -/
def streamMappings : List (SourceClass × (PyErr → PyErr)) :=
  [(.protocolError, .chunkedEncodingError), (.decodeError, .contentDecodingError),
    (.readTimeoutError, .connectionError), (.sslError, .requestsSslError)]

def mapStreamError (original : PyErr) : PyErr :=
  match streamMappings.find? fun (source, _) => original.isa source with
  | some (_, target) => target original
  | none => original

theorem mapStreamError_eq (error : PyErr) : mapStreamError error = exceptClauses error := by
  unfold mapStreamError exceptClauses streamMappings
  simp only [List.find?_cons]
  cases error.isa .protocolError <;> cases error.isa .decodeError <;> cases error.isa .readTimeoutError <;>
    cases error.isa .sslError <;> rfl

/-! ### The raw source -/

/-- What `read` answers; a chunk that is false ends the content. -/
inductive ReadStep (Chunk : Type)
  | chunk (chunk : Chunk)
  | empty
  | error (error : PyErr)

inductive CloseStep
  | closed
  /-- There is no method `close`; looking it up raises the error. -/
  | missing (error : PyErr)
  | error (error : PyErr)
  deriving DecidableEq, Repr

/-- `raw`, in any of its states. -/
structure RawSource (Raw Chunk : Type) where
  /-- `hasattr(raw, "stream")`. -/
  hasStream : Raw → Except PyErr Bool × Raw
  /-- `iter(raw.stream(chunk_size, decode_content=True))`. -/
  stream : Raw → Except PyErr Unit × Raw
  /-- `__next__` of that iterator. -/
  next : Raw → Except PyErr Chunk × Raw
  /-- `close` of that iterator. -/
  close : Raw → CloseStep × Raw
  /-- `raw.read(chunk_size)`. -/
  read : Raw → ReadStep Chunk × Raw

inductive Call
  | next | close
  deriving DecidableEq, Repr

/-- What the caller of `__next__` or `close` sees. -/
inductive Seen (Chunk : Type)
  | chunk (chunk : Chunk)
  | stopIteration
  | closed
  | raised (error : PyErr)
  deriving DecidableEq, Repr

section Iterators

variable {Raw Chunk : Type} (source : RawSource Raw Chunk)

/-- An iterator between two calls, with the source and `_content_consumed` of the response. -/
structure Iteration (Raw Position : Type) where
  raw : Raw
  consumed : Bool := false
  position : Position

/-- The answer to a call, and `_content_consumed` after it. -/
abbrev Observed (Chunk : Type) := Seen Chunk × Bool

/-! ### The generator -/

/-- Where the frame of `generate` is suspended. -/
inductive ContentFrame
  | created | streaming | reading | finished
  deriving DecidableEq, Repr

namespace ContentGenerator

variable (it : Iteration Raw ContentFrame)

/-- An error leaves the frame. -/
def raise (raw : Raw) (error : PyErr) : Observed Chunk × Iteration Raw ContentFrame :=
  ((.raised error.leaving, it.consumed), ⟨raw, it.consumed, .finished⟩)

/-- One turn of `yield from`. -/
def yieldFrom (raw : Raw) : Observed Chunk × Iteration Raw ContentFrame :=
  match source.next raw with
  | (.ok chunk, raw) => ((.chunk chunk, it.consumed), ⟨raw, it.consumed, .streaming⟩)
  | (.error error, raw) =>
      if error.isa .stopIteration then ((.stopIteration, true), ⟨raw, true, .finished⟩)
      else raise it raw (exceptClauses error)

/-- One turn of the `while` loop. -/
def readLoop (raw : Raw) : Observed Chunk × Iteration Raw ContentFrame :=
  match source.read raw with
  | (.chunk chunk, raw) => ((.chunk chunk, it.consumed), ⟨raw, it.consumed, .reading⟩)
  | (.empty, raw) => ((.stopIteration, true), ⟨raw, true, .finished⟩)
  | (.error error, raw) => raise it raw error

def next : Observed Chunk × Iteration Raw ContentFrame :=
  match it.position with
  | .created =>
      match source.hasStream it.raw with
      | (.error error, raw) => raise it raw error
      | (.ok true, raw) =>
          match source.stream raw with
          | (.error error, raw) => raise it raw (exceptClauses error)
          | (.ok (), raw) => yieldFrom source it raw
      | (.ok false, raw) => readLoop source it raw
  | .streaming => yieldFrom source it it.raw
  | .reading => readLoop source it it.raw
  | .finished => ((.stopIteration, it.consumed), it)

/-- `GeneratorExit` at the point of suspension; `yield from` closes its iterator first, if it can be closed. A
`StopIteration` from there ends the `yield from` in some versions of the interpreter, and is raised by it in others. -/
def close (stopEnds : Bool) : Observed Chunk × Iteration Raw ContentFrame :=
  match it.position with
  | .streaming =>
      match source.close it.raw with
      | (.closed, raw) | (.missing _, raw) => ((.closed, it.consumed), ⟨raw, it.consumed, .finished⟩)
      | (.error error, raw) =>
          if error.isa .stopIteration ∧ stopEnds then ((.closed, true), ⟨raw, true, .finished⟩)
          -- `close` of a generator expects a `GeneratorExit`
          else if (exceptClauses error).leaving.isa .generatorExit then
            ((.closed, it.consumed), ⟨raw, it.consumed, .finished⟩)
          else raise it raw (exceptClauses error)
  | .created | .reading | .finished => ((.closed, it.consumed), { it with position := .finished })

end ContentGenerator

/-- `generate()`. -/
def generate (stopEnds : Bool) : Reactive (Iteration Raw ContentFrame) Call (Observed Chunk) where
  call it
    | .next => ContentGenerator.next source it
    | .close => ContentGenerator.close source it stopEnds

/-! ### The native iterator -/

inductive ContentSource
  | unstarted | stream | read | done
  deriving DecidableEq, Repr

namespace NativeContentIterator

variable (it : Iteration Raw ContentSource)

/-- What the caller of `__next__` makes of an error. -/
def failNext (error : PyErr) : Seen Chunk := if error.isa .stopIteration then .stopIteration else .raised error

def markConsumed (raw : Raw) : Iteration Raw ContentSource := ⟨raw, true, .done⟩

/-- `start`, with the error it returns if any. -/
def start : Except PyErr Unit × Iteration Raw ContentSource :=
  match source.hasStream it.raw with
  | (.error error, raw) => (.error error, { it with raw })
  | (.ok true, raw) =>
      match source.stream raw with
      | (.error error, raw) => (.error error, { it with raw })
      | (.ok (), raw) => (.ok (), { it with raw, position := .stream })
  | (.ok false, raw) => (.ok (), { it with raw, position := .read })

/-- The rest of `__next__`, when there is a source. -/
def pull : Observed Chunk × Iteration Raw ContentSource :=
  match it.position with
  | .stream =>
      match source.next it.raw with
      | (.ok chunk, raw) => ((.chunk chunk, it.consumed), { it with raw })
      | (.error error, raw) =>
          if error.isa .stopIteration then ((.stopIteration, true), markConsumed raw)
          else ((failNext (mapStreamError error), it.consumed), { it with raw })
  | .read =>
      match source.read it.raw with
      | (.chunk chunk, raw) => ((.chunk chunk, it.consumed), { it with raw })
      | (.empty, raw) => ((.stopIteration, true), markConsumed raw)
      | (.error error, raw) => ((failNext error, it.consumed), { it with raw })
  -- `start` leaves a source, so the last case of the source, `unreachable!()`, is one with `done` here
  | .done | .unstarted => ((.stopIteration, it.consumed), it)

/-- `__next__`. -/
def next : Observed Chunk × Iteration Raw ContentSource :=
  match it.position with
  | .unstarted =>
      match start source it with
      | (.error error, it) => ((failNext error, it.consumed), it)
      | (.ok (), it) => pull source it
  | .stream | .read | .done => pull source it

def close : Observed Chunk × Iteration Raw ContentSource :=
  match it.position with
  | .stream =>
      match source.close it.raw with
      | (.closed, raw) => ((.closed, it.consumed), ⟨raw, it.consumed, .done⟩)
      | (.missing error, raw) | (.error error, raw) => ((.raised error, it.consumed), ⟨raw, it.consumed, .done⟩)
  | .unstarted | .read | .done => ((.closed, it.consumed), { it with position := .done })

end NativeContentIterator

/-- `NativeContentIterator`. -/
def nativeContentIterator : Reactive (Iteration Raw ContentSource) Call (Observed Chunk) where
  call it
    | .next => NativeContentIterator.next source it
    | .close => NativeContentIterator.close source it

/-! ### When the two agree -/

/-- How far a source has been used, and whether the last use of it raised an error. -/
inductive Stage
  | created | streaming | reading
  /-- The stream has raised an error. -/
  | failedStream
  /-- Reading has raised an error. -/
  | failedRead
  /-- Looking for the stream or opening it has raised an error. -/
  | failedStart
  deriving DecidableEq, Repr

/-- What the calls so far have come to. -/
inductive Watch (Raw : Type)
  | watching (stage : Stage) (raw : Raw)
  /-- Both are over; the source is not used any more. -/
  | ended
  /-- A call for which there are two answers. -/
  | apart

/-- The error leaves the generator as it is. -/
def untranslated (error : PyErr) : Bool := (exceptClauses error).leaving = error

def watchStream (raw : Raw) : Watch Raw :=
  match source.next raw with
  | (.ok _, raw) => .watching .streaming raw
  | (.error error, raw) => if error.isa .stopIteration then .ended else .watching .failedStream raw

def watchRead (raw : Raw) : Watch Raw :=
  match source.read raw with
  | (.chunk _, raw) => .watching .reading raw
  | (.empty, _) => .ended
  | (.error error, raw) => if error.isa .stopIteration then .apart else .watching .failedRead raw

/-- Reading after an error. The native iterator still reads, and only a `StopIteration` makes it seem finished. -/
def watchReadAgain (raw : Raw) : Watch Raw :=
  match source.read raw with
  | (.error error, raw) => if error.isa .stopIteration then .watching .failedRead raw else .apart
  | (.chunk _, _) | (.empty, _) => .apart

/-- Starting after an error. -/
def watchStartAgain (raw : Raw) : Watch Raw :=
  match source.hasStream raw with
  | (.error error, raw) => if error.isa .stopIteration then .watching .failedStart raw else .apart
  | (.ok true, raw) =>
      match source.stream raw with
      | (.error error, raw) => if error.isa .stopIteration then .watching .failedStart raw else .apart
      | (.ok (), _) => .apart
  | (.ok false, raw) => watchReadAgain source raw

/-- A call with the source at a stage. -/
def watch (stage : Stage) (raw : Raw) (call : Call) : Watch Raw :=
  match stage, call with
  | .created, .next =>
      match source.hasStream raw with
      | (.error error, raw) => if error.isa .stopIteration then .apart else .watching .failedStart raw
      | (.ok true, raw) =>
          match source.stream raw with
          | (.error error, raw) => if untranslated error then .watching .failedStart raw else .apart
          | (.ok (), raw) => watchStream source raw
      | (.ok false, raw) => watchRead source raw
  | .streaming, .next => watchStream source raw
  | .reading, .next => watchRead source raw
  | .failedStream, .next => .apart
  | .failedRead, .next => watchReadAgain source raw
  | .failedStart, .next => watchStartAgain source raw
  | .streaming, .close =>
      match (source.close raw).1 with
      | .closed => .ended
      | .missing _ => .apart
      | .error error => if untranslated error ∧ error.isa .generatorExit = false then .ended else .apart
  | .failedStream, .close => if (source.close raw).1 = .closed then .ended else .apart
  | .created, .close | .reading, .close | .failedRead, .close | .failedStart, .close => .ended

/-- The calls never come to two answers. -/
def Agrees : Watch Raw → List Call → Prop
  | .apart, _ => False
  | .ended, _ | .watching _ _, [] => True
  | .watching stage raw, call :: rest => Agrees (watch source stage raw call) rest

/-- The states the two iterators are in. -/
inductive Related : Watch Raw → Iteration Raw ContentSource → Iteration Raw ContentFrame → Prop
  | created {raw : Raw} : Related (.watching .created raw) ⟨raw, false, .unstarted⟩ ⟨raw, false, .created⟩
  | streaming {raw : Raw} : Related (.watching .streaming raw) ⟨raw, false, .stream⟩ ⟨raw, false, .streaming⟩
  | reading {raw : Raw} : Related (.watching .reading raw) ⟨raw, false, .read⟩ ⟨raw, false, .reading⟩
  | failedStream {raw left : Raw} : Related (.watching .failedStream raw) ⟨raw, false, .stream⟩ ⟨left, false, .finished⟩
  | failedRead {raw left : Raw} : Related (.watching .failedRead raw) ⟨raw, false, .read⟩ ⟨left, false, .finished⟩
  | failedStart {raw left : Raw} : Related (.watching .failedStart raw) ⟨raw, false, .unstarted⟩ ⟨left, false, .finished⟩
  | ended {raw left : Raw} {consumed : Bool} : Related .ended ⟨raw, consumed, .done⟩ ⟨left, consumed, .finished⟩

/-- What a call comes to: another answer, or the same answer and states that belong together. -/
def Comes (watched : Watch Raw) (native : Observed Chunk × Iteration Raw ContentSource)
    (generator : Observed Chunk × Iteration Raw ContentFrame) : Prop :=
  (watched = .apart ∧ native.1 ≠ generator.1) ∨
    (watched ≠ .apart ∧ native.1 = generator.1 ∧ Related watched native.2 generator.2)

variable {source}

theorem isa_stopIteration_exceptClauses {error : PyErr} (h : error.isa .stopIteration = false) :
    (exceptClauses error).isa .stopIteration = false := by
  unfold exceptClauses
  split_ifs <;> first | rfl | exact h

theorem leaving_of_not_stop {error : PyErr} (h : error.isa .stopIteration = false) : error.leaving = error := by
  rw [PyErr.leaving, h]
  rfl

theorem leaving_ne_of_stop {error : PyErr} (h : error.isa .stopIteration = true) : error.leaving ≠ error := by
  rw [PyErr.leaving, if_pos h]
  intro heq
  cases heq

theorem failNext_of_stop {error : PyErr} (h : error.isa .stopIteration = true) :
    (NativeContentIterator.failNext error : Seen Chunk) = .stopIteration := if_pos h

theorem failNext_of_not_stop {error : PyErr} (h : error.isa .stopIteration = false) :
    (NativeContentIterator.failNext error : Seen Chunk) = .raised error := by
  rw [NativeContentIterator.failNext, h]
  rfl

theorem failNext_eq_iff (error : PyErr) (consumed : Bool) :
    ((NativeContentIterator.failNext error, consumed) : Observed Chunk) = (.raised error.leaving, consumed) ↔
      error.isa .stopIteration = false := by
  cases hstop : error.isa .stopIteration with
  | true => simp [failNext_of_stop hstop]
  | false => simp [failNext_of_not_stop hstop, leaving_of_not_stop hstop]

theorem stop_of_untranslated {error : PyErr} (h : untranslated error = true) : error.isa .stopIteration = false := by
  cases hstop : error.isa .stopIteration with
  | false => rfl
  | true =>
      have hsame : (exceptClauses error).leaving = error := of_decide_eq_true h
      unfold exceptClauses at hsame
      split_ifs at hsame
      case neg => exact absurd hsame (leaving_ne_of_stop hstop)
      all_goals
        rw [leaving_of_not_stop rfl] at hsame
        cases hsame

theorem comes_stream (raw : Raw) :
    Comes (watchStream source raw) (NativeContentIterator.pull source ⟨raw, false, .stream⟩)
      (ContentGenerator.yieldFrom source ⟨raw, false, .streaming⟩ raw) := by
  refine .inr ?_
  unfold watchStream NativeContentIterator.pull ContentGenerator.yieldFrom
  cases source.next raw with
  | mk step raw' =>
      cases step with
      | ok chunk => exact ⟨nofun, rfl, .streaming⟩
      | error error =>
          cases hstop : error.isa .stopIteration with
          | true =>
              simp only [hstop, if_true]
              exact ⟨nofun, trivial, .ended⟩
          | false =>
              have hclauses : (exceptClauses error).isa .stopIteration = false := isa_stopIteration_exceptClauses hstop
              simp only [hstop, Bool.false_eq_true, if_false, mapStreamError_eq]
              exact ⟨nofun, (failNext_eq_iff _ _).mpr hclauses, .failedStream⟩

theorem comes_read (raw : Raw) :
    Comes (watchRead source raw) (NativeContentIterator.pull source ⟨raw, false, .read⟩)
      (ContentGenerator.readLoop source ⟨raw, false, .reading⟩ raw) := by
  unfold watchRead NativeContentIterator.pull ContentGenerator.readLoop
  cases source.read raw with
  | mk step raw' =>
      cases step with
      | chunk chunk => exact .inr ⟨nofun, rfl, .reading⟩
      | empty => exact .inr ⟨nofun, rfl, .ended⟩
      | error error =>
          cases hstop : error.isa .stopIteration with
          | true =>
              simp only [hstop, if_true]
              exact .inl ⟨rfl, fun heq => Bool.noConfusion (hstop.symm.trans ((failNext_eq_iff _ _).mp heq))⟩
          | false =>
              simp only [hstop, Bool.false_eq_true, if_false]
              exact .inr ⟨nofun, (failNext_eq_iff _ _).mpr hstop, .failedRead⟩

/-- A call before any error. -/
theorem comes_created (raw : Raw) :
    Comes (watch source .created raw .next) (NativeContentIterator.next source ⟨raw, false, .unstarted⟩)
      (ContentGenerator.next source ⟨raw, false, .created⟩) := by
  unfold watch NativeContentIterator.next NativeContentIterator.start ContentGenerator.next
  simp only
  cases source.hasStream raw with
  | mk found raw' =>
      cases found with
      | error error =>
          cases hstop : error.isa .stopIteration with
          | true =>
              simp only [hstop, if_true]
              exact .inl ⟨rfl, fun heq => Bool.noConfusion (hstop.symm.trans ((failNext_eq_iff _ _).mp heq))⟩
          | false =>
              simp only [hstop, Bool.false_eq_true, if_false]
              exact .inr ⟨nofun, (failNext_eq_iff _ _).mpr hstop, .failedStart⟩
      | ok found =>
          cases found with
          | false => exact comes_read raw'
          | true =>
              simp only
              cases source.stream raw' with
              | mk opened raw'' =>
                  cases opened with
                  | ok => exact comes_stream raw''
                  | error error =>
                      simp only
                      split
                      · rename_i hsame
                        refine .inr ⟨nofun, ?_, .failedStart⟩
                        have hleaves : (exceptClauses error).leaving = error := of_decide_eq_true hsame
                        rw [ContentGenerator.raise, hleaves, failNext_of_not_stop (stop_of_untranslated hsame)]
                      · rename_i hother
                        refine .inl ⟨rfl, fun heq => hother ?_⟩
                        have hseen : NativeContentIterator.failNext error = Seen.raised (exceptClauses error).leaving :=
                          congrArg Prod.fst heq
                        unfold NativeContentIterator.failNext at hseen
                        split_ifs at hseen
                        exact decide_eq_true (Seen.raised.inj hseen).symm

/-! ### Calls after an error -/

theorem comes_next_failedStream (raw left : Raw) :
    Comes (watch source .failedStream raw .next) (NativeContentIterator.next source ⟨raw, false, .stream⟩)
      (ContentGenerator.next source ⟨left, false, .finished⟩) := by
  refine .inl ⟨rfl, ?_⟩
  unfold NativeContentIterator.next NativeContentIterator.pull ContentGenerator.next
  simp only
  cases source.next raw with
  | mk step raw' =>
      cases step with
      | ok chunk => simp
      | error error =>
          cases hstop : error.isa .stopIteration with
          | true => simp [hstop]
          | false => simp [hstop, mapStreamError_eq, failNext_of_not_stop (isa_stopIteration_exceptClauses hstop)]

theorem comes_readAgain (raw left : Raw) :
    Comes (watchReadAgain source raw) (NativeContentIterator.pull source ⟨raw, false, .read⟩)
      (ContentGenerator.next source ⟨left, false, .finished⟩) := by
  unfold watchReadAgain NativeContentIterator.pull ContentGenerator.next
  simp only
  cases source.read raw with
  | mk step raw' =>
      cases step with
      | chunk chunk => exact .inl ⟨rfl, by simp⟩
      | empty => exact .inl ⟨rfl, by simp⟩
      | error error =>
          cases hstop : error.isa .stopIteration with
          | true =>
              simp only [hstop, if_true, failNext_of_stop hstop]
              exact .inr ⟨nofun, rfl, .failedRead⟩
          | false =>
              simp only [hstop, Bool.false_eq_true, if_false, failNext_of_not_stop hstop]
              exact .inl ⟨rfl, by simp⟩

theorem comes_startAgain (raw left : Raw) :
    Comes (watchStartAgain source raw) (NativeContentIterator.next source ⟨raw, false, .unstarted⟩)
      (ContentGenerator.next source ⟨left, false, .finished⟩) := by
  unfold watchStartAgain NativeContentIterator.next NativeContentIterator.start
  simp only
  cases source.hasStream raw with
  | mk found raw' =>
      cases found with
      | error error =>
          cases hstop : error.isa .stopIteration with
          | true =>
              simp only [hstop, if_true, failNext_of_stop hstop]
              exact .inr ⟨nofun, rfl, .failedStart⟩
          | false =>
              simp only [hstop, Bool.false_eq_true, if_false, failNext_of_not_stop hstop]
              exact .inl ⟨rfl, by simp [ContentGenerator.next]⟩
      | ok found =>
          cases found with
          | false => exact comes_readAgain raw' left
          | true =>
              simp only
              cases source.stream raw' with
              | mk opened raw'' =>
                  cases opened with
                  | ok =>
                      -- the stream is there, so whatever it answers is no silent end
                      have hstream : Comes (watch source .failedStream raw'' .next)
                          (NativeContentIterator.next source ⟨raw'', false, .stream⟩)
                          (ContentGenerator.next source ⟨left, false, .finished⟩) := comes_next_failedStream raw'' left
                      exact hstream
                  | error error =>
                      cases hstop : error.isa .stopIteration with
                      | true =>
                          simp only [hstop, if_true, failNext_of_stop hstop]
                          exact .inr ⟨nofun, rfl, .failedStart⟩
                      | false =>
                          simp only [hstop, Bool.false_eq_true, if_false, failNext_of_not_stop hstop]
                          exact .inl ⟨rfl, by simp [ContentGenerator.next]⟩

/-! ### Closing -/

variable (stopEnds : Bool)

theorem comes_close_stream (raw : Raw) :
    Comes (watch source .streaming raw .close) (NativeContentIterator.close source ⟨raw, false, .stream⟩)
      (ContentGenerator.close source ⟨raw, false, .streaming⟩ stopEnds) := by
  unfold watch NativeContentIterator.close ContentGenerator.close
  simp only
  cases source.close raw with
  | mk step raw' =>
      cases step with
      | closed => exact .inr ⟨nofun, rfl, .ended⟩
      | missing error => exact .inl ⟨rfl, by simp⟩
      | error error =>
          cases hsame : untranslated error with
          | true =>
              have hstop : error.isa .stopIteration = false := stop_of_untranslated hsame
              have hleaves : (exceptClauses error).leaving = error := of_decide_eq_true hsame
              cases hexit : error.isa .generatorExit with
              | true => exact .inl ⟨by simp [hexit], by simp [hstop, hleaves, hexit]⟩
              | false =>
                  refine .inr ⟨by simp [hsame, hexit], ?_, ?_⟩
                  · simp [ContentGenerator.raise, hstop, hleaves, hexit]
                  · simp only [hsame, hexit, hstop, hleaves, ContentGenerator.raise, Bool.false_eq_true, false_and, and_self,
                      if_true, if_false]
                    exact .ended
          | false =>
              have hother : (exceptClauses error).leaving ≠ error := of_decide_eq_false hsame
              refine .inl ⟨by simp [hsame], ?_⟩
              simp only
              split_ifs with hstop hexit
              · simp
              · simp
              · simpa [ContentGenerator.raise] using hother.symm

theorem comes_close_failedStream (raw left : Raw) :
    Comes (watch source .failedStream raw .close) (NativeContentIterator.close source ⟨raw, false, .stream⟩)
      (ContentGenerator.close source ⟨left, false, .finished⟩ stopEnds) := by
  unfold watch NativeContentIterator.close ContentGenerator.close
  simp only
  cases source.close raw with
  | mk step raw' =>
      cases step with
      | closed => exact .inr ⟨nofun, rfl, .ended⟩
      | missing error => exact .inl ⟨rfl, by simp⟩
      | error error => exact .inl ⟨rfl, by simp⟩

theorem comes_call {stage : Stage} {raw : Raw} {native : Iteration Raw ContentSource} {generator : Iteration Raw ContentFrame}
    (h : Related (.watching stage raw) native generator) (call : Call) :
    Comes (watch source stage raw call) ((nativeContentIterator source).call native call)
      ((generate source stopEnds).call generator call) := by
  cases h with
  | created =>
      cases call with
      | next => exact comes_created raw
      | close => exact .inr ⟨nofun, rfl, .ended⟩
  | streaming =>
      cases call with
      | next => exact comes_stream raw
      | close => exact comes_close_stream stopEnds raw
  | reading =>
      cases call with
      | next => exact comes_read raw
      | close => exact .inr ⟨nofun, rfl, .ended⟩
  | failedStream =>
      cases call with
      | next => exact comes_next_failedStream raw _
      | close => exact comes_close_failedStream stopEnds raw _
  | failedRead =>
      cases call with
      | next => exact comes_readAgain raw _
      | close => exact .inr ⟨nofun, rfl, .ended⟩
  | failedStart =>
      cases call with
      | next => exact comes_startAgain raw _
      | close => exact .inr ⟨nofun, rfl, .ended⟩

theorem observe_ended {native : Iteration Raw ContentSource} {generator : Iteration Raw ContentFrame}
    (h : Related .ended native generator) (calls : List Call) :
    (nativeContentIterator source).observe native calls = (generate source stopEnds).observe generator calls := by
  refine Reactive.observe_eq_of_related (Related .ended) ?_ h calls
  rintro _ _ call ⟨⟩
  cases call <;> exact ⟨rfl, .ended⟩

theorem observe_eq_iff {watched : Watch Raw} {native : Iteration Raw ContentSource} {generator : Iteration Raw ContentFrame}
    (h : Related watched native generator) (calls : List Call) :
    (nativeContentIterator source).observe native calls = (generate source stopEnds).observe generator calls ↔
      Agrees source watched calls := by
  induction calls generalizing watched native generator with
  | nil => cases h <;> exact iff_of_true rfl trivial
  | cons call rest ih =>
      cases watched with
      | ended => exact iff_of_true (observe_ended stopEnds h _) trivial
      | apart => cases h
      | watching stage raw =>
          rw [Agrees]
          have hcomes : Comes (watch source stage raw call) _ _ := comes_call stopEnds h call
          obtain ⟨hwatched, hother⟩ | ⟨-, hsame, hrelated⟩ := hcomes
          · rw [hwatched]
            refine iff_of_false (Reactive.observe_cons_ne hother) ?_
            cases rest <;> exact id
          · rw [Reactive.observe_cons_eq_iff hsame]
            exact ih hrelated

/-- Whatever the source does and whatever is called, the native iterator gives the answers of the generator, and sets
`_content_consumed` when the generator does, exactly if `next` asks nothing more of the source after an error, the errors
of opening and closing a stream are the same on both sides, and nothing but the stream raises `StopIteration`. -/
theorem content_iterator_agrees_iff (source : RawSource Raw Chunk) (stopEnds : Bool) (raw : Raw) (calls : List Call) :
    (nativeContentIterator source).observe ⟨raw, false, .unstarted⟩ calls =
      (generate source stopEnds).observe ⟨raw, false, .created⟩ calls ↔ Agrees source (.watching .created raw) calls :=
  observe_eq_iff stopEnds .created calls

end Iterators

/-- A stream that gives a chunk, raises an error, and then ends. -/
private def brokenStream : RawSource Nat Nat where
  hasStream raw := (.ok true, raw)
  stream raw := (.ok (), raw)
  next
    | 0 => (.ok 10, 1)
    | 1 => (.error (.raised [.protocolError] 7), 2)
    | raw => (.error (.raised [.stopIteration] 0), raw)
  close raw := (.closed, raw)
  read raw := (.empty, raw)

/-- After the error the native iterator asks the stream again, finds it at its end and marks the content as consumed. -/
theorem next_after_error_consumes :
    (nativeContentIterator brokenStream).observe ⟨0, false, .unstarted⟩ [.next, .next, .next] =
      [(.chunk 10, false), (.raised (.chunkedEncodingError (.raised [.protocolError] 7)), false), (.stopIteration, true)] ∧
    (generate brokenStream true).observe ⟨0, false, .created⟩ [.next, .next, .next] =
      [(.chunk 10, false), (.raised (.chunkedEncodingError (.raised [.protocolError] 7)), false), (.stopIteration, false)] ∧
    (nativeContentIterator brokenStream).observe ⟨0, false, .unstarted⟩ [.next, .next, .next] ≠
      (generate brokenStream true).observe ⟨0, false, .created⟩ [.next, .next, .next] := by
  decide

end RequestsNative.Python
