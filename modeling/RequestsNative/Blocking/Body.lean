import RequestsNative.Response.Body

/-!
# Blocking reads of a response body

`blocking.rs`: the reader over the async body, with its three entry points. A blocking read waits until the
async body is ready, so what it sees of the body is the sequence of items the polls will produce: frames
and then an end or an error. `AsyncBody` is that view, and the section below it ties the view to
`Response.ResponseBody`. An `io::Error` that wraps an error of the client is that error.
-/

namespace RequestsNative.Blocking

open RequestsNative.Response

/-- How the stream of frames ends. -/
inductive Ending
  | eof
  | error (error : Error)
  deriving DecidableEq, Repr

/-- The async body as a reader sees it: what it will produce, and what completion at the declared length
reads. -/
structure AsyncBody where
  frames : List Bytes
  ending : Ending
  receivedBodyBytes : Nat
  declaredCompletionLength : Option Nat
  encodedCompletion : Bool
  terminal : Bool
  deriving DecidableEq, Repr

namespace AsyncBody

def pollNext (body : AsyncBody) : Item × AsyncBody :=
  if body.terminal then (none, body)
  else
    match body.frames with
    | frame :: frames =>
        (some (.ok frame),
          { body with frames, receivedBodyBytes := saturatingAdd body.receivedBodyBytes frame.length })
    | [] =>
        match body.ending with
        | .eof => (none, { body with terminal := true })
        | .error error => (some (.error error), { body with terminal := true })

def finishDeclaredLength (body : AsyncBody) (allowEncodedCompletion : Bool) : AsyncBody :=
  if !body.terminal && (!body.encodedCompletion || allowEncodedCompletion) &&
      body.declaredCompletionLength.any (fun declared => body.receivedBodyBytes == declared) then
    { body with terminal := true }
  else body

theorem pollNext_frames {body body' : AsyncBody} {frame : Bytes}
    (h : body.pollNext = (some (.ok frame), body')) : body.frames = frame :: body'.frames := by
  unfold pollNext at h
  split at h
  · cases h
  · split at h
    · rename_i hframes
      obtain ⟨rfl, rfl⟩ := by simpa only [Prod.mk.injEq, Option.some.injEq, Except.ok.injEq] using h
      exact hframes
    · split at h <;> cases h

/-- The inner loop of every read: the first item that is not an empty frame. -/
def nextFrame (body : AsyncBody) : Item × AsyncBody :=
  match _h : body.pollNext with
  | (some (.ok frame), next) => if frame.isEmpty then nextFrame next else (some (.ok frame), next)
  | result => result
termination_by body.frames.length
decreasing_by
  rw [pollNext_frames _h, List.length_cons]
  exact Nat.lt_succ_self _

theorem nextFrame_frames {body next : AsyncBody} {frame : Bytes}
    (h : body.nextFrame = (some (.ok frame), next)) : next.frames.length < body.frames.length := by
  fun_induction nextFrame body with
  | case1 body frame next hpoll hempty ih =>
      have hshrinks := congrArg List.length (pollNext_frames hpoll)
      have htail := ih h
      rw [List.length_cons] at hshrinks
      omega
  | case2 body frame next hpoll hfull =>
      obtain ⟨rfl, rfl⟩ := by simpa only [Prod.mk.injEq, Option.some.injEq, Except.ok.injEq] using h
      rw [pollNext_frames hpoll, List.length_cons]
      exact Nat.lt_succ_self _
  | case3 body hnone => exact absurd h (hnone _ _)

theorem finishDeclaredLength_frames (body : AsyncBody) (allowEncodedCompletion : Bool) :
    (body.finishDeclaredLength allowEncodedCompletion).frames = body.frames := by
  unfold finishDeclaredLength
  split <;> rfl

end AsyncBody

/-- `blocking::ResponseBody`. -/
structure ResponseBody where
  inner : Option AsyncBody
  remainder : Option Bytes
  pendingError : Option Error
  terminal : Bool
  deriving DecidableEq, Repr

/-- The bytes that fit in a buffer of `size` bytes, and what is left of the frame. -/
def copyFrame (size : Nat) (frame : Bytes) : Bytes × Option Bytes :=
  let read := min size frame.length
  (frame.take read, if read < frame.length then some (frame.drop read) else none)

namespace ResponseBody

/-- `into_body` and `into_raw_body`. -/
def new (body : AsyncBody) : ResponseBody := ⟨some body, none, none, false⟩

def isTerminal (self : ResponseBody) : Bool :=
  self.terminal && self.remainder.isNone && self.pendingError.isNone

def finishDeclaredLengthIfBufferEmpty (self : ResponseBody) (allowEncodedCompletion : Bool) : ResponseBody :=
  if self.remainder.isSome then self
  else
    match self.inner with
    | none => self
    | some body =>
        let body := body.finishDeclaredLength allowEncodedCompletion
        if body.terminal then { self with terminal := true, inner := none }
        else { self with inner := some body }

/-- `Read::read` with a buffer of `size` bytes. The result is the bytes put into the buffer. `refused` is
the failure of the runtime driver to run the submitted future. -/
def read (self : ResponseBody) (refused : Option Error) (size : Nat) : Except Error Bytes × ResponseBody :=
  if size = 0 then (.ok [], self)
  else
    match self.remainder with
    | some remainder =>
        let (bytes, remainder) := copyFrame size remainder
        (.ok bytes, { self with remainder }.finishDeclaredLengthIfBufferEmpty false)
    | none =>
        match self.pendingError with
        | some error => (.error error, { self with pendingError := none })
        | none =>
            if self.terminal then (.ok [], self)
            else
              match self.inner with
              | none => (.ok [], { self with terminal := true })
              | some body =>
                  let self := { self with inner := none }
                  match refused with
                  | some error => (.error error, { self with terminal := true })
                  | none =>
                      match body.nextFrame with
                      | (some (.ok frame), body) =>
                          let (bytes, remainder) := copyFrame size frame
                          let body := if remainder.isNone then body.finishDeclaredLength false else body
                          let self := { self with remainder }
                          if body.terminal then (.ok bytes, { self with terminal := true })
                          else (.ok bytes, { self with inner := some body })
                      | (some (.error error), body) =>
                          let self := if body.terminal then self else { self with inner := some body }
                          (.error error, { self with terminal := true })
                      | (none, body) =>
                          let self := if body.terminal then self else { self with inner := some body }
                          (.ok [], { self with terminal := true })

/-- The loop of `read_async_inner`. An error gives the body up. -/
def readLoop (amount : Option Nat) (allowEncodedCompletion fillRequested : Bool) (self : ResponseBody)
    (body : AsyncBody) (output : Bytes) : Except Error (ResponseBody × Bytes) :=
  match _h : body.nextFrame with
  | (some (.ok frame), next) =>
      match amount with
      | some amount =>
          let wanted := amount - output.length
          let read := min wanted frame.length
          let output := output ++ frame.take read
          let self := if read < frame.length then { self with remainder := some (frame.drop read) } else self
          let body := if self.remainder.isNone then next.finishDeclaredLength allowEncodedCompletion else next
          if body.terminal then .ok ({ self with terminal := true }, output)
          else if output.length = amount ∨ fillRequested = false then .ok ({ self with inner := some body }, output)
          else readLoop (some amount) allowEncodedCompletion fillRequested self body output
      | none =>
          let output := output ++ frame
          let body := next.finishDeclaredLength allowEncodedCompletion
          if body.terminal then .ok ({ self with terminal := true }, output)
          else readLoop none allowEncodedCompletion fillRequested self body output
  | (some (.error error), _) =>
      let self := { self with terminal := true }
      if output = [] then .error error else .ok ({ self with pendingError := some error }, output)
  | (none, _) => .ok ({ self with terminal := true }, output)
termination_by body.frames.length
decreasing_by
  · have hshrinks := AsyncBody.nextFrame_frames _h
    split <;> split <;> simpa only [AsyncBody.finishDeclaredLength_frames] using hshrinks
  · have hshrinks := AsyncBody.nextFrame_frames _h
    simpa only [AsyncBody.finishDeclaredLength_frames] using hshrinks

/-- The part of `read_async_inner` after the remainder. -/
def readRest (amount : Option Nat) (allowEncodedCompletion fillRequested : Bool) (self : ResponseBody)
    (output : Bytes) : Except Error (ResponseBody × Bytes) :=
  match self.pendingError with
  | some error => .error error
  | none =>
      if self.terminal then .ok (self, output)
      else
        match self.inner with
        | none => .ok ({ self with terminal := true }, output)
        | some body => { self with inner := none }.readLoop amount allowEncodedCompletion fillRequested body output

def readAsyncInner (self : ResponseBody) (amount : Option Nat) (allowEncodedCompletion fillRequested : Bool) :
    Except Error (ResponseBody × Bytes) :=
  if amount = some 0 then .ok (self, [])
  else
    match self.remainder with
    | none => self.readRest amount allowEncodedCompletion fillRequested []
    | some remainder =>
        match amount with
        | some size =>
            let (output, remainder) := copyFrame size remainder
            let self := { self with remainder }.finishDeclaredLengthIfBufferEmpty allowEncodedCompletion
            if output.length = size then .ok (self, output)
            else self.readRest amount allowEncodedCompletion fillRequested output
        | none =>
            let self := { self with remainder := none }.finishDeclaredLengthIfBufferEmpty allowEncodedCompletion
            self.readRest none allowEncodedCompletion fillRequested remainder

def readAsync (self : ResponseBody) (amount : Option Nat) (allowEncodedCompletion : Bool) :
    Except Error (ResponseBody × Bytes) :=
  self.readAsyncInner amount allowEncodedCompletion true

def readFrameAsync (self : ResponseBody) (maximum : Nat) (allowEncodedCompletion : Bool) :
    Except Error (ResponseBody × Bytes) :=
  self.readAsyncInner (some maximum) allowEncodedCompletion false

def finishEncodedDeclaredLength (self : ResponseBody) : ResponseBody :=
  self.finishDeclaredLengthIfBufferEmpty true

end ResponseBody

end RequestsNative.Blocking
