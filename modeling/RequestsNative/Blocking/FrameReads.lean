import RequestsNative.Blocking.Reads

/-!
# Reads of one frame

`blocking.rs`: `read_frame_async` is documented to read at most one transport frame, so that a decoder that has enough does
not meet a later end of the body. It shares its loop with `read_async`, so this module runs the loop with a log of what it polls
and says in which states the documentation holds.
-/

namespace RequestsNative.Blocking

open RequestsNative.Lib RequestsNative.Response

/-! ### The loop with a log of its polls -/

/-- `nextFrame` with the items it polled. -/
def AsyncBody.nextFramePolled (body : AsyncBody) : List Item × Item × AsyncBody :=
  match _h : body.pollNext with
  | (some (.ok frame), next) =>
      if frame.isEmpty then
        let (polls, result) := next.nextFramePolled
        (some (.ok frame) :: polls, result)
      else ([some (.ok frame)], some (.ok frame), next)
  | (item, next) => ([item], item, next)
termination_by body.frames.length
decreasing_by
  rw [pollNext_frames _h, List.length_cons]
  exact Nat.lt_succ_self _

theorem AsyncBody.nextFrame_last {body next : AsyncBody} {item : Item} (hpoll : body.pollNext = (item, next))
    (hitem : item ≠ some (.ok [])) : body.nextFrame = (item, next) := by
  rw [nextFrame]
  split
  · rename_i frame after hframe
    obtain ⟨rfl, rfl⟩ := Prod.mk.inj (hpoll.symm.trans hframe)
    have hfull : frame.isEmpty = false := by
      cases frame with
      | nil => exact absurd rfl hitem
      | cons byte rest => rfl
    rw [hfull, if_neg Bool.false_ne_true]
  · exact hpoll

theorem AsyncBody.nextFrame_skip {body next : AsyncBody} (hpoll : body.pollNext = (some (.ok []), next)) :
    body.nextFrame = next.nextFrame := by
  rw [nextFrame]
  split
  · rename_i frame after hframe
    obtain ⟨hnil, rfl⟩ := Prod.mk.inj (hpoll.symm.trans hframe)
    obtain rfl := Except.ok.inj (Option.some.inj hnil)
    rfl
  · rename_i hother
    exact absurd hpoll (hother _ _)

theorem AsyncBody.nextFrame_ne_empty (body : AsyncBody) : body.nextFrame.1 ≠ some (.ok []) := by
  fun_induction nextFrame body with
  | case1 body frame next hpoll hempty ih => exact ih
  | case2 body frame next hpoll hfull =>
      intro hnil
      obtain rfl := Except.ok.inj (Option.some.inj hnil)
      exact hfull rfl
  | case3 body hother => exact fun hnil => hother [] body.pollNext.2 (Prod.ext hnil rfl)

/-- Empty frames and then one item. -/
def EmptyUntil (polls : List Item) (item : Item) : Prop :=
  ∃ empties, (∀ empty ∈ empties, empty = some (.ok [])) ∧ polls = empties ++ [item]

theorem EmptyUntil.ne_nil {polls : List Item} {item : Item} (h : EmptyUntil polls item) : polls ≠ [] := by
  obtain ⟨empties, -, rfl⟩ := h
  simp

/-- The log changes no result, and ends with the item that ended the loop. -/
theorem AsyncBody.nextFramePolled_spec (body : AsyncBody) :
    body.nextFramePolled.2 = body.nextFrame ∧ EmptyUntil body.nextFramePolled.1 body.nextFrame.1 := by
  fun_induction nextFramePolled body with
  | case1 body frame next hpoll hempty polls result hrest ih =>
      obtain rfl := List.isEmpty_iff.mp hempty
      obtain ⟨hresult, empties, hempties, hpolls⟩ := ih
      rw [hrest] at hresult hpolls
      rw [nextFrame_skip hpoll]
      refine ⟨hresult, some (.ok []) :: empties, ?_, congrArg _ hpolls⟩
      exact List.forall_mem_cons.2 ⟨rfl, hempties⟩
  | case2 body frame next hpoll hfull =>
      have hitem : (some (.ok frame) : Item) ≠ some (.ok []) := by
        rintro hnil
        obtain rfl := Except.ok.inj (Option.some.inj hnil)
        exact hfull rfl
      rw [nextFrame_last hpoll hitem]
      exact ⟨rfl, [], by simp, rfl⟩
  | case3 body item next hother hpoll =>
      have hitem : item ≠ some (.ok []) := fun hnil => hother [] hnil
      rw [nextFrame_last hpoll hitem]
      exact ⟨rfl, [], by simp, rfl⟩

theorem AsyncBody.nextFramePolled_result (body : AsyncBody) : body.nextFramePolled.2 = body.nextFrame :=
  body.nextFramePolled_spec.1

namespace ResponseBody

/-- One turn of the loop: what the call returns, or what it goes on with. -/
def loopTurn (amount : Option Nat) (allowEncodedCompletion fillRequested : Bool) (self : ResponseBody) (output : Bytes) :
    Item × AsyncBody → Except Error (ResponseBody × Bytes) ⊕ ResponseBody × AsyncBody × Bytes
  | (some (.ok frame), next) =>
      match amount with
      | some amount =>
          let wanted := amount - output.length
          let read := min wanted frame.length
          let output := output ++ frame.take read
          let self := if read < frame.length then { self with remainder := some (frame.drop read) } else self
          let body := if self.remainder.isNone then next.finishDeclaredLength allowEncodedCompletion else next
          if body.terminal then .inl (.ok ({ self with terminal := true }, output))
          else if output.length = amount ∨ fillRequested = false then .inl (.ok ({ self with inner := some body }, output))
          else .inr (self, body, output)
      | none =>
          let output := output ++ frame
          let body := next.finishDeclaredLength allowEncodedCompletion
          if body.terminal then .inl (.ok ({ self with terminal := true }, output)) else .inr (self, body, output)
  | (some (.error error), _) =>
      let self := { self with terminal := true }
      .inl (if output = [] then .error error else .ok ({ self with pendingError := some error }, output))
  | (none, _) => .inl (.ok ({ self with terminal := true }, output))

theorem readLoop_eq_loopTurn (amount : Option Nat) (allow fill : Bool) (self : ResponseBody) (body : AsyncBody)
    (output : Bytes) : self.readLoop amount allow fill body output =
      match self.loopTurn amount allow fill output body.nextFrame with
      | .inl result => result
      | .inr (self, body, output) => self.readLoop amount allow fill body output := by
  rw [readLoop]
  split
  · rename_i heq
    rw [heq]
    unfold loopTurn
    cases amount with
    | some amount =>
        simp only
        split_ifs <;> rfl
    | none =>
        simp only
        split_ifs <;> rfl
  · rename_i heq
    rw [heq]
    rfl
  · rename_i heq
    rw [heq]
    rfl

theorem loopTurn_frames {amount : Option Nat} {allow fill : Bool} {self self' : ResponseBody} {output output' : Bytes}
    {body body' : AsyncBody} (h : self.loopTurn amount allow fill output body.nextFrame = .inr (self', body', output')) :
    body'.frames.length < body.frames.length := by
  rcases hnext : body.nextFrame with ⟨item, next⟩
  rw [hnext] at h
  rcases item with _ | error | frame
  · cases h
  · cases h
  · have hshrinks := AsyncBody.nextFrame_frames hnext
    cases amount with
    | some amount =>
        simp only [loopTurn] at h
        split_ifs at h <;> cases h <;> simpa only [AsyncBody.finishDeclaredLength_frames] using hshrinks
    | none =>
        simp only [loopTurn] at h
        split_ifs at h
        cases h
        simpa only [AsyncBody.finishDeclaredLength_frames] using hshrinks

/-- `readLoop` with the items it polled. -/
def readLoopPolled (amount : Option Nat) (allowEncodedCompletion fillRequested : Bool) (self : ResponseBody)
    (body : AsyncBody) (output : Bytes) : List Item × Except Error (ResponseBody × Bytes) :=
  match _h : self.loopTurn amount allowEncodedCompletion fillRequested output body.nextFramePolled.2 with
  | .inl result => (body.nextFramePolled.1, result)
  | .inr (self, next, output) =>
      let (more, result) := self.readLoopPolled amount allowEncodedCompletion fillRequested next output
      (body.nextFramePolled.1 ++ more, result)
termination_by body.frames.length
decreasing_by
  rw [AsyncBody.nextFramePolled_result] at _h
  exact loopTurn_frames _h

def readRestPolled (amount : Option Nat) (allowEncodedCompletion fillRequested : Bool) (self : ResponseBody)
    (output : Bytes) : List Item × Except Error (ResponseBody × Bytes) :=
  match self.pendingError with
  | some error => ([], .error error)
  | none =>
      if self.terminal then ([], .ok (self, output))
      else
        match self.inner with
        | none => ([], .ok ({ self with terminal := true }, output))
        | some body => { self with inner := none }.readLoopPolled amount allowEncodedCompletion fillRequested body output

/-- `readAsyncInner` with the items it polled. -/
def readAsyncInnerPolled (self : ResponseBody) (amount : Option Nat) (allowEncodedCompletion fillRequested : Bool) :
    List Item × Except Error (ResponseBody × Bytes) :=
  if amount = some 0 then ([], .ok (self, []))
  else
    match self.remainder with
    | none => self.readRestPolled amount allowEncodedCompletion fillRequested []
    | some remainder =>
        match amount with
        | some size =>
            let (output, remainder) := copyFrame size remainder
            let self := { self with remainder }.finishDeclaredLengthIfBufferEmpty allowEncodedCompletion
            if output.length = size then ([], .ok (self, output))
            else self.readRestPolled amount allowEncodedCompletion fillRequested output
        | none =>
            let self := { self with remainder := none }.finishDeclaredLengthIfBufferEmpty allowEncodedCompletion
            self.readRestPolled none allowEncodedCompletion fillRequested remainder

/-- The items `readFrameAsync` polls. -/
def framePolls (self : ResponseBody) (maximum : Nat) (allowEncodedCompletion : Bool) : List Item :=
  (self.readAsyncInnerPolled (some maximum) allowEncodedCompletion false).1

theorem readLoopPolled_result (amount : Option Nat) (allow fill : Bool) (self : ResponseBody) (body : AsyncBody)
    (output : Bytes) :
    (self.readLoopPolled amount allow fill body output).2 = self.readLoop amount allow fill body output := by
  fun_induction readLoopPolled amount allow fill self body output with
  | case1 self body output result hturn =>
      rw [AsyncBody.nextFramePolled_result] at hturn
      rw [readLoop_eq_loopTurn, hturn]
  | case2 self body output self' next output' hturn more result hrest ih =>
      rw [AsyncBody.nextFramePolled_result] at hturn
      rw [readLoop_eq_loopTurn, hturn]
      rw [hrest] at ih
      exact ih

theorem readRestPolled_result (amount : Option Nat) (allow fill : Bool) (self : ResponseBody) (output : Bytes) :
    (self.readRestPolled amount allow fill output).2 = self.readRest amount allow fill output := by
  obtain ⟨inner, remainder, pendingError, terminal⟩ := self
  cases pendingError with
  | some error => rfl
  | none =>
      cases terminal with
      | true => rfl
      | false =>
          cases inner with
          | none => rfl
          | some body => exact readLoopPolled_result ..

theorem readAsyncInnerPolled_result (self : ResponseBody) (amount : Option Nat) (allow fill : Bool) :
    (self.readAsyncInnerPolled amount allow fill).2 = self.readAsyncInner amount allow fill := by
  obtain ⟨inner, remainder, pendingError, terminal⟩ := self
  by_cases hzero : amount = some 0
  · simp only [readAsyncInnerPolled, readAsyncInner, if_pos hzero]
  · simp only [readAsyncInnerPolled, readAsyncInner, if_neg hzero]
    cases remainder with
    | none => exact readRestPolled_result ..
    | some remainder =>
        cases amount with
        | none => exact readRestPolled_result ..
        | some size =>
            simp only
            split
            · rfl
            · exact readRestPolled_result ..

end ResponseBody

/-! ### One frame at most -/

/-- A read of at most `maximum` bytes that keeps to one frame: the items it polled and what it returned. It polls only while
it has no byte to return. -/
inductive OneFrame (maximum : Nat) (self : ResponseBody) : List Item → Except Error (ResponseBody × Bytes) → Prop
  | buffered {remainder : Bytes} {next : ResponseBody} : self.remainder = some remainder → remainder.take maximum ≠ [] →
      OneFrame maximum self [] (.ok (next, remainder.take maximum))
  | polled {polls : List Item} {frame : Bytes} {next : ResponseBody} : self.remainder = none →
      EmptyUntil polls (some (.ok frame)) → frame.take maximum ≠ [] →
        OneFrame maximum self polls (.ok (next, frame.take maximum))
  | ended {polls : List Item} {next : ResponseBody} : self.remainder = none → polls = [] ∨ EmptyUntil polls none →
      OneFrame maximum self polls (.ok (next, []))
  | failed {polls : List Item} {error : Error} : self.remainder = none → polls = [] ∨ EmptyUntil polls (some (.error error)) →
      OneFrame maximum self polls (.error error)

theorem OneFrame.polls_nil {maximum : Nat} {self : ResponseBody} {polls : List Item}
    {result : Except Error (ResponseBody × Bytes)} (h : OneFrame maximum self polls result) {remainder : Bytes}
    (hremainder : self.remainder = some remainder) : polls = [] := by
  cases h with
  | buffered _ _ => rfl
  | polled hnone _ _ => cases hnone.symm.trans hremainder
  | ended hnone _ => cases hnone.symm.trans hremainder
  | failed hnone _ => cases hnone.symm.trans hremainder

/-- The body stands at its declared length and may end there. -/
def AsyncBody.AtDeclaredLength (body : AsyncBody) (allowEncodedCompletion : Bool) : Prop :=
  body.declaredCompletionLength = some body.receivedBodyBytes ∧ (body.encodedCompletion = false ∨ allowEncodedCompletion = true)

instance (body : AsyncBody) (allow : Bool) : Decidable (body.AtDeclaredLength allow) := inferInstanceAs (Decidable (_ ∧ _))

theorem AsyncBody.finishDeclaredLength_terminal_iff {body : AsyncBody} (hrunning : body.terminal = false) (allow : Bool) :
    (body.finishDeclaredLength allow).terminal = true ↔ body.AtDeclaredLength allow := by
  have hany : body.declaredCompletionLength.any (fun declared => body.receivedBodyBytes == declared) = true ↔
      body.declaredCompletionLength = some body.receivedBodyBytes := by
    cases body.declaredCompletionLength with
    | none => simp
    | some declared =>
        rw [Option.any_some, beq_iff_eq, Option.some.injEq]
        exact eq_comm
  unfold finishDeclaredLength AtDeclaredLength
  split
  · rename_i hguard
    simp only [Bool.and_eq_true, Bool.or_eq_true, Bool.not_eq_true', hany] at hguard
    exact iff_of_true rfl ⟨hguard.2, hguard.1.2⟩
  · rename_i hguard
    simp only [Bool.and_eq_true, Bool.or_eq_true, Bool.not_eq_true', hany, hrunning, true_and, not_and] at hguard
    exact iff_of_false (by simp [hrunning]) fun hat => hguard hat.2 hat.1

theorem loopTurn_frame (self : ResponseBody) (maximum : Nat) (allow : Bool) (output frame : Bytes) (next : AsyncBody) :
    ∃ self', self.loopTurn (some maximum) allow false output (some (.ok frame), next) =
      .inl (.ok (self', output ++ frame.take (maximum - output.length))) := by
  have htake : frame.take (min (maximum - output.length) frame.length) = frame.take (maximum - output.length) := by
    rw [Nat.min_def]
    split
    · rfl
    · rw [List.take_length, List.take_of_length_le (by omega)]
  simp only [ResponseBody.loopTurn, or_true, if_true, htake]
  split_ifs <;> exact ⟨_, rfl⟩

theorem readLoopPolled_last {self : ResponseBody} {amount : Option Nat} {allow fill : Bool} {body : AsyncBody} {output : Bytes}
    {result : Except Error (ResponseBody × Bytes)} (hturn : self.loopTurn amount allow fill output body.nextFrame = .inl result) :
    self.readLoopPolled amount allow fill body output = (body.nextFramePolled.1, result) := by
  rw [← body.nextFramePolled_result] at hturn
  rw [ResponseBody.readLoopPolled]
  split
  · rename_i hsame
    rw [Sum.inl.inj (hsame.symm.trans hturn)]
  · rename_i hmore
    cases hmore.symm.trans hturn

theorem readLoopPolled_oneFrame {start self : ResponseBody} (hstart : start.remainder = none) {maximum : Nat}
    (hmaximum : 0 < maximum) (allow : Bool) (body : AsyncBody) :
    OneFrame maximum start (self.readLoopPolled (some maximum) allow false body []).1
      (self.readLoopPolled (some maximum) allow false body []).2 := by
  have hpolls := body.nextFramePolled_spec.2
  rcases hnext : body.nextFrame with ⟨item, next⟩
  rw [hnext] at hpolls
  rcases item with _ | error | frame
  · rw [readLoopPolled_last (congrArg _ hnext)]
    exact .ended hstart (.inr hpolls)
  · rw [readLoopPolled_last (congrArg _ hnext)]
    exact .failed hstart (.inr hpolls)
  · obtain ⟨self', hturn⟩ := loopTurn_frame self maximum allow [] frame next
    rw [← hnext] at hturn
    rw [readLoopPolled_last hturn]
    refine .polled hstart hpolls ?_
    rw [ne_eq, List.take_eq_nil_iff, not_or]
    refine ⟨Nat.ne_of_gt hmaximum, ?_⟩
    rintro rfl
    exact body.nextFrame_ne_empty (congrArg Prod.fst hnext)

theorem readLoopPolled_polls (self : ResponseBody) (amount : Option Nat) (allow fill : Bool) (body : AsyncBody) (output : Bytes) :
    (self.readLoopPolled amount allow fill body output).1 ≠ [] := by
  have hsome := body.nextFramePolled_spec.2.ne_nil
  rw [ResponseBody.readLoopPolled]
  split
  · exact hsome
  · exact List.append_ne_nil_of_left_ne_nil hsome _

theorem closed_oneFrame (pendingError : Option Error) {maximum : Nat} (hmaximum : 0 < maximum) (allow : Bool) :
    OneFrame maximum (.closed pendingError) ((ResponseBody.closed pendingError).framePolls maximum allow)
      ((ResponseBody.closed pendingError).readFrameAsync maximum allow) := by
  have hzero : (some maximum : Option Nat) ≠ some 0 := by simpa using Nat.ne_of_gt hmaximum
  have hpolled : (ResponseBody.closed pendingError).readAsyncInnerPolled (some maximum) allow false =
      ([], pendingError.elim (.ok (.closed none, [])) .error) := by
    rw [ResponseBody.readAsyncInnerPolled, if_neg hzero]
    cases pendingError <;> rfl
  rw [ResponseBody.framePolls, ResponseBody.readFrameAsync, ← ResponseBody.readAsyncInnerPolled_result, hpolled]
  cases pendingError with
  | none => exact .ended rfl (.inl rfl)
  | some error => exact .failed rfl (.inl rfl)

/-- A read that starts with a remainder: it keeps to one frame if it returns before the loop. -/
theorem remainder_oneFrame_iff {body : AsyncBody} (hrunning : body.terminal = false) {remainder : Bytes}
    (hremainder : remainder ≠ []) {maximum : Nat} (hmaximum : 0 < maximum) (allow : Bool) :
    OneFrame maximum ⟨some body, some remainder, none, false⟩
        (ResponseBody.framePolls ⟨some body, some remainder, none, false⟩ maximum allow)
        (ResponseBody.readFrameAsync ⟨some body, some remainder, none, false⟩ maximum allow) ↔
      maximum ≤ remainder.length ∨ body.AtDeclaredLength allow := by
  have hzero : (some maximum : Option Nat) ≠ some 0 := by simpa using Nat.ne_of_gt hmaximum
  have htake : remainder.take maximum ≠ [] := by
    rw [ne_eq, List.take_eq_nil_iff, not_or]
    exact ⟨Nat.ne_of_gt hmaximum, hremainder⟩
  rw [ResponseBody.framePolls, ResponseBody.readFrameAsync, ← ResponseBody.readAsyncInnerPolled_result,
    ResponseBody.readAsyncInnerPolled, if_neg hzero]
  by_cases hfills : maximum ≤ remainder.length
  · have hmin : min maximum remainder.length = maximum := Nat.min_eq_left hfills
    have hlength : (remainder.take maximum).length = maximum := by rw [List.length_take, hmin]
    simp only [copyFrame, hmin, hlength, if_true]
    exact iff_of_true (.buffered rfl htake) (.inl hfills)
  · have hmin : min maximum remainder.length = remainder.length := Nat.min_eq_right (by omega)
    have hshort : remainder.length ≠ maximum := by omega
    simp only [copyFrame, hmin, List.take_length, lt_irrefl, if_false, hshort, hfills, false_or]
    rw [← body.finishDeclaredLength_terminal_iff hrunning]
    simp only [ResponseBody.finishDeclaredLengthIfBufferEmpty, Option.isSome_none, Bool.false_eq_true, if_false]
    by_cases hfinished : (body.finishDeclaredLength allow).terminal = true
    · rw [if_pos hfinished]
      have hbytes : remainder = remainder.take maximum := (List.take_of_length_le (by omega)).symm
      refine iff_of_true ?_ hfinished
      change OneFrame maximum _ [] (.ok (_, remainder))
      rw [hbytes]
      exact .buffered (congrArg some hbytes.symm) htake
    · rw [if_neg hfinished]
      refine iff_of_false ?_ hfinished
      -- the loop has polled, though there were bytes to return
      intro hframe
      exact readLoopPolled_polls ⟨none, none, none, false⟩ (some maximum) allow false (body.finishDeclaredLength allow)
        remainder (hframe.polls_nil rfl)

/-- A read of one frame keeps to one frame unless it starts with a remainder shorter than what it asks for, of a body that does
not end right there. -/
theorem readFrameAsync_oneFrame_iff {script : Script} {trace : ReadTrace} {state : ResponseBody}
    (hrun : readMachine.Run (some (.new script.body)) trace (some state)) {maximum : Nat} (hmaximum : 0 < maximum)
    (allow : Bool) :
    OneFrame maximum state (state.framePolls maximum allow) (state.readFrameAsync maximum allow) ↔
      ∀ remainder body, state.remainder = some remainder → state.inner = some body →
        maximum ≤ remainder.length ∨ body.AtDeclaredLength allow := by
  have hclosed : ∀ pendingError, state = .closed pendingError →
      (OneFrame maximum state (state.framePolls maximum allow) (state.readFrameAsync maximum allow) ↔
        ∀ remainder body, state.remainder = some remainder → state.inner = some body →
          maximum ≤ remainder.length ∨ body.AtDeclaredLength allow) := by
    rintro pendingError rfl
    exact iff_of_true (closed_oneFrame pendingError hmaximum allow) (by simp [ResponseBody.closed])
  generalize hstate : some state = current at hrun
  cases phase_run hrun with
  | opened htaken hremainder hquiet =>
      rename_i remainder body
      obtain rfl := Option.some.inj hstate
      cases remainder with
      | none =>
          refine iff_of_true ?_ (by simp)
          have hzero : (some maximum : Option Nat) ≠ some 0 := by simpa using Nat.ne_of_gt hmaximum
          rw [ResponseBody.framePolls, ResponseBody.readFrameAsync, ← ResponseBody.readAsyncInnerPolled_result,
            ResponseBody.readAsyncInnerPolled, if_neg hzero]
          exact readLoopPolled_oneFrame rfl hmaximum allow body
      | some remainder =>
          rw [remainder_oneFrame_iff htaken.running (by simpa using hremainder) hmaximum allow]
          simp
  | ended => exact hclosed none (Option.some.inj hstate)
  | failing => exact hclosed _ (Option.some.inj hstate)
  | failed _ _ _ hbody => exact hclosed none (hbody state hstate.symm)
  | cut => exact hclosed none (Option.some.inj hstate)
  | refused => exact hclosed none (Option.some.inj hstate)

/-- Two frames and the end, without a declared length. -/
private def twoFrames : Script where
  frames := [[1, 2, 3], [4, 5]]
  ending := .eof
  declaredCompletionLength := none
  encodedCompletion := false

/-- After two bytes of the first frame, a read of one byte returns the third. -/
theorem readFrameAsync_oneFrame_rest : ∃ trace state, readMachine.Run (some (.new twoFrames.body)) trace (some state) ∧
    state.remainder = some [3] ∧ OneFrame 1 state (state.framePolls 1 false) (state.readFrameAsync 1 false) := by
  have hrun := Machine.run_of_exec (by decide +kernel : readMachine.exec (some (.new twoFrames.body))
    [.readFrameAsync 2 false] = some ([(.readFrameAsync 2 false, .ok [1, 2])],
      some ⟨some { twoFrames.body with frames := [[4, 5]], receivedBodyBytes := 3 }, some [3], none, false⟩))
  refine ⟨_, _, hrun, rfl, (readFrameAsync_oneFrame_iff hrun (by decide) false).2 ?_⟩
  intro remainder body hremainder _
  obtain rfl := Option.some.inj hremainder
  exact .inl (by decide)

/-- A read of two bytes polls the second frame and returns bytes of both. -/
theorem readFrameAsync_two_frames : ∃ trace state, readMachine.Run (some (.new twoFrames.body)) trace (some state) ∧
    state.framePolls 2 false = [some (.ok [4, 5])] ∧
    (state.readFrameAsync 2 false).map Prod.snd = .ok [3, 4] ∧
    ¬ OneFrame 2 state (state.framePolls 2 false) (state.readFrameAsync 2 false) := by
  have hrun := Machine.run_of_exec (by decide +kernel : readMachine.exec (some (.new twoFrames.body))
    [.readFrameAsync 2 false] = some ([(.readFrameAsync 2 false, .ok [1, 2])],
      some ⟨some { twoFrames.body with frames := [[4, 5]], receivedBodyBytes := 3 }, some [3], none, false⟩))
  refine ⟨_, _, hrun, by decide +kernel, by decide +kernel, ?_⟩
  intro hframe
  exact absurd (hframe.polls_nil rfl) (by decide +kernel)

end RequestsNative.Blocking
