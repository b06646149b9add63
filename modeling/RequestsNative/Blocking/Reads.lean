import RequestsNative.Lib.Machine
import RequestsNative.Blocking.Body

/-!
# Every sequence of blocking reads

Reads of any kind and size follow one another until an error takes the body away. The invariant `Phase`
says in which of six situations the reader is and what it has returned by then: while it is open, what was
returned, the remainder and the frames still to come make up the whole body, and every closed
situation knows why it closed.
-/

namespace RequestsNative.Blocking

open RequestsNative.Lib RequestsNative.Response

/-- What the async body will do: its frames, its end, and what was declared about its length. -/
structure Script where
  frames : List Bytes
  ending : Ending
  declaredCompletionLength : Option Nat
  encodedCompletion : Bool
  deriving DecidableEq, Repr

namespace Script

def body (script : Script) : AsyncBody :=
  ⟨script.frames, script.ending, 0, script.declaredCompletionLength, script.encodedCompletion, false⟩

/-- All bytes of the body, in order. -/
def bytes (script : Script) : Bytes := script.frames.flatten

end Script

inductive ReadOp
  | read (refused : Option Error) (size : Nat)
  | readAsync (amount : Option Nat) (allowEncodedCompletion : Bool)
  | readFrameAsync (maximum : Nat) (allowEncodedCompletion : Bool)
  | finishEncodedDeclaredLength
  deriving DecidableEq, Repr

namespace ReadOp

/-- The read asks for at least one byte. -/
def WantsBytes : ReadOp → Prop
  | .read _ size => size ≠ 0
  | .readAsync amount _ => amount ≠ some 0
  | .readFrameAsync maximum _ => maximum ≠ 0
  | .finishEncodedDeclaredLength => False

/-- The caller lets an encoded body complete at its declared length. -/
def allowsEncoded : ReadOp → Bool
  | .read _ _ => false
  | .readAsync _ allow | .readFrameAsync _ allow => allow
  | .finishEncodedDeclaredLength => true

/-- The runtime did not run this read. -/
def isRefused : ReadOp → Bool
  | .read refused _ => refused.isSome
  | _ => false

end ReadOp

/-- A consuming read hands the body back, or not. -/
def handBack : Except Error (ResponseBody × Bytes) → Except Error Bytes × Option ResponseBody
  | .ok (body, bytes) => (.ok bytes, some body)
  | .error error => (.error error, none)

/-- `none` is a body given up with an error. -/
def readStep : Option ResponseBody → ReadOp → Option (Except Error Bytes × Option ResponseBody)
  | none, _ => none
  | some body, .read refused size =>
      let (answer, body) := body.read refused size
      some (answer, some body)
  | some body, .readAsync amount allow => some (handBack (body.readAsync amount allow))
  | some body, .readFrameAsync maximum allow => some (handBack (body.readFrameAsync maximum allow))
  | some body, .finishEncodedDeclaredLength => some (.ok [], some body.finishEncodedDeclaredLength)

def readMachine : Machine (Option ResponseBody) ReadOp (Except Error Bytes) := ⟨readStep⟩

abbrev ReadTrace := List (ReadOp × Except Error Bytes)

/-- The bytes an answer carries. -/
def answerBytes : Except Error Bytes → Bytes
  | .ok bytes => bytes
  | .error _ => []

def answerErrors : Except Error Bytes → List Error
  | .ok _ => []
  | .error error => [error]

/-- Everything returned so far. -/
def returned (trace : ReadTrace) : Bytes := trace.flatMap (answerBytes ·.2)

/-- The errors reported so far. -/
def reported (trace : ReadTrace) : List Error := trace.flatMap (answerErrors ·.2)

/-! ### The async body on its way -/

/-- The async body runs and has produced `taken`. -/
structure Taken (script : Script) (taken : Bytes) (body : AsyncBody) : Prop where
  running : body.terminal = false
  ending : body.ending = script.ending
  declared : body.declaredCompletionLength = script.declaredCompletionLength
  encoded : body.encodedCompletion = script.encodedCompletion
  bytes : taken ++ body.frames.flatten = script.bytes
  received : body.receivedBodyBytes = min taken.length u64Max

/-- The async body was completed because it had produced exactly its declared length; for an encoded
body this takes the caller's word. -/
def CutAt (script : Script) (taken : Bytes) (allowed : Prop) : Prop :=
  script.declaredCompletionLength = some (min taken.length u64Max) ∧
    (script.encodedCompletion = false ∨ allowed)

theorem taken_body (script : Script) : Taken script [] script.body :=
  ⟨rfl, rfl, rfl, rfl, rfl, rfl⟩

theorem Taken.isPrefix {script : Script} {taken : Bytes} {body : AsyncBody} (h : Taken script taken body) :
    taken <+: script.bytes := ⟨_, h.bytes⟩

/-- One poll of a running body: its next frame, or its ending after all of its frames. -/
theorem Taken.pollNext {script : Script} {taken : Bytes} {body : AsyncBody} (h : Taken script taken body) :
    (∃ frame next, body.pollNext = (some (.ok frame), next) ∧ Taken script (taken ++ frame) next) ∨
      (∃ next, body.pollNext = (none, next) ∧ next.terminal = true ∧ script.ending = .eof ∧ taken = script.bytes) ∨
      (∃ error next, body.pollNext = (some (.error error), next) ∧ next.terminal = true ∧
        script.ending = .error error ∧ taken = script.bytes) := by
  have hbytes := h.bytes
  have hending := h.ending
  unfold AsyncBody.pollNext
  rw [if_neg (by simp [h.running])]
  split
  · rename_i frame frames hframes
    rw [hframes, List.flatten_cons, ← List.append_assoc] at hbytes
    refine .inl ⟨frame, _, rfl, h.running, h.ending, h.declared, h.encoded, hbytes, ?_⟩
    simp only [saturatingAdd, h.received, List.length_append]
    omega
  · rename_i hframes
    rw [hframes, List.flatten_nil, List.append_nil] at hbytes
    split
    · rename_i heof
      exact .inr (.inl ⟨_, rfl, rfl, hending.symm.trans heof, hbytes⟩)
    · rename_i error herror
      exact .inr (.inr ⟨error, _, rfl, rfl, hending.symm.trans herror, hbytes⟩)

theorem Taken.nextFrame {script : Script} {taken : Bytes} {body : AsyncBody} (h : Taken script taken body) :
    (∃ frame next, frame ≠ [] ∧ body.nextFrame = (some (.ok frame), next) ∧ Taken script (taken ++ frame) next) ∨
      (∃ next, body.nextFrame = (none, next) ∧ next.terminal = true ∧ script.ending = .eof ∧ taken = script.bytes) ∨
      (∃ error next, body.nextFrame = (some (.error error), next) ∧ next.terminal = true ∧
        script.ending = .error error ∧ taken = script.bytes) := by
  fun_induction AsyncBody.nextFrame body with
  | case1 body frame next hpoll hempty ih =>
      -- an empty frame leaves what was taken as it is
      rcases h.pollNext with ⟨frame', next', heq, htaken⟩ | ⟨next', heq, -⟩ | ⟨error, next', heq, -⟩ <;>
        rw [hpoll] at heq <;> cases heq
      rw [List.isEmpty_iff.mp hempty, List.append_nil] at htaken
      exact ih htaken
  | case2 body frame next hpoll hfull =>
      rcases h.pollNext with ⟨frame', next', heq, htaken⟩ | ⟨next', heq, -⟩ | ⟨error, next', heq, -⟩ <;>
        rw [hpoll] at heq <;> cases heq
      exact .inl ⟨frame, next, by simpa using hfull, rfl, htaken⟩
  | case3 body hother =>
      rcases h.pollNext with ⟨frame', next', heq, -⟩ | hend | herror
      · exact absurd heq (hother _ _)
      · exact .inr (.inl hend)
      · exact .inr (.inr herror)

theorem Taken.nextFrame_ok {script : Script} {taken frame : Bytes} {body next : AsyncBody}
    (h : Taken script taken body) (heq : body.nextFrame = (some (.ok frame), next)) :
    frame ≠ [] ∧ Taken script (taken ++ frame) next := by
  rcases h.nextFrame with ⟨_, _, hfull, hnext, htaken⟩ | ⟨_, hnext, -⟩ | ⟨_, _, hnext, -⟩ <;>
    rw [heq] at hnext <;> cases hnext
  exact ⟨hfull, htaken⟩

theorem Taken.nextFrame_error {script : Script} {taken : Bytes} {error : Error} {body next : AsyncBody}
    (h : Taken script taken body) (heq : body.nextFrame = (some (.error error), next)) :
    next.terminal = true ∧ script.ending = .error error ∧ taken = script.bytes := by
  rcases h.nextFrame with ⟨_, _, -, hnext, -⟩ | ⟨_, hnext, -⟩ | ⟨_, _, hnext, herror⟩ <;>
    rw [heq] at hnext <;> cases hnext
  exact herror

theorem Taken.nextFrame_none {script : Script} {taken : Bytes} {body next : AsyncBody}
    (h : Taken script taken body) (heq : body.nextFrame = (none, next)) :
    next.terminal = true ∧ script.ending = .eof ∧ taken = script.bytes := by
  rcases h.nextFrame with ⟨_, _, -, hnext, -⟩ | ⟨_, hnext, hend⟩ | ⟨_, _, hnext, -⟩ <;>
    rw [heq] at hnext <;> cases hnext
  exact hend

theorem Taken.finishDeclaredLength {script : Script} {taken : Bytes} {body : AsyncBody}
    (h : Taken script taken body) (allow : Bool) :
    body.finishDeclaredLength allow = body ∨
      ((body.finishDeclaredLength allow).terminal = true ∧ CutAt script taken (allow = true)) := by
  unfold AsyncBody.finishDeclaredLength
  split
  · rename_i hguard
    simp only [Bool.and_eq_true, Bool.or_eq_true, Bool.not_eq_true'] at hguard
    refine .inr ⟨rfl, ?_, by rw [← h.encoded]; exact hguard.1.2⟩
    rw [← h.declared, ← h.received]
    cases hdeclared : body.declaredCompletionLength with
    | none => simp [hdeclared] at hguard
    | some declared =>
        have hreceived : body.receivedBodyBytes = declared := by simpa [hdeclared] using hguard.2
        rw [hreceived]
  · exact .inl rfl

/-! ### One read of an open body -/

/-- A reader that polls no more. -/
def ResponseBody.closed (pendingError : Option Error) : ResponseBody := ⟨none, none, pendingError, true⟩

/-- What a read of an open body can do, when `before` was returned before it. -/
inductive Outcome (script : Script) (before : Bytes) (allowed wants : Prop) :
    Except Error Bytes × Option ResponseBody → Prop
  | goesOn {bytes : Bytes} {remainder : Option Bytes} {body : AsyncBody} :
      Taken script (before ++ bytes ++ remainder.getD []) body → remainder ≠ some [] → (wants → bytes ≠ []) →
        Outcome script before allowed wants (.ok bytes, some ⟨some body, remainder, none, false⟩)
  | ends {bytes : Bytes} : script.ending = .eof → before ++ bytes = script.bytes →
      Outcome script before allowed wants (.ok bytes, some (.closed none))
  | keepsError {bytes : Bytes} {error : Error} : script.ending = .error error → before ++ bytes = script.bytes →
      bytes ≠ [] → Outcome script before allowed wants (.ok bytes, some (.closed (some error)))
  | fails {error : Error} {state : Option ResponseBody} : script.ending = .error error → before = script.bytes →
      (∀ body ∈ state, body = .closed none) → Outcome script before allowed wants (.error error, state)
  | cuts {bytes : Bytes} : before ++ bytes <+: script.bytes → CutAt script (before ++ bytes) allowed →
      (wants → bytes ≠ []) → Outcome script before allowed wants (.ok bytes, some (.closed none))

theorem Taken.afterFrame {script : Script} {before bytes : Bytes} {body : AsyncBody}
    {wants : Prop} (h : Taken script (before ++ bytes) body) (allow : Bool) (hbytes : wants → bytes ≠ []) :
    ((body.finishDeclaredLength allow).terminal = true ∧
      Outcome script before (allow = true) wants (.ok bytes, some (.closed none))) ∨
    (body.finishDeclaredLength allow = body ∧ body.terminal = false ∧
      Outcome script before (allow = true) wants (.ok bytes, some ⟨some body, none, none, false⟩)) := by
  rcases h.finishDeclaredLength allow with hsame | ⟨hterminal, hcut⟩
  · refine .inr ⟨hsame, h.running, .goesOn ?_ (by simp) hbytes⟩
    simpa using h
  · exact .inl ⟨hterminal, .cuts h.isPrefix hcut hbytes⟩

/-- Reading on ends where the async body ends, at its declared length, or at the amount asked for. -/
theorem Taken.readLoop {script : Script} {before output : Bytes} {body : AsyncBody}
    (h : Taken script (before ++ output) body) (amount : Option Nat) (allow fill : Bool) (wants : Prop)
    (hroom : ∀ size, amount = some size → output.length < size) :
    Outcome script before (allow = true) wants
      (handBack (ResponseBody.readLoop amount allow fill ⟨none, none, none, false⟩ body output)) := by
  induction hlength : body.frames.length using Nat.strong_induction_on generalizing body output with
  | _ length ih =>
      rw [ResponseBody.readLoop]
      split
      · rename_i frame next heq
        obtain ⟨hfull, htaken⟩ := h.nextFrame_ok heq
        have hshrinks := AsyncBody.nextFrame_frames heq
        rw [List.append_assoc] at htaken
        have hnonempty : wants → output ++ frame ≠ [] := fun _ => by simp [hfull]
        split
        · rename_i size
          have hwanted := hroom size rfl
          by_cases hfits : frame.length ≤ size - output.length
          · -- the whole frame goes out
            have hmin : min (size - output.length) frame.length = frame.length := by omega
            simp only [hmin, List.take_length, lt_irrefl, if_false, Option.isNone_none, if_true]
            rcases htaken.afterFrame allow hnonempty with ⟨hterminal, hcut⟩ | ⟨hsame, hrunning, hgoes⟩
            · rw [if_pos hterminal]
              exact hcut
            · rw [hsame, if_neg (by simp [hrunning])]
              split
              · exact hgoes
              · rename_i hmore
                refine ih _ (hlength ▸ hshrinks) htaken ?_ rfl
                intro _ hsize
                obtain rfl := Option.some.inj hsize
                simp only [List.length_append, not_or] at hmore ⊢
                omega
          · -- the rest of the frame stays behind as the remainder
            have hmin : min (size - output.length) frame.length = size - output.length := by omega
            have hfilled : (output ++ frame.take (size - output.length)).length = size := by
              rw [List.length_append, List.length_take]
              omega
            have hleft : frame.drop (size - output.length) ≠ [] := by
              rw [ne_eq, List.drop_eq_nil_iff]
              exact hfits
            simp only [hmin, if_pos (not_le.mp hfits), Option.isNone_some, Bool.false_eq_true, if_false,
              htaken.running, hfilled, true_or, if_true]
            refine .goesOn ?_ (by simpa using hleft) fun _ hnil => ?_
            · simpa [List.append_assoc] using htaken
            · rw [hnil, List.length_nil] at hfilled
              omega
        · simp only
          rcases htaken.afterFrame allow hnonempty with ⟨hterminal, hcut⟩ | ⟨hsame, hrunning, -⟩
          · rw [if_pos hterminal]
            exact hcut
          · rw [hsame, if_neg (by simp [hrunning])]
            exact ih _ (hlength ▸ hshrinks) htaken (by simp) rfl
      · rename_i error next heq
        obtain ⟨-, hending, hall⟩ := h.nextFrame_error heq
        simp only
        split
        · rename_i hnone
          rw [hnone, List.append_nil] at hall
          exact .fails hending hall (by simp)
        · rename_i hsome
          exact .keepsError hending hall hsome
      · rename_i next heq
        obtain ⟨-, hending, hall⟩ := h.nextFrame_none heq
        exact .ends hending hall

/-- Copying splits the frame; something is left over only if the buffer is full. -/
theorem copyFrame_spec (size : Nat) {frame : Bytes} (hframe : frame ≠ []) :
    (copyFrame size frame).1 ++ (copyFrame size frame).2.getD [] = frame ∧ (copyFrame size frame).2 ≠ some [] ∧
      (size ≠ 0 → (copyFrame size frame).1 ≠ []) ∧ (copyFrame size frame).1.length ≤ size ∧
      ((copyFrame size frame).2 ≠ none → (copyFrame size frame).1.length = size) := by
  have hpos := List.length_pos_iff.mpr hframe
  simp only [copyFrame]
  split
  · refine ⟨List.take_append_drop _ _, ?_, ?_, ?_, ?_⟩
    · simp only [ne_eq, Option.some.injEq, List.drop_eq_nil_iff]
      omega
    · simp only [ne_eq, List.take_eq_nil_iff, not_or]
      exact fun hsize => ⟨by omega, hframe⟩
    · rw [List.length_take]
      omega
    · rw [List.length_take]
      omega
  · have hall : min size frame.length = frame.length := by omega
    rw [hall, List.take_length]
    exact ⟨List.append_nil _, by simp, fun _ => hframe, by omega, by simp⟩

theorem Taken.finishIfBufferEmpty {script : Script} {before bytes : Bytes} {remainder : Option Bytes}
    {body : AsyncBody} (h : Taken script (before ++ bytes ++ remainder.getD []) body) (allow : Bool) :
    ResponseBody.finishDeclaredLengthIfBufferEmpty ⟨some body, remainder, none, false⟩ allow =
        ⟨some body, remainder, none, false⟩ ∨
      (ResponseBody.finishDeclaredLengthIfBufferEmpty ⟨some body, remainder, none, false⟩ allow = .closed none ∧
        remainder = none ∧ before ++ bytes <+: script.bytes ∧ CutAt script (before ++ bytes) (allow = true)) := by
  cases remainder with
  | some left => exact .inl rfl
  | none =>
      simp only [Option.getD_none, List.append_nil] at h
      simp only [ResponseBody.finishDeclaredLengthIfBufferEmpty, Option.isSome_none, Bool.false_eq_true, if_false]
      rcases h.finishDeclaredLength allow with hsame | ⟨hterminal, hcut⟩
      · rw [hsame, if_neg (by simp [h.running])]
        exact .inl rfl
      · rw [if_pos hterminal]
        exact .inr ⟨rfl, trivial, h.isPrefix, hcut⟩

/-- The three consuming reads, on an open body. -/
theorem Taken.readAsyncInner {script : Script} {before : Bytes} {remainder : Option Bytes} {body : AsyncBody}
    (h : Taken script (before ++ remainder.getD []) body) (hremainder : remainder ≠ some [])
    (amount : Option Nat) (allow fill : Bool) :
    Outcome script before (allow = true) (amount ≠ some 0)
      (handBack (ResponseBody.readAsyncInner ⟨some body, remainder, none, false⟩ amount allow fill)) := by
  unfold ResponseBody.readAsyncInner
  split
  · rename_i hzero
    exact .goesOn (by simpa using h) hremainder (fun hwants => absurd hzero hwants)
  · rename_i hamount
    cases remainder with
    | none =>
        refine Taken.readLoop (by simpa using h) amount allow fill _ fun size hsize => ?_
        rw [List.length_nil, Nat.pos_iff_ne_zero]
        rintro rfl
        exact hamount hsize
    | some left =>
        have hleft : left ≠ [] := fun hnil => hremainder (by rw [hnil])
        cases amount with
        | some size =>
            obtain ⟨hsplit, hrest, hwants, hle, hfull⟩ := copyFrame_spec size hleft
            have hbytes : Taken script (before ++ (copyFrame size left).1 ++ (copyFrame size left).2.getD []) body := by
              rw [List.append_assoc, hsplit]
              exact h
            have hsize : size ≠ 0 := fun hzero => hamount (by rw [hzero])
            simp only
            rcases hbytes.finishIfBufferEmpty allow with hsame | ⟨hclosed, -, hfront, hcut⟩
            · rw [hsame]
              split
              · exact .goesOn hbytes hrest fun _ => hwants hsize
              · rename_i hshort
                have hnone : (copyFrame size left).2 = none := by
                  by_contra hsome
                  exact hshort (hfull hsome)
                rw [hnone] at hbytes ⊢
                refine Taken.readLoop (by simpa using hbytes) (some size) allow fill _ ?_
                intro _ heq
                obtain rfl := Option.some.inj heq
                omega
            · rw [hclosed]
              have hnonempty : some size ≠ some 0 → (copyFrame size left).1 ≠ [] := fun _ => hwants hsize
              split
              · exact .cuts hfront hcut hnonempty
              · exact .cuts hfront hcut hnonempty
        | none =>
            have hbytes : Taken script (before ++ left ++ (none : Option Bytes).getD []) body := by simpa using h
            simp only
            rcases hbytes.finishIfBufferEmpty allow with hsame | ⟨hclosed, -, hfront, hcut⟩
            · rw [hsame]
              exact Taken.readLoop (by simpa using hbytes) none allow fill _ (by simp)
            · rw [hclosed]
              exact .cuts hfront hcut fun _ => hleft

theorem Taken.afterCopy {script : Script} {before bytes : Bytes} {remainder : Option Bytes} {body : AsyncBody} {wants : Prop}
    (h : Taken script (before ++ bytes ++ remainder.getD []) body) (hremainder : remainder ≠ some []) (allow : Bool)
    (hwants : wants → bytes ≠ []) :
    Outcome script before (allow = true) wants
      (.ok bytes, some (ResponseBody.finishDeclaredLengthIfBufferEmpty ⟨some body, remainder, none, false⟩ allow)) := by
  rcases h.finishIfBufferEmpty allow with hsame | ⟨hclosed, -, hfront, hcut⟩
  · rw [hsame]
    exact .goesOn h hremainder hwants
  · rw [hclosed]
    exact .cuts hfront hcut hwants

/-- `Read::read` on an open body with nothing left of the last frame. -/
theorem Taken.readNext {script : Script} {before : Bytes} {body : AsyncBody} (h : Taken script before body) {size : Nat}
    (hsize : size ≠ 0) {answer : Except Error Bytes} {self : ResponseBody}
    (hread : ResponseBody.read ⟨some body, none, none, false⟩ none size = (answer, self)) :
    Outcome script before (false = true) (size ≠ 0) (answer, some self) := by
  simp only [ResponseBody.read, if_neg hsize, Bool.false_eq_true, if_false] at hread
  split at hread
  · rename_i frame next heq
    obtain ⟨hfull, hnext⟩ := h.nextFrame_ok heq
    obtain ⟨hsplit, hrest, hwants, -, -⟩ := copyFrame_spec size hfull
    generalize copyFrame size frame = copied at hread hsplit hrest hwants
    obtain ⟨bytes, left⟩ := copied
    simp only at hread hsplit hrest hwants
    cases left with
    | none =>
        simp only [Option.getD_none, List.append_nil] at hsplit
        subst hsplit
        simp only [Option.isNone_none, if_true] at hread
        rcases hnext.afterFrame false hwants with ⟨hterminal, hcut⟩ | ⟨hsame, hrunning, hgoes⟩
        · rw [if_pos hterminal] at hread
          cases hread
          exact hcut
        · rw [hsame, if_neg (by simp [hrunning])] at hread
          cases hread
          exact hgoes
    | some rest =>
        simp only [Option.isNone_some, Bool.false_eq_true, if_false, hnext.running] at hread
        cases hread
        rw [← hsplit, ← List.append_assoc] at hnext
        exact .goesOn hnext hrest hwants
  · rename_i error next heq
    obtain ⟨hterminal, hending, hall⟩ := h.nextFrame_error heq
    simp only [hterminal, if_true] at hread
    cases hread
    exact .fails hending hall (by simp [ResponseBody.closed])
  · rename_i next heq
    obtain ⟨hterminal, hending, hall⟩ := h.nextFrame_none heq
    simp only [hterminal, if_true] at hread
    cases hread
    exact .ends hending (by simpa using hall)

/-- `Read::read` on an open body. A read that needs a frame fails when the runtime refuses it. -/
theorem Taken.read {script : Script} {before : Bytes} {remainder : Option Bytes} {body : AsyncBody}
    (h : Taken script (before ++ remainder.getD []) body) (hremainder : remainder ≠ some [])
    (refused : Option Error) (size : Nat) {answer : Except Error Bytes} {self : ResponseBody}
    (hread : ResponseBody.read ⟨some body, remainder, none, false⟩ refused size = (answer, self)) :
    Outcome script before (false = true) (size ≠ 0) (answer, some self) ∨
      ∃ error, refused = some error ∧ answer = .error error ∧ self = .closed none := by
  by_cases hzero : size = 0
  · rw [ResponseBody.read, if_pos hzero] at hread
    cases hread
    exact .inl (.goesOn (by simpa using h) hremainder (fun hwants => absurd hzero hwants))
  cases remainder with
  | some left =>
      have hleft : left ≠ [] := fun hnil => hremainder (by rw [hnil])
      obtain ⟨hsplit, hrest, hwants, -, -⟩ := copyFrame_spec size hleft
      have hbytes : Taken script (before ++ (copyFrame size left).1 ++ (copyFrame size left).2.getD []) body := by
        rw [List.append_assoc, hsplit]
        exact h
      rw [ResponseBody.read, if_neg hzero] at hread
      obtain ⟨rfl, rfl⟩ := Prod.mk.inj hread
      exact .inl (hbytes.afterCopy hrest false hwants)
  | none =>
      cases refused with
      | some error =>
          rw [ResponseBody.read, if_neg hzero] at hread
          cases hread
          exact .inr ⟨error, rfl, rfl, rfl⟩
      | none => exact .inl (Taken.readNext (by simpa using h) hzero hread)

theorem Taken.step {script : Script} {before : Bytes} {remainder : Option Bytes} {body : AsyncBody}
    (h : Taken script (before ++ remainder.getD []) body) (hremainder : remainder ≠ some []) {op : ReadOp}
    {answer : Except Error Bytes} {next : Option ResponseBody}
    (hstep : readStep (some ⟨some body, remainder, none, false⟩) op = some (answer, next)) :
    Outcome script before (op.allowsEncoded = true) op.WantsBytes (answer, next) ∨
      (op.isRefused = true ∧ (∃ error, answer = .error error) ∧ next = some (.closed none)) := by
  cases op with
  | read refused size =>
      simp only [readStep, Option.some.injEq, Prod.mk.injEq] at hstep
      obtain ⟨rfl, rfl⟩ := hstep
      rcases h.read hremainder refused size rfl with houtcome | ⟨error, rfl, hanswer, hself⟩
      · exact .inl houtcome
      · exact .inr ⟨rfl, ⟨error, hanswer⟩, congrArg some hself⟩
  | readAsync amount allow =>
      rw [← Option.some.inj hstep]
      exact .inl (h.readAsyncInner hremainder amount allow true)
  | readFrameAsync maximum allow =>
      rw [← Option.some.inj hstep]
      have houtcome := h.readAsyncInner hremainder (some maximum) allow false
      simp only [ne_eq, Option.some.injEq] at houtcome
      exact .inl houtcome
  | finishEncodedDeclaredLength =>
      obtain ⟨rfl, rfl⟩ := Prod.mk.inj (Option.some.inj hstep)
      have hbytes : Taken script (before ++ [] ++ remainder.getD []) body := by simpa using h
      rw [ResponseBody.finishEncodedDeclaredLength]
      exact .inl (hbytes.afterCopy hremainder true nofun)

/-! ### Reads of a closed body -/

theorem ResponseBody.read_closed (pendingError refused : Option Error) (size : Nat) :
    (ResponseBody.closed pendingError).read refused size =
      if size = 0 then (.ok [], .closed pendingError)
      else (pendingError.elim (.ok []) .error, .closed none) := by
  unfold ResponseBody.read
  split
  · rfl
  · cases pendingError <;> rfl

theorem ResponseBody.readAsyncInner_closed (pendingError : Option Error) (amount : Option Nat) (allow fill : Bool) :
    (ResponseBody.closed pendingError).readAsyncInner amount allow fill =
      if amount = some 0 then .ok (.closed pendingError, [])
      else pendingError.elim (.ok (.closed none, [])) .error := by
  unfold ResponseBody.readAsyncInner
  split
  · rfl
  · cases pendingError <;> rfl

theorem closed_step {op : ReadOp} {answer : Except Error Bytes} {next : Option ResponseBody}
    (hstep : readStep (some (.closed none)) op = some (answer, next)) :
    answer = .ok [] ∧ next = some (.closed none) := by
  cases op with
  | read refused size =>
      simp only [readStep, ResponseBody.read_closed, Option.elim_none, ite_self, Option.some.injEq,
        Prod.mk.injEq] at hstep
      exact ⟨hstep.1.symm, hstep.2.symm⟩
  | readAsync amount allow =>
      simp only [readStep, ResponseBody.readAsync, ResponseBody.readAsyncInner_closed, Option.elim_none, ite_self,
        handBack, Option.some.injEq, Prod.mk.injEq] at hstep
      exact ⟨hstep.1.symm, hstep.2.symm⟩
  | readFrameAsync maximum allow =>
      simp only [readStep, ResponseBody.readFrameAsync, ResponseBody.readAsyncInner_closed, Option.elim_none,
        ite_self, handBack, Option.some.injEq, Prod.mk.injEq] at hstep
      exact ⟨hstep.1.symm, hstep.2.symm⟩
  | finishEncodedDeclaredLength =>
      obtain ⟨rfl, rfl⟩ := Prod.mk.inj (Option.some.inj hstep)
      exact ⟨rfl, rfl⟩

theorem closed_error_step {error : Error} {op : ReadOp} {answer : Except Error Bytes} {next : Option ResponseBody}
    (hstep : readStep (some (.closed (some error))) op = some (answer, next)) :
    (¬op.WantsBytes ∧ answer = .ok [] ∧ next = some (.closed (some error))) ∨
      (answer = .error error ∧ ∀ body ∈ next, body = .closed none) := by
  cases op with
  | read refused size =>
      simp only [readStep, ResponseBody.read_closed] at hstep
      split at hstep <;> rename_i hsize <;> obtain ⟨rfl, rfl⟩ := Prod.mk.inj (Option.some.inj hstep)
      · exact .inl ⟨fun hwants => hwants hsize, rfl, rfl⟩
      · exact .inr ⟨rfl, fun _ hbody => (Option.some.inj hbody).symm⟩
  | readAsync amount allow =>
      simp only [readStep, ResponseBody.readAsync, ResponseBody.readAsyncInner_closed] at hstep
      split at hstep <;> rename_i hamount <;> obtain ⟨rfl, rfl⟩ := Prod.mk.inj (Option.some.inj hstep)
      · exact .inl ⟨fun hwants => hwants hamount, rfl, rfl⟩
      · exact .inr ⟨rfl, by simp⟩
  | readFrameAsync maximum allow =>
      simp only [readStep, ResponseBody.readFrameAsync, ResponseBody.readAsyncInner_closed, Option.some.injEq] at hstep
      split at hstep <;> rename_i hmaximum <;> obtain ⟨rfl, rfl⟩ := Prod.mk.inj hstep
      · exact .inl ⟨fun hwants => hwants hmaximum, rfl, rfl⟩
      · exact .inr ⟨rfl, by simp⟩
  | finishEncodedDeclaredLength =>
      obtain ⟨rfl, rfl⟩ := Prod.mk.inj (Option.some.inj hstep)
      exact .inl ⟨id, rfl, rfl⟩

/-! ### Whole sequences of reads -/

/-- Some call let an encoded body complete at its declared length. -/
def Allowed (trace : ReadTrace) : Prop := ∃ entry ∈ trace, entry.1.allowsEncoded = true

/-- The runtime refused some read. -/
def Refused (trace : ReadTrace) : Prop := ∃ entry ∈ trace, entry.1.isRefused = true

/-- The situations of a reader, each with what was returned and reported by then. -/
inductive Phase (script : Script) (trace : ReadTrace) : Option ResponseBody → Prop
  | opened {remainder : Option Bytes} {body : AsyncBody} :
      Taken script (returned trace ++ remainder.getD []) body → remainder ≠ some [] → reported trace = [] →
        Phase script trace (some ⟨some body, remainder, none, false⟩)
  | ended : script.ending = .eof → returned trace = script.bytes → reported trace = [] →
      Phase script trace (some (.closed none))
  | failing {error : Error} : script.ending = .error error → returned trace = script.bytes → reported trace = [] →
      Phase script trace (some (.closed (some error)))
  | failed {error : Error} {state : Option ResponseBody} : script.ending = .error error →
      returned trace = script.bytes → reported trace = [error] → (∀ body ∈ state, body = .closed none) →
        Phase script trace state
  | cut : returned trace <+: script.bytes → CutAt script (returned trace) (Allowed trace) →
      reported trace = [] → Phase script trace (some (.closed none))
  | refused : returned trace <+: script.bytes → Refused trace → (reported trace).length = 1 →
      Phase script trace (some (.closed none))

theorem returned_snoc (trace : ReadTrace) (op : ReadOp) (answer : Except Error Bytes) :
    returned (trace ++ [(op, answer)]) = returned trace ++ answerBytes answer := by
  simp [returned]

theorem reported_snoc (trace : ReadTrace) (op : ReadOp) (answer : Except Error Bytes) :
    reported (trace ++ [(op, answer)]) = reported trace ++ answerErrors answer := by
  simp [reported]

theorem returned_snoc_nil (trace : ReadTrace) (op : ReadOp) :
    returned (trace ++ [(op, .ok [])]) = returned trace := by
  rw [returned_snoc]
  exact List.append_nil _

theorem returned_snoc_error (trace : ReadTrace) (op : ReadOp) (error : Error) :
    returned (trace ++ [(op, .error error)]) = returned trace := by
  rw [returned_snoc]
  exact List.append_nil _

theorem reported_snoc_ok (trace : ReadTrace) (op : ReadOp) (bytes : Bytes) :
    reported (trace ++ [(op, .ok bytes)]) = reported trace := by
  rw [reported_snoc]
  exact List.append_nil _

theorem Outcome.phase {script : Script} {trace : ReadTrace} {op : ReadOp} {answer : Except Error Bytes}
    {next : Option ResponseBody} (hquiet : reported trace = [])
    (h : Outcome script (returned trace) (op.allowsEncoded = true) op.WantsBytes (answer, next)) :
    Phase script (trace ++ [(op, answer)]) next := by
  have hlast : (op, answer) ∈ trace ++ [(op, answer)] := by simp
  cases h with
  | goesOn htaken hremainder _ =>
      refine .opened ?_ hremainder ((reported_snoc_ok ..).trans hquiet)
      rw [returned_snoc]
      exact htaken
  | ends heof hall => exact .ended heof ((returned_snoc ..).trans hall) ((reported_snoc_ok ..).trans hquiet)
  | keepsError herror hall _ =>
      exact .failing herror ((returned_snoc ..).trans hall) ((reported_snoc_ok ..).trans hquiet)
  | fails herror hall hstate =>
      refine .failed herror ((returned_snoc_error ..).trans hall) ?_ hstate
      rw [reported_snoc, hquiet]
      rfl
  | cuts hfront hcut _ =>
      refine .cut ((returned_snoc ..).symm ▸ hfront) ?_ ((reported_snoc_ok ..).trans hquiet)
      rw [returned_snoc]
      exact ⟨hcut.1, hcut.2.imp_right fun hallow => ⟨_, hlast, hallow⟩⟩

/-- A read of a closed body changes nothing. -/
theorem Phase.closed {script : Script} {trace : ReadTrace} {op : ReadOp} {answer : Except Error Bytes}
    {next : Option ResponseBody} (h : Phase script trace (some (.closed none)))
    (hstep : readStep (some (.closed none)) op = some (answer, next)) :
    Phase script (trace ++ [(op, answer)]) next := by
  obtain ⟨rfl, rfl⟩ := closed_step hstep
  have hreturned := returned_snoc_nil trace op
  have hreported := reported_snoc_ok trace op []
  generalize hstate : some (ResponseBody.closed none) = state at h ⊢
  cases h with
  | opened => cases hstate
  | ended heof hall hquiet => exact .ended heof (hreturned.trans hall) (hreported.trans hquiet)
  | failing => cases hstate
  | failed herror hall hreport hclosed => exact .failed herror (hreturned.trans hall) (hreported.trans hreport) hclosed
  | cut hfront hcut hquiet =>
      refine .cut (hreturned ▸ hfront) ?_ (hreported.trans hquiet)
      rw [hreturned]
      refine ⟨hcut.1, hcut.2.imp_right ?_⟩
      exact fun ⟨entry, hmem, hallow⟩ => ⟨entry, List.mem_append_left _ hmem, hallow⟩
  | refused hfront hrefused hone =>
      obtain ⟨entry, hmem, hentry⟩ := hrefused
      exact .refused (hreturned ▸ hfront) ⟨entry, List.mem_append_left _ hmem, hentry⟩ (hreported ▸ hone)

theorem phase_step {script : Script} {trace : ReadTrace} {state next : Option ResponseBody} {op : ReadOp}
    {answer : Except Error Bytes} (h : Phase script trace state) (hstep : readStep state op = some (answer, next)) :
    Phase script (trace ++ [(op, answer)]) next := by
  cases h with
  | opened htaken hremainder hquiet =>
      rcases htaken.step hremainder hstep with houtcome | ⟨hrefused, ⟨error, rfl⟩, rfl⟩
      · exact houtcome.phase hquiet
      · refine .refused ?_ ⟨(op, .error error), by simp, hrefused⟩ ?_
        · rw [returned_snoc_error]
          exact (List.prefix_append _ _).trans htaken.isPrefix
        · rw [reported_snoc, hquiet]
          rfl
  | ended heof hall hquiet => exact (Phase.ended heof hall hquiet).closed hstep
  | failing herror hall hquiet =>
      rcases closed_error_step hstep with ⟨-, rfl, rfl⟩ | ⟨rfl, hclosed⟩
      · exact .failing herror ((returned_snoc_nil ..).trans hall) ((reported_snoc_ok ..).trans hquiet)
      · refine .failed herror ((returned_snoc_error ..).trans hall) ?_ hclosed
        rw [reported_snoc, hquiet]
        rfl
  | failed herror hall hreport hclosed =>
      cases state with
      | none => cases hstep
      | some body =>
          obtain rfl := hclosed body rfl
          exact (Phase.failed herror hall hreport hclosed).closed hstep
  | cut hfront hcut hquiet => exact (Phase.cut hfront hcut hquiet).closed hstep
  | refused hfront hrefused hone => exact (Phase.refused hfront hrefused hone).closed hstep

theorem phase_run {script : Script} {trace : ReadTrace} {state : Option ResponseBody}
    (hrun : readMachine.Run (some (.new script.body)) trace state) : Phase script trace state :=
  hrun.induction (Phase script)
    (.opened (show Taken script ([] ++ (none : Option Bytes).getD []) _ from taken_body script) (by simp) rfl)
    fun _ _ _ _ _ _ h hstep => phase_step h hstep

/-- What was returned before a body was completed at a length it does not exceed is all of it. -/
theorem CutAt.whole {script : Script} {taken : Bytes} {allowed : Prop} (h : CutAt script taken allowed)
    (hfront : taken <+: script.bytes)
    (hfits : ∀ declared ∈ script.declaredCompletionLength, script.bytes.length ≤ declared) :
    taken = script.bytes := by
  have hlength := hfits _ h.1
  exact hfront.eq_of_length_le (by omega)

/-- The errors a body that was read to its end has reported. -/
def Ending.errors : Ending → List Error
  | .eof => []
  | .error failure => [failure]

/-- What every sequence of reads guarantees, and what its next read would answer. -/
structure ReadsInOrder (script : Script) (trace : ReadTrace) (state : Option ResponseBody) : Prop where
  inOrder : returned trace <+: script.bytes
  /-- The early return of the pending error discards no remainder. -/
  exclusive : ∀ body ∈ state, body.remainder = none ∨ body.pendingError = none
  oneError : (reported trace).length ≤ 1
  /-- An error is the body's own and comes once, after all of its bytes. -/
  errorLast : ∀ op error next, readStep state op = some (.error error, next) →
    (script.ending = .error error ∧ returned trace = script.bytes ∧ reported trace = []) ∨ op.isRefused = true
  /-- An empty answer comes after all bytes and after the error, if the body was not completed early. -/
  emptyLast : ∀ op next, readStep state op = some (.ok [], next) → op.WantsBytes →
    (returned trace = script.bytes ∧ reported trace = script.ending.errors) ∨
      CutAt script (returned trace) (Allowed trace) ∨ Refused trace
  /-- Early completion costs no byte of a body that is not longer than declared. -/
  emptyWhole : (∀ declared ∈ script.declaredCompletionLength, script.bytes.length ≤ declared) →
    ∀ op next, readStep state op = some (.ok [], next) → op.WantsBytes →
      returned trace = script.bytes ∨ Refused trace

theorem Phase.inOrder {script : Script} {trace : ReadTrace} {state : Option ResponseBody}
    (h : Phase script trace state) : returned trace <+: script.bytes := by
  cases h with
  | opened htaken _ _ => exact (List.prefix_append _ _).trans htaken.isPrefix
  | ended _ hall _ => exact hall ▸ List.prefix_rfl
  | failing _ hall _ => exact hall ▸ List.prefix_rfl
  | failed _ hall _ _ => exact hall ▸ List.prefix_rfl
  | cut hfront _ _ => exact hfront
  | refused hfront _ _ => exact hfront

theorem Phase.emptyLast {script : Script} {trace : ReadTrace} {state next : Option ResponseBody} {op : ReadOp}
    (h : Phase script trace state) (hstep : readStep state op = some (.ok [], next)) (hwants : op.WantsBytes) :
    (returned trace = script.bytes ∧ reported trace = script.ending.errors) ∨
      CutAt script (returned trace) (Allowed trace) ∨ Refused trace := by
  cases h with
  | opened htaken hremainder hquiet =>
      rcases htaken.step hremainder hstep with houtcome | ⟨-, ⟨error, herror⟩, -⟩
      · cases houtcome with
        | goesOn _ _ hbytes => exact absurd rfl (hbytes hwants)
        | ends heof hall => exact .inl ⟨by simpa using hall, by rw [heof]; exact hquiet⟩
        | keepsError _ _ hbytes => exact absurd rfl hbytes
        | cuts _ _ hbytes => exact absurd rfl (hbytes hwants)
      · cases herror
  | ended heof hall hquiet => exact .inl ⟨hall, by rw [heof]; exact hquiet⟩
  | failing _ _ _ =>
      rcases closed_error_step hstep with ⟨hnot, -⟩ | ⟨herror, -⟩
      · exact absurd hwants hnot
      · cases herror
  | failed herror hall hreport _ => exact .inl ⟨hall, by rw [herror]; exact hreport⟩
  | cut _ hcut _ => exact .inr (.inl hcut)
  | refused _ hrefused _ => exact .inr (.inr hrefused)

theorem Phase.errorLast {script : Script} {trace : ReadTrace} {state next : Option ResponseBody} {op : ReadOp}
    {error : Error} (h : Phase script trace state) (hstep : readStep state op = some (.error error, next)) :
    (script.ending = .error error ∧ returned trace = script.bytes ∧ reported trace = []) ∨ op.isRefused = true := by
  have hclosed : state ≠ some (.closed none) := by
    rintro rfl
    cases (closed_step hstep).1
  cases h with
  | opened htaken hremainder hquiet =>
      rcases htaken.step hremainder hstep with houtcome | ⟨hrefused, -, -⟩
      · cases houtcome with
        | fails herror hall _ => exact .inl ⟨herror, hall, hquiet⟩
      · exact .inr hrefused
  | ended _ _ _ => exact absurd rfl hclosed
  | failing herror hall hquiet =>
      rcases closed_error_step hstep with ⟨-, hok, -⟩ | ⟨heq, -⟩
      · cases hok
      · obtain rfl := Except.error.inj heq
        exact .inl ⟨herror, hall, hquiet⟩
  | failed _ _ _ hstate =>
      cases state with
      | none => cases hstep
      | some body => exact absurd (congrArg some (hstate body rfl)) hclosed
  | cut _ _ _ => exact absurd rfl hclosed
  | refused _ _ _ => exact absurd rfl hclosed

theorem reads_in_order {script : Script} {trace : ReadTrace} {state : Option ResponseBody}
    (hrun : readMachine.Run (some (.new script.body)) trace state) : ReadsInOrder script trace state := by
  have hphase := phase_run hrun
  refine ⟨hphase.inOrder, ?_, ?_, fun _ _ _ => hphase.errorLast, fun _ _ => hphase.emptyLast, ?_⟩
  · intro body hbody
    cases hphase with
    | opened _ _ _ => cases hbody; exact .inr rfl
    | ended _ _ _ => cases hbody; exact .inl rfl
    | failing _ _ _ => cases hbody; exact .inl rfl
    | failed _ _ _ hclosed => rw [hclosed body hbody]; exact .inl rfl
    | cut _ _ _ => cases hbody; exact .inl rfl
    | refused _ _ _ => cases hbody; exact .inl rfl
  · cases hphase with
    | opened _ _ hquiet => simp [hquiet]
    | ended _ _ hquiet => simp [hquiet]
    | failing _ _ hquiet => simp [hquiet]
    | failed _ _ hreport _ => simp [hreport]
    | cut _ _ hquiet => simp [hquiet]
    | refused _ _ hone => exact Nat.le_of_eq hone
  · intro hfits op next hstep hwants
    rcases hphase.emptyLast hstep hwants with ⟨hall, -⟩ | hcut | hrefused
    · exact .inl hall
    · exact .inl (hcut.whole hphase.inOrder hfits)
    · exact .inr hrefused

private def resetScript : Script where
  frames := [[1, 2], [], [3]]
  ending := .error (Error.responseBody (text "connection reset"))
  declaredCompletionLength := some 5
  encodedCompletion := false

/-- One byte is read, then the rest, which meets the error; the error comes with the next read. -/
theorem reads_in_order_reset : ∃ trace state,
    readMachine.Run (some (.new resetScript.body)) trace state ∧ returned trace = [1, 2, 3] ∧
      reported trace = resetScript.ending.errors ∧ ReadsInOrder resetScript trace state := by
  have hrun := Machine.run_of_exec (by decide +kernel : readMachine.exec (some (.new resetScript.body))
      [.read none 1, .readAsync none false, .readFrameAsync 0 false, .read none 8] =
    some ([(.read none 1, .ok [1]), (.readAsync none false, .ok [2, 3]), (.readFrameAsync 0 false, .ok []),
      (.read none 8, .error (Error.responseBody (text "connection reset")))], some (.closed none)))
  exact ⟨_, _, hrun, rfl, rfl, reads_in_order hrun⟩

/-- A decoded body of 31 bytes whose wire form is declared to have 30. -/
private def decodedScript : Script where
  frames := [List.replicate 30 97, [98]]
  ending := .eof
  declaredCompletionLength := some 30
  encodedCompletion := true

/-- Completion at the declared length, allowed by the caller, ends the decoded body one byte early. -/
theorem allowed_completion_drops_bytes : ∃ trace state,
    readMachine.Run (some (.new decodedScript.body)) trace state ∧ decodedScript.ending = .eof ∧
      readStep state (.readAsync none true) = some (.ok [], state) ∧ returned trace ≠ decodedScript.bytes := by
  have hrun := Machine.run_of_exec (by decide +kernel : readMachine.exec (some (.new decodedScript.body))
    [.readAsync (some 64) true] =
      some ([(.readAsync (some 64) true, .ok (List.replicate 30 97))], some (.closed none)))
  exact ⟨_, _, hrun, rfl, rfl, by decide⟩

end RequestsNative.Blocking
