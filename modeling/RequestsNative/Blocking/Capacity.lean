import RequestsNative.Blocking.FrameReads

/-!
# The capacity of an adapter pool

`adapters.rs`: a blocking pool has a semaphore with one permit for each connection. A send takes a permit, its response and
its body carry the permit on, and it goes back when nobody carries it any more. The asynchronous reads give it back as soon
as the body is terminal; the synchronous one waits for an empty read.
-/

namespace RequestsNative.Blocking

open RequestsNative.Lib RequestsNative.Response

/-- `PoolPermit`: whether it has a permit of the semaphore. -/
structure PoolPermit where
  permit : Bool
  deriving DecidableEq, Repr

structure AdapterResponseBody where
  inner : ResponseBody
  permit : Option PoolPermit
  deriving DecidableEq, Repr

namespace AdapterResponseBody

def read (self : AdapterResponseBody) (refused : Option Error) (size : Nat) : Except Error Bytes × AdapterResponseBody :=
  match self.inner.read refused size with
  | (.error error, inner) => (.error error, { self with inner })
  | (.ok bytes, inner) =>
      if bytes.length = 0 ∧ size ≠ 0 then (.ok bytes, ⟨inner, none⟩) else (.ok bytes, { self with inner })

/-- The end of `read_async` and `read_frame_async`. -/
def afterRead (permit : Option PoolPermit) (result : Except Error (ResponseBody × Bytes)) :
    Except Error (AdapterResponseBody × Bytes) := do
  let (inner, bytes) ← result
  let permit := if inner.isTerminal then none else permit
  .ok (⟨inner, permit⟩, bytes)

def readAsync (self : AdapterResponseBody) (amount : Option Nat) (allowEncodedCompletion : Bool) :
    Except Error (AdapterResponseBody × Bytes) :=
  afterRead self.permit (self.inner.readAsync amount allowEncodedCompletion)

def readFrameAsync (self : AdapterResponseBody) (maximum : Nat) (allowEncodedCompletion : Bool) :
    Except Error (AdapterResponseBody × Bytes) :=
  afterRead self.permit (self.inner.readFrameAsync maximum allowEncodedCompletion)

def finishEncodedDeclaredLength (self : AdapterResponseBody) : AdapterResponseBody :=
  let inner := self.inner.finishEncodedDeclaredLength
  ⟨inner, if inner.isTerminal then none else self.permit⟩

end AdapterResponseBody

/-- Who carries the permit of a send: its future, the response, or the body. `gone` is a send that failed and a response
that was closed or dropped. -/
inductive Holder
  | sending (permit : PoolPermit)
  | response (inner : AsyncBody) (permit : PoolPermit)
  | body (reader : AdapterResponseBody)
  | gone
  deriving DecidableEq, Repr

inductive HolderOp
  | respond (script : Script)
  | fail (error : Error)
  | intoRawBody
  | read (refused : Option Error) (size : Nat)
  | readAsync (amount : Option Nat) (allowEncodedCompletion : Bool)
  | readFrameAsync (maximum : Nat) (allowEncodedCompletion : Bool)
  | finishEncodedDeclaredLength
  /-- `close` and `close_async`; the permit goes whatever the close of the connection answers. -/
  | close (answer : Except Error Unit)
  /-- The drop of the response or of its body, or of a future that owns them. -/
  | drop
  deriving DecidableEq, Repr

namespace Holder

def hasPermit : Holder → Bool
  | .sending permit | .response _ permit => permit.permit
  | .body reader => reader.permit.any (·.permit)
  | .gone => false

/-- A consuming read hands the body back, or drops it with its permit. -/
def handBack : Except Error (AdapterResponseBody × Bytes) → Except Error Bytes × Holder
  | .ok (reader, bytes) => (.ok bytes, .body reader)
  | .error error => (.error error, .gone)

def step : Holder → HolderOp → Option (Except Error Bytes × Holder)
  | .sending permit, .respond script => some (.ok [], .response script.body permit)
  | .sending _, .fail error => some (.error error, .gone)
  | .response inner permit, .intoRawBody => some (.ok [], .body ⟨.new inner, some permit⟩)
  | .body reader, .read refused size => some ((reader.read refused size).1, .body (reader.read refused size).2)
  | .body reader, .readAsync amount allow => some (handBack (reader.readAsync amount allow))
  | .body reader, .readFrameAsync maximum allow => some (handBack (reader.readFrameAsync maximum allow))
  | .body reader, .finishEncodedDeclaredLength => some (.ok [], .body reader.finishEncodedDeclaredLength)
  | .body _, .close answer => some (answer.map fun _ => [], .gone)
  | .sending _, .drop | .response _ _, .drop | .body _, .drop => some (.ok [], .gone)
  | _, _ => none

end Holder

/-- `AdapterPool`: the permits left in its semaphore, if it has one, and everybody who ever sent. -/
structure AdapterPool where
  semaphore : Option Nat
  holders : List Holder
  deriving DecidableEq, Repr

inductive CapacityOp
  /-- A send gets past `PoolCapacity::acquire`. -/
  | acquire
  | on (id : Nat) (op : HolderOp)
  deriving DecidableEq, Repr

structure CapacityAnswer where
  result : Except Error Bytes
  /-- Whose permit went back to the semaphore. -/
  returned : Option Nat
  deriving DecidableEq, Repr

namespace AdapterPool

def new (maximumIdlePerHost : Nat) (block : Bool) : AdapterPool :=
  ⟨if block && decide (0 < maximumIdlePerHost) then some maximumIdlePerHost else none, []⟩

/-- `PoolCapacity::acquire`; without a permit left the send waits. -/
def acquire (pool : AdapterPool) : Option AdapterPool :=
  match pool.semaphore with
  | none => some { pool with holders := pool.holders ++ [.sending ⟨false⟩] }
  | some 0 => none
  | some (available + 1) => some ⟨some available, pool.holders ++ [.sending ⟨true⟩]⟩

/-- A holder changes; a permit it no longer carries is dropped, which gives it back. -/
def replace (pool : AdapterPool) (id : Nat) (holder next : Holder) (result : Except Error Bytes) : CapacityAnswer × AdapterPool :=
  if holder.hasPermit && !next.hasPermit then
    (⟨result, some id⟩, ⟨pool.semaphore.map (· + 1), pool.holders.set id next⟩)
  else (⟨result, none⟩, { pool with holders := pool.holders.set id next })

def step (pool : AdapterPool) : CapacityOp → Option (CapacityAnswer × AdapterPool)
  | .acquire => pool.acquire.map fun next => (⟨.ok [], none⟩, next)
  | .on id op =>
      match pool.holders[id]? with
      | none => none
      | some holder => (holder.step op).map fun (result, next) => pool.replace id holder next result

/-- The permits that are out. -/
def out (pool : AdapterPool) : Nat := pool.holders.countP Holder.hasPermit

end AdapterPool

def capacityMachine : Machine AdapterPool CapacityOp CapacityAnswer := ⟨AdapterPool.step⟩

abbrev CapacityTrace := List (CapacityOp × CapacityAnswer)

/-- How often the permit of one send went back. -/
def returns (trace : CapacityTrace) (id : Nat) : Nat := trace.countP fun entry => entry.2.returned == some id

/-! ### The reader under a permit -/

/-- The states a reader can be in. -/
def Reachable (inner : ResponseBody) : Prop :=
  ∃ script trace, readMachine.Run (some (.new (Script.body script))) trace (some inner)

theorem Reachable.step {inner inner' : ResponseBody} {op : ReadOp} {answer : Except Error Bytes} (h : Reachable inner)
    (hstep : readStep (some inner) op = some (answer, some inner')) : Reachable inner' := by
  obtain ⟨script, trace, hrun⟩ := h
  exact ⟨script, _, .snoc hrun hstep⟩

theorem Reachable.shape {inner : ResponseBody} (h : Reachable inner) :
    (∃ body remainder, inner = ⟨some body, remainder, none, false⟩ ∧ body.terminal = false ∧ remainder ≠ some []) ∨
      ∃ pendingError, inner = .closed pendingError := by
  obtain ⟨script, trace, hrun⟩ := h
  generalize hstate : some inner = state at hrun
  cases phase_run hrun with
  | opened htaken hremainder _ => exact .inl ⟨_, _, Option.some.inj hstate, htaken.running, hremainder⟩
  | ended => exact .inr ⟨_, Option.some.inj hstate⟩
  | failing => exact .inr ⟨_, Option.some.inj hstate⟩
  | failed _ _ _ hbody => exact .inr ⟨none, hbody inner hstate.symm⟩
  | cut => exact .inr ⟨_, Option.some.inj hstate⟩
  | refused => exact .inr ⟨_, Option.some.inj hstate⟩

theorem Reachable.isTerminal_iff {inner : ResponseBody} (h : Reachable inner) :
    inner.isTerminal = true ↔ inner = .closed none := by
  rcases h.shape with ⟨body, remainder, rfl, -, -⟩ | ⟨pendingError, rfl⟩
  · exact iff_of_false (by simp [ResponseBody.isTerminal]) (by simp [ResponseBody.closed])
  · cases pendingError with
    | none => exact iff_of_true rfl rfl
    | some error => exact iff_of_false (by simp [ResponseBody.isTerminal, ResponseBody.closed]) (by simp [ResponseBody.closed])

theorem Reachable.isTerminal_step {inner inner' : ResponseBody} {op : ReadOp} {answer : Except Error Bytes} (h : Reachable inner)
    (hterminal : inner.isTerminal = true) (hstep : readStep (some inner) op = some (answer, some inner')) :
    inner'.isTerminal = true := by
  rw [h.isTerminal_iff.1 hterminal] at hstep
  rw [Option.some.inj (closed_step hstep).2]
  rfl

/-- The next frame is no error, and not the last one of a body that ends at its declared length, unless some of it stays. -/
def QuietItem (size : Nat) : Item × AsyncBody → Prop
  | (some (.ok frame), next) => size < frame.length ∨ ¬ next.AtDeclaredLength false
  | (some (.error _), _) => False
  | (none, _) => True

instance (size : Nat) : DecidablePred (QuietItem size)
  | (some (.ok _), _) => inferInstanceAs (Decidable (_ ∨ ¬ _))
  | (some (.error _), _) => inferInstanceAs (Decidable False)
  | (none, _) => inferInstanceAs (Decidable True)

/-- A synchronous read that does not end the body with an error or with bytes. -/
def QuietRead (inner : ResponseBody) (refused : Option Error) (size : Nat) : Prop :=
  size = 0 ∨ inner.isTerminal = true ∨
    (∃ remainder ∈ inner.remainder, size < remainder.length ∨ ∀ body ∈ inner.inner, ¬ body.AtDeclaredLength false) ∨
    (inner.remainder = none ∧ inner.pendingError = none ∧ ∀ body ∈ inner.inner, refused = none ∧ QuietItem size body.nextFrame)

instance (inner : ResponseBody) (refused : Option Error) (size : Nat) : Decidable (QuietRead inner refused size) :=
  inferInstanceAs (Decidable (_ ∨ _ ∨ _ ∨ _ ∧ _ ∧ _))

theorem AsyncBody.nextFrame_running {body next : AsyncBody} {frame : Bytes}
    (h : body.nextFrame = (some (.ok frame), next)) : next.terminal = false := by
  have hpoll : ∀ {body next : AsyncBody} {frame : Bytes}, body.pollNext = (some (.ok frame), next) → next.terminal = false := by
    intro body next frame hpoll
    unfold pollNext at hpoll
    split at hpoll
    · cases hpoll
    · rename_i hrunning
      split at hpoll
      · rw [← (Prod.mk.inj hpoll).2]
        simpa using hrunning
      · split at hpoll <;> cases hpoll
  fun_induction nextFrame body with
  | case1 body frame next hempty _ ih => exact ih h
  | case2 body frame next hone _ =>
      obtain ⟨-, rfl⟩ := Prod.mk.inj h
      exact hpoll hone
  | case3 body hother => exact absurd h (hother _ _)

theorem copyFrame_rest_none_iff (size : Nat) (frame : Bytes) : (copyFrame size frame).2 = none ↔ frame.length ≤ size := by
  simp only [copyFrame]
  split
  · exact iff_of_false (by simp) (by omega)
  · exact iff_of_true rfl (by omega)

theorem read_remainder {body : AsyncBody} (hrunning : body.terminal = false) {remainder : Bytes} (hremainder : remainder ≠ [])
    (refused : Option Error) {size : Nat} (hsize : size ≠ 0) :
    ∃ bytes inner, ResponseBody.read ⟨some body, some remainder, none, false⟩ refused size = (.ok bytes, inner) ∧ bytes ≠ [] ∧
      (inner.isTerminal = true ↔ remainder.length ≤ size ∧ body.AtDeclaredLength false) := by
  obtain ⟨-, -, hbytes, -, -⟩ := copyFrame_spec size hremainder
  refine ⟨_, _, by rw [ResponseBody.read, if_neg hsize], hbytes hsize, ?_⟩
  rw [← copyFrame_rest_none_iff, ← body.finishDeclaredLength_terminal_iff hrunning]
  simp only [ResponseBody.finishDeclaredLengthIfBufferEmpty]
  cases (copyFrame size remainder).2 with
  | some rest => exact iff_of_false (by simp [ResponseBody.isTerminal]) (by simp)
  | none =>
      simp only [Option.isSome_none, Bool.false_eq_true, if_false, true_and]
      split
      · exact iff_of_true rfl ‹_›
      · exact iff_of_false (by simp [ResponseBody.isTerminal]) ‹_›

theorem read_frame {body next : AsyncBody} {frame : Bytes} (hnext : body.nextFrame = (some (.ok frame), next)) {size : Nat}
    (hsize : size ≠ 0) :
    ∃ bytes inner, ResponseBody.read ⟨some body, none, none, false⟩ none size = (.ok bytes, inner) ∧ bytes ≠ [] ∧
      (inner.isTerminal = true ↔ frame.length ≤ size ∧ next.AtDeclaredLength false) := by
  have hrunning := AsyncBody.nextFrame_running hnext
  have hframe : frame ≠ [] := by
    rintro rfl
    exact body.nextFrame_ne_empty (congrArg Prod.fst hnext)
  obtain ⟨-, -, hbytes, -, -⟩ := copyFrame_spec size hframe
  rw [← copyFrame_rest_none_iff, ← next.finishDeclaredLength_terminal_iff hrunning]
  simp only [ResponseBody.read, if_neg hsize, Bool.false_eq_true, if_false, hnext]
  cases (copyFrame size frame).2 with
  | some rest =>
      simp only [Option.isNone_some, Bool.false_eq_true, if_false, hrunning]
      exact ⟨_, _, rfl, hbytes hsize, by simp [ResponseBody.isTerminal]⟩
  | none =>
      simp only [Option.isNone_none, if_true, true_and]
      split
      · exact ⟨_, _, rfl, hbytes hsize, iff_of_true rfl ‹_›⟩
      · exact ⟨_, _, rfl, hbytes hsize, iff_of_false (by simp [ResponseBody.isTerminal]) ‹_›⟩

/-- The permit is there exactly as long as the reader is not terminal. -/
def AdapterResponseBody.Follows (self : AdapterResponseBody) : Prop := self.permit.isSome = !self.inner.isTerminal

theorem AdapterResponseBody.read_bytes {self : AdapterResponseBody} {refused : Option Error} {size : Nat} {bytes : Bytes}
    {inner : ResponseBody} (hread : self.inner.read refused size = (.ok bytes, inner)) (hbytes : bytes ≠ []) :
    (self.read refused size).2 = ⟨inner, self.permit⟩ := by
  have hlength : ¬ (bytes.length = 0 ∧ size ≠ 0) := fun hempty => hbytes (List.length_eq_zero_iff.mp hempty.1)
  simp only [read, hread, if_neg hlength]

theorem AdapterResponseBody.follows_bytes_iff {self : AdapterResponseBody} (hpermit : self.permit.isSome = true)
    {refused : Option Error} {size : Nat} {bytes : Bytes} {inner : ResponseBody}
    (hread : self.inner.read refused size = (.ok bytes, inner)) (hbytes : bytes ≠ []) {longer atEnd : Prop}
    (hterminal : inner.isTerminal = true ↔ longer ∧ atEnd) :
    (self.read refused size).2.Follows ↔ ¬ longer ∨ ¬ atEnd := by
  rw [read_bytes hread hbytes, Follows, hpermit, ← not_and_or, ← hterminal]
  simp

theorem AdapterResponseBody.not_follows_error {self : AdapterResponseBody} (hpermit : self.permit.isSome = true)
    {refused : Option Error} {size : Nat} {error : Error} {inner : ResponseBody}
    (hread : self.inner.read refused size = (.error error, inner)) (hterminal : inner.isTerminal = true) :
    ¬ (self.read refused size).2.Follows := by
  have hread' : (self.read refused size).2 = { self with inner } := by simp only [read, hread]
  rw [hread', Follows, hpermit, hterminal]
  exact Bool.noConfusion

theorem AdapterResponseBody.readNext_follows_iff {body : AsyncBody} {permit : Option PoolPermit} (hpermit : permit.isSome = true)
    (refused : Option Error) {size : Nat} (hsize : size ≠ 0) :
    (AdapterResponseBody.read ⟨⟨some body, none, none, false⟩, permit⟩ refused size).2.Follows ↔
      refused = none ∧ QuietItem size body.nextFrame := by
  cases refused with
  | some error =>
      refine iff_of_false ?_ (by simp)
      have hread : ResponseBody.read ⟨some body, none, none, false⟩ (some error) size = (.error error, .closed none) := by
        simp [ResponseBody.read, hsize, ResponseBody.closed]
      exact not_follows_error hpermit hread rfl
  | none =>
      rw [iff_true_intro (rfl : (none : Option Error) = none), true_and]
      rcases hnext : body.nextFrame with ⟨item, next⟩
      rcases item with _ | error | frame
      · refine iff_of_true ?_ trivial
        simp only [read, ResponseBody.read, Bool.false_eq_true, if_false, hnext, List.length_nil, hsize,
          ne_eq, not_false_eq_true, and_self, if_true]
        split <;> rfl
      · refine iff_of_false ?_ id
        simp only [read, ResponseBody.read, if_neg hsize, Bool.false_eq_true, if_false, hnext]
        split <;> simp [Follows, hpermit, ResponseBody.isTerminal]
      · obtain ⟨bytes, inner, hread, hbytes, hterminal⟩ := read_frame hnext hsize
        rw [follows_bytes_iff hpermit hread hbytes hterminal, not_le, QuietItem]

theorem AdapterResponseBody.readClosed_follows_iff {permit : Option PoolPermit} (pendingError : Option Error)
    (h : AdapterResponseBody.Follows ⟨.closed pendingError, permit⟩) (refused : Option Error) {size : Nat} (hsize : size ≠ 0) :
    (AdapterResponseBody.read ⟨.closed pendingError, permit⟩ refused size).2.Follows ↔
      QuietRead (.closed pendingError) refused size := by
  have hread := ResponseBody.read_closed pendingError refused size
  rw [if_neg hsize] at hread
  cases pendingError with
  | none =>
      refine iff_of_true ?_ (.inr (.inl rfl))
      simp [read, hread, hsize, Follows]
      rfl
  | some error =>
      refine iff_of_false ?_ (by simp [QuietRead, hsize, ResponseBody.isTerminal, ResponseBody.closed])
      exact not_follows_error h hread rfl

theorem AdapterResponseBody.read_follows_iff {self : AdapterResponseBody} (hreach : Reachable self.inner) (h : self.Follows)
    (refused : Option Error) (size : Nat) : (self.read refused size).2.Follows ↔ QuietRead self.inner refused size := by
  obtain ⟨inner, permit⟩ := self
  by_cases hsize : size = 0
  · subst hsize
    refine iff_of_true ?_ (.inl rfl)
    simpa [read, ResponseBody.read] using h
  rcases hreach.shape with ⟨body, remainder, rfl, hrunning, hremainder⟩ | ⟨pendingError, rfl⟩
  · have hpermit : permit.isSome = true := h
    cases remainder with
    | some remainder =>
        obtain ⟨bytes, inner, hread, hbytes, hterminal⟩ := read_remainder hrunning (by simpa using hremainder) refused hsize
        rw [follows_bytes_iff hpermit hread hbytes hterminal]
        simp [QuietRead, hsize, ResponseBody.isTerminal]
    | none =>
        rw [readNext_follows_iff hpermit refused hsize]
        simp [QuietRead, hsize, ResponseBody.isTerminal]
  · exact readClosed_follows_iff pendingError h refused hsize

/-! ### One holder -/

namespace Holder

/-- The permits are permits of the semaphore, and the reader is one that reads can reach. -/
def Backed : Holder → Prop
  | .sending permit => permit = ⟨true⟩
  | .response inner permit => permit = ⟨true⟩ ∧ ∃ script, inner = Script.body script
  | .body reader => (∀ permit ∈ reader.permit, permit = ⟨true⟩) ∧ Reachable reader.inner
  | .gone => True

def Follows : Holder → Prop
  | .body reader => reader.Follows
  | _ => True

def QuietOp (holder : Holder) (op : HolderOp) : Prop :=
  match holder, op with
  | .body reader, .read refused size => QuietRead reader.inner refused size
  | _, _ => True

instance (holder : Holder) (op : HolderOp) : Decidable (holder.QuietOp op) :=
  match holder, op with
  | .body _, .read .. => inferInstanceAs (Decidable (QuietRead ..))
  | .body _, .respond _ | .body _, .fail _ | .body _, .intoRawBody | .body _, .readAsync .. | .body _, .readFrameAsync ..
  | .body _, .finishEncodedDeclaredLength | .body _, .close _ | .body _, .drop | .sending _, _ | .response .., _ | .gone, _ =>
      inferInstanceAs (Decidable True)

/-- What a holder turns into. A body is carried on with its own permit or with none. -/
inductive Moves : Holder → HolderOp → Holder → Prop
  | respond {permit : PoolPermit} {script : Script} :
      Moves (.sending permit) (.respond script) (.response script.body permit)
  | intoRawBody {inner : AsyncBody} {permit : PoolPermit} :
      Moves (.response inner permit) .intoRawBody (.body ⟨.new inner, some permit⟩)
  | read {reader : AdapterResponseBody} {refused : Option Error} {size : Nat} :
      Moves (.body reader) (.read refused size) (.body (reader.read refused size).2)
  | async {reader : AdapterResponseBody} {op : HolderOp} {readOp : ReadOp} {answer : Except Error Bytes} {inner : ResponseBody} :
      (∀ refused size, op ≠ .read refused size) → readStep (some reader.inner) readOp = some (answer, some inner) →
        Moves (.body reader) op (.body ⟨inner, if inner.isTerminal then none else reader.permit⟩)
  | goes {holder : Holder} {op : HolderOp} : (∀ refused size, op ≠ .read refused size) → Moves holder op .gone

theorem moves_handBack {reader : AdapterResponseBody} {op : HolderOp} {readOp : ReadOp}
    {read : Except Error (ResponseBody × Bytes)} (hop : ∀ refused size, op ≠ .read refused size)
    (hread : readStep (some reader.inner) readOp = some (Blocking.handBack read)) :
    Moves (.body reader) op (handBack (AdapterResponseBody.afterRead reader.permit read)).2 := by
  cases read with
  | error error => exact .goes hop
  | ok answer => exact .async hop hread

theorem moves_of_step {holder next : Holder} {op : HolderOp} {result : Except Error Bytes}
    (hstep : holder.step op = some (result, next)) : Moves holder op next := by
  unfold step at hstep
  split at hstep
  · obtain ⟨-, rfl⟩ := Prod.mk.inj (Option.some.inj hstep)
    exact .respond
  · obtain ⟨-, rfl⟩ := Prod.mk.inj (Option.some.inj hstep)
    exact .goes (by simp)
  · obtain ⟨-, rfl⟩ := Prod.mk.inj (Option.some.inj hstep)
    exact .intoRawBody
  · obtain ⟨-, rfl⟩ := Prod.mk.inj (Option.some.inj hstep)
    exact .read
  · rename_i reader amount allow
    obtain rfl : _ = next := congrArg Prod.snd (Option.some.inj hstep)
    exact moves_handBack (by simp) (rfl : readStep (some reader.inner) (.readAsync amount allow) = _)
  · rename_i reader maximum allow
    obtain rfl : _ = next := congrArg Prod.snd (Option.some.inj hstep)
    exact moves_handBack (by simp) (rfl : readStep (some reader.inner) (.readFrameAsync maximum allow) = _)
  · rename_i reader
    obtain ⟨-, rfl⟩ := Prod.mk.inj (Option.some.inj hstep)
    exact .async (by simp) (rfl : readStep (some reader.inner) .finishEncodedDeclaredLength = _)
  · obtain ⟨-, rfl⟩ := Prod.mk.inj (Option.some.inj hstep)
    exact .goes (by simp)
  · obtain ⟨-, rfl⟩ := Prod.mk.inj (Option.some.inj hstep)
    exact .goes (by simp)
  · obtain ⟨-, rfl⟩ := Prod.mk.inj (Option.some.inj hstep)
    exact .goes (by simp)
  · obtain ⟨-, rfl⟩ := Prod.mk.inj (Option.some.inj hstep)
    exact .goes (by simp)
  · cases hstep

theorem read_inner (reader : AdapterResponseBody) (refused : Option Error) (size : Nat) :
    (reader.read refused size).2.inner = (reader.inner.read refused size).2 ∧
      ((reader.read refused size).2.permit = reader.permit ∨ (reader.read refused size).2.permit = none) := by
  unfold AdapterResponseBody.read
  rcases reader.inner.read refused size with ⟨_ | bytes, inner⟩
  · exact ⟨rfl, .inl rfl⟩
  · simp only
    split
    · exact ⟨rfl, .inr rfl⟩
    · exact ⟨rfl, .inl rfl⟩

theorem Moves.backed {holder next : Holder} {op : HolderOp} (hmoves : Moves holder op next) (h : holder.Backed) :
    next.Backed := by
  cases hmoves with
  | respond => exact ⟨h, _, rfl⟩
  | intoRawBody =>
      obtain ⟨hpermit, script, rfl⟩ := h
      refine ⟨fun permit hmem => ?_, script, [], .nil⟩
      rw [← Option.some.inj hmem]
      exact hpermit
  | read =>
      rename_i reader refused size
      obtain ⟨hinner, hpermit⟩ := read_inner reader refused size
      refine ⟨fun permit hmem => ?_, ?_⟩
      · rcases hpermit with hsame | hnone
        · exact h.1 permit (hsame ▸ hmem)
        · rw [hnone] at hmem
          cases hmem
      · rw [hinner]
        exact h.2.step (rfl : readStep (some reader.inner) (.read refused size) = _)
  | async _ hread =>
      refine ⟨fun permit hmem => ?_, h.2.step hread⟩
      simp only at hmem
      split at hmem
      · cases hmem
      · exact h.1 permit hmem
  | goes _ => trivial

theorem Moves.hasPermit {holder next : Holder} {op : HolderOp} (hmoves : Moves holder op next) (h : next.hasPermit = true) :
    holder.hasPermit = true := by
  cases hmoves with
  | respond => exact h
  | intoRawBody => exact h
  | read =>
      rename_i reader refused size
      rcases (read_inner reader refused size).2 with hsame | hnone
      · simpa [Holder.hasPermit, hsame] using h
      · simp [Holder.hasPermit, hnone] at h
  | async _ _ =>
      simp only [Holder.hasPermit] at h ⊢
      split at h
      · cases h
      · exact h
  | goes _ => cases h

theorem Moves.follows_iff {holder next : Holder} {op : HolderOp} (hmoves : Moves holder op next) (hbacked : holder.Backed)
    (h : holder.Follows) : next.Follows ↔ holder.QuietOp op := by
  cases hmoves with
  | respond => exact Iff.rfl
  | intoRawBody => exact iff_of_true rfl trivial
  | read => exact AdapterResponseBody.read_follows_iff hbacked.2 h _ _
  | async hop hread =>
      rename_i reader readOp answer inner
      have hquiet : (Holder.body reader).QuietOp op := by
        unfold QuietOp
        split
        · exact absurd rfl (hop _ _)
        · trivial
      refine iff_of_true ?_ hquiet
      by_cases hterminal : inner.isTerminal = true
      · simp [Follows, AdapterResponseBody.Follows, hterminal]
      · have hbefore : reader.inner.isTerminal = false := by
          by_contra hended
          exact hterminal (hbacked.2.isTerminal_step (by simpa using hended) hread)
        have hpermit : reader.permit.isSome = true := by
          have hfollows : reader.permit.isSome = !reader.inner.isTerminal := h
          rw [hfollows, hbefore]
          rfl
        simp [Follows, AdapterResponseBody.Follows, hterminal, hpermit]
  | goes hop =>
      refine iff_of_true trivial ?_
      unfold QuietOp
      split
      · exact absurd rfl (hop _ _)
      · trivial

/-- A send or a response, or a body that is not terminal. -/
def live : Holder → Bool
  | .sending _ | .response _ _ => true
  | .body reader => !reader.inner.isTerminal
  | .gone => false

theorem Backed.follows_iff {holder : Holder} (h : holder.Backed) : holder.Follows ↔ holder.hasPermit = holder.live := by
  cases holder with
  | sending permit => exact iff_of_true trivial (congrArg PoolPermit.permit h)
  | response inner permit => exact iff_of_true trivial (congrArg PoolPermit.permit h.1)
  | gone => exact iff_of_true trivial rfl
  | body reader =>
      have hpermit : reader.permit.any (·.permit) = reader.permit.isSome := by
        cases hpermit : reader.permit with
        | none => rfl
        | some permit => rw [h.1 permit hpermit]; rfl
      rw [Follows, AdapterResponseBody.Follows, hasPermit, hpermit, live]

end Holder

/-! ### The whole pool -/

theorem AdapterPool.step_cases {pool next : AdapterPool} {op : CapacityOp} {answer : CapacityAnswer}
    (hstep : pool.step op = some (answer, next)) :
    (op = .acquire ∧ pool.acquire = some next ∧ answer = ⟨.ok [], none⟩) ∨
      ∃ id holderOp holder holder' result, op = .on id holderOp ∧ pool.holders[id]? = some holder ∧
        Holder.Moves holder holderOp holder' ∧ pool.replace id holder holder' result = (answer, next) := by
  cases op with
  | acquire =>
      obtain ⟨next', hacquire, heq⟩ := Option.map_eq_some_iff.mp hstep
      obtain ⟨rfl, rfl⟩ := Prod.mk.inj heq
      exact .inl ⟨rfl, hacquire, rfl⟩
  | on id holderOp =>
      simp only [step] at hstep
      split at hstep
      · cases hstep
      · rename_i holder hholder
        obtain ⟨⟨result, holder'⟩, hmove, heq⟩ := Option.map_eq_some_iff.mp hstep
        exact .inr ⟨id, holderOp, holder, holder', result, rfl, hholder, Holder.moves_of_step hmove, heq⟩

/-- What holds in every run of a pool with `m` permits. -/
structure Accounted (m : Nat) (trace : CapacityTrace) (pool : AdapterPool) : Prop where
  conserved : ∃ available, pool.semaphore = some available ∧ available + pool.out = m
  once : ∀ (id : Nat) (holder : Holder), pool.holders[id]? = some holder → returns trace id + (if holder.hasPermit then 1 else 0) = 1
  fresh : ∀ id, pool.holders.length ≤ id → returns trace id = 0
  backed : ∀ (id : Nat) (holder : Holder), pool.holders[id]? = some holder → holder.Backed

theorem returns_snoc (trace : CapacityTrace) (op : CapacityOp) (answer : CapacityAnswer) (id : Nat) :
    returns (trace ++ [(op, answer)]) id = returns trace id + if answer.returned = some id then 1 else 0 := by
  simp [returns, List.countP_append, List.countP_cons]

theorem accounted_new {m : Nat} (hm : 0 < m) : Accounted m [] (.new m true) := by
  refine ⟨⟨m, by simp [AdapterPool.new, hm], rfl⟩, ?_, fun _ _ => rfl, ?_⟩
  · intro id holder hholder
    cases hholder
  · intro id holder hholder
    cases hholder

/-- An entry of a list with one more at its end. -/
private theorem getElem?_snoc {α : Type*} {list : List α} {last entry : α} {id : Nat} (h : (list ++ [last])[id]? = some entry) :
    list[id]? = some entry ∨ (id = list.length ∧ entry = last) := by
  rcases Nat.lt_trichotomy id list.length with hlt | rfl | hgt
  · rw [List.getElem?_append_left hlt] at h
    exact .inl h
  · rw [List.getElem?_concat_length] at h
    exact .inr ⟨rfl, (Option.some.inj h).symm⟩
  · rw [List.getElem?_eq_none (by rw [List.length_append, List.length_singleton]; omega)] at h
    cases h

theorem Accounted.acquire {m : Nat} {trace : CapacityTrace} {pool next : AdapterPool} (h : Accounted m trace pool)
    (hacquire : pool.acquire = some next) : Accounted m (trace ++ [(.acquire, ⟨.ok [], none⟩)]) next := by
  obtain ⟨available, hsemaphore, htotal⟩ := h.conserved
  have hreturns : ∀ id, returns (trace ++ [(.acquire, ⟨.ok [], none⟩)]) id = returns trace id := by
    intro id
    simp [returns_snoc]
  cases available with
  | zero => simp [AdapterPool.acquire, hsemaphore] at hacquire
  | succ available =>
      obtain rfl : _ = next := by simpa [AdapterPool.acquire, hsemaphore] using hacquire
      refine ⟨⟨available, rfl, ?_⟩, ?_, ?_, ?_⟩
      · simp only [AdapterPool.out, List.countP_append, List.countP_singleton] at htotal ⊢
        simp only [Holder.hasPermit, if_true]
        omega
      · intro id holder hholder
        rw [hreturns]
        rcases getElem?_snoc hholder with hbefore | ⟨rfl, rfl⟩
        · exact h.once id holder hbefore
        · rw [h.fresh _ le_rfl]
          rfl
      · intro id hid
        rw [hreturns]
        rw [List.length_append, List.length_singleton] at hid
        exact h.fresh id (by omega)
      · intro id holder hholder
        rcases getElem?_snoc hholder with hbefore | ⟨rfl, rfl⟩
        · exact h.backed id holder hbefore
        · rfl

theorem AdapterPool.replace_eq (pool : AdapterPool) (id : Nat) (holder next : Holder) (result : Except Error Bytes) :
    (pool.replace id holder next result).2.holders = pool.holders.set id next ∧
    (pool.replace id holder next result).2.semaphore =
      pool.semaphore.map (· + if holder.hasPermit && !next.hasPermit then 1 else 0) ∧
    (pool.replace id holder next result).1.returned = if holder.hasPermit && !next.hasPermit then some id else none := by
  unfold replace
  split
  · exact ⟨rfl, rfl, rfl⟩
  · exact ⟨rfl, by simp, rfl⟩

theorem returns_replace (trace : CapacityTrace) (op : CapacityOp) (pool : AdapterPool) (id other : Nat) (holder next : Holder)
    (result : Except Error Bytes) :
    returns (trace ++ [(op, (pool.replace id holder next result).1)]) other =
      returns trace other + if id = other ∧ (holder.hasPermit && !next.hasPermit) = true then 1 else 0 := by
  rw [returns_snoc, (pool.replace_eq id holder next result).2.2]
  congr 1
  by_cases hgives : (holder.hasPermit && !next.hasPermit) = true
  · rw [if_pos hgives]
    simp only [Option.some.injEq, hgives, and_true]
  · rw [if_neg hgives]
    simp only [reduceCtorEq, hgives, and_false]

theorem out_replace {pool : AdapterPool} {id : Nat} {holder next : Holder} (hholder : pool.holders[id]? = some holder)
    (hgain : next.hasPermit = true → holder.hasPermit = true) (result : Except Error Bytes) :
    (pool.replace id holder next result).2.out + (if holder.hasPermit && !next.hasPermit then 1 else 0) = pool.out := by
  obtain ⟨hid, hget⟩ := List.getElem?_eq_some_iff.mp hholder
  have hcount : (if holder.hasPermit then 1 else 0) ≤ pool.out := hget ▸ List.boole_getElem_le_countP hid
  have hout : (pool.replace id holder next result).2.out =
      pool.out - (if holder.hasPermit then 1 else 0) + if next.hasPermit then 1 else 0 := by
    rw [AdapterPool.out, (pool.replace_eq id holder next result).1, List.countP_set hid, hget]
    rfl
  rw [hout]
  cases hafter : next.hasPermit with
  | true =>
      rw [hgain hafter] at hcount ⊢
      simp only [Bool.not_true, Bool.and_false, Bool.false_eq_true, if_false, if_true] at hcount ⊢
      omega
  | false =>
      simp only [Bool.not_false, Bool.and_true, Bool.false_eq_true, if_false]
      omega

theorem holders_replace {pool : AdapterPool} {id other : Nat} {holder next entry : Holder} {result : Except Error Bytes}
    (h : (pool.replace id holder next result).2.holders[other]? = some entry) :
    (id = other ∧ next = entry) ∨ (id ≠ other ∧ pool.holders[other]? = some entry) := by
  rw [(pool.replace_eq id holder next result).1, List.getElem?_set] at h
  by_cases hsame : id = other
  · rw [if_pos hsame] at h
    split at h
    · exact .inl ⟨hsame, Option.some.inj h⟩
    · cases h
  · rw [if_neg hsame] at h
    exact .inr ⟨hsame, h⟩

theorem Accounted.replace {m : Nat} {trace : CapacityTrace} {pool : AdapterPool} (h : Accounted m trace pool) {id : Nat}
    {holder next : Holder} {holderOp : HolderOp} (hholder : pool.holders[id]? = some holder)
    (hmoves : Holder.Moves holder holderOp next) (op : CapacityOp) (result : Except Error Bytes) :
    Accounted m (trace ++ [(op, (pool.replace id holder next result).1)]) (pool.replace id holder next result).2 := by
  obtain ⟨hholders, hsemaphore, -⟩ := pool.replace_eq id holder next result
  obtain ⟨available, havailable, htotal⟩ := h.conserved
  obtain ⟨hid, -⟩ := List.getElem?_eq_some_iff.mp hholder
  have hgain := hmoves.hasPermit
  refine ⟨⟨_, by rw [hsemaphore, havailable]; rfl, ?_⟩, ?_, ?_, ?_⟩
  · have hout := out_replace hholder hgain result
    dsimp only
    omega
  · intro other entry hother
    rw [returns_replace]
    rcases holders_replace hother with ⟨rfl, rfl⟩ | ⟨hdifferent, hbefore⟩
    · have honce := h.once id holder hholder
      cases hafter : next.hasPermit with
      | true =>
          rw [hgain hafter] at honce ⊢
          simpa using honce
      | false => cases hbefore : holder.hasPermit <;> simpa [hbefore] using honce
    · rw [if_neg fun hboth => hdifferent hboth.1, Nat.add_zero]
      exact h.once other entry hbefore
  · intro other hother
    rw [hholders, List.length_set] at hother
    have hdifferent : id ≠ other := by omega
    rw [returns_replace, if_neg fun hboth => hdifferent hboth.1, Nat.add_zero]
    exact h.fresh other hother
  · intro other entry hother
    rcases holders_replace hother with ⟨rfl, rfl⟩ | ⟨-, hbefore⟩
    · exact hmoves.backed (h.backed id holder hholder)
    · exact h.backed other entry hbefore

theorem accounted_step {m : Nat} {trace : CapacityTrace} {pool next : AdapterPool} {op : CapacityOp} {answer : CapacityAnswer}
    (h : Accounted m trace pool) (hstep : pool.step op = some (answer, next)) : Accounted m (trace ++ [(op, answer)]) next := by
  rcases AdapterPool.step_cases hstep with ⟨rfl, hacquire, rfl⟩ | ⟨id, holderOp, holder, holder', result, rfl, hholder, hmoves, heq⟩
  · exact h.acquire hacquire
  · have hnext := h.replace hholder hmoves (.on id holderOp) result
    rwa [heq] at hnext

theorem accounted_run {m : Nat} (hm : 0 < m) {trace : CapacityTrace} {pool : AdapterPool}
    (hrun : capacityMachine.Run (.new m true) trace pool) : Accounted m trace pool :=
  hrun.induction (Accounted m) (accounted_new hm) fun _ _ _ _ _ _ h hstep => accounted_step h hstep

/-! ### The permits and the bodies -/

/-- The permits of a pool follow the bodies: at most `m` are out, everybody holds one exactly as long as its body is not
terminal and it is not gone, and each goes back once. -/
structure PermitsFollow (m : Nat) (trace : CapacityTrace) (pool : AdapterPool) : Prop where
  bounded : pool.out ≤ m
  untilTerminal : ∀ (id : Nat) (holder : Holder), pool.holders[id]? = some holder → holder.hasPermit = holder.live
  once : ∀ (id : Nat) (holder : Holder), pool.holders[id]? = some holder → returns trace id = if holder.live then 0 else 1

/-- A synchronous read, if the input is one, does not leave the permit behind. -/
def QuietStep (pool : AdapterPool) : CapacityOp → Prop
  | .acquire => True
  | .on id op => ∀ holder ∈ pool.holders[id]?, holder.QuietOp op

instance (pool : AdapterPool) : DecidablePred (QuietStep pool)
  | .acquire => inferInstanceAs (Decidable True)
  | .on id op => inferInstanceAs (Decidable (∀ holder ∈ pool.holders[id]?, holder.QuietOp op))

theorem Accounted.permitsFollow_iff {m : Nat} {trace : CapacityTrace} {pool : AdapterPool} (h : Accounted m trace pool) :
    PermitsFollow m trace pool ↔ ∀ (id : Nat) (holder : Holder), pool.holders[id]? = some holder → holder.Follows := by
  constructor
  · intro hfollow id holder hholder
    exact (h.backed id holder hholder).follows_iff.2 (hfollow.untilTerminal id holder hholder)
  · intro hfollows
    obtain ⟨available, -, htotal⟩ := h.conserved
    have hlive : ∀ (id : Nat) (holder : Holder), pool.holders[id]? = some holder → holder.hasPermit = holder.live :=
      fun id holder hholder => (h.backed id holder hholder).follows_iff.1 (hfollows id holder hholder)
    refine ⟨by omega, hlive, fun id holder hholder => ?_⟩
    have honce := h.once id holder hholder
    rw [← hlive id holder hholder]
    split
    · rw [if_pos ‹_›] at honce
      omega
    · rw [if_neg ‹_›] at honce
      exact honce

/-- One step keeps it exactly if it is no loud read. -/
theorem follows_step_iff {m : Nat} {trace : CapacityTrace} {pool next : AdapterPool} {op : CapacityOp} {answer : CapacityAnswer}
    (haccounted : Accounted m trace pool)
    (h : ∀ (id : Nat) (holder : Holder), pool.holders[id]? = some holder → holder.Follows)
    (hstep : pool.step op = some (answer, next)) :
    (∀ (id : Nat) (holder : Holder), next.holders[id]? = some holder → holder.Follows) ↔ QuietStep pool op := by
  rcases AdapterPool.step_cases hstep with ⟨rfl, hacquire, -⟩ | ⟨id, holderOp, holder, holder', result, rfl, hholder, hmoves, heq⟩
  · refine iff_of_true (fun id holder hholder => ?_) trivial
    obtain ⟨permit, hholders⟩ : ∃ permit, next.holders = pool.holders ++ [.sending permit] := by
      unfold AdapterPool.acquire at hacquire
      split at hacquire
      · exact ⟨_, by rw [← Option.some.inj hacquire]⟩
      · cases hacquire
      · exact ⟨_, by rw [← Option.some.inj hacquire]⟩
    rw [hholders] at hholder
    rcases getElem?_snoc hholder with hbefore | ⟨rfl, rfl⟩
    · exact h id holder hbefore
    · trivial
  · have hquiet : QuietStep pool (.on id holderOp) ↔ holder.QuietOp holderOp := by
      simp only [QuietStep, hholder, Option.mem_some_iff, forall_eq']
    have hholders : next.holders = pool.holders.set id holder' := by
      rw [← (pool.replace_eq id holder holder' result).1, heq]
    obtain ⟨hid, -⟩ := List.getElem?_eq_some_iff.mp hholder
    rw [hquiet, ← hmoves.follows_iff (haccounted.backed id holder hholder) (h id holder hholder), hholders]
    constructor
    · intro hall
      exact hall id holder' (List.getElem?_set_self hid)
    · intro hnext other entry hentry
      by_cases hsame : id = other
      · subst hsame
        rw [List.getElem?_set_self hid] at hentry
        exact Option.some.inj hentry ▸ hnext
      · rw [List.getElem?_set_ne hsame] at hentry
        exact h other entry hentry

/-- The permits of a blocking pool follow the bodies in every state of a run exactly if none of its synchronous reads ends a body
with an error or with the last byte of its declared length. -/
theorem permits_follow_bodies_iff {m : Nat} (hm : 0 < m) {trace : CapacityTrace} {pool : AdapterPool}
    (hrun : capacityMachine.Run (.new m true) trace pool) :
    (∀ before after mid, trace = before ++ after → capacityMachine.Run (.new m true) before mid → PermitsFollow m before mid) ↔
      capacityMachine.RunWhere QuietStep (.new m true) trace pool := by
  refine hrun.throughout_iff (I := Accounted m) ?_ (fun _ _ => accounted_run hm) ?_
  · rw [(accounted_new hm).permitsFollow_iff]
    intro id holder hholder
    cases hholder
  · intro trace pool op answer next haccounted hfollow hstep
    rw [(accounted_step haccounted hstep).permitsFollow_iff]
    exact follows_step_iff haccounted (haccounted.permitsFollow_iff.1 hfollow) hstep

private def threeBytes : Script where
  frames := [[1, 2, 3]]
  ending := .eof
  declaredCompletionLength := some 3
  encodedCompletion := false

/-- One permit for two requests: a synchronous read of two bytes, and a frame read of the third, which frees the permit for the
second request. -/
theorem permits_follow_bodies_two_requests : ∃ trace pool, capacityMachine.Run (.new 1 true) trace pool ∧
    pool.holders.map Holder.hasPermit = [false, true] ∧
    ∀ before after mid, trace = before ++ after → capacityMachine.Run (.new 1 true) before mid → PermitsFollow 1 before mid := by
  have hexec : capacityMachine.exec (.new 1 true) [.acquire, .on 0 (.respond threeBytes), .on 0 .intoRawBody,
      .on 0 (.read none 2), .on 0 (.readFrameAsync 8 false), .acquire] =
    some ([(.acquire, ⟨.ok [], none⟩), (.on 0 (.respond threeBytes), ⟨.ok [], none⟩), (.on 0 .intoRawBody, ⟨.ok [], none⟩),
        (.on 0 (.read none 2), ⟨.ok [1, 2], none⟩), (.on 0 (.readFrameAsync 8 false), ⟨.ok [3], some 0⟩),
        (.acquire, ⟨.ok [], none⟩)], ⟨some 0, [.body ⟨.closed none, none⟩, .sending ⟨true⟩]⟩) := by decide +kernel
  have hquiet := Machine.runWhere_of_exec (P := QuietStep) hexec (by decide +kernel)
  exact ⟨_, _, hquiet.run, rfl, (permits_follow_bodies_iff (by decide) hquiet.run).2 hquiet⟩

/-- A body of three bytes, all read by one synchronous read: it is terminal and still has its permit, and no further request
gets one. -/
theorem synchronous_read_keeps_permit : ∃ trace pool, capacityMachine.Run (.new 1 true) trace pool ∧
    ¬ PermitsFollow 1 trace pool ∧ pool.step .acquire = none := by
  have hrun := Machine.run_of_exec (by decide +kernel : capacityMachine.exec (.new 1 true)
      [.acquire, .on 0 (.respond threeBytes), .on 0 .intoRawBody, .on 0 (.read none 8)] =
    some ([(.acquire, ⟨.ok [], none⟩), (.on 0 (.respond threeBytes), ⟨.ok [], none⟩), (.on 0 .intoRawBody, ⟨.ok [], none⟩),
        (.on 0 (.read none 8), ⟨.ok [1, 2, 3], none⟩)], ⟨some 0, [.body ⟨.closed none, some ⟨true⟩⟩]⟩))
  refine ⟨_, _, hrun, fun hfollow => ?_, rfl⟩
  exact absurd (hfollow.untilTerminal 0 _ rfl) (by decide)

end RequestsNative.Blocking
