import RequestsNative.Python.Retry

/-!
# Budgets over a sequence of retries

`retry.rs`: what is left of each counter after a number of retries that were all granted, and when the next one is not. The
policy here is the whole one, with the fields that the adapter's loop does not read; how a backoff is computed from its
floating-point numbers stays open.
-/

namespace RequestsNative.Python

/-- The counters besides `total`. -/
inductive RetryCategory
  | connect
  | read
  | status
  | redirect
  | other
  deriving DecidableEq, Repr

def RetryReason.category : RetryReason → RetryCategory
  | .connect => .connect
  | .read => .read
  | .status _ => .status
  | .redirect _ => .redirect
  | .other => .other

namespace RetryPolicy

def categoryCounter (policy : RetryPolicy) : RetryCategory → RetryCount
  | .connect => policy.connect
  | .read => policy.read
  | .status => policy.status
  | .redirect => policy.redirect
  | .other => policy.other

end RetryPolicy

/-- `RetryPolicy` with all of its fields. -/
structure WholeRetryPolicy (Backoff : Type) extends RetryPolicy where
  backoff : Backoff
  raiseOnRedirect : Bool
  deriving DecidableEq, Repr

structure WholeRetryState (Backoff : Type) where
  remaining : WholeRetryPolicy Backoff
  history : List RetryHistory
  deriving DecidableEq, Repr

/-- The arguments of one call of `increment`. -/
structure RetryCall where
  reason : RetryReason
  method : Bytes
  url : Bytes
  redirectLocation : Option Bytes
  deriving DecidableEq, Repr

namespace RetryCall

/-- The reason a call is charged to. -/
def charged (call : RetryCall) : RetryReason := RetryState.consumedReason call.reason call.redirectLocation

def record (call : RetryCall) : RetryHistory := ⟨call.charged, call.method, call.url, call.redirectLocation⟩

end RetryCall

/-- The call is for a response that redirects somewhere. -/
def RetryCall.Moved (call : RetryCall) (status : Nat) : Prop :=
  call.reason = .status status ∧ status ∈ [301, 302, 303, 307, 308] ∧ ∃ location ∈ call.redirectLocation, location ≠ []

/-- The calls charged to a category. -/
def charges (calls : List RetryCall) (category : RetryCategory) : Nat :=
  calls.countP fun call => call.charged.category == category

namespace WholeRetryState

variable {Backoff : Type}

/-- `RetryState::increment` on the whole policy. -/
def increment (state : WholeRetryState Backoff) (call : RetryCall) : Except RetryFailure (WholeRetryState Backoff) :=
  let consumed := RetryState.consumedReason call.reason call.redirectLocation
  match state.remaining.total.decrement with
  | none => .error ⟨consumed⟩
  | some total =>
      match (state.remaining.counter consumed).decrement with
      | none => .error ⟨consumed⟩
      | some count =>
          .ok ⟨{ state.remaining with toRetryPolicy := { state.remaining.toRetryPolicy with total }.setCounter count consumed },
            state.history ++ [⟨consumed, call.method, call.url, call.redirectLocation⟩]⟩

/-- One call after the other, as long as they succeed. -/
def incrementAll (state : WholeRetryState Backoff) (calls : List RetryCall) : Except RetryFailure (WholeRetryState Backoff) :=
  calls.foldlM increment state

/-- The part of the state the adapter's loop reads. -/
def forget (state : WholeRetryState Backoff) : RetryState := ⟨state.remaining.toRetryPolicy, state.history⟩

/-- The loop's `increment` is this one. -/
theorem forget_increment (state : WholeRetryState Backoff) (call : RetryCall) :
    (state.increment call).map forget = state.forget.increment call.reason call.method call.url call.redirectLocation := by
  unfold increment RetryState.increment
  simp only [forget]
  cases state.remaining.total.decrement with
  | none => rfl
  | some total =>
      simp only
      cases (state.remaining.counter (RetryState.consumedReason call.reason call.redirectLocation)).decrement <;> rfl

end WholeRetryState

/-! ### One call -/

/-- `now` is what is left of a counter after `spent` retries. -/
structure Spent (start : RetryCount) (spent : Nat) (now : RetryCount) : Prop where
  left : now.retries = start.retries.map (· - spent)
  enough : ∀ n ∈ start.retries, spent ≤ n

theorem spent_zero (count : RetryCount) : Spent count 0 count := by
  refine ⟨?_, fun _ _ => Nat.zero_le _⟩
  cases count.retries <;> rfl

theorem Spent.decrement {start now next : RetryCount} {spent : Nat} (h : Spent start spent now) (hnext : now.decrement = some next) :
    Spent start (spent + 1) next := by
  have hleft := h.left
  cases hstart : start.retries with
  | none =>
      rw [hstart, Option.map_none] at hleft
      have hunlimited : now = .unlimited := by
        cases now with
        | unlimited => rfl
        | boolean value => cases hleft
        | limited remaining => cases hleft
      subst hunlimited
      obtain rfl := Option.some.inj hnext
      exact ⟨by rw [hstart]; rfl, fun n hn => by rw [hstart] at hn; cases hn⟩
  | some n =>
      rw [hstart, Option.map_some] at hleft
      obtain ⟨m, hm, hone⟩ := decrement_retries hnext hleft
      refine ⟨?_, fun n' hn' => ?_⟩
      · rw [hm, hstart, Option.map_some]
        exact congrArg some (by omega)
      · rw [hstart] at hn'
        obtain rfl := Option.some.inj hn'
        omega

theorem decrement_none_iff (count : RetryCount) : count.decrement = none ↔ count.retries = some 0 := by
  match count with
  | .unlimited => exact iff_of_false nofun nofun
  | .boolean true => exact iff_of_false nofun (by decide)
  | .boolean false => exact iff_of_true rfl rfl
  | .limited 0 => exact iff_of_true rfl rfl
  | .limited (remaining + 1) => exact iff_of_false nofun (by simp [RetryCount.retries])

namespace RetryPolicy

theorem categoryCounter_category (policy : RetryPolicy) (reason : RetryReason) :
    policy.categoryCounter reason.category = policy.counter reason := by
  cases reason <;> rfl

theorem setCounter_same (policy : RetryPolicy) (count : RetryCount) (reason : RetryReason) :
    (policy.setCounter count reason).categoryCounter reason.category = count := by
  cases reason <;> rfl

theorem setCounter_other (policy : RetryPolicy) (count : RetryCount) (reason : RetryReason) {category : RetryCategory}
    (h : reason.category ≠ category) : (policy.setCounter count reason).categoryCounter category = policy.categoryCounter category := by
  cases reason <;> cases category <;> first | rfl | exact absurd rfl h

end RetryPolicy

/-- The fields that no retry changes. -/
structure SameSettings {Backoff : Type} (policy other : WholeRetryPolicy Backoff) : Prop where
  allowedMethods : other.allowedMethods = policy.allowedMethods
  statusForcelist : other.statusForcelist = policy.statusForcelist
  backoff : other.backoff = policy.backoff
  respectRetryAfter : other.respectRetryAfter = policy.respectRetryAfter
  raiseOnStatus : other.raiseOnStatus = policy.raiseOnStatus
  raiseOnRedirect : other.raiseOnRedirect = policy.raiseOnRedirect

/-- What `calls` granted retries make of the state. -/
structure BudgetsConserved {Backoff : Type} (start : WholeRetryState Backoff) (calls : List RetryCall)
    (state : WholeRetryState Backoff) : Prop where
  total : Spent start.remaining.total calls.length state.remaining.total
  category : ∀ category, Spent (start.remaining.categoryCounter category) (charges calls category)
    (state.remaining.categoryCounter category)
  settings : SameSettings start.remaining state.remaining
  history : state.history = start.history ++ calls.map RetryCall.record

section Budgets

variable {Backoff : Type} {start state next : WholeRetryState Backoff} {call : RetryCall} {calls : List RetryCall}

theorem increment_ok (h : state.increment call = .ok next) :
    ∃ total count, state.remaining.total.decrement = some total ∧ (state.remaining.counter call.charged).decrement = some count ∧
      next = ⟨{ state.remaining with
        toRetryPolicy := { state.remaining.toRetryPolicy with total }.setCounter count call.charged }, state.history ++ [call.record]⟩ := by
  unfold WholeRetryState.increment at h
  simp only at h
  split at h
  · cases h
  · rename_i total htotal
    split at h
    · cases h
    · rename_i count hcount
      exact ⟨total, count, htotal, hcount, (Except.ok.inj h).symm⟩

theorem increment_error_iff (failure : RetryFailure) : state.increment call = .error failure ↔
    (state.remaining.total.retries = some 0 ∨ (state.remaining.counter call.charged).retries = some 0) ∧
      failure = ⟨call.charged⟩ := by
  rw [← decrement_none_iff, ← decrement_none_iff]
  unfold WholeRetryState.increment RetryCall.charged
  simp only
  cases state.remaining.total.decrement with
  | none => simp [eq_comm]
  | some total =>
      cases (state.remaining.counter (RetryState.consumedReason call.reason call.redirectLocation)).decrement with
      | none => simp [eq_comm]
      | some count => simp

theorem SameSettings.trans {policy other last : WholeRetryPolicy Backoff} (h : SameSettings policy other)
    (hlast : SameSettings other last) : SameSettings policy last :=
  ⟨hlast.allowedMethods.trans h.allowedMethods, hlast.statusForcelist.trans h.statusForcelist, hlast.backoff.trans h.backoff,
    hlast.respectRetryAfter.trans h.respectRetryAfter, hlast.raiseOnStatus.trans h.raiseOnStatus,
    hlast.raiseOnRedirect.trans h.raiseOnRedirect⟩

theorem sameSettings_setCounter (policy : WholeRetryPolicy Backoff) (total count : RetryCount) (reason : RetryReason) :
    SameSettings policy
      { policy with toRetryPolicy := { policy.toRetryPolicy with total }.setCounter count reason } := by
  cases reason <;> exact ⟨rfl, rfl, rfl, rfl, rfl, rfl⟩

theorem BudgetsConserved.step (h : BudgetsConserved start calls state) (hnext : state.increment call = .ok next) :
    BudgetsConserved start (calls ++ [call]) next := by
  obtain ⟨total, count, htotal, hcount, rfl⟩ := increment_ok hnext
  refine ⟨?_, fun category => ?_, h.settings.trans (sameSettings_setCounter ..), ?_⟩
  · rw [List.length_append, List.length_singleton]
    simp only [RetryPolicy.setCounter_total]
    exact h.total.decrement htotal
  · have hcategory := h.category category
    by_cases hsame : call.charged.category = category
    · subst hsame
      have hcharges : charges (calls ++ [call]) call.charged.category = charges calls call.charged.category + 1 := by
        simp [charges, List.countP_append]
      rw [hcharges]
      simp only [RetryPolicy.setCounter_same]
      rw [state.remaining.categoryCounter_category] at hcategory
      exact hcategory.decrement hcount
    · have hcharges : charges (calls ++ [call]) category = charges calls category := by
        simp [charges, List.countP_append, hsame]
      rw [hcharges]
      simp only [RetryPolicy.setCounter_other _ _ _ hsame]
      exact hcategory
  · rw [List.map_append, ← List.append_assoc, ← h.history]
    rfl

theorem budgetsConserved_nil (start : WholeRetryState Backoff) : BudgetsConserved start [] start :=
  ⟨spent_zero _, fun _ => spent_zero _, ⟨rfl, rfl, rfl, rfl, rfl, rfl⟩, (List.append_nil _).symm⟩

theorem incrementAll_conserves (h : start.incrementAll calls = .ok state) : BudgetsConserved start calls state := by
  induction calls using List.reverseRecOn generalizing state with
  | nil =>
      obtain rfl := Except.ok.inj h
      exact budgetsConserved_nil start
  | append_singleton calls call ih =>
      rw [WholeRetryState.incrementAll, List.foldlM_append, bind_eq_ok] at h
      obtain ⟨between, hbetween, hlast⟩ := h
      rw [List.foldlM_cons, bind_eq_ok] at hlast
      obtain ⟨next, hnext, hend⟩ := hlast
      obtain rfl := Except.ok.inj hend
      exact (ih hbetween).step hnext

theorem charged_cases (call : RetryCall) : (∃ status, call.Moved status ∧ call.charged = .redirect status) ∨
    ((∀ status, ¬call.Moved status) ∧ call.charged = call.reason) := by
  obtain ⟨reason, method, url, redirectLocation⟩ := call
  unfold RetryCall.charged RetryState.consumedReason
  split
  · rename_i status location hreason hlocation
    simp only at hreason hlocation
    split
    · rename_i hmoved
      exact .inl ⟨status, ⟨hreason, by simpa [isRedirectStatus] using hmoved.2, location, hlocation, hmoved.1⟩, rfl⟩
    · rename_i hstays
      refine .inr ⟨?_, rfl⟩
      rintro status' ⟨hstatus, hredirect, location', hlocation', hsome⟩
      obtain rfl := RetryReason.status.inj (hreason.symm.trans hstatus)
      obtain rfl := Option.some.inj (hlocation.symm.trans hlocation')
      exact hstays ⟨hsome, by simpa [isRedirectStatus] using hredirect⟩
  · rename_i hother
    refine .inr ⟨?_, rfl⟩
    rintro status ⟨hstatus, -, location, hlocation, -⟩
    exact hother status location hstatus hlocation

/-- However a policy is charged: after any granted calls each counter has what it had less its share of them, nothing else of the
policy has changed, and the history holds one record for each. The next call is refused exactly if `total` or the counter it is
charged to has nothing left, and then names that reason; a redirect is charged as one, and everything else to its own reason. -/
theorem retry_budgets_conserved (h : start.incrementAll calls = .ok state) : BudgetsConserved start calls state ∧
    ∀ call, ((∃ failure, state.increment call = .error failure) ↔
        state.remaining.total.retries = some 0 ∨ (state.remaining.categoryCounter call.charged.category).retries = some 0) ∧
      (∀ failure, state.increment call = .error failure → failure.reason = call.charged) ∧
      ((∃ status, call.Moved status ∧ call.charged = .redirect status) ∨
        ((∀ status, ¬call.Moved status) ∧ call.charged = call.reason)) := by
  refine ⟨incrementAll_conserves h, fun call => ⟨?_, fun failure hfailure => ?_, charged_cases call⟩⟩
  · rw [RetryPolicy.categoryCounter_category]
    simp only [increment_error_iff, exists_and_left, exists_eq, and_true]
  · rw [((increment_error_iff failure).1 hfailure).2]

end Budgets

private def redirectPolicy : WholeRetryPolicy Unit where
  total := .limited 3
  connect := .unlimited
  read := .boolean true
  status := .limited 1
  redirect := .boolean true
  other := .boolean false
  allowedMethods := none
  statusForcelist := [503]
  respectRetryAfter := true
  raiseOnStatus := true
  backoff := ()
  raiseOnRedirect := true

private def movedCall : RetryCall := ⟨.status 302, text "GET", text "http://a/", some (text "/b")⟩

private def busyCall : RetryCall := ⟨.status 503, text "GET", text "http://a/b", none⟩

/-- A redirect and a busy server; the second redirect finds nothing left. -/
theorem retry_budgets_second_redirect : ∃ state, WholeRetryState.incrementAll ⟨redirectPolicy, []⟩ [movedCall, busyCall] = .ok state ∧
    state.remaining.total = .limited 1 ∧ state.increment movedCall = .error ⟨.redirect 302⟩ ∧
    BudgetsConserved ⟨redirectPolicy, []⟩ [movedCall, busyCall] state := by
  have hrun : WholeRetryState.incrementAll ⟨redirectPolicy, []⟩ [movedCall, busyCall] =
      .ok ⟨{ redirectPolicy with total := .limited 1, status := .limited 0, redirect := .limited 0 },
        [movedCall.record, busyCall.record]⟩ := by decide
  exact ⟨_, hrun, rfl, by decide, (retry_budgets_conserved hrun).1⟩

end RequestsNative.Python
