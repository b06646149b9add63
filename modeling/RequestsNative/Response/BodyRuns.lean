import RequestsNative.Lib.Machine
import RequestsNative.Response.Body

/-!
# Every run of a response body

A body is polled, asked to finish at its declared length, closed or dropped, in any order and against
any answers of the world. Closing and dropping consume it. The result is that its lease reaches the
pool once, and clean only by a clean end.
-/

namespace RequestsNative.Response

open RequestsNative.Lib RequestsNative.Transport

inductive BodyOp
  | poll (env : PollEnv)
  | finishDeclaredLength (world : World) (allowEncodedCompletion : Bool)
  | close (world : World) (awaited : Option DriverResult)
  | drop (world : World)

/-- `item` is what `poll_next` returned, for a poll. -/
structure BodyAnswer (Key : Type) where
  item : Option (Poll Item)
  settled : ResponseBody.Settled Key

variable {Key : Type}

/-- `none` is a body that was closed or dropped. -/
def bodyStep : Option (ResponseBody Key) → BodyOp → Option (BodyAnswer Key × Option (ResponseBody Key))
  | none, _ => none
  | some body, .poll env =>
      let (item, settled, body) := body.pollNext env
      some (⟨some item, settled⟩, some body)
  | some body, .finishDeclaredLength world allow =>
      let (settled, body) := body.finishDeclaredLength world allow
      some (⟨none, settled⟩, some body)
  | some body, .close world awaited => some (⟨none, (body.close world awaited).2⟩, none)
  | some body, .drop world => some (⟨none, body.drop world⟩, none)

def bodyMachine : Machine (Option (ResponseBody Key)) BodyOp (BodyAnswer Key) := ⟨bodyStep⟩

/-- What `take_body` reads of a response. `encoded` says whether its content encoding is an enabled one. -/
structure BodyConfig (Key : Type) where
  key : Key
  generation : Nat
  connection : NetworkConnection
  sessionRuntime : Bool
  decoded : Bool
  encoded : Bool
  chunked : Bool
  contentLength : Option Nat
  readTimeout : Option Nat
  totalTimeout : Option Nat
  totalDeadline : Option Nat

/-- `take_body`, with the lease the transport just handed out. -/
def takeBody (config : BodyConfig Key) : ResponseBody Key where
  source := some (if config.decoded && config.encoded then .decoded else .incoming)
  driver := some (.new (.new config.key config.generation config.connection) config.sessionRuntime)
  readTimeout := config.readTimeout
  readDeadline := none
  totalTimeout := config.totalTimeout
  totalDeadline := config.totalDeadline
  chunked := config.chunked
  expectedContentLength := if config.chunked then none else config.contentLength
  declaredCompletionLength := if config.chunked then none else config.contentLength
  encodedCompletion := config.encoded
  receivedBodyBytes := 0
  remainderWait := none
  terminal := false
  disposition := {}

/-! ### What a trace says -/

abbrev BodyTrace (Key : Type) := List (BodyOp × BodyAnswer Key)

/-- Every lease the body gave to the pool. -/
def settlements (trace : BodyTrace Key) : ResponseBody.Settled Key := trace.flatMap (·.2.settled)

def BodyAnswer.isError (answer : BodyAnswer Key) : Bool :=
  match answer.item with
  | some (.ready (some (.error _))) => true
  | _ => false

/-- The error items the body produced. -/
def errorItems (trace : BodyTrace Key) : BodyTrace Key := trace.filter (·.2.isError)

/-- The step is an end of the source stream, or a completion at exactly the declared length. -/
def CleanEnd (body : ResponseBody Key) : BodyOp → Prop
  | .poll env => body.pollTimeout env.firstTimer = none ∧ (body.pollSource env).1 = .ready none
  | .finishDeclaredLength _ _ => body.declaredCompletionLength = some body.receivedBodyBytes
  | _ => False

/-! ### Live and ended bodies -/

namespace ResponseBody

/-- The body still owns its undecided lease. -/
structure Live (body : ResponseBody Key) : Prop where
  running : body.terminal = false
  owned : ∃ driver, body.driver = some driver ∧ driver.Owned
  undecided : body.disposition.Undecided

structure Ended (body : ResponseBody Key) : Prop where
  terminal : body.terminal = true
  released : body.driver = none

theorem live_takeBody (config : BodyConfig Key) : (takeBody config).Live :=
  ⟨rfl, ⟨_, rfl, TransportLease.Owned.new _ _ _ _⟩, .inl rfl⟩

theorem Ended.finishNow {body : ResponseBody Key} (h : body.Ended) (world : World) (event : ResponseEvent) :
    body.finishNow world event = ([], body) := by
  simp [ResponseBody.finishNow, beginTerminal, h.terminal]

/-- Ending a live body settles its lease once, cleanly only for a clean end. -/
theorem Live.finishNow {body : ResponseBody Key} (h : body.Live) (world : World) {event : ResponseEvent}
    (hnotPartial : event ≠ .partialBody) (hpython : event ≠ .pythonExact) :
    ∃ lease, (body.finishNow world event).1 = [lease] ∧ (body.finishNow world event).2.Ended ∧
      ((lease.Clean ∧ event = .cleanEof) ∨ (lease.terminal = .dirty ∧ lease.dirtyIdentity.isSome = true)) := by
  obtain ⟨driver, hdriver, howned⟩ := h.owned
  unfold ResponseBody.finishNow beginTerminal
  rw [h.running, hdriver]
  simp only [Bool.false_eq_true, if_false]
  split
  · obtain ⟨lease, hsettled, hdirty⟩ := howned.finishIncompleteBodyNow world
    exact ⟨lease, hsettled, ⟨rfl, rfl⟩, .inr hdirty⟩
  · obtain ⟨lease, hsettled, hcase⟩ := howned.finishNow world
      (decide ((body.disposition.apply event).decision = some .reusable))
    refine ⟨lease, hsettled, ⟨rfl, rfl⟩, hcase.imp_left fun hclean => ⟨hclean.1, ?_⟩⟩
    exact (h.undecided.reusable_iff hnotPartial hpython).mp (of_decide_eq_true hclean.2)

theorem Live.finishError {body : ResponseBody Key} (h : body.Live) (world : World) {event : ResponseEvent}
    (hnotPartial : event ≠ .partialBody) (hpython : event ≠ .pythonExact) (heof : event ≠ .cleanEof)
    (error : Error) :
    ∃ lease body', body.finishError world event error = (.ready (some (.error error)), [lease], body') ∧
      body'.Ended ∧ lease.terminal = .dirty ∧ lease.dirtyIdentity.isSome = true := by
  obtain ⟨lease, hsettled, hended, hcase⟩ := h.finishNow world hnotPartial hpython
  refine ⟨lease, (body.finishNow world event).2, ?_, hended, ?_⟩
  · simp only [ResponseBody.finishError, hsettled]
  · rcases hcase with ⟨-, hclean⟩ | hdirty
    · exact absurd hclean heof
    · exact hdirty

/-- What one poll of a live body can do: go on without touching the lease, end cleanly with the source,
or end with an error item and a dirty lease. -/
inductive PollOutcome (env : PollEnv) (body : ResponseBody Key) :
    Poll Item × Settled Key × ResponseBody Key → Prop
  | goesOn {item : Poll Item} {body' : ResponseBody Key} :
      body'.Live → item ≠ .ready none → (∀ error, item ≠ .ready (some (.error error))) →
        PollOutcome env body (item, [], body')
  | ends {lease : TransportLease.Settlement Key} {body' : ResponseBody Key} :
      body'.Ended → CleanEnd body (.poll env) →
        lease.Clean ∨ (lease.terminal = .dirty ∧ lease.dirtyIdentity.isSome = true) →
        PollOutcome env body (.ready none, [lease], body')
  | fails {error : Error} {lease : TransportLease.Settlement Key} {body' : ResponseBody Key} :
      body'.Ended → lease.terminal = .dirty ∧ lease.dirtyIdentity.isSome = true →
        PollOutcome env body (.ready (some (.error error)), [lease], body')

theorem PollOutcome.of_finishError {env : PollEnv} {start body : ResponseBody Key} (h : body.Live)
    (world : World) {event : ResponseEvent} (hnotPartial : event ≠ .partialBody) (hpython : event ≠ .pythonExact)
    (heof : event ≠ .cleanEof) (error : Error) :
    PollOutcome env start (body.finishError world event error) := by
  obtain ⟨lease, body', heq, hended, hdirty⟩ := h.finishError world hnotPartial hpython heof error
  rw [heq]
  exact .fails hended hdirty

theorem Live.armReadDeadline {body : ResponseBody Key} (h : body.Live) (now : Nat) :
    (body.armReadDeadline now).Live := by
  unfold ResponseBody.armReadDeadline
  split
  · exact ⟨h.running, h.owned, h.undecided⟩
  · exact h

theorem Live.pollDriver {env : PollEnv} {start body : ResponseBody Key} (h : body.Live) :
    PollOutcome env start (body.pollDriver env) := by
  have hlive := h.armReadDeadline env.now
  obtain ⟨driver, hdriver, howned⟩ := hlive.owned
  simp only [ResponseBody.pollDriver]
  split
  · exact .of_finishError hlive env.world (by decide) (by decide) (by decide) _
  · rw [hdriver]
    have hnext : ({ body.armReadDeadline env.now with driver := some (driver.pollResult env.task).2 } :
        ResponseBody Key).Live :=
      ⟨hlive.running, ⟨_, rfl, howned.pollResult env.task⟩, hlive.undecided⟩
    simp only
    split
    · exact .of_finishError hnext env.world (by decide) (by decide) (by decide) _
    · exact .goesOn hnext (by simp) (by simp)
    · exact .goesOn hnext (by simp) (by simp)

theorem Live.pollNext {body : ResponseBody Key} (h : body.Live) (env : PollEnv) :
    PollOutcome env body (body.pollNext env) := by
  obtain ⟨driver, hdriver, howned⟩ := h.owned
  unfold ResponseBody.pollNext
  rw [if_neg (by simp [h.running])]
  split
  · exact .of_finishError h env.world (by decide) (by decide) (by decide) _
  · rename_i htimeout
    split
    · exact .goesOn ⟨h.running, h.owned, h.undecided.partialBody⟩ (by simp) (by simp)
    · apply PollOutcome.of_finishError h env.world
      all_goals split <;> [decide; split <;> decide]
    · rename_i hsource
      have hlive : ({ body with remainderWait := none } : ResponseBody Key).Live :=
        ⟨h.running, h.owned, h.undecided⟩
      obtain ⟨lease, hsettled, hended, hcase⟩ := hlive.finishNow env.world
        (by decide : ResponseEvent.cleanEof ≠ .partialBody) (by decide)
      simp only [hsettled]
      exact .ends hended ⟨htimeout, by rw [hsource]⟩ (hcase.imp_left And.left)
    · rw [hdriver]
      simp only
      split
      · exact .goesOn ⟨h.running, ⟨_, rfl, howned⟩, h.undecided⟩ (by simp) (by simp)
      · exact Live.pollDriver ⟨h.running, ⟨_, rfl, howned⟩, h.undecided⟩

theorem Ended.pollNext {body : ResponseBody Key} (h : body.Ended) (env : PollEnv) :
    body.pollNext env = (.ready none, [], body) := by
  simp [ResponseBody.pollNext, h.terminal]

/-- Completion at the declared length leaves the body alone or ends it there. -/
theorem Live.finishDeclaredLength {body : ResponseBody Key} (h : body.Live) (world : World) (allow : Bool) :
    body.finishDeclaredLength world allow = ([], body) ∨
      ∃ lease body', body.finishDeclaredLength world allow = ([lease], body') ∧ body'.Ended ∧
        body.declaredCompletionLength = some body.receivedBodyBytes ∧
        (lease.Clean ∨ (lease.terminal = .dirty ∧ lease.dirtyIdentity.isSome = true)) := by
  unfold ResponseBody.finishDeclaredLength
  split
  · rename_i hguard
    simp only [Bool.and_eq_true] at hguard
    have hlive : ({ body with remainderWait := none } : ResponseBody Key).Live :=
      ⟨h.running, h.owned, h.undecided⟩
    obtain ⟨lease, hsettled, hended, hcase⟩ := hlive.finishNow world
      (by decide : ResponseEvent.cleanEof ≠ .partialBody) (by decide)
    refine .inr ⟨lease, _, Prod.ext hsettled rfl, hended, ?_, hcase.imp_left And.left⟩
    cases hdeclared : body.declaredCompletionLength with
    | none => simp [hdeclared] at hguard
    | some declared =>
        have hreceived : body.receivedBodyBytes = declared := by simpa [hdeclared] using hguard.2
        rw [hreceived]
  · exact .inl rfl

theorem Ended.finishDeclaredLength {body : ResponseBody Key} (h : body.Ended) (world : World) (allow : Bool) :
    body.finishDeclaredLength world allow = ([], body) := by
  simp [ResponseBody.finishDeclaredLength, h.terminal]

/-- Closing or dropping a live body settles its lease dirty. -/
theorem Live.close {body : ResponseBody Key} (h : body.Live) (world : World) (awaited : Option DriverResult) :
    TransportLease.SettlesDirty (body.close world awaited).2 := by
  obtain ⟨driver, hdriver, howned⟩ := h.owned
  obtain ⟨lease, hsettled, hdirty⟩ := howned.abortAndWait world awaited
  refine ⟨lease, ?_, hdirty⟩
  simp [ResponseBody.close, ResponseBody.finishNow, beginTerminal, h.running, hdriver, hsettled]

theorem Live.drop {body : ResponseBody Key} (h : body.Live) (world : World) :
    TransportLease.SettlesDirty (body.drop world) := by
  obtain ⟨lease, hsettled, -, hcase⟩ := h.finishNow world (by decide : ResponseEvent.drop ≠ .partialBody) (by decide)
  refine ⟨lease, hsettled, ?_⟩
  rcases hcase with ⟨-, heof⟩ | hdirty
  · cases heof
  · exact hdirty

theorem Ended.close {body : ResponseBody Key} (h : body.Ended) (world : World) (awaited : Option DriverResult) :
    (body.close world awaited).2 = [] := by
  simp [ResponseBody.close, beginTerminal, h.terminal, h.finishNow]

theorem Ended.drop {body : ResponseBody Key} (h : body.Ended) (world : World) : body.drop world = [] := by
  simp [ResponseBody.drop, h.finishNow]

end ResponseBody

/-! ### One step -/

/-- A lease settled by `op` on `body`: clean by a clean end, dirty otherwise. -/
def SettledBy (body : ResponseBody Key) (op : BodyOp) (lease : TransportLease.Settlement Key) : Prop :=
  (lease.Clean ∧ CleanEnd body op) ∨ (lease.terminal = .dirty ∧ lease.dirtyIdentity.isSome = true)

/-- The body is closed, dropped or terminal. -/
def Over (state : Option (ResponseBody Key)) : Prop := ∀ body ∈ state, body.Ended

theorem over_none : Over (none : Option (ResponseBody Key)) := fun _ h => by cases h

theorem over_some {body : ResponseBody Key} (h : body.Ended) : Over (some body) :=
  fun _ hsame => Option.some.inj hsame ▸ h

theorem live_step {body : ResponseBody Key} (h : body.Live) {op : BodyOp} {answer : BodyAnswer Key}
    {state : Option (ResponseBody Key)} (hstep : bodyStep (some body) op = some (answer, state)) :
    (∃ body', state = some body' ∧ body'.Live ∧ answer.settled = [] ∧ answer.isError = false) ∨
      (∃ lease, answer.settled = [lease] ∧ SettledBy body op lease ∧ Over state) := by
  cases op with
  | poll env =>
      have houtcome := h.pollNext env
      simp only [bodyStep, Option.some.injEq, Prod.mk.injEq] at hstep
      obtain ⟨rfl, rfl⟩ := hstep
      generalize body.pollNext env = result at houtcome
      cases houtcome with
      | goesOn hlive _ herror =>
          refine .inl ⟨_, rfl, hlive, rfl, ?_⟩
          unfold BodyAnswer.isError
          split
          · rename_i error heq
            exact absurd (Option.some.inj heq) (herror error)
          · rfl
      | ends hended hclean hlease =>
          exact .inr ⟨_, rfl, hlease.imp_left fun h => ⟨h, hclean⟩, over_some hended⟩
      | fails hended hdirty => exact .inr ⟨_, rfl, .inr hdirty, over_some hended⟩
  | finishDeclaredLength world allow =>
      simp only [bodyStep, Option.some.injEq, Prod.mk.injEq] at hstep
      obtain ⟨rfl, rfl⟩ := hstep
      rcases h.finishDeclaredLength world allow with hsame | ⟨lease, body', heq, hended, hlength, hlease⟩
      · exact .inl ⟨body, by rw [hsame], h, by rw [hsame], rfl⟩
      · refine .inr ⟨lease, by rw [heq], hlease.imp_left fun h => ⟨h, hlength⟩, ?_⟩
        rw [heq]
        exact over_some hended
  | close world awaited =>
      simp only [bodyStep, Option.some.injEq, Prod.mk.injEq] at hstep
      obtain ⟨rfl, rfl⟩ := hstep
      obtain ⟨lease, hsettled, hdirty⟩ := h.close world awaited
      exact .inr ⟨lease, hsettled, .inr hdirty, over_none⟩
  | drop world =>
      simp only [bodyStep, Option.some.injEq, Prod.mk.injEq] at hstep
      obtain ⟨rfl, rfl⟩ := hstep
      obtain ⟨lease, hsettled, hdirty⟩ := h.drop world
      exact .inr ⟨lease, hsettled, .inr hdirty, over_none⟩

theorem ended_step {body : ResponseBody Key} (h : body.Ended) {op : BodyOp} {answer : BodyAnswer Key}
    {state : Option (ResponseBody Key)} (hstep : bodyStep (some body) op = some (answer, state)) :
    answer.settled = [] ∧ answer.isError = false ∧ Over state := by
  cases op <;> simp only [bodyStep, h.pollNext, h.finishDeclaredLength, h.close, h.drop, Option.some.injEq,
    Prod.mk.injEq] at hstep <;> obtain ⟨rfl, rfl⟩ := hstep
  · exact ⟨rfl, rfl, over_some h⟩
  · exact ⟨rfl, rfl, over_some h⟩
  · exact ⟨rfl, rfl, over_none⟩
  · exact ⟨rfl, rfl, over_none⟩

/-! ### Whole runs -/

/-- Nothing has been settled while the body is live; afterwards one lease has. -/
def BodyInv (trace : BodyTrace Key) (state : Option (ResponseBody Key)) : Prop :=
  (∃ body, state = some body ∧ body.Live ∧ settlements trace = [] ∧ errorItems trace = []) ∨
    (Over state ∧ (settlements trace).length = 1 ∧ (errorItems trace).length ≤ 1)

theorem bodyInv_step {trace : BodyTrace Key} {state next : Option (ResponseBody Key)} {op : BodyOp}
    {answer : BodyAnswer Key} (hinv : BodyInv trace state) (hstep : bodyStep state op = some (answer, next)) :
    BodyInv (trace ++ [(op, answer)]) next := by
  have hsettled : settlements (trace ++ [(op, answer)]) = settlements trace ++ answer.settled := by
    simp [settlements]
  have herrors : errorItems (trace ++ [(op, answer)]) =
      errorItems trace ++ if answer.isError then [(op, answer)] else [] := by
    rw [errorItems, List.filter_append, List.filter_singleton, cond_eq_ite]
    rfl
  unfold BodyInv
  rw [hsettled, herrors]
  rcases hinv with ⟨body, rfl, hlive, hnone, hquiet⟩ | ⟨hover, honce, herror⟩
  · rw [hnone, hquiet]
    rcases live_step hlive hstep with ⟨body', rfl, hlive', hempty, hfine⟩ | ⟨lease, hone, -, hover⟩
    · exact .inl ⟨body', rfl, hlive', by simp [hempty], by simp [hfine]⟩
    · refine .inr ⟨hover, by simp [hone], ?_⟩
      split <;> simp
  · cases state with
    | none => cases hstep
    | some body =>
        obtain ⟨hempty, hfine, hover'⟩ := ended_step (hover body rfl) hstep
        exact .inr ⟨hover', by simp [hempty, honce], by simpa [hfine] using herror⟩

theorem bodyInv_run {config : BodyConfig Key} {trace : BodyTrace Key} {state : Option (ResponseBody Key)}
    (hrun : bodyMachine.Run (some (takeBody config)) trace state) : BodyInv trace state :=
  hrun.induction BodyInv (.inl ⟨_, rfl, ResponseBody.live_takeBody config, rfl, rfl⟩)
    fun _ _ _ _ _ _ hinv hstep => bodyInv_step hinv hstep

/-- What every run of a body guarantees about its lease and its items. -/
structure SettlesOnce (trace : BodyTrace Key) (state : Option (ResponseBody Key)) : Prop where
  atMostOnce : (settlements trace).length ≤ 1
  /-- A body that is gone has settled its lease. -/
  exactlyOnce : state = none → (settlements trace).length = 1
  oneError : (errorItems trace).length ≤ 1
  /-- A step that settles the lease is the first to do so, comes after no error item, and settles it
  clean only by a clean end. -/
  cleanOnly : ∀ op answer next, bodyStep state op = some (answer, next) → ∀ lease ∈ answer.settled,
    settlements trace = [] ∧ errorItems trace = [] ∧ ∃ body, state = some body ∧ SettledBy body op lease
  /-- Once settled, the stream is over. -/
  endsForGood : settlements trace ≠ [] → ∀ body, state = some body → ∀ env,
    body.pollNext env = (.ready none, [], body)

theorem body_settles_once {config : BodyConfig Key} {trace : BodyTrace Key} {state : Option (ResponseBody Key)}
    (hrun : bodyMachine.Run (some (takeBody config)) trace state) : SettlesOnce trace state := by
  rcases bodyInv_run hrun with ⟨body, rfl, hlive, hnone, hquiet⟩ | ⟨hover, honce, herror⟩
  · refine ⟨by simp [hnone], nofun, by simp [hquiet], ?_, fun h => absurd hnone h⟩
    intro op answer next hstep lease hlease
    refine ⟨hnone, hquiet, body, rfl, ?_⟩
    rcases live_step hlive hstep with ⟨_, -, -, hempty, -⟩ | ⟨other, hone, hby, -⟩
    · rw [hempty] at hlease
      cases hlease
    · rw [hone] at hlease
      exact List.mem_singleton.mp hlease ▸ hby
  · refine ⟨Nat.le_of_eq honce, fun _ => honce, herror, ?_, ?_⟩
    · intro op answer next hstep lease hlease
      cases state with
      | none => cases hstep
      | some body =>
          rw [(ended_step (hover body rfl) hstep).1] at hlease
          cases hlease
    · exact fun _ body hstate env => (hover body hstate).pollNext env

private def plainConfig : BodyConfig Nat where
  key := 5
  generation := 0
  connection := ⟨70, ⟨true, true⟩⟩
  sessionRuntime := false
  decoded := false
  encoded := false
  chunked := false
  contentLength := some 3
  readTimeout := some 1000
  totalTimeout := none
  totalDeadline := none

private def quietWorld : World := ⟨false, false, .wouldBlock⟩

private def framesEnv (frames : List FramePoll) : PollEnv :=
  ⟨false, frames, (.pending, false), false, 0, false, .pending, quietWorld⟩

/-- A three-byte body that is read, completed at its declared length, polled again and dropped. -/
theorem body_settles_once_declared_length : ∃ trace state,
    bodyMachine.Run (some (takeBody plainConfig)) trace state ∧ state = none ∧
      (settlements trace).map (·.terminal) = [.cleanEof] ∧ SettlesOnce trace state := by
  have hrun := Machine.run_of_exec (rfl : bodyMachine.exec (some (takeBody plainConfig))
    [.poll (framesEnv []), .poll (framesEnv [.trailers, .data [1, 2, 3]]),
      .finishDeclaredLength quietWorld false, .poll (framesEnv []), .drop quietWorld] = some _)
  exact ⟨_, _, hrun, rfl, by decide, body_settles_once hrun⟩

end RequestsNative.Response
