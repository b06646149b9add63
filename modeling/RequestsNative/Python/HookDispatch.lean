import RequestsNative.Lib.Effect
import RequestsNative.Python.BridgeRuns

/-!
# Hooks over the bridge

`dispatch_hook` of `hooks.py` calls each hook with the value the one before it left. `_dispatch_hook_trial` of
`callbacks.rs` does it from a worker: `HookRegistry` of `hooks.rs` keeps on the worker which value is the current one, by
its number, and the origin keeps the values and calls the hooks. The two are the same, whatever the hooks do and whenever
the steps of worker and origin are taken.
-/

namespace RequestsNative.Python

open RequestsNative.Lib

/-- What the two call of Python; each call may change the world and raise. -/
structure HookLibrary (World Object Error : Type) where
  none : Object
  isNone : Object → Bool
  isTruthy : Object → Effect World Error Bool
  /-- `hooks.get(key)`. -/
  get : Object → Bytes → Effect World Error Object
  /-- `Callable` among the globals of `requests.hooks`. -/
  callable : World → Option Object
  isInstance : Object → Object → Effect World Error Bool
  iter : Object → Effect World Error Object
  /-- `__next__`, without an object for `StopIteration`. -/
  next : Object → Effect World Error (Option Object)
  /-- `hook(value, **kwargs)`. -/
  call (hook value kwargs : Object) : Effect World Error Object
  nameError : Error
  runtimeError : String → Error

/-- An iterator over a new list that nothing else holds, or one of an object. -/
inductive HookIterator (Object : Type)
  | ofList (rest : List Object)
  | ofObject (iterator : Object)

variable {World Object Error : Type}

/-- The next hook, with the iterator behind it. -/
def HookIterator.advance (library : HookLibrary World Object Error) :
    HookIterator Object → Effect World Error (Option (Object × HookIterator Object))
  | .ofList [] => pure .none
  | .ofList (hook :: rest) => pure (.some (hook, .ofList rest))
  | .ofObject iterator => do
      let hook ← library.next iterator
      pure (hook.map (·, .ofObject iterator))

/-! ### Python -/

/-- The loop of `dispatch_hook`, for as many turns as there is fuel. -/
def forHooks (library : HookLibrary World Object Error) (kwargs : Object) :
    Nat → HookIterator Object → Object → World → Option (Except Error Object × World)
  | 0, _, _, _ => .none
  | fuel + 1, iterator, hookData, world =>
      match iterator.advance library world with
      | (.error error, world) => .some (.error error, world)
      | (.ok .none, world) => .some (.ok hookData, world)
      | (.ok (.some (hook, iterator)), world) =>
          match library.call hook hookData kwargs world with
          | (.error error, world) => .some (.error error, world)
          | (.ok result, world) =>
              forHooks library kwargs fuel iterator (if library.isNone result then hookData else result) world

/-- `dispatch_hook`, up to its loop: what it iterates over, if it does. -/
def hookList (library : HookLibrary World Object Error) (key : Bytes) (hooks : Object) :
    Effect World Error (Option (HookIterator Object)) := do
  let hookList ← if ← library.isTruthy hooks then library.get hooks key else pure library.none
  if ← library.isTruthy hookList then
    match library.callable (← Effect.read) with
    | .none => Effect.fail library.nameError
    | .some callable =>
        if ← library.isInstance hookList callable then pure (.some (.ofList [hookList]))
        else
          let iterator ← library.iter hookList
          pure (.some (.ofObject iterator))
  else pure .none

def dispatchHook (library : HookLibrary World Object Error) (fuel : Nat) (key : Bytes) (hooks hookData kwargs : Object)
    (world : World) : Option (Except Error Object × World) :=
  match hookList library key hooks world with
  | (.error error, world) => .some (.error error, world)
  | (.ok .none, world) => .some (.ok hookData, world)
  | (.ok (.some iterator), world) => forHooks library kwargs fuel iterator hookData world

/-! ### The worker -/

/-- Both identifiers are indices. -/
structure HookCall where
  hook : Nat
  value : Nat

structure HookRegistry where
  nextHook : Nat := 0
  currentValue : Nat

namespace HookRegistry

def nextCall (registry : HookRegistry) : HookCall × HookRegistry :=
  (⟨registry.nextHook, registry.currentValue⟩, { registry with nextHook := registry.nextHook + 1 })

def replace (registry : HookRegistry) (value : Nat) : HookRegistry := { registry with currentValue := value }

end HookRegistry

inductive HookAction
  | call (call : HookCall)

inductive HookReply
  | unchanged
  | replaced (value : Nat)
  | ended
  | failed

inductive HookOutcome
  | complete (value : Nat)
  | handlerFailed
  | bridgeClosed (error : BridgeClosed)

/-- Where `dispatch_worker` stands: before a turn of its loop, or about to return. -/
inductive DispatchPoint
  | looping (registry : HookRegistry)
  | returning (outcome : HookOutcome)

/-- How `dispatch_worker` goes on with a reply. -/
def HookRegistry.resume (registry : HookRegistry) : Except BridgeClosed HookReply → DispatchPoint
  | .ok .unchanged => .looping registry
  | .ok (.replaced value) => .looping (registry.replace value)
  | .ok .ended => .returning (.complete registry.currentValue)
  | .ok .failed => .returning .handlerFailed
  | .error error => .returning (.bridgeClosed error)

/-- `dispatch_worker`. -/
def dispatchWorker : DispatchPoint → FutureTurn DispatchPoint HookOutcome HookAction HookReply
  | .looping registry =>
      let (call, registry) := registry.nextCall
      .ask (.call call) registry.resume
  | .returning outcome => .complete outcome

/-! ### The origin -/

/-- With the world that the actions change. -/
structure OriginHookOwner (World Object Error : Type) where
  iterator : HookIterator Object
  values : List Object
  kwargs : Object
  handlerError : Option Error := .none
  world : World

namespace OriginHookOwner

variable (library : HookLibrary World Object Error) (owner : OriginHookOwner World Object Error)

/-- `store_handler_error`. -/
def storeHandlerError (error : Error) : HookReply × OriginHookOwner World Object Error :=
  (.failed, { owner with handlerError := owner.handlerError.or (.some error) })

/-- `call_hook`. -/
def callHook (call : HookCall) : Except Error HookReply × OriginHookOwner World Object Error :=
  match owner.iterator.advance library owner.world with
  | (.error error, world) => (.error error, { owner with world })
  | (.ok .none, world) => (.ok .ended, { owner with world })
  | (.ok (.some (hook, iterator)), world) =>
      let owner := { owner with iterator, world }
      match owner.values[call.value]? with
      | .none => (.error (library.runtimeError "hook dispatch referenced an unknown Python value"), owner)
      | .some value =>
          match library.call hook value owner.kwargs owner.world with
          | (.error error, world) => (.error error, { owner with world })
          | (.ok replacement, world) =>
              if library.isNone replacement then (.ok .unchanged, { owner with world })
              else (.ok (.replaced owner.values.length), { owner with world, values := owner.values ++ [replacement] })

/-- `execute_action`. -/
def executeAction : HookAction → HookReply × OriginHookOwner World Object Error
  | .call call =>
      match owner.callHook library call with
      | (.ok reply, owner) => (reply, owner)
      | (.error error, owner) => owner.storeHandlerError error

/-- The end of `_dispatch_hook_trial`. -/
def conclude (outcome : HookOutcome) : Except Error Object :=
  match owner.handlerError with
  | .some error => .error error
  | .none =>
      match outcome with
      | .complete value =>
          match owner.values[value]? with
          | .some value => .ok value
          | .none => .error (library.runtimeError "hook dispatch lost its final Python value")
      | .handlerFailed =>
          .error (library.runtimeError "hook dispatch callback failed without preserving its Python exception")
      | .bridgeClosed error => .error (library.runtimeError error.fmt)

end OriginHookOwner

/-- `_dispatch_hook_trial`, up to the owner it makes. -/
def selectHooks (library : HookLibrary World Object Error) (key : Bytes) (hooks : Object) :
    Effect World Error (Option (HookIterator Object)) := do
  let selected ← do
    -- an empty dictionary stands for hooks that are not truthy
    if ← library.isTruthy hooks then library.get hooks key else pure library.none
  if !(← library.isTruthy selected) then pure .none
  else
    match library.callable (← Effect.read) with
    | .none => Effect.fail library.nameError
    | .some callable =>
        if ← library.isInstance selected callable then pure (.some (.ofList [selected]))
        else
          let iterator ← library.iter selected
          pure (.some (.ofObject iterator))

/-- The loop of the origin executes what the worker asks for, and always replies. -/
def hookDisposition (library : HookLibrary World Object Error) (action : HookAction)
    (owner : OriginHookOwner World Object Error) : ActionReplyDisposition HookReply × OriginHookOwner World Object Error :=
  let (reply, owner) := owner.executeAction library action
  (.reply reply, owner)

/-- `_dispatch_hook_trial` returns or raises so, with some order of the steps of its bridge. -/
def Dispatches (library : HookLibrary World Object Error) (processId : Nat) (key : Bytes) (hooks hookData kwargs : Object)
    (world : World) (result : Except Error Object) (world' : World) : Prop :=
  match selectHooks library key hooks world with
  | (.error error, world) => result = .error error ∧ world' = world
  | (.ok .none, world) => result = .ok hookData ∧ world' = world
  | (.ok (.some iterator), world) =>
      ∃ trace b outcome owner,
        (Bridge.machine processId dispatchWorker (hookDisposition library)).Run
          (Bridge.start processId (.looping { currentValue := 0 }) { iterator, values := [hookData], kwargs, world }) trace b ∧
        (outcome, owner) ∈ returnedIn (bridgeLog trace) ∧ owner.conclude library outcome = result ∧ owner.world = world'

/-! ### The same hooks with the same values -/

variable {library : HookLibrary World Object Error} {key : Bytes} {hooks hookData kwargs : Object} {world world' : World}
  {result : Except Error Object}

theorem selectHooks_eq : selectHooks library key hooks = hookList library key hooks := by
  have hnot {α : Type} (truthy : Bool) (x y : Effect World Error α) :
      (if !truthy then x else y) = if truthy then y else x := by
    cases truthy <;> rfl
  simp only [selectHooks, hookList, hnot]

/-- The worker and the origin are before a turn of the loop, with this value as the current one. -/
structure Dispatching (registry : HookRegistry) (owner : OriginHookOwner World Object Error) (kwargs hookData : Object) :
    Prop where
  value : owner.values[registry.currentValue]? = .some hookData
  kwargs : owner.kwargs = kwargs
  handlerError : owner.handlerError = .none

section Actions

variable {registry : HookRegistry} {owner : OriginHookOwner World Object Error} {hook replacement : Object}
  {iterator : HookIterator Object} {error : Error} {world₁ world₂ : World}

theorem execute_raise (h : Dispatching registry owner kwargs hookData)
    (hadvance : owner.iterator.advance library owner.world = (.error error, world₁)) :
    owner.executeAction library (.call registry.nextCall.1) =
      (.failed, { owner with world := world₁, handlerError := .some error }) := by
  simp only [OriginHookOwner.executeAction, OriginHookOwner.callHook, hadvance, OriginHookOwner.storeHandlerError,
    h.handlerError, Option.none_or]

theorem execute_end (hadvance : owner.iterator.advance library owner.world = (.ok .none, world₁)) :
    owner.executeAction library (.call registry.nextCall.1) = (.ended, { owner with world := world₁ }) := by
  simp only [OriginHookOwner.executeAction, OriginHookOwner.callHook, hadvance]

theorem execute_failed (h : Dispatching registry owner kwargs hookData)
    (hadvance : owner.iterator.advance library owner.world = (.ok (.some (hook, iterator)), world₁))
    (hcall : library.call hook hookData kwargs world₁ = (.error error, world₂)) :
    owner.executeAction library (.call registry.nextCall.1) =
      (.failed, { owner with iterator, world := world₂, handlerError := .some error }) := by
  simp only [OriginHookOwner.executeAction, OriginHookOwner.callHook, hadvance, HookRegistry.nextCall, h.value, h.kwargs,
    hcall, OriginHookOwner.storeHandlerError, h.handlerError, Option.none_or]

theorem execute_called (h : Dispatching registry owner kwargs hookData)
    (hadvance : owner.iterator.advance library owner.world = (.ok (.some (hook, iterator)), world₁))
    (hcall : library.call hook hookData kwargs world₁ = (.ok replacement, world₂)) :
    owner.executeAction library (.call registry.nextCall.1) =
      if library.isNone replacement then (.unchanged, { owner with iterator, world := world₂ })
      else (.replaced owner.values.length,
        { owner with iterator, world := world₂, values := owner.values ++ [replacement] }) := by
  cases hnone : library.isNone replacement <;>
    simp only [OriginHookOwner.executeAction, OriginHookOwner.callHook, hadvance, HookRegistry.nextCall, h.value, h.kwargs,
      hcall, hnone, Bool.false_eq_true, if_true, if_false]

theorem Dispatching.unchanged (h : Dispatching registry owner kwargs hookData) (iterator : HookIterator Object)
    (world : World) : Dispatching registry.nextCall.2 { owner with iterator, world } kwargs hookData :=
  ⟨h.value, h.kwargs, h.handlerError⟩

theorem Dispatching.replaced (h : Dispatching registry owner kwargs hookData) (iterator : HookIterator Object)
    (world : World) (replacement : Object) :
    Dispatching (registry.nextCall.2.replace owner.values.length)
      { owner with iterator, world, values := owner.values ++ [replacement] } kwargs replacement :=
  ⟨List.getElem?_concat_length, h.kwargs, h.handlerError⟩

end Actions

/-- The worker as it goes on with the replies. -/
abbrev Dispatched (library : HookLibrary World Object Error) (point : DispatchPoint)
    (owner : OriginHookOwner World Object Error) (outcome : HookOutcome) (final : OriginHookOwner World Object Error) : Prop :=
  Coroutine.Returns dispatchWorker (serveAction (hookDisposition library)) point owner outcome final

section Turns

variable {registry : HookRegistry} {owner owner' final : OriginHookOwner World Object Error} {reply : HookReply}
  {outcome : HookOutcome}

theorem serve_call (h : owner.executeAction library (.call registry.nextCall.1) = (reply, owner')) :
    serveAction (hookDisposition library) (.call registry.nextCall.1) owner = some (.ok reply, owner') := by
  simp only [serveAction, hookDisposition, h]

theorem dispatched_ask (h : owner.executeAction library (.call registry.nextCall.1) = (reply, owner')) :
    Dispatched library (.looping registry) owner outcome final ↔
      Dispatched library (registry.nextCall.2.resume (.ok reply)) owner' outcome final := by
  constructor
  · intro hreturns
    obtain ⟨reply', left, hserve, hrest⟩ := hreturns.of_ask rfl
    obtain ⟨rfl, rfl⟩ := Prod.mk.inj (Option.some.inj ((serve_call h).symm.trans hserve))
    exact hrest
  · exact Coroutine.returns_ask rfl (serve_call h)

theorem dispatched_returning : Dispatched library (.returning outcome) owner outcome owner := Coroutine.returns_complete rfl

theorem Dispatched.of_returning {done : HookOutcome} (h : Dispatched library (.returning done) owner outcome final) :
    outcome = done ∧ final = owner :=
  Coroutine.Returns.of_complete (show dispatchWorker (.returning done) = .complete done from rfl) h

theorem conclude_error {error : Error} (h : owner.handlerError = .some error) :
    owner.conclude library outcome = .error error := by
  simp only [OriginHookOwner.conclude, h]

theorem conclude_complete (library : HookLibrary World Object Error) (h : Dispatching registry owner kwargs hookData) :
    owner.conclude library (.complete registry.currentValue) = .ok hookData := by
  simp only [OriginHookOwner.conclude, h.handlerError, h.value]

end Turns

theorem hookTurn_cases (library : HookLibrary World Object Error) (iterator : HookIterator Object)
    (hookData kwargs : Object) (world : World) :
    (∃ error world₁, iterator.advance library world = (.error error, world₁)) ∨
    (∃ world₁, iterator.advance library world = (.ok .none, world₁)) ∨
    (∃ hook rest world₁ error world₂, iterator.advance library world = (.ok (.some (hook, rest)), world₁) ∧
      library.call hook hookData kwargs world₁ = (.error error, world₂)) ∨
    (∃ hook rest world₁ replacement world₂, iterator.advance library world = (.ok (.some (hook, rest)), world₁) ∧
      library.call hook hookData kwargs world₁ = (.ok replacement, world₂)) := by
  cases hadvance : iterator.advance library world with
  | mk next world₁ =>
      cases next with
      | error error => exact .inl ⟨error, world₁, rfl⟩
      | ok next =>
          cases next with
          | none => exact .inr (.inl ⟨world₁, rfl⟩)
          | some next =>
              obtain ⟨hook, rest⟩ := next
              cases hcall : library.call hook hookData kwargs world₁ with
              | mk called world₂ =>
                  cases called with
                  | error error => exact .inr (.inr (.inl ⟨hook, rest, world₁, error, world₂, rfl, hcall⟩))
                  | ok replacement => exact .inr (.inr (.inr ⟨hook, rest, world₁, replacement, world₂, rfl, hcall⟩))

/-- What Python computes, worker and origin compute. -/
theorem dispatched_of_forHooks {fuel : Nat} {registry : HookRegistry} {owner : OriginHookOwner World Object Error}
    (h : Dispatching registry owner kwargs hookData)
    (hfor : forHooks library kwargs fuel owner.iterator hookData owner.world = some (result, world')) :
    ∃ outcome final, Dispatched library (.looping registry) owner outcome final ∧ final.conclude library outcome = result ∧
      final.world = world' := by
  induction fuel generalizing registry owner hookData with
  | zero => cases hfor
  | succ fuel ih =>
      obtain ⟨error, world₁, hadvance⟩ | ⟨world₁, hadvance⟩ | ⟨hook, rest, world₁, error, world₂, hadvance, hcall⟩ |
        ⟨hook, rest, world₁, replacement, world₂, hadvance, hcall⟩ :=
          hookTurn_cases library owner.iterator hookData kwargs owner.world
      · simp only [forHooks, hadvance] at hfor
        obtain ⟨rfl, rfl⟩ := Prod.mk.inj (Option.some.inj hfor)
        exact ⟨_, _, (dispatched_ask (execute_raise h hadvance)).mpr dispatched_returning, conclude_error rfl, rfl⟩
      · simp only [forHooks, hadvance] at hfor
        obtain ⟨rfl, rfl⟩ := Prod.mk.inj (Option.some.inj hfor)
        exact ⟨_, _, (dispatched_ask (execute_end hadvance)).mpr dispatched_returning,
          conclude_complete library (h.unchanged owner.iterator world₁), rfl⟩
      · simp only [forHooks, hadvance, hcall] at hfor
        obtain ⟨rfl, rfl⟩ := Prod.mk.inj (Option.some.inj hfor)
        exact ⟨_, _, (dispatched_ask (execute_failed h hadvance hcall)).mpr dispatched_returning, conclude_error rfl, rfl⟩
      · simp only [forHooks, hadvance, hcall] at hfor
        have hexecute := execute_called h hadvance hcall
        cases hnone : library.isNone replacement with
        | true =>
            rw [hnone, if_pos rfl] at hfor hexecute
            obtain ⟨outcome, final, hreturns, hresult⟩ := ih (h.unchanged rest world₂) hfor
            exact ⟨outcome, final, (dispatched_ask hexecute).mpr hreturns, hresult⟩
        | false =>
            rw [hnone, if_neg Bool.false_ne_true] at hfor hexecute
            obtain ⟨outcome, final, hreturns, hresult⟩ := ih (h.replaced rest world₂ replacement) hfor
            exact ⟨outcome, final, (dispatched_ask hexecute).mpr hreturns, hresult⟩

/-- What worker and origin compute, Python computes. -/
theorem forHooks_of_dispatched {outcome : HookOutcome} {registry : HookRegistry}
    {owner final : OriginHookOwner World Object Error} (h : Dispatching registry owner kwargs hookData)
    (hreturns : Dispatched library (.looping registry) owner outcome final) :
    ∃ fuel, forHooks library kwargs fuel owner.iterator hookData owner.world =
      some (final.conclude library outcome, final.world) := by
  refine hreturns.induction (P := fun point owner => ∀ registry hookData, point = .looping registry →
    Dispatching registry owner kwargs hookData → ∃ fuel, forHooks library kwargs fuel owner.iterator hookData owner.world =
      some (final.conclude library outcome, final.world)) ?_ ?_ registry hookData rfl h
  · rintro point hcomplete registry hookData rfl -
    cases hcomplete
  · rintro point owner action resume reply owner' hturn hserve hrest ih registry hookData rfl h
    obtain ⟨rfl, rfl⟩ := Turn.ask.inj hturn
    -- the action of this turn has one answer, and the rest goes on with it
    have hanswer {answer : HookReply} {left : OriginHookOwner World Object Error}
        (hexecute : owner.executeAction library (.call registry.nextCall.1) = (answer, left)) :
        reply = .ok answer ∧ owner' = left := by
      obtain ⟨rfl, rfl⟩ := Prod.mk.inj (Option.some.inj ((serve_call hexecute).symm.trans hserve))
      exact ⟨rfl, rfl⟩
    obtain ⟨error, world₁, hadvance⟩ | ⟨world₁, hadvance⟩ | ⟨hook, rest, world₁, error, world₂, hadvance, hcall⟩ |
      ⟨hook, rest, world₁, replacement, world₂, hadvance, hcall⟩ :=
        hookTurn_cases library owner.iterator hookData kwargs owner.world
    · obtain ⟨rfl, rfl⟩ := hanswer (execute_raise h hadvance)
      obtain ⟨rfl, rfl⟩ := Dispatched.of_returning hrest
      refine ⟨1, ?_⟩
      rw [conclude_error rfl]
      simp only [forHooks, hadvance]
    · obtain ⟨rfl, rfl⟩ := hanswer (execute_end hadvance)
      obtain ⟨rfl, rfl⟩ := Dispatched.of_returning hrest
      have hconclude := conclude_complete library (h.unchanged owner.iterator world₁)
      refine ⟨1, Eq.trans ?_ (congrArg (fun concluded => some (concluded, world₁)) hconclude.symm)⟩
      simp only [forHooks, hadvance]
    · obtain ⟨rfl, rfl⟩ := hanswer (execute_failed h hadvance hcall)
      obtain ⟨rfl, rfl⟩ := Dispatched.of_returning hrest
      refine ⟨1, ?_⟩
      rw [conclude_error rfl]
      simp only [forHooks, hadvance, hcall]
    · have hexecute := execute_called h hadvance hcall
      cases hnone : library.isNone replacement with
      | true =>
          rw [hnone, if_pos rfl] at hexecute
          obtain ⟨rfl, rfl⟩ := hanswer hexecute
          obtain ⟨fuel, hfor⟩ := ih _ hookData rfl (h.unchanged rest world₂)
          exact ⟨fuel + 1, by simpa only [forHooks, hadvance, hcall, hnone, if_true] using hfor⟩
      | false =>
          rw [hnone, if_neg Bool.false_ne_true] at hexecute
          obtain ⟨rfl, rfl⟩ := hanswer hexecute
          obtain ⟨fuel, hfor⟩ := ih _ replacement rfl (h.replaced rest world₂ replacement)
          exact ⟨fuel + 1, by simpa only [forHooks, hadvance, hcall, hnone, Bool.false_eq_true, if_false] using hfor⟩

/-- `_dispatch_hook_trial` returns and raises what `dispatch_hook` does, after the same changes to the world. -/
theorem dispatches_iff (library : HookLibrary World Object Error) (processId : Nat) (key : Bytes)
    (hooks hookData kwargs : Object) (world : World) (result : Except Error Object) (world' : World) :
    Dispatches library processId key hooks hookData kwargs world result world' ↔
      ∃ fuel, dispatchHook library fuel key hooks hookData kwargs world = some (result, world') := by
  unfold Dispatches dispatchHook
  rw [selectHooks_eq]
  cases hlist : hookList library key hooks world with
  | mk selected world₁ =>
      cases selected with
      | error error =>
          simp only [Option.some.injEq, Prod.mk.injEq, exists_const]
          exact and_congr eq_comm eq_comm
      | ok selected =>
          cases selected with
          | none =>
              simp only [Option.some.injEq, Prod.mk.injEq, exists_const]
              exact and_congr eq_comm eq_comm
          | some iterator =>
              have hstart : Dispatching { currentValue := 0 }
                  ({ iterator, values := [hookData], kwargs, world := world₁ } : OriginHookOwner World Object Error)
                  kwargs hookData := ⟨rfl, rfl, rfl⟩
              constructor
              · rintro ⟨trace, b, outcome, final, hrun, hreturned, rfl, rfl⟩
                exact forHooks_of_dispatched hstart (bridge_returned hrun hreturned)
              · rintro ⟨fuel, hfor⟩
                obtain ⟨outcome, final, hreturns, hresult, hworld⟩ := dispatched_of_forHooks hstart hfor
                obtain ⟨trace, b, hrun, hreturned⟩ := Bridge.run_of_returns hreturns
                exact ⟨trace, b, outcome, final, hrun, hreturned, hresult, hworld⟩

end RequestsNative.Python
