import RequestsNative.Python.BridgeSteps

/-!
# What crosses the bridge

One request is under way at a time: in the channel, in the hands of the loop, answered, or withheld. So in any order of
the steps the owner is where it would be if the origin had run the future itself, and the loop returns what the future
returns there.
-/

namespace RequestsNative.Python

open RequestsNative.Lib
open RequestsNative.Blocking (BlockingSubmission WorkerOp)

variable {W T A R O : Type} {current : Nat} {turn : W → FutureTurn W T A R}
  {execute : A → O → ActionReplyDisposition R × O} {log events : List (PumpEvent T A R O)} {s s' : Pump T A R O}
  {b b' : Bridge W T A R O} {loop loop' : Loop T A R O} {w w' : W} {owner : O}

/-! ### Where a request is -/

/-- Where the request of a waiting future is, and what has become of the owner it found. -/
inductive UnderWay (execute : A → O → ActionReplyDisposition R × O) (action : A) (reply : Nat) (found : O)
    (s : Pump T A R O) (loop : Loop T A R O) : Prop
  | queued : s.actions.queue = [⟨action, reply⟩] → loop.point.hands = .empty → loop.owner = found →
      UnderWay execute action reply found s loop
  | asked : s.actions.queue = [] → loop.point.hands = .asked ⟨action, reply⟩ → loop.owner = found →
      UnderWay execute action reply found s loop
  | answered {value : R} : s.actions.queue = [] → loop.point.hands = .answer reply value →
      execute action found = (.reply value, loop.owner) → UnderWay execute action reply found s loop
  | withheld : s.actions.queue = [] → loop.point.hands = .empty → reply ∈ loop.withheldReplies →
      UnderWay execute action reply found s loop

/-- No request is under way. -/
structure Quiet (s : Pump T A R O) (loop : Loop T A R O) : Prop where
  queue : s.actions.queue = []
  hands : loop.point.hands = .empty

/-- How the loop stands to the future, which began at `w` with the owner. -/
def Accounts (turn : W → FutureTurn W T A R) (execute : A → O → ActionReplyDisposition R × O) (w : W) (owner : O)
    (b : Bridge W T A R O) (loop : Loop T A R O) : Prop :=
  match b.future with
  | .ready w' => Coroutine.Reaches turn (serveAction execute) w owner w' loop.owner ∧ Quiet b.pump loop ∧
      ∀ output, ¬ Offers b.pump.task loop.submission output
  | .awaiting reply resume => (∃ w' action found, Coroutine.Reaches turn (serveAction execute) w owner w' found ∧
      turn w' = .ask action resume ∧ UnderWay execute action reply found b.pump loop) ∧
      ∀ output, ¬ Offers b.pump.task loop.submission output
  | .ended => ∀ output, Offers b.pump.task loop.submission output →
      Coroutine.Returns turn (serveAction execute) w owner output loop.owner ∧ Quiet b.pump loop

/-- A request under way has its reply kept. -/
theorem UnderWay.holdsReply {action : A} {reply : Nat} {found : O} (h : UnderWay execute action reply found s loop)
    (hloop : s.loop = some loop) : s.holdsReply reply = true := by
  simp only [Pump.holdsReply, hloop, Option.any_some]
  cases h with
  | queued hqueue => simp [hqueue]
  | asked _ hhands => simp [hhands, Hands.holds]
  | answered _ hhands => simp [hhands, Hands.holds]
  | withheld _ _ hwithheld => simp [hwithheld]

theorem repliedTo_eq_none {reply : Nat} (h : repliedIn events = []) : repliedTo reply events = none := by
  refine List.findSome?_eq_none_iff.mpr fun event hevent => ?_
  have hsilent := List.filterMap_eq_nil_iff.mp h event hevent
  cases event <;> first | rfl | cases hsilent

/-- Where nothing is under way, nothing gets under way. -/
theorem Quiet.carried (h : Quiet s loop) (hcarried : Carried s s' loop loop' events) : Quiet s' loop' := by
  have hhanded := hcarried.hands
  rw [h.hands, h.queue] at hhanded
  generalize hhands : loop'.point.hands = hands' at hhanded
  generalize hqueue : s'.actions.queue = queue' at hhanded
  cases hhanded
  exact ⟨hqueue, hhands⟩

/-- A request under way stays so, until its reply is sent. -/
theorem UnderWay.carried {action : A} {reply : Nat} {found : O} (h : UnderWay execute action reply found s loop)
    (hcarried : Carried s s' loop loop' events) :
    repliedTo reply events = none ∧ UnderWay execute action reply found s' loop' ∨
      ∃ value, repliedTo reply events = some value ∧ execute action found = (.reply value, loop'.owner) ∧ Quiet s' loop' := by
  obtain ⟨howner, hwithheld, -, hhanded⟩ := hcarried
  generalize hhands' : loop'.point.hands = hands' at hhanded
  generalize hqueue' : s'.actions.queue = queue' at hhanded
  cases h with
  | queued hqueue hhands hfound =>
      rw [hqueue, hhands] at hhanded
      cases hhanded with
      | still hevents => exact .inl ⟨repliedTo_eq_none hevents, .queued hqueue' hhands' (howner.trans hfound)⟩
      | receive => exact .inl ⟨rfl, .asked hqueue' hhands' (howner.trans hfound)⟩
  | asked hqueue hhands hfound =>
      rw [hqueue, hhands] at hhanded
      cases hhanded with
      | still hevents => exact .inl ⟨repliedTo_eq_none hevents, .asked hqueue' hhands' (howner.trans hfound)⟩
  | answered hqueue hhands hexecute =>
      rw [hqueue, hhands] at hhanded
      rw [← howner] at hexecute
      cases hhanded with
      | still hevents => exact .inl ⟨repliedTo_eq_none hevents, .answered hqueue' hhands' hexecute⟩
      | reply => exact .inr ⟨_, by simp [repliedTo], hexecute, hqueue', hhands'⟩
  | withheld hqueue hhands hmember =>
      rw [hqueue, hhands] at hhanded
      rw [← hwithheld] at hmember
      cases hhanded with
      | still hevents => exact .inl ⟨repliedTo_eq_none hevents, .withheld hqueue' hhands' hmember⟩

/-! ### Steps of the bridge -/

theorem accounts_ended (hoffers : ∀ output, Offers s.task loop.submission output →
      Coroutine.Returns turn (serveAction execute) w owner output loop.owner ∧ Quiet s loop)
    (hcarried : Carried s s' loop loop' events) : Accounts turn execute w owner ⟨s', .ended⟩ loop' := by
  intro output hoffer
  obtain ⟨hreturns, hquiet⟩ := hoffers output (hcarried.offers output hoffer)
  exact ⟨hcarried.owner ▸ hreturns, hquiet.carried hcarried⟩

/-- What is on offer is what the future returns. -/
theorem Accounts.returns (h : Accounts turn execute w owner b loop) {output : T}
    (hoffers : Offers b.pump.task loop.submission output) :
    Coroutine.Returns turn (serveAction execute) w owner output loop.owner := by
  obtain ⟨pump, future⟩ := b
  cases future with
  | ended => exact (h output hoffers).1
  | ready w' => exact absurd hoffers (h.2.2 output)
  | awaiting reply resume => exact absurd hoffers (h.2 output)

theorem accounts_after (h : Accounts turn execute w owner b loop) (op : PumpOp T A R O)
    (hcarried : Carried b.pump s' loop loop' events) :
    Accounts turn execute w owner ⟨s', b.future.after op events⟩ loop' := by
  obtain ⟨pump, future⟩ := b
  have hno (hoffers : ∀ output, ¬ Offers pump.task loop.submission output) (output : T) :
      ¬ Offers s'.task loop'.submission output := fun hoffer => hoffers output (hcarried.offers output hoffer)
  obtain hended | hhear := future.after_cases op events
  · rw [hended]
    cases future with
    | ended => exact accounts_ended h hcarried
    | ready w' => exact fun output hoffer => absurd hoffer (hno h.2.2 output)
    | awaiting reply resume => exact fun output hoffer => absurd hoffer (hno h.2 output)
  · rw [hhear]
    cases future with
    | ended => exact accounts_ended h hcarried
    | ready w' =>
        obtain ⟨hreaches, hquiet, hoffers⟩ := h
        exact ⟨hcarried.owner ▸ hreaches, hquiet.carried hcarried, hno hoffers⟩
    | awaiting reply resume =>
        obtain ⟨⟨w', action, found, hreaches, hturn, hunder⟩, hoffers⟩ := h
        obtain ⟨hnone, hunder'⟩ | ⟨value, hsome, hexecute, hquiet⟩ := hunder.carried hcarried
        · simp only [FuturePoint.hear, hnone]
          exact ⟨⟨w', action, found, hreaches, hturn, hunder'⟩, hno hoffers⟩
        · simp only [FuturePoint.hear, hsome]
          refine ⟨hreaches.answer hturn ?_, hquiet, hno hoffers⟩
          simp only [serveAction, hexecute]

theorem accounts_complete (hready : b.future = .ready w') (h : Accounts turn execute w owner b loop) {output : T}
    (hturn : turn w' = .complete output) (hstep : b.pump.step current (.worker (.complete output)) = some (events, s')) :
    Accounts turn execute w owner ⟨s', .ended⟩ loop := by
  obtain ⟨pump, future⟩ := b
  obtain rfl : future = .ready w' := hready
  obtain ⟨hreaches, hquiet, hoffers⟩ := h
  obtain ⟨⟨sent, task'⟩, htask, heq⟩ := Option.map_eq_some_iff.mp hstep
  obtain ⟨-, rfl⟩ := Prod.mk.inj heq
  intro other hoffer
  change pump.task.step (.complete output) = some (sent, task') at htask
  generalize pump.task = task at htask hoffers
  obtain ⟨worker, channel⟩ := task
  cases worker with
  | running =>
      obtain ⟨-, rfl⟩ := Prod.mk.inj (Option.some.inj htask)
      obtain hworker | hrest := hoffer
      · obtain rfl : output = other := Blocking.Worker.completed.inj hworker
        exact ⟨⟨w', hreaches, hturn⟩, hquiet.queue, hquiet.hands⟩
      · exact absurd (.inr hrest) (hoffers other)
  | completed | sent | stopped | gone => cases htask

theorem accounts_enqueue (hinv : PumpInv current log b.pump) (hready : b.future = .ready w') {action : A}
    {resume : Except BridgeClosed R → W} (hturn : turn w' = .ask action resume)
    (hstep : b.enqueue current action resume = some (events, b')) :
    b'.pump.loop = b.pump.loop ∧ ∀ {loop}, Accounts turn execute w owner b loop → b.pump.loop = some loop →
      Accounts turn execute w owner b' loop := by
  obtain ⟨pump, future⟩ := b
  obtain rfl : future = .ready w' := hready
  obtain ⟨⟨events', pump'⟩, hpump, heq⟩ := Option.map_eq_some_iff.mp hstep
  obtain ⟨rfl, rfl⟩ := Prod.mk.inj heq
  unfold Pump.step at hpump
  simp only at hpump
  split at hpump
  · cases hpump
  · split at hpump
    · rename_i hheard
      obtain ⟨rfl, rfl⟩ := Prod.mk.inj (Option.some.inj hpump)
      refine ⟨rfl, fun {loop} haccounts _ => ?_⟩
      obtain ⟨hreaches, hquiet, hoffers⟩ := haccounts
      simp only [hheard, if_true]
      refine ⟨⟨w', action, loop.owner, hreaches, hturn, .queued ?_ hquiet.hands rfl⟩, hoffers⟩
      change (pump.actions.send _).queue = _
      rw [Channel.send, if_pos hheard, hquiet.queue]
      rfl
    · rename_i hdeaf
      obtain ⟨rfl, rfl⟩ := Prod.mk.inj (Option.some.inj hpump)
      exact ⟨rfl, fun _ hloop => absurd (heard_of_loop hinv hloop) hdeaf⟩

/-- What the execution of an action leaves alone, and what it does with the reply. -/
theorem executed {request : ActionRequest A} (hpoint : loop.point = .executing request)
    {disposition : ActionReplyDisposition R} {owner' : O}
    (hstep : s.loopStep current loop (.execute disposition owner') = some (events, s')) (hloop' : s'.loop = some loop') :
    s'.task = s.task ∧ s'.actions = s.actions ∧ loop'.submission = loop.submission ∧ loop'.owner = owner' ∧
      (∀ value, disposition = .reply value → loop'.point.hands = .answer request.reply value) ∧
      (∀ phase, disposition = .withhold phase → loop'.point.hands = .empty ∧ request.reply ∈ loop'.withheldReplies) := by
  cases disposition with
  | reply value =>
      simp only [Pump.loopStep, hpoint] at hstep
      obtain ⟨-, rfl⟩ := Prod.mk.inj (Option.some.inj hstep)
      obtain rfl := Option.some.inj hloop'
      refine ⟨rfl, rfl, rfl, rfl, fun other hother => ?_, fun _ hphase => by cases hphase⟩
      rw [ActionReplyDisposition.reply.inj hother]
      rfl
  | withhold phase =>
      simp only [Pump.loopStep, hpoint] at hstep
      obtain ⟨-, rfl⟩ := Prod.mk.inj (Option.some.inj hstep)
      obtain rfl := Option.some.inj hloop'
      exact ⟨rfl, rfl, rfl, rfl, (fun _ hvalue => by cases hvalue), fun _ _ =>
        ⟨rfl, List.mem_append_right _ (List.mem_singleton_self _)⟩⟩

theorem accounts_execute (h : Accounts turn execute w owner b loop) {request : ActionRequest A}
    (hpoint : loop.point = .executing request)
    (hstep : b.pump.loopStep current loop
      (.execute (execute request.action loop.owner).1 (execute request.action loop.owner).2) = some (events, s'))
    (hloop' : s'.loop = some loop') : Accounts turn execute w owner ⟨s', b.future⟩ loop' := by
  obtain ⟨pump, future⟩ := b
  have hhands : loop.point.hands = .asked request := by rw [hpoint]; rfl
  obtain ⟨htask, hactions, hsubmission, howner, hreply, hwithhold⟩ := executed hpoint hstep hloop'
  have hsame (output : T) : Offers s'.task loop'.submission output ↔ Offers pump.task loop.submission output := by
    rw [htask, hsubmission]
  cases future with
  | ready w' =>
      have hempty := h.2.1.hands
      rw [hhands] at hempty
      cases hempty
  | ended =>
      intro output hoffer
      have hempty := (h output ((hsame output).mp hoffer)).2.hands
      rw [hhands] at hempty
      cases hempty
  | awaiting reply resume =>
      obtain ⟨⟨w', action, found, hreaches, hturn, hunder⟩, hoffers⟩ := h
      refine ⟨⟨w', action, found, hreaches, hturn, ?_⟩, fun output => (hsame output).not.mpr (hoffers output)⟩
      cases hunder with
      | queued _ hempty | answered _ hempty | withheld _ hempty =>
          rw [hhands] at hempty
          cases hempty
      | asked hqueue hasked hfound =>
          obtain rfl := Hands.asked.inj (hhands.symm.trans hasked)
          subst hfound
          cases hexecute : execute action loop.owner with
          | mk disposition owner' =>
              rw [hexecute] at howner hreply hwithhold
              cases disposition with
              | reply value => exact .answered (hactions ▸ hqueue) (hreply value rfl) (by rw [hexecute, howner])
              | withhold phase =>
                  obtain ⟨hempty, hwithheld⟩ := hwithhold phase rfl
                  exact .withheld (hactions ▸ hqueue) hempty hwithheld

theorem party_step {op : PumpOp T A R O} (hstep : b.step current turn execute (.party op) = some (events, b')) :
    op.isProgram = false ∧
      ∃ pump', b.pump.step current op = some (events, pump') ∧ b' = ⟨pump', b.future.after op events⟩ := by
  unfold Bridge.step at hstep
  simp only at hstep
  split at hstep
  · split at hstep
    · rename_i hended
      obtain ⟨⟨events', pump'⟩, hpump, heq⟩ := Option.map_eq_some_iff.mp hstep
      obtain ⟨rfl, rfl⟩ := Prod.mk.inj heq
      refine ⟨rfl, pump', hpump, ?_⟩
      obtain ⟨pump, future⟩ := b
      cases future with
      | ended => rfl
      | ready | awaiting => cases hended
    · cases hstep
  · split at hstep
    · cases hstep
    · rename_i hop
      obtain ⟨⟨events', pump'⟩, hpump, heq⟩ := Option.map_eq_some_iff.mp hstep
      obtain ⟨rfl, rfl⟩ := Prod.mk.inj heq
      exact ⟨eq_false_of_ne_true hop, pump', hpump, rfl⟩

theorem accounts_step (hinv : PumpInv current log b.pump)
    (h : ∀ loop, b.pump.loop = some loop → Accounts turn execute w owner b loop) {op : BridgeOp T A R O}
    (hstep : b.step current turn execute op = some (events, b')) (hloop' : b'.pump.loop = some loop') :
    Accounts turn execute w owner b' loop' := by
  cases op with
  | poll =>
      cases hfuture : b.future with
      | ready w' =>
          cases hturn : turn w' with
          | complete output =>
              simp only [Bridge.step, hfuture, hturn] at hstep
              obtain ⟨⟨events', pump'⟩, hpump, heq⟩ := Option.map_eq_some_iff.mp hstep
              obtain ⟨rfl, rfl⟩ := Prod.mk.inj heq
              have hloop : b.pump.loop = some loop' := by
                obtain ⟨⟨sent, task'⟩, -, heq⟩ := Option.map_eq_some_iff.mp hpump
                obtain ⟨-, rfl⟩ := Prod.mk.inj heq
                exact hloop'
              exact accounts_complete hfuture (h loop' hloop) hturn hpump
          | ask action resume =>
              simp only [Bridge.step, hfuture, hturn] at hstep
              obtain ⟨hsame, henqueue⟩ := accounts_enqueue hinv hfuture hturn hstep
              rw [hsame] at hloop'
              exact henqueue (h loop' hloop') hloop'
      | awaiting | ended =>
          simp only [Bridge.step, hfuture] at hstep
          cases hstep
  | replyClosed =>
      cases hfuture : b.future with
      | awaiting reply resume =>
          simp only [Bridge.step, hfuture] at hstep
          split at hstep
          · cases hstep
          · rename_i hlost
            obtain ⟨-, rfl⟩ := Prod.mk.inj (Option.some.inj hstep)
            -- the loop keeps the reply of a request under way
            have haccounts := h loop' hloop'
            simp only [Accounts, hfuture] at haccounts
            obtain ⟨⟨w', action, found, -, -, hunder⟩, -⟩ := haccounts
            exact absurd (hunder.holdsReply hloop') hlost
      | ready | ended =>
          simp only [Bridge.step, hfuture] at hstep
          cases hstep
  | execute =>
      obtain ⟨loop, hloop, hone⟩ := Option.bind_eq_some_iff.mp hstep
      cases hpoint : loop.point with
      | executing request =>
          simp only [hpoint] at hone
          obtain ⟨⟨events', pump'⟩, hpump, heq⟩ := Option.map_eq_some_iff.mp hone
          obtain ⟨rfl, rfl⟩ := Prod.mk.inj heq
          obtain ⟨mine, hmine, hpump⟩ := Option.bind_eq_some_iff.mp hpump
          obtain rfl : mine = loop := Option.some.inj (hmine.symm.trans hloop)
          exact accounts_execute (h _ hloop) hpoint hpump hloop'
      | entering | checking | polling | receiving | received | replying | disconnected | cancelling | cancelled =>
          simp only [hpoint] at hone
          cases hone
  | party op =>
      obtain ⟨hop, pump', hpump, rfl⟩ := party_step hstep
      obtain ⟨loop, hloop, hcarried⟩ := carried_step hinv hop hpump hloop'
      exact accounts_after (h loop hloop) op hcarried

theorem pump_step {op : BridgeOp T A R O} (hstep : b.step current turn execute op = some (events, b')) :
    (∃ op, b.pump.step current op = some (events, b'.pump)) ∨ events = [] ∧ b'.pump = b.pump := by
  have hmap {op : PumpOp T A R O} {future : FuturePoint W R}
      (h : (b.pump.step current op).map (fun next => (next.1, (⟨next.2, future⟩ : Bridge W T A R O))) =
        some (events, b')) : ∃ op, b.pump.step current op = some (events, b'.pump) := by
    obtain ⟨⟨events', pump'⟩, hpump, heq⟩ := Option.map_eq_some_iff.mp h
    obtain ⟨rfl, rfl⟩ := Prod.mk.inj heq
    exact ⟨op, hpump⟩
  cases op with
  | poll =>
      cases hfuture : b.future with
      | ready w' =>
          cases hturn : turn w' with
          | complete output =>
              simp only [Bridge.step, hfuture, hturn] at hstep
              exact .inl (hmap hstep)
          | ask action resume =>
              simp only [Bridge.step, hfuture, hturn] at hstep
              exact .inl (hmap hstep)
      | awaiting | ended =>
          simp only [Bridge.step, hfuture] at hstep
          cases hstep
  | replyClosed =>
      cases hfuture : b.future with
      | awaiting reply resume =>
          simp only [Bridge.step, hfuture] at hstep
          split at hstep
          · cases hstep
          · obtain ⟨rfl, rfl⟩ := Prod.mk.inj (Option.some.inj hstep)
            exact .inr ⟨rfl, rfl⟩
      | ready | ended =>
          simp only [Bridge.step, hfuture] at hstep
          cases hstep
  | execute =>
      obtain ⟨loop, hloop, hone⟩ := Option.bind_eq_some_iff.mp hstep
      cases hpoint : loop.point with
      | executing request =>
          simp only [hpoint] at hone
          exact .inl (hmap hone)
      | entering | checking | polling | receiving | received | replying | disconnected | cancelling | cancelled =>
          simp only [hpoint] at hone
          cases hone
  | party op =>
      obtain ⟨-, pump', hpump, rfl⟩ := party_step hstep
      exact .inl ⟨op, hpump⟩

/-! ### Runs -/

abbrev BridgeTrace (T A R O : Type) := List (BridgeOp T A R O × List (PumpEvent T A R O))

def bridgeLog (trace : BridgeTrace T A R O) : List (PumpEvent T A R O) := trace.flatMap (·.2)

/-- What the loop has returned, with the owner. -/
def returnedIn (log : List (PumpEvent T A R O)) : List (T × O) :=
  log.filterMap fun
    | .returned output owner => some (output, owner)
    | _ => none

theorem mem_returnedIn {output : T} {final : O} (h : (output, final) ∈ returnedIn log) : .returned output final ∈ log := by
  obtain ⟨event, hevent, hsome⟩ := List.mem_filterMap.mp h
  cases event with
  | returned =>
      obtain ⟨rfl, rfl⟩ := Prod.mk.inj (Option.some.inj hsome)
      exact hevent
  | _ => cases hsome

theorem accounts_start (processId : Nat) :
    Accounts turn execute w owner (Bridge.start processId w owner : Bridge W T A R O) { submission := { processId }, owner } := by
  refine ⟨.refl, ⟨rfl, rfl⟩, ?_⟩
  rintro output (hworker | hqueue | hready)
  · cases hworker
  · cases hqueue
  · cases hready

theorem bridge_run {processId : Nat} {trace : BridgeTrace T A R O}
    (hrun : (Bridge.machine processId turn execute).Run (Bridge.start processId w owner) trace b) :
    PumpInv processId (bridgeLog trace) b.pump ∧
      (∀ loop, b.pump.loop = some loop → Accounts turn execute w owner b loop) ∧
      ∀ output final, .returned output final ∈ bridgeLog trace →
        Coroutine.Returns turn (serveAction execute) w owner output final := by
  refine hrun.induction (fun trace b => PumpInv processId (bridgeLog trace) b.pump ∧
    (∀ loop, b.pump.loop = some loop → Accounts turn execute w owner b loop) ∧
    ∀ output final, .returned output final ∈ bridgeLog trace →
      Coroutine.Returns turn (serveAction execute) w owner output final) ?_ ?_
  · refine ⟨pumpInv_drive processId owner, fun loop hloop => ?_, fun output final hreturned => by cases hreturned⟩
    obtain rfl := Option.some.inj hloop
    exact accounts_start processId
  · rintro trace b op events b' - ⟨hinv, haccounts, hreturns⟩ hstep
    have hlog : bridgeLog (trace ++ [(op, events)]) = bridgeLog trace ++ events := by simp [bridgeLog]
    rw [hlog]
    refine ⟨?_, fun loop hloop => accounts_step hinv haccounts hstep hloop, fun output final hreturned => ?_⟩
    · obtain ⟨op, hpump⟩ | ⟨rfl, hsame⟩ := pump_step hstep
      · exact (kept_step hinv hpump).inv
      · rw [hsame, List.append_nil]
        exact hinv
    · obtain hbefore | hnow := List.mem_append.mp hreturned
      · exact hreturns output final hbefore
      · obtain ⟨op, hpump⟩ | ⟨rfl, -⟩ := pump_step hstep
        · obtain ⟨loop, hloop, howner, hoffers⟩ := returned_step hpump hnow
          exact howner ▸ (haccounts loop hloop).returns hoffers
        · cases hnow

theorem bridge_returned {processId : Nat} {trace : BridgeTrace T A R O}
    (hrun : (Bridge.machine processId turn execute).Run (Bridge.start processId w owner) trace b) {output : T} {final : O}
    (hreturned : (output, final) ∈ returnedIn (bridgeLog trace)) :
    Coroutine.Returns turn (serveAction execute) w owner output final :=
  (bridge_run hrun).2.2 output final (mem_returnedIn hreturned)

/-- Nothing of the loop comes after its return. -/
def StopsAtReturn (trace : BridgeTrace T A R O) : Prop :=
  Throughout (fun before step => returnedIn (bridgeLog before) ≠ [] → ∀ event ∈ step.2, event.ofLoop = false) trace

theorem bridge_stops {processId : Nat} {trace : BridgeTrace T A R O}
    (hrun : (Bridge.machine processId turn execute).Run (Bridge.start processId w owner) trace b) : StopsAtReturn trace := by
  refine hrun.induction (fun trace _ => StopsAtReturn trace) Throughout.nil ?_
  intro trace b op events b' hprev hstops hstep
  refine Throughout.snoc_iff.mpr ⟨hstops, fun hreturned event hevent => ?_⟩
  obtain ⟨⟨output, final⟩, hmem⟩ := List.exists_mem_of_ne_nil _ hreturned
  have hgone : b.pump.loop = none := (bridge_run hprev).1.loop_eq_none (mem_returnedIn hmem)
  obtain ⟨op, hpump⟩ | ⟨rfl, -⟩ := pump_step hstep
  · refine eq_false_of_ne_true fun hloop => ?_
    obtain ⟨loop, hsome, -⟩ := ofLoop_step hpump hevent hloop
    rw [hgone] at hsome
    cases hsome
  · cases hevent

/-! ### A run for everything that returns -/

namespace Bridge

/-- Between two actions, with nothing under way. -/
def between (processId requests : Nat) (phase : SessionCancellationPhase) (w : W) (owner : O) : Bridge W T A R O :=
  ⟨{ requests
     loop := some { point := .checking, submission := { processId }, owner, cancellationPhase := phase } }, .ready w⟩

variable {processId requests : Nat} {phase : SessionCancellationPhase}

theorem exec_enter :
    ((machine processId turn execute).exec (start processId w owner) [.party (.ensureAffinity none)]).map Prod.snd =
      some (between processId 0 .cancelBeforePoll w owner) := rfl

theorem exec_action {action : A} {resume : Except BridgeClosed R → W} {value : R} {owner' : O}
    (hturn : turn w = .ask action resume) (hexecute : execute action owner = (.reply value, owner')) :
    ((machine processId turn execute).exec (between processId requests phase w owner)
      [.poll, .party (.checkSignals false), .party .tryWait, .party .recvTimeout, .party (.ensureAffinity none), .execute,
        .party .sendReply]).map Prod.snd =
      some (between processId (requests + 1) .cancelReplyObserved (resume (.ok value)) owner') := by
  simp [Machine.exec, machine, step, between, enqueue, hturn, hexecute, Pump.step, Pump.loopStep, BlockingSubmission.tryWait,
    BlockingSubmission.validateProcess, Channel.receive, Channel.send, FuturePoint.after, FuturePoint.hear, repliedTo,
    PumpOp.isProgram]

theorem exec_complete {output : T} (hturn : turn w = .complete output) :
    ((machine processId turn execute).exec (between processId requests phase w owner)
      [.poll, .party (.worker .send), .party (.checkSignals false), .party .tryWait]).map
        (fun result => returnedIn (bridgeLog result.1)) = some [(output, owner)] := by
  simp [Machine.exec, machine, step, between, hturn, Pump.step, Pump.loopStep, BlockingSubmission.tryWait,
    BlockingSubmission.validateProcess, Channel.receive, Channel.send, FuturePoint.after, FuturePoint.hear,
    PumpOp.isProgram, Blocking.Task.step, returnedIn, bridgeLog]

theorem run_of_reaches {w' : W} {owner' : O} (h : Coroutine.Reaches turn (serveAction execute) w owner w' owner') :
    ∃ trace requests phase, (machine processId turn execute).Run (start processId w owner) trace
      (between processId requests phase w' owner') := by
  induction h with
  | refl =>
      have henter : ((machine processId turn execute).exec (start processId w owner) _).map Prod.snd = _ := exec_enter
      obtain ⟨⟨trace, b⟩, hexec, rfl⟩ := Option.map_eq_some_iff.mp henter
      exact ⟨trace, 0, .cancelBeforePoll, Machine.run_of_exec hexec⟩
  | @answer w' found left action resume reply _ hturn hserve ih =>
      obtain ⟨trace, requests, phase, hrun⟩ := ih
      unfold serveAction at hserve
      split at hserve
      · rename_i value owner' hexecute
        obtain ⟨rfl, rfl⟩ := Prod.mk.inj (Option.some.inj hserve)
        obtain ⟨⟨later, b⟩, hexec, rfl⟩ := Option.map_eq_some_iff.mp (exec_action hturn hexecute)
        exact ⟨trace ++ later, requests + 1, .cancelReplyObserved, hrun.append (Machine.run_of_exec hexec)⟩
      · cases hserve

theorem run_of_returns {output : T} {final : O} (h : Coroutine.Returns turn (serveAction execute) w owner output final) :
    ∃ trace b, (machine processId turn execute).Run (start processId w owner) trace b ∧
      (output, final) ∈ returnedIn (bridgeLog trace) := by
  obtain ⟨w', hreaches, hturn⟩ := h
  obtain ⟨trace, requests, phase, hrun⟩ : ∃ trace requests phase, (machine processId turn execute).Run
      (start processId w owner) trace (between processId requests phase w' final) := run_of_reaches hreaches
  have hcomplete : ((machine processId turn execute).exec (between processId requests phase w' final) _).map
      (fun result => returnedIn (bridgeLog result.1)) = some [(output, final)] := exec_complete hturn
  obtain ⟨⟨later, b⟩, hexec, hlog⟩ := Option.map_eq_some_iff.mp hcomplete
  have hlater : returnedIn (bridgeLog (trace ++ later)) = returnedIn (bridgeLog trace) ++ returnedIn (bridgeLog later) := by
    simp only [bridgeLog, returnedIn, List.flatMap_append, List.filterMap_append]
  refine ⟨trace ++ later, b, hrun.append (Machine.run_of_exec hexec), ?_⟩
  rw [hlater, hlog]
  exact List.mem_append_right _ (List.mem_singleton_self _)

end Bridge

/-- What can come over the bridge, in any order of the steps, is what the future returns where the origin serves it in one
thread; and in no order an action is started or answered behind the return. -/
theorem bridge_returns_iff (turn : W → FutureTurn W T A R) (execute : A → O → ActionReplyDisposition R × O) (processId : Nat)
    (w : W) (owner : O) :
    (∀ output final, (∃ trace b, (Bridge.machine processId turn execute).Run (Bridge.start processId w owner) trace b ∧
        (output, final) ∈ returnedIn (bridgeLog trace)) ↔
      Coroutine.Returns turn (serveAction execute) w owner output final) ∧
    ∀ trace b, (Bridge.machine processId turn execute).Run (Bridge.start processId w owner) trace b → StopsAtReturn trace := by
  refine ⟨fun output final => ⟨?_, Bridge.run_of_returns⟩, fun trace b hrun => bridge_stops hrun⟩
  rintro ⟨trace, b, hrun, hreturned⟩
  exact bridge_returned hrun hreturned

end RequestsNative.Python
