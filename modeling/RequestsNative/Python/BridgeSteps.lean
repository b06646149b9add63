import RequestsNative.Python.Bridge

/-!
# What the other parties do to a request

A step that belongs neither to the future nor to an action keeps the owner of the loop, hands the request under way on and
takes no output but the one on offer.
-/

namespace RequestsNative.Python

open RequestsNative.Lib
open RequestsNative.Blocking (BlockingSubmission WorkerOp)

variable {W T A R O : Type} {current : Nat} {log events : List (PumpEvent T A R O)} {s s' : Pump T A R O}
  {loop loop' : Loop T A R O}

/-! ### What the steps of the others do -/

/-- The loop may still take the output. -/
def Offers (task : Blocking.Task T) (submission : BlockingSubmission T) (output : T) : Prop :=
  task.worker = .completed output ∨ output ∈ task.channel.queue ∨ submission.ready = some output

/-- How a request gets into the hands of the loop and out of them. -/
inductive Handled : Hands A R → List (ActionRequest A) → Hands A R → List (ActionRequest A) → List (PumpEvent T A R O) → Prop
  | still {hands : Hands A R} {queue : List (ActionRequest A)} {events : List (PumpEvent T A R O)} :
      repliedIn events = [] → Handled hands queue hands queue events
  | receive {request : ActionRequest A} {queue : List (ActionRequest A)} :
      Handled .empty (request :: queue) (.asked request) queue []
  | reply {reply : Nat} {value : R} {queue : List (ActionRequest A)} :
      Handled (.answer reply value) queue .empty queue [.replied reply value]

/-- What a step that belongs neither to the future nor to an action does to the loop. -/
structure Carried (s s' : Pump T A R O) (loop loop' : Loop T A R O) (events : List (PumpEvent T A R O)) : Prop where
  owner : loop'.owner = loop.owner
  withheld : loop'.withheldReplies = loop.withheldReplies
  offers : ∀ output, Offers s'.task loop'.submission output → Offers s.task loop.submission output
  hands : Handled loop.point.hands s.actions.queue loop'.point.hands s'.actions.queue events

theorem Carried.of_eq (hqueue : s'.actions.queue = s.actions.queue) (hevents : repliedIn events = [])
    (hoffers : ∀ output, Offers s'.task loop.submission output → Offers s.task loop.submission output) :
    Carried s s' loop loop events :=
  ⟨rfl, rfl, hoffers, hqueue ▸ .still hevents⟩

theorem repliedIn_custody (h : ∀ event ∈ events, event.isCustody = true) : repliedIn events = [] := by
  have hsettled := (isCustody_silent h).2.2
  exact List.sublist_nil.mp (hsettled ▸ repliedIn_sublist events)

theorem actions_of_reaps {entries quarantine : List (QuarantinedOrigin O)} {actions actions' : Channel (ActionRequest A)}
    (hreaps : Reaps entries quarantine actions actions' events) (hheard : actions'.heard = true) : actions' = actions := by
  obtain hsame | ⟨hdropped, -⟩ := hreaps.channel
  · exact hsame
  · rw [hdropped] at hheard
    cases hheard

theorem heard_of_loop (hinv : PumpInv current log s) (hloop : s.loop = some loop) : s.actions.heard = true :=
  hinv.ordered.heard (by rw [hloop]; rfl)

/-- The task hands its output on. -/
theorem offers_taskStep {task task' : Blocking.Task T} {op : WorkerOp T} {sent : Option T} {submission : BlockingSubmission T}
    (hop : (PumpOp.worker op : PumpOp T A R O).isProgram = false) (hstep : task.step op = some (sent, task')) {output : T}
    (h : Offers task' submission output) : Offers task submission output := by
  obtain ⟨worker, channel⟩ := task
  cases op with
  | complete => cases hop
  | send =>
      cases worker with
      | completed done =>
          obtain ⟨-, rfl⟩ := Prod.mk.inj (Option.some.inj hstep)
          obtain hworker | hqueue | hready := h
          · cases hworker
          · change output ∈ (channel.send done).queue at hqueue
            unfold Channel.send at hqueue
            split at hqueue
            · obtain hqueue | hdone := List.mem_append.mp hqueue
              · exact .inr (.inl hqueue)
              · rw [List.mem_singleton.mp hdone]
                exact .inl rfl
            · exact .inr (.inl hqueue)
          · exact .inr (.inr hready)
      | running | sent | stopped | gone => cases hstep
  | stop =>
      cases worker with
      | running =>
          obtain ⟨-, rfl⟩ := Prod.mk.inj (Option.some.inj hstep)
          exact .inr (h.resolve_left (fun hworker => by cases hworker))
      | completed | sent | stopped | gone => cases hstep
  | dropSender =>
      cases worker with
      | sent | stopped =>
          obtain ⟨-, rfl⟩ := Prod.mk.inj (Option.some.inj hstep)
          exact .inr (h.resolve_left (fun hworker => by cases hworker))
      | running | completed | gone => cases hstep

theorem offers_waitReady (hheld : Held current s.task.worker.ended loop.submission) {output : T}
    (h : Offers { s.task with channel := (loop.submission.waitReadyTimeout s.task.channel current).2.2 }
      (loop.submission.waitReadyTimeout s.task.channel current).2.1 output) : Offers s.task loop.submission output := by
  revert h
  simp only [BlockingSubmission.waitReadyTimeout, hheld.validateProcess, hheld.receiver, Bool.not_true, Bool.false_eq_true,
    if_false, Channel.receive]
  split
  · exact id
  · cases hqueue : s.task.channel.queue with
    | nil =>
        simp only
        cases s.task.channel.live <;> exact id
    | cons first rest =>
        rintro (hworker | hrest | hready)
        · exact .inl hworker
        · exact .inr (.inl (hqueue ▸ List.mem_cons_of_mem _ hrest))
        · obtain rfl := Option.some.inj hready
          exact .inr (.inl (hqueue ▸ List.mem_cons_self))

section Loop

variable (hloop' : s'.loop = some loop')
include hloop'

theorem carried_ensureAffinity {error : Option AffinityError}
    (hstep : s.loopStep current loop (.ensureAffinity error) = some (events, s'))
    (hinv' : PumpInv current (log ++ events) s') : Carried s s' loop loop' events := by
  cases hpoint : loop.point with
  | entering =>
      cases error with
      | some error =>
          simp only [Pump.loopStep, hpoint] at hstep
          obtain ⟨-, rfl⟩ := Prod.mk.inj (Option.some.inj hstep)
          cases hloop'
      | none =>
          simp only [Pump.loopStep, hpoint] at hstep
          obtain ⟨rfl, rfl⟩ := Prod.mk.inj (Option.some.inj hstep)
          obtain rfl := Option.some.inj hloop'
          obtain ⟨quarantine, actions, hstate, hreaps⟩ := reapOriginQuarantine_reaps s
          refine ⟨rfl, rfl, fun _ hoffers => by rw [hstate] at hoffers; exact hoffers, ?_⟩
          have hactions := actions_of_reaps hreaps (by have hheard := hinv'.ordered.heard rfl; rwa [hstate] at hheard)
          have hqueue : s.reapOriginQuarantine.2.actions.queue = s.actions.queue := by rw [hstate, hactions]
          rw [hpoint]
          exact hqueue ▸ .still (repliedIn_custody hreaps.custody)
  | received request =>
      cases error with
      | some error =>
          simp only [Pump.loopStep, hpoint] at hstep
          obtain ⟨-, rfl⟩ := Prod.mk.inj (Option.some.inj hstep)
          cases hloop'
      | none =>
          simp only [Pump.loopStep, hpoint] at hstep
          obtain ⟨rfl, rfl⟩ := Prod.mk.inj (Option.some.inj hstep)
          obtain rfl := Option.some.inj hloop'
          refine ⟨rfl, rfl, fun _ => id, ?_⟩
          rw [hpoint]
          exact .still rfl
  | checking | polling | receiving | executing | replying | disconnected | cancelling | cancelled =>
      cases hpoint ▸ Pump.runsAt_of_loopStep hstep

theorem carried_checkSignals {signal : Bool} (hstep : s.loopStep current loop (.checkSignals signal) = some (events, s')) :
    Carried s s' loop loop' events := by
  cases hpoint : loop.point with
  | checking =>
      cases signal with
      | true | false =>
          simp only [Pump.loopStep, hpoint, if_true, Bool.false_eq_true, if_false] at hstep
          obtain ⟨rfl, rfl⟩ := Prod.mk.inj (Option.some.inj hstep)
          obtain rfl := Option.some.inj hloop'
          refine ⟨rfl, rfl, fun _ => id, ?_⟩
          rw [hpoint]
          exact .still rfl
  | entering | polling | receiving | received | executing | replying | disconnected | cancelling | cancelled =>
      cases hpoint ▸ Pump.runsAt_of_loopStep hstep

theorem carried_tryWait (hinv : PumpInv current log s) (hloop : s.loop = some loop)
    (hstep : s.loopStep current loop .tryWait = some (events, s')) : Carried s s' loop loop' events := by
  have hnone := tryWait_none (hinv.held hloop)
  cases hpoint : loop.point with
  | polling =>
      simp only [Pump.loopStep, hpoint] at hstep
      cases hwait : loop.submission.tryWait s.task.channel current with
      | mk result rest =>
          obtain ⟨submission, channel⟩ := rest
          rw [hwait] at hnone hstep
          cases result with
          | error error =>
              obtain ⟨-, rfl⟩ := Prod.mk.inj (Option.some.inj hstep)
              cases hloop'
          | ok output =>
              cases output with
              | some output =>
                  obtain ⟨-, rfl⟩ := Prod.mk.inj (Option.some.inj hstep)
                  cases hloop'
              | none =>
                  obtain ⟨rfl, rfl⟩ := Prod.mk.inj (Prod.mk.inj (hnone rfl)).2
                  obtain ⟨rfl, rfl⟩ := Prod.mk.inj (Option.some.inj hstep)
                  obtain rfl := Option.some.inj hloop'
                  refine ⟨rfl, rfl, fun _ => id, ?_⟩
                  rw [hpoint]
                  exact .still rfl
  | entering | checking | receiving | received | executing | replying | disconnected | cancelling | cancelled =>
      cases hpoint ▸ Pump.runsAt_of_loopStep hstep

theorem carried_recvTimeout (hstep : s.loopStep current loop .recvTimeout = some (events, s')) :
    Carried s s' loop loop' events := by
  cases hpoint : loop.point with
  | receiving =>
      simp only [Pump.loopStep, hpoint, Channel.receive] at hstep
      cases hqueue : s.actions.queue with
      | cons request rest =>
          simp only [hqueue] at hstep
          obtain ⟨rfl, rfl⟩ := Prod.mk.inj (Option.some.inj hstep)
          obtain rfl := Option.some.inj hloop'
          refine ⟨rfl, rfl, fun _ => id, ?_⟩
          rw [hpoint, hqueue]
          exact .receive
      | nil =>
          simp only [hqueue] at hstep
          cases hlive : s.actions.live with
          | true | false =>
              simp only [hlive, if_true, Bool.false_eq_true, if_false] at hstep
              obtain ⟨rfl, rfl⟩ := Prod.mk.inj (Option.some.inj hstep)
              obtain rfl := Option.some.inj hloop'
              refine ⟨rfl, rfl, fun _ => id, ?_⟩
              rw [hpoint]
              exact .still rfl
  | entering | checking | polling | received | executing | replying | disconnected | cancelling | cancelled =>
      cases hpoint ▸ Pump.runsAt_of_loopStep hstep

theorem carried_sendReply (hstep : s.loopStep current loop .sendReply = some (events, s')) :
    Carried s s' loop loop' events := by
  cases hpoint : loop.point with
  | replying reply value =>
      simp only [Pump.loopStep, hpoint] at hstep
      obtain ⟨rfl, rfl⟩ := Prod.mk.inj (Option.some.inj hstep)
      obtain rfl := Option.some.inj hloop'
      refine ⟨rfl, rfl, fun _ => id, ?_⟩
      rw [hpoint]
      exact .reply
  | entering | checking | polling | receiving | received | executing | disconnected | cancelling | cancelled =>
      cases hpoint ▸ Pump.runsAt_of_loopStep hstep

theorem carried_waitReadyTimeout (hinv : PumpInv current log s) (hloop : s.loop = some loop)
    (hstep : s.loopStep current loop .waitReadyTimeout = some (events, s')) : Carried s s' loop loop' events := by
  cases hpoint : loop.point with
  | disconnected =>
      simp only [Pump.loopStep, hpoint] at hstep
      obtain ⟨rfl, rfl⟩ := Prod.mk.inj (Option.some.inj hstep)
      obtain rfl := Option.some.inj hloop'
      refine ⟨rfl, rfl, fun _ => offers_waitReady (hinv.held hloop), ?_⟩
      rw [hpoint]
      exact .still rfl
  | entering | checking | polling | receiving | received | executing | replying | cancelling | cancelled =>
      cases hpoint ▸ Pump.runsAt_of_loopStep hstep

theorem carried_cancel (hinv : PumpInv current log s) (hloop : s.loop = some loop)
    (hstep : s.loopStep current loop .cancel = some (events, s')) : Carried s s' loop loop' events := by
  obtain ⟨hcancel, -⟩ := (hinv.held hloop).cancel
  cases hpoint : loop.point with
  | cancelling =>
      simp only [Pump.loopStep, hpoint, hcancel] at hstep
      obtain ⟨rfl, rfl⟩ := Prod.mk.inj (Option.some.inj hstep)
      obtain rfl := Option.some.inj hloop'
      refine ⟨rfl, rfl, fun _ => id, ?_⟩
      rw [hpoint]
      exact .still rfl
  | entering | checking | polling | receiving | received | executing | replying | disconnected | cancelled =>
      cases hpoint ▸ Pump.runsAt_of_loopStep hstep

theorem carried_cancelWait (hinv : PumpInv current log s) (hloop : s.loop = some loop) {expired : Bool}
    (hstep : s.loopStep current loop (.cancelWait expired) = some (events, s')) : Carried s s' loop loop' events := by
  have hnone := tryWait_none (hinv.held hloop)
  cases hpoint : loop.point with
  | cancelled =>
      simp only [Pump.loopStep, hpoint] at hstep
      cases hwait : loop.submission.tryWait s.task.channel current with
      | mk result rest =>
          obtain ⟨submission, channel⟩ := rest
          rw [hwait] at hnone hstep
          cases result with
          | error error =>
              obtain ⟨-, rfl⟩ := Prod.mk.inj (Option.some.inj hstep)
              cases hloop'
          | ok output =>
              cases output with
              | some output =>
                  obtain ⟨-, rfl⟩ := Prod.mk.inj (Option.some.inj hstep)
                  cases hloop'
              | none =>
                  obtain ⟨rfl, rfl⟩ := Prod.mk.inj (Prod.mk.inj (hnone rfl)).2
                  cases expired with
                  | true =>
                      obtain ⟨-, rfl⟩ := Prod.mk.inj (Option.some.inj hstep)
                      cases hloop'
                  | false =>
                      obtain ⟨rfl, rfl⟩ := Prod.mk.inj (Option.some.inj hstep)
                      obtain rfl := Option.some.inj hloop'
                      refine ⟨rfl, rfl, fun _ => id, ?_⟩
                      rw [hpoint]
                      exact .still rfl
  | entering | checking | polling | receiving | received | executing | replying | disconnected | cancelling =>
      cases hpoint ▸ Pump.runsAt_of_loopStep hstep

end Loop

theorem carried_reap {quarantine : List (QuarantinedOrigin O)} {actions : Channel (ActionRequest A)} {lastToken : Option Nat}
    (hreaps : Reaps s.quarantine quarantine s.actions actions events)
    (hinv' : PumpInv current (log ++ events) { s with quarantine, actions, lastToken }) (hloop : s.loop = some loop) :
    Carried s { s with quarantine, actions, lastToken } loop loop events := by
  have hactions := actions_of_reaps hreaps (heard_of_loop hinv' hloop)
  exact .of_eq (congrArg Channel.queue hactions) (repliedIn_custody hreaps.custody) fun _ => id

/-- Whatever the others do, the loop keeps what it has to account for. -/
theorem carried_step (hinv : PumpInv current log s) {op : PumpOp T A R O} (hop : op.isProgram = false)
    (hstep : s.step current op = some (events, s')) (hloop' : s'.loop = some loop') :
    ∃ loop, s.loop = some loop ∧ Carried s s' loop loop' events := by
  have hinv' := (kept_step hinv hstep).inv
  cases op with
  | worker op =>
      obtain ⟨⟨sent, task'⟩, htask, heq⟩ := Option.map_eq_some_iff.mp hstep
      obtain ⟨rfl, rfl⟩ := Prod.mk.inj heq
      exact ⟨loop', hloop', .of_eq rfl rfl fun _ => offers_taskStep hop htask⟩
  | enqueue | execute => cases hop
  | dropSenders | retainOther | terminateOther | skipToken =>
      obtain ⟨rfl, rfl⟩ := Prod.mk.inj (Option.some.inj hstep)
      exact ⟨loop', hloop', .of_eq rfl rfl fun _ => id⟩
  | waiterWait =>
      unfold Pump.step at hstep
      cases hwaiter : s.waiter with
      | waiting submission =>
          simp only [hwaiter] at hstep
          obtain ⟨result, -, heq⟩ := Option.map_eq_some_iff.mp hstep
          obtain ⟨rfl, rfl⟩ := Prod.mk.inj heq
          refine ⟨loop', hloop', .of_eq rfl rfl ?_⟩
          rintro output (hworker | hqueue | hready)
          · exact .inl hworker
          · cases hqueue
          · exact .inr (.inr hready)
      | absent | waited | done =>
          simp only [hwaiter] at hstep
          cases hstep
  | waiterStore =>
      unfold Pump.step at hstep
      cases hwaiter : s.waiter with
      | waited =>
          simp only [hwaiter] at hstep
          obtain ⟨rfl, rfl⟩ := Prod.mk.inj (Option.some.inj hstep)
          exact ⟨loop', hloop', .of_eq rfl rfl fun _ => id⟩
      | absent | waiting | done =>
          simp only [hwaiter] at hstep
          cases hstep
  | reapOriginQuarantine =>
      obtain ⟨quarantine, actions, hstate, hreaps⟩ := reapOriginQuarantine_reaps s
      have hpair := Option.some.inj hstep
      obtain rfl : s' = _ := (congrArg Prod.snd hpair.symm).trans hstate
      obtain rfl : events = _ := congrArg Prod.fst hpair.symm
      exact ⟨loop', hloop', carried_reap hreaps hinv' hloop'⟩
  | reapOriginQuarantineToken token =>
      obtain ⟨quarantine, actions, lastToken, hstate, hreaps⟩ := reapOriginQuarantineToken_reaps s token
      have hpair := Option.some.inj hstep
      obtain rfl : s' = _ := (congrArg Prod.snd hpair.symm).trans hstate
      obtain rfl : events = _ := congrArg Prod.fst hpair.symm
      exact ⟨loop', hloop', carried_reap hreaps hinv' hloop'⟩
  | takeOriginQuarantineOwner token typed =>
      obtain ⟨quarantine, actions, lastToken, hstate, hreaps⟩ := takeOriginQuarantineOwner_reaps s token typed
      have hpair := Option.some.inj hstep
      obtain rfl : s' = _ := (congrArg Prod.snd hpair.symm).trans hstate
      obtain rfl : events = _ := congrArg Prod.fst hpair.symm
      exact ⟨loop', hloop', carried_reap hreaps hinv' hloop'⟩
  | exitThread =>
      unfold Pump.step at hstep
      simp only at hstep
      split at hstep
      · cases hstep
      · rename_i hnone
        obtain ⟨actions, hstate, -⟩ := dropEntries_reaps { s with quarantine := [], lastToken := none } s.quarantine
        have hpair := Option.some.inj hstep
        obtain rfl : s' = _ := (congrArg Prod.snd hpair.symm).trans hstate
        rw [show s.loop = some loop' from hloop'] at hnone
        exact absurd rfl hnone
  | ensureAffinity error =>
      obtain ⟨loop, hloop, hone⟩ := Option.bind_eq_some_iff.mp hstep
      exact ⟨loop, hloop, carried_ensureAffinity hloop' hone hinv'⟩
  | checkSignals signal =>
      obtain ⟨loop, hloop, hone⟩ := Option.bind_eq_some_iff.mp hstep
      exact ⟨loop, hloop, carried_checkSignals hloop' hone⟩
  | tryWait =>
      obtain ⟨loop, hloop, hone⟩ := Option.bind_eq_some_iff.mp hstep
      exact ⟨loop, hloop, carried_tryWait hloop' hinv hloop hone⟩
  | recvTimeout =>
      obtain ⟨loop, hloop, hone⟩ := Option.bind_eq_some_iff.mp hstep
      exact ⟨loop, hloop, carried_recvTimeout hloop' hone⟩
  | sendReply =>
      obtain ⟨loop, hloop, hone⟩ := Option.bind_eq_some_iff.mp hstep
      exact ⟨loop, hloop, carried_sendReply hloop' hone⟩
  | waitReadyTimeout =>
      obtain ⟨loop, hloop, hone⟩ := Option.bind_eq_some_iff.mp hstep
      exact ⟨loop, hloop, carried_waitReadyTimeout hloop' hinv hloop hone⟩
  | cancel =>
      obtain ⟨loop, hloop, hone⟩ := Option.bind_eq_some_iff.mp hstep
      exact ⟨loop, hloop, carried_cancel hloop' hinv hloop hone⟩
  | cancelWait expired =>
      obtain ⟨loop, hloop, hone⟩ := Option.bind_eq_some_iff.mp hstep
      exact ⟨loop, hloop, carried_cancelWait hloop' hinv hloop hone⟩

theorem offers_tryWait {task : Blocking.Task T} {submission : BlockingSubmission T} {output : T}
    (h : (submission.tryWait task.channel current).1 = .ok (some output)) : Offers task submission output := by
  unfold BlockingSubmission.tryWait at h
  split at h
  · cases h
  · split at h
    · rename_i hready
      obtain rfl := Option.some.inj (Except.ok.inj h)
      exact .inr (.inr hready)
    · split at h
      · cases h
      · unfold Channel.receive at h
        cases hqueue : task.channel.queue with
        | nil =>
            simp only [hqueue] at h
            cases hlive : task.channel.live <;> simp only [hlive] at h <;> cases h
        | cons first rest =>
            simp only [hqueue] at h
            obtain rfl := Option.some.inj (Except.ok.inj h)
            exact .inr (.inl (hqueue ▸ List.mem_cons_self))

/-- The event is one of the loop, which executes the actions and returns. -/
def PumpEvent.ofLoop : PumpEvent T A R O → Bool
  | .started _ | .withheld _ | .replied _ _ | .returned _ _ => true
  | _ => false

theorem Reaps.not_ofLoop {entries quarantine : List (QuarantinedOrigin O)} {actions actions' : Channel (ActionRequest A)}
    (h : Reaps entries quarantine actions actions' events) {event : PumpEvent T A R O} (hevent : event ∈ events) :
    event.ofLoop = false := by
  have hcustody := h.custody event hevent
  cases event <;> first | rfl | cases hcustody

theorem returned_loopStep {op : PumpOp T A R O} (hstep : s.loopStep current loop op = some (events, s')) {output : T}
    {owner : O} (h : .returned output owner ∈ events) : op = .tryWait := by
  obtain ⟨quarantine, actions, -, hreaps⟩ := reapOriginQuarantine_reaps s
  have hreaped : .returned output owner ∉ (s.reapOriginQuarantine).1 := fun hevent => by
    cases hreaps.not_ofLoop hevent
  unfold Pump.loopStep at hstep
  split at hstep
  all_goals (try simp only at hstep); (repeat' split at hstep)
  all_goals cases hstep
  all_goals first
    | rfl
    | exact absurd h hreaped
    | simp at h

theorem returned_tryWait (hstep : s.loopStep current loop .tryWait = some (events, s')) {output : T} {owner : O}
    (h : .returned output owner ∈ events) : loop.owner = owner ∧ Offers s.task loop.submission output := by
  cases hpoint : loop.point with
  | polling =>
      simp only [Pump.loopStep, hpoint] at hstep
      cases hwait : loop.submission.tryWait s.task.channel current with
      | mk result rest =>
          rw [hwait] at hstep
          cases result with
          | error error =>
              obtain ⟨rfl, -⟩ := Prod.mk.inj (Option.some.inj hstep)
              simp at h
          | ok taken =>
              cases taken with
              | none =>
                  obtain ⟨rfl, -⟩ := Prod.mk.inj (Option.some.inj hstep)
                  cases h
              | some taken =>
                  obtain ⟨rfl, -⟩ := Prod.mk.inj (Option.some.inj hstep)
                  obtain ⟨rfl, rfl⟩ := PumpEvent.returned.inj (List.mem_singleton.mp h)
                  exact ⟨rfl, offers_tryWait (congrArg Prod.fst hwait)⟩
  | entering | checking | receiving | received | executing | replying | disconnected | cancelling | cancelled =>
      cases hpoint ▸ Pump.runsAt_of_loopStep hstep

/-- An event of the loop is one of a step of the loop. -/
theorem ofLoop_step {op : PumpOp T A R O} (hstep : s.step current op = some (events, s')) {event : PumpEvent T A R O}
    (hevent : event ∈ events) (hloop : event.ofLoop = true) :
    ∃ loop, s.loop = some loop ∧ s.loopStep current loop op = some (events, s') := by
  have hother : ¬ event.ofLoop = false := by simp [hloop]
  cases op with
  | worker op =>
      obtain ⟨⟨sent, task⟩, -, heq⟩ := Option.map_eq_some_iff.mp hstep
      obtain ⟨rfl, -⟩ := Prod.mk.inj heq
      cases hevent
  | enqueue action =>
      unfold Pump.step at hstep
      simp only at hstep
      (repeat' split at hstep) <;> cases hstep
      · obtain rfl := List.mem_singleton.mp hevent
        cases hloop
      · cases hevent
  | dropSenders | skipToken | retainOther | terminateOther =>
      cases hstep
      cases hevent
  | waiterWait =>
      unfold Pump.step at hstep
      simp only at hstep
      split at hstep
      · obtain ⟨result, -, heq⟩ := Option.map_eq_some_iff.mp hstep
        cases heq
        cases hevent
      · cases hstep
  | waiterStore =>
      unfold Pump.step at hstep
      simp only at hstep
      split at hstep <;> cases hstep
      cases hevent
  | reapOriginQuarantine =>
      obtain ⟨quarantine, actions, -, hreaps⟩ := reapOriginQuarantine_reaps s
      obtain rfl : events = _ := congrArg Prod.fst (Option.some.inj hstep).symm
      exact absurd (hreaps.not_ofLoop hevent) hother
  | reapOriginQuarantineToken token =>
      obtain ⟨quarantine, actions, lastToken, -, hreaps⟩ := reapOriginQuarantineToken_reaps s token
      obtain rfl : events = _ := congrArg Prod.fst (Option.some.inj hstep).symm
      exact absurd (hreaps.not_ofLoop hevent) hother
  | takeOriginQuarantineOwner token typed =>
      obtain ⟨quarantine, actions, lastToken, -, hreaps⟩ := takeOriginQuarantineOwner_reaps s token typed
      obtain rfl : events = _ := congrArg Prod.fst (Option.some.inj hstep).symm
      exact absurd (hreaps.not_ofLoop hevent) hother
  | exitThread =>
      unfold Pump.step at hstep
      simp only at hstep
      split at hstep
      · cases hstep
      · obtain ⟨actions, -, hreaps⟩ := dropEntries_reaps { s with quarantine := [], lastToken := none } s.quarantine
        obtain rfl : events = _ := congrArg Prod.fst (Option.some.inj hstep).symm
        exact absurd (hreaps.not_ofLoop hevent) hother
  | ensureAffinity | checkSignals | tryWait | recvTimeout | execute | sendReply | waitReadyTimeout | cancel | cancelWait =>
      exact Option.bind_eq_some_iff.mp hstep

theorem returned_step {op : PumpOp T A R O} (hstep : s.step current op = some (events, s')) {output : T} {owner : O}
    (h : .returned output owner ∈ events) :
    ∃ loop, s.loop = some loop ∧ loop.owner = owner ∧ Offers s.task loop.submission output := by
  obtain ⟨loop, hloop, hone⟩ := ofLoop_step hstep h rfl
  obtain rfl := returned_loopStep hone h
  exact ⟨loop, hloop, returned_tryWait hone h⟩

/-- Once it has returned, the loop is gone. -/
theorem PumpInv.loop_eq_none (h : PumpInv current log s) {output : T} {owner : O} (hreturned : .returned output owner ∈ log) :
    s.loop = none := by
  have hreleased : 0 < log.countP PumpEvent.releasesOwner := List.countP_pos_iff.mpr ⟨_, hreturned, rfl⟩
  have hsingle := h.single
  unfold Single at hsingle
  cases hloop : s.loop with
  | none => rfl
  | some loop =>
      rw [hloop, Option.map_some, Option.toList_some, List.length_singleton] at hsingle
      omega

end RequestsNative.Python
