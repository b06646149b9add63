import RequestsNative.Blocking.Submission

/-!
# The output is delivered once

Where the output of a task is, at every moment of every run: not sent yet, in the channel, in the ready slot, with the
caller, or never to come. A phase names the place and says what the caller has been told so far; every step leads from
a phase to a phase, and what the caller is promised can be read off the phase.
-/

namespace RequestsNative.Blocking

open RequestsNative.Lib

variable {T : Type}

abbrev SubmissionTrace (T : Type) := List (SubmissionOp T × SubmissionAnswer T)

/-- The output an answer hands to the caller. -/
def SubmissionAnswer.handed : SubmissionAnswer T → Option T
  | .polled (.ok (some output)) => some output
  | .waited (.ok output) => some output
  | _ => none

/-- The output the task has sent. -/
def SubmissionAnswer.sent : SubmissionAnswer T → Option T
  | .worked sent => sent
  | _ => none

/-- The error an answer reports. -/
def SubmissionAnswer.reported : SubmissionAnswer T → Option BlockingTaskError
  | .ready (.error error) | .polled (.error error) | .cancelled (.error error) | .waited (.error error) => some error
  | _ => none

/-- The answer says that the worker has ended without an output. -/
def SubmissionAnswer.saysStopped (answer : SubmissionAnswer T) : Prop :=
  answer.reported = some .cancelled ∨ answer.reported = some .workerStopped

def handedIn (trace : SubmissionTrace T) : List T := trace.filterMap fun step => step.2.handed

def sentIn (trace : SubmissionTrace T) : List T := trace.filterMap fun step => step.2.sent

/-- The caller has been told that the worker has ended without an output. -/
def ToldStopped (trace : SubmissionTrace T) : Prop := ∃ step ∈ trace, step.2.saysStopped

section Trace

variable {trace : SubmissionTrace T} {op : SubmissionOp T} {answer : SubmissionAnswer T}

theorem handedIn_snoc : handedIn (trace ++ [(op, answer)]) = handedIn trace ++ answer.handed.toList := by
  rw [handedIn, handedIn, List.filterMap_append]
  cases h : answer.handed <;> simp [h]

theorem sentIn_snoc : sentIn (trace ++ [(op, answer)]) = sentIn trace ++ answer.sent.toList := by
  rw [sentIn, sentIn, List.filterMap_append]
  cases h : answer.sent <;> simp [h]

theorem toldStopped_snoc : ToldStopped (trace ++ [(op, answer)]) ↔ ToldStopped trace ∨ answer.saysStopped := by
  simp [ToldStopped, or_and_right, exists_or]

end Trace

/-! ### Where the output is -/

/-- The task has not sent anything yet. -/
inductive Unsent : Worker T → Prop
  | running : Unsent .running
  | completed {output : T} : Unsent (.completed output)
  | stopped : Unsent .stopped

/-- The task has sent, and may have dropped its sender. -/
inductive Delivered : Worker T → Bool → Prop
  | sent : Delivered .sent true
  | gone : Delivered .gone false

/-- The place of the output, with what the caller has been told. -/
inductive DeliveryPhase (processId : Nat) (trace : SubmissionTrace T) : SubmissionSystem T → Prop
  | waiting {worker : Worker T} {abortRequested cancelled : Bool} : Unsent worker → sentIn trace = [] →
      handedIn trace = [] → ¬ToldStopped trace →
        DeliveryPhase processId trace ⟨⟨worker, ⟨[], true, true⟩⟩, abortRequested, some ⟨processId, true, none, true, cancelled⟩⟩
  | never {receiver abortRequested cancelled : Bool} : sentIn trace = [] → handedIn trace = [] →
      DeliveryPhase processId trace
        ⟨⟨.gone, ⟨[], false, receiver⟩⟩, abortRequested, some ⟨processId, receiver, none, true, cancelled⟩⟩
  | inChannel {worker : Worker T} {live abortRequested cancelled : Bool} {output : T} : Delivered worker live →
      sentIn trace = [output] → handedIn trace = [] → ¬ToldStopped trace →
        DeliveryPhase processId trace
          ⟨⟨worker, ⟨[output], live, true⟩⟩, abortRequested, some ⟨processId, true, none, true, cancelled⟩⟩
  | inReady {worker : Worker T} {live abortRequested cancelled : Bool} {output : T} : Delivered worker live →
      sentIn trace = [output] → handedIn trace = [] → ¬ToldStopped trace →
        DeliveryPhase processId trace
          ⟨⟨worker, ⟨[], live, true⟩⟩, abortRequested, some ⟨processId, true, some output, true, cancelled⟩⟩
  | taken {worker : Worker T} {live abortRequested cancelled : Bool} {output : T} : Delivered worker live →
      sentIn trace = [output] → handedIn trace = [output] → ¬ToldStopped trace →
        DeliveryPhase processId trace
          ⟨⟨worker, ⟨[], live, false⟩⟩, abortRequested, some ⟨processId, false, none, true, cancelled⟩⟩
  | dropped {worker : Worker T} {live abortRequested : Bool} : handedIn trace <+: sentIn trace →
      (sentIn trace).length ≤ 1 → (ToldStopped trace → worker = .gone ∧ sentIn trace = []) →
        DeliveryPhase processId trace ⟨⟨worker, ⟨[], live, false⟩⟩, abortRequested, none⟩

attribute [local simp] handedIn_snoc sentIn_snoc toldStopped_snoc SubmissionAnswer.handed SubmissionAnswer.sent
  SubmissionAnswer.saysStopped SubmissionAnswer.reported

variable {processId : Nat} {trace : SubmissionTrace T} {s s' : SubmissionSystem T} {answer : SubmissionAnswer T}

theorem deliveryPhase_submit : DeliveryPhase processId [] (SubmissionSystem.submit processId : SubmissionSystem T) :=
  .waiting .running rfl rfl (by simp [ToldStopped])

theorem step_delivered {worker : Worker T} {queue : List T} {live heard : Bool} (h : Delivered worker live) {op : WorkerOp T}
    {sent : Option T} {task : Task T} (hstep : Task.step ⟨worker, ⟨queue, live, heard⟩⟩ op = some (sent, task)) :
    sent = none ∧ task = ⟨.gone, ⟨queue, false, heard⟩⟩ := by
  cases h with
  | sent =>
      cases op with
      | dropSender =>
          cases hstep
          exact ⟨rfl, rfl⟩
      | complete output => cases hstep
      | send => cases hstep
      | stop => cases hstep
  | gone => cases op <;> cases hstep

theorem step_unheard {worker : Worker T} {live : Bool} {op : WorkerOp T} {sent : Option T} {task : Task T}
    (hstep : Task.step ⟨worker, ⟨[], live, false⟩⟩ op = some (sent, task)) :
    sent = none ∧ worker ≠ .gone ∧ ∃ worker' live', task = ⟨worker', ⟨[], live', false⟩⟩ := by
  cases worker <;> cases op <;> cases hstep <;> exact ⟨rfl, nofun, _, _, rfl⟩

/-- The task takes a step. -/
theorem deliveryPhase_worker (h : DeliveryPhase processId trace s) {op : WorkerOp T}
    (hstep : s.step processId (.worker op) = some (answer, s')) : DeliveryPhase processId (trace ++ [(.worker op, answer)]) s' := by
  obtain ⟨⟨sent, task⟩, htask, heq⟩ := Option.map_eq_some_iff.mp hstep
  cases heq
  cases h with
  | waiting hunsent hsent hhanded htold =>
      cases hunsent with
      | running =>
          cases op with
          | complete output =>
              cases htask
              exact .waiting .completed (by simp [hsent]) (by simp [hhanded]) (by simp [htold])
          | stop =>
              cases htask
              exact .waiting .stopped (by simp [hsent]) (by simp [hhanded]) (by simp [htold])
          | send => cases htask
          | dropSender => cases htask
      | completed =>
          cases op with
          | send =>
              cases htask
              exact .inChannel .sent (by simp [hsent]) (by simp [hhanded]) (by simp [htold])
          | complete output => cases htask
          | stop => cases htask
          | dropSender => cases htask
      | stopped =>
          cases op with
          | dropSender =>
              cases htask
              exact .never (by simp [hsent]) (by simp [hhanded])
          | complete output => cases htask
          | send => cases htask
          | stop => cases htask
  | never hsent hhanded => cases op <;> cases htask
  | inChannel hdelivered hsent hhanded htold =>
      obtain ⟨rfl, rfl⟩ := step_delivered hdelivered htask
      exact .inChannel .gone (by simpa using hsent) (by simp [hhanded]) (by simp [htold])
  | inReady hdelivered hsent hhanded htold =>
      obtain ⟨rfl, rfl⟩ := step_delivered hdelivered htask
      exact .inReady .gone (by simpa using hsent) (by simp [hhanded]) (by simp [htold])
  | taken hdelivered hsent hhanded htold =>
      obtain ⟨rfl, rfl⟩ := step_delivered hdelivered htask
      exact .taken .gone (by simpa using hsent) (by simpa using hhanded) (by simp [htold])
  | dropped hfront hlength htold =>
      obtain ⟨rfl, hworker, worker', live', rfl⟩ := step_unheard htask
      refine .dropped (by simpa using hfront) (by simpa using hlength) ?_
      intro hstopped
      exact absurd (htold (by simpa using hstopped)).1 hworker

/-! ### The calls -/

theorem validateProcess_own (receiver abort cancelled : Bool) (ready : Option T) :
    (⟨processId, receiver, ready, abort, cancelled⟩ : BlockingSubmission T).validateProcess processId = .ok () := if_pos rfl

attribute [local simp] validateProcess_own SubmissionSystem.step SubmissionSystem.call SubmissionSystem.dropSubmission
  BlockingSubmission.waitReadyTimeout BlockingSubmission.tryWait BlockingSubmission.wait BlockingSubmission.cancel
  Channel.receive Channel.dropReceiver

theorem deliveryPhase_waitReadyTimeout (h : DeliveryPhase processId trace s)
    (hstep : s.step processId (.caller .waitReadyTimeout) = some (answer, s')) :
    DeliveryPhase processId (trace ++ [(.caller .waitReadyTimeout, answer)]) s' := by
  cases h with
  | waiting hunsent hsent hhanded htold =>
      obtain ⟨rfl, rfl⟩ := by simpa using hstep
      exact .waiting hunsent (by simp [hsent]) (by simp [hhanded]) (by simp [htold])
  | @never receiver _ _ hsent hhanded =>
      cases receiver <;> obtain ⟨rfl, rfl⟩ := by simpa using hstep
      · exact .never (by simp [hsent]) (by simp [hhanded])
      · exact .never (by simp [hsent]) (by simp [hhanded])
  | inChannel hdelivered hsent hhanded htold =>
      obtain ⟨rfl, rfl⟩ := by simpa using hstep
      exact .inReady hdelivered (by simpa using hsent) (by simp [hhanded]) (by simp [htold])
  | inReady hdelivered hsent hhanded htold =>
      obtain ⟨rfl, rfl⟩ := by simpa using hstep
      exact .inReady hdelivered (by simpa using hsent) (by simp [hhanded]) (by simp [htold])
  | taken hdelivered hsent hhanded htold =>
      obtain ⟨rfl, rfl⟩ := by simpa using hstep
      exact .taken hdelivered (by simpa using hsent) (by simpa using hhanded) (by simp [htold])
  | dropped => cases hstep

theorem deliveryPhase_tryWait (h : DeliveryPhase processId trace s) (hstep : s.step processId (.caller .tryWait) = some (answer, s')) :
    DeliveryPhase processId (trace ++ [(.caller .tryWait, answer)]) s' := by
  cases h with
  | waiting hunsent hsent hhanded htold =>
      obtain ⟨rfl, rfl⟩ := by simpa using hstep
      exact .waiting hunsent (by simp [hsent]) (by simp [hhanded]) (by simp [htold])
  | @never receiver _ _ hsent hhanded =>
      cases receiver <;> obtain ⟨rfl, rfl⟩ := by simpa using hstep
      · exact .never (by simp [hsent]) (by simp [hhanded])
      · exact .never (by simp [hsent]) (by simp [hhanded])
  | inChannel hdelivered hsent hhanded htold =>
      obtain ⟨rfl, rfl⟩ := by simpa using hstep
      exact .taken hdelivered (by simpa using hsent) (by simp [hhanded]) (by simp [htold])
  | inReady hdelivered hsent hhanded htold =>
      obtain ⟨rfl, rfl⟩ := by simpa using hstep
      exact .taken hdelivered (by simpa using hsent) (by simp [hhanded]) (by simp [htold])
  | taken hdelivered hsent hhanded htold =>
      obtain ⟨rfl, rfl⟩ := by simpa using hstep
      exact .taken hdelivered (by simpa using hsent) (by simpa using hhanded) (by simp [htold])
  | dropped => cases hstep

theorem deliveryPhase_cancel (h : DeliveryPhase processId trace s) (hstep : s.step processId (.caller .cancel) = some (answer, s')) :
    DeliveryPhase processId (trace ++ [(.caller .cancel, answer)]) s' := by
  cases h with
  | waiting hunsent hsent hhanded htold =>
      obtain ⟨rfl, rfl⟩ := by simpa using hstep
      exact .waiting hunsent (by simp [hsent]) (by simp [hhanded]) (by simp [htold])
  | @never receiver _ _ hsent hhanded =>
      cases receiver <;> obtain ⟨rfl, rfl⟩ := by simpa using hstep
      · exact .never (by simp [hsent]) (by simp [hhanded])
      · exact .never (by simp [hsent]) (by simp [hhanded])
  | inChannel hdelivered hsent hhanded htold =>
      obtain ⟨rfl, rfl⟩ := by simpa using hstep
      exact .inChannel hdelivered (by simpa using hsent) (by simp [hhanded]) (by simp [htold])
  | inReady hdelivered hsent hhanded htold =>
      obtain ⟨rfl, rfl⟩ := by simpa using hstep
      exact .inReady hdelivered (by simpa using hsent) (by simp [hhanded]) (by simp [htold])
  | taken hdelivered hsent hhanded htold =>
      obtain ⟨rfl, rfl⟩ := by simpa using hstep
      exact .taken hdelivered (by simpa using hsent) (by simpa using hhanded) (by simp [htold])
  | dropped => cases hstep

theorem deliveryPhase_wait (h : DeliveryPhase processId trace s) (hstep : s.step processId (.caller .wait) = some (answer, s')) :
    DeliveryPhase processId (trace ++ [(.caller .wait, answer)]) s' := by
  cases h with
  | waiting hunsent hsent hhanded htold => simp at hstep
  | @never receiver _ _ hsent hhanded =>
      cases receiver <;> obtain ⟨rfl, rfl⟩ := by simpa using hstep
      · exact .dropped (by simp [hhanded]) (by simp [hsent]) (fun _ => ⟨rfl, by simp [hsent]⟩)
      · exact .dropped (by simp [hhanded]) (by simp [hsent]) (fun _ => ⟨rfl, by simp [hsent]⟩)
  | inChannel hdelivered hsent hhanded htold =>
      obtain ⟨rfl, rfl⟩ := by simpa using hstep
      exact .dropped (by simp [hsent, hhanded]) (by simp [hsent]) (by simp [htold])
  | inReady hdelivered hsent hhanded htold =>
      obtain ⟨rfl, rfl⟩ := by simpa using hstep
      exact .dropped (by simp [hsent, hhanded]) (by simp [hsent]) (by simp [htold])
  | taken hdelivered hsent hhanded htold =>
      obtain ⟨rfl, rfl⟩ := by simpa using hstep
      exact .dropped (by simp [hsent, hhanded]) (by simp [hsent]) (by simp [htold])
  | dropped => cases hstep

theorem deliveryPhase_drop (h : DeliveryPhase processId trace s) (hstep : s.step processId (.caller .drop) = some (answer, s')) :
    DeliveryPhase processId (trace ++ [(.caller .drop, answer)]) s' := by
  cases h with
  | waiting hunsent hsent hhanded htold =>
      obtain ⟨rfl, rfl⟩ := by simpa using hstep
      exact .dropped (by simp [hhanded]) (by simp [hsent]) (by simp [htold])
  | never hsent hhanded =>
      obtain ⟨rfl, rfl⟩ := by simpa using hstep
      exact .dropped (by simp [hhanded]) (by simp [hsent]) (fun _ => ⟨rfl, by simp [hsent]⟩)
  | inChannel hdelivered hsent hhanded htold =>
      obtain ⟨rfl, rfl⟩ := by simpa using hstep
      exact .dropped (by simp [hhanded]) (by simp [hsent]) (by simp [htold])
  | inReady hdelivered hsent hhanded htold =>
      obtain ⟨rfl, rfl⟩ := by simpa using hstep
      exact .dropped (by simp [hhanded]) (by simp [hsent]) (by simp [htold])
  | taken hdelivered hsent hhanded htold =>
      obtain ⟨rfl, rfl⟩ := by simpa using hstep
      exact .dropped (by simp [hsent, hhanded]) (by simp [hsent]) (by simp [htold])
  | dropped => cases hstep

/-! ### Runs -/

theorem deliveryPhase_run (hrun : (SubmissionSystem.machine processId).Run (SubmissionSystem.submit processId) trace s) :
    DeliveryPhase processId trace s := by
  refine hrun.induction (DeliveryPhase processId) deliveryPhase_submit ?_
  rintro trace s (op | op) answer s' - hphase hstep
  · exact deliveryPhase_worker hphase hstep
  · cases op with
    | waitReadyTimeout => exact deliveryPhase_waitReadyTimeout hphase hstep
    | tryWait => exact deliveryPhase_tryWait hphase hstep
    | cancel => exact deliveryPhase_cancel hphase hstep
    | wait => exact deliveryPhase_wait hphase hstep
    | drop => exact deliveryPhase_drop hphase hstep

/-- What the caller of a submission is promised, after any steps of the worker and any calls. -/
structure DeliversOnce (processId : Nat) (trace : SubmissionTrace T) (s : SubmissionSystem T) : Prop where
  /-- The output is handed out at most once, and it is what the worker has sent. -/
  once : handedIn trace <+: sentIn trace ∧ (sentIn trace).length ≤ 1
  /-- An output that was sent and not handed out is handed out by the next call that asks for it. -/
  kept : ∀ output submission, sentIn trace = [output] → handedIn trace = [] → s.submission = some submission →
    (∃ s', s.step processId (.caller .tryWait) = some (.polled (.ok (some output)), s')) ∧
      ∃ s', s.step processId (.caller .wait) = some (.waited (.ok output), s')
  /-- After that every call says so. -/
  completed : ∀ submission, handedIn trace ≠ [] → s.submission = some submission →
    (∃ s', s.step processId (.caller .tryWait) = some (.polled (.error .alreadyCompleted), s')) ∧
    (∃ s', s.step processId (.caller .wait) = some (.waited (.error .alreadyCompleted), s')) ∧
      ∃ s', s.step processId (.caller .cancel) = some (.cancelled (.error .alreadyCompleted), s')
  /-- The worker is said to have stopped only if it has ended without sending. -/
  stopped : ToldStopped trace → s.task.worker = .gone ∧ sentIn trace = []

/-- Whatever the order of the worker's steps and the caller's, the output is delivered once. -/
theorem output_delivered_once (hrun : (SubmissionSystem.machine processId).Run (SubmissionSystem.submit processId) trace s) :
    DeliversOnce processId trace s := by
  cases deliveryPhase_run hrun with
  | waiting hunsent hsent hhanded htold =>
      refine ⟨by simp [hsent, hhanded], ?_, fun _ h => absurd hhanded h, fun h => absurd h htold⟩
      intro output _ hsome
      rw [hsent] at hsome
      cases hsome
  | never hsent hhanded =>
      refine ⟨by simp [hsent, hhanded], ?_, fun _ h => absurd hhanded h, fun _ => ⟨rfl, hsent⟩⟩
      intro output _ hsome
      rw [hsent] at hsome
      cases hsome
  | inChannel hdelivered hsent hhanded htold =>
      refine ⟨by simp [hsent, hhanded], ?_, fun _ h => absurd hhanded h, fun h => absurd h htold⟩
      intro output _ hsome _ _
      cases hsent.symm.trans hsome
      simp
  | inReady hdelivered hsent hhanded htold =>
      refine ⟨by simp [hsent, hhanded], ?_, fun _ h => absurd hhanded h, fun h => absurd h htold⟩
      intro output _ hsome _ _
      cases hsent.symm.trans hsome
      simp
  | taken hdelivered hsent hhanded htold =>
      refine ⟨by simp [hsent, hhanded], ?_, fun _ _ _ => by simp, fun h => absurd h htold⟩
      intro output _ _ hnone
      rw [hhanded] at hnone
      cases hnone
  | dropped hfront hlength htold => exact ⟨⟨hfront, hlength⟩, nofun, nofun, htold⟩

/-- The worker sends while the caller looks, the caller cancels too late, and takes the output. -/
theorem output_delivered_once_late_cancel :
    ∃ s, DeliversOnce 7 [(.worker (.complete 42), .worked none), (.caller .cancel, .cancelled (.ok ())),
      (.worker .send, .worked (some 42)), (.caller .waitReadyTimeout, .ready (.ok true)),
      (.worker .dropSender, .worked none), (.caller .cancel, .cancelled (.ok ())),
      (.caller .tryWait, .polled (.ok (some 42))), (.caller .wait, .waited (.error .alreadyCompleted))]
        (s : SubmissionSystem Nat) := by
  obtain ⟨s, hexec⟩ : ∃ s, (SubmissionSystem.machine 7).exec (SubmissionSystem.submit 7)
      [.worker (.complete 42), .caller .cancel, .worker .send, .caller .waitReadyTimeout, .worker .dropSender,
        .caller .cancel, .caller .tryWait, .caller .wait] = some (_, s) := ⟨_, rfl⟩
  exact ⟨s, output_delivered_once (Machine.run_of_exec hexec)⟩

end RequestsNative.Blocking
