import RequestsNative.Python.Pump

/-!
# Runs of the pump

What holds at every moment of every run of the pump. Four facts are kept by every step, each about a few of the parties:
a submission that has something to say means that the worker has ended, the requests leave the queue in their order, the
loop does not go on behind a signal, and the owner is in one place. Only a failed `ensure_affinity` lets go of the owner
without asking whether the worker has ended.
-/

namespace RequestsNative.Python

open RequestsNative.Lib
open RequestsNative.Blocking (BlockingSubmission BlockingTaskError WorkerOp)

variable {T A R O : Type}

/-! ### What has happened -/

def enqueuedIn (log : List (PumpEvent T A R O)) : List (ActionRequest A) :=
  log.filterMap fun
    | .enqueued request => some request
    | _ => none

def startedIn (log : List (PumpEvent T A R O)) : List (ActionRequest A) :=
  log.filterMap fun
    | .started request => some request
    | _ => none

/-- The replies that were sent or withheld, each at the end of its action. -/
def settledIn (log : List (PumpEvent T A R O)) : List Nat :=
  log.filterMap fun
    | .withheld reply | .replied reply _ => some reply
    | _ => none

def repliedIn (log : List (PumpEvent T A R O)) : List Nat :=
  log.filterMap fun
    | .replied reply _ => some reply
    | _ => none

/-- The owner has been returned, dropped or handed out. -/
def PumpEvent.releasesOwner : PumpEvent T A R O → Bool
  | .returned _ _ | .ownerDropped _ | .ownerHandedOut _ => true
  | _ => false

/-- An action is executed, or the output returned. -/
def PumpEvent.goesOn : PumpEvent T A R O → Bool
  | .started _ | .returned _ _ => true
  | _ => false

def PumpEvent.isSignal : PumpEvent T A R O → Bool
  | .signalled => true
  | _ => false

/-- An event of the quarantine. -/
def PumpEvent.isCustody : PumpEvent T A R O → Bool
  | .ownerDropped _ | .ownerHandedOut _ | .ownerForgotten _ => true
  | _ => false

section Logs

variable (log events : List (PumpEvent T A R O))

@[simp] theorem enqueuedIn_append : enqueuedIn (log ++ events) = enqueuedIn log ++ enqueuedIn events := List.filterMap_append

@[simp] theorem startedIn_append : startedIn (log ++ events) = startedIn log ++ startedIn events := List.filterMap_append

@[simp] theorem settledIn_append : settledIn (log ++ events) = settledIn log ++ settledIn events := List.filterMap_append

theorem repliedIn_sublist : (repliedIn log).Sublist (settledIn log) := by
  induction log with
  | nil => exact List.Sublist.slnil
  | cons event log ih =>
      cases event with
      | replied reply value => exact ih.cons_cons reply
      | withheld reply => exact ih.cons reply
      | _ => exact ih

variable {events}

theorem isCustody_idle {event : PumpEvent T A R O} (h : event.isCustody = true) :
    event.goesOn = false ∧ event.isSignal = false := by
  cases event <;> first | exact ⟨rfl, rfl⟩ | cases h

theorem isCustody_silent (h : ∀ event ∈ events, event.isCustody = true) :
    enqueuedIn events = [] ∧ startedIn events = [] ∧ settledIn events = [] := by
  refine ⟨List.filterMap_eq_nil_iff.mpr ?_, List.filterMap_eq_nil_iff.mpr ?_, List.filterMap_eq_nil_iff.mpr ?_⟩ <;>
    intro event hevent <;> have hcustody := h event hevent <;> cases event <;> first | rfl | cases hcustody

end Logs

/-! ### The submission and its worker -/

/-- Before the worker has ended, its channel is empty and open. -/
def Honest (task : Blocking.Task T) : Prop :=
  task.worker.ended = false → task.channel.queue = [] ∧ task.channel.live = true

/-- A submission of this process whose output has not been taken. -/
structure Held (current : Nat) (ended : Bool) (submission : BlockingSubmission T) : Prop where
  process : submission.processId = current
  receiver : submission.receiver = true
  ready : ended = false → submission.ready = none

section Submission

variable {current : Nat} {task task' : Blocking.Task T} {submission : BlockingSubmission T}

/-- Behind any step of its own, the worker has ended. -/
theorem task_step_ended {op : WorkerOp T} {sent : Option T} (hstep : task.step op = some (sent, task')) :
    task'.worker.ended = true := by
  obtain ⟨worker, channel⟩ := task
  cases worker <;> cases op <;> cases hstep <;> rfl

theorem Held.ended {ended : Bool} (h : Held current ended submission) : Held current true submission :=
  ⟨h.process, h.receiver, nofun⟩

theorem honest_of_ended (h : task.worker.ended = true) : Honest task := by
  intro hrunning
  rw [h] at hrunning
  cases hrunning

theorem Held.validateProcess {ended : Bool} (h : Held current ended submission) :
    submission.validateProcess current = .ok () := if_pos h.process.symm

/-- While the worker runs, the submission has nothing to say. -/
theorem tryWait_running (hheld : Held current task.worker.ended submission) (hhonest : Honest task)
    (hrunning : task.worker.ended = false) :
    submission.tryWait task.channel current = (.ok none, submission, task.channel) := by
  obtain ⟨hqueue, hlive⟩ := hhonest hrunning
  simp only [BlockingSubmission.tryWait, hheld.validateProcess, hheld.ready hrunning, hheld.receiver, Channel.receive, hqueue,
    hlive, Bool.not_true, Bool.false_eq_true, if_false, if_true]

theorem waitReadyTimeout_running (hheld : Held current task.worker.ended submission) (hhonest : Honest task)
    (hrunning : task.worker.ended = false) :
    submission.waitReadyTimeout task.channel current = (.ok false, submission, task.channel) := by
  obtain ⟨hqueue, hlive⟩ := hhonest hrunning
  simp only [BlockingSubmission.waitReadyTimeout, hheld.validateProcess, hheld.ready hrunning, hheld.receiver,
    Channel.receive, hqueue, hlive, Option.isSome_none, Bool.not_true, Bool.false_eq_true, if_false, if_true]

theorem wait_running (hheld : Held current task.worker.ended submission) (hhonest : Honest task)
    (hrunning : task.worker.ended = false) : submission.wait task.channel current = none := by
  obtain ⟨hqueue, hlive⟩ := hhonest hrunning
  simp only [BlockingSubmission.wait, hheld.validateProcess, hheld.ready hrunning, hheld.receiver, Channel.receive, hqueue,
    hlive, Bool.not_true, Bool.false_eq_true, if_false, if_true]

/-- A wait that found nothing leaves everything as it was. -/
theorem tryWait_none (hheld : Held current task.worker.ended submission)
    (h : (submission.tryWait task.channel current).1 = .ok none) :
    submission.tryWait task.channel current = (.ok none, submission, task.channel) := by
  revert h
  simp only [BlockingSubmission.tryWait, hheld.validateProcess, hheld.receiver, Bool.not_true, Bool.false_eq_true, if_false]
  cases submission.ready with
  | some output => exact fun h => by cases h
  | none =>
      rcases hqueue : task.channel.queue with _ | ⟨output, queue⟩
      · simp only [Channel.receive, hqueue]
        cases task.channel.live with
        | true => exact fun _ => rfl
        | false => exact fun h => by cases h
      · simp only [Channel.receive, hqueue]
        exact fun h => by cases h

theorem Held.waitReadyTimeout (hheld : Held current task.worker.ended submission) (hhonest : Honest task) :
    Held current task.worker.ended (submission.waitReadyTimeout task.channel current).2.1 ∧
    Honest { task with channel := (submission.waitReadyTimeout task.channel current).2.2 } := by
  cases hended : task.worker.ended with
  | false =>
      rw [waitReadyTimeout_running hheld hhonest hended]
      exact ⟨hended ▸ hheld, hhonest⟩
  | true =>
      refine ⟨⟨?_, ?_, nofun⟩, honest_of_ended hended⟩
      · simp only [BlockingSubmission.waitReadyTimeout, hheld.validateProcess]
        repeat' split
        all_goals exact hheld.process
      · simp only [BlockingSubmission.waitReadyTimeout, hheld.validateProcess]
        repeat' split
        all_goals exact hheld.receiver

theorem Held.cancel {ended : Bool} (hheld : Held current ended submission) :
    submission.cancel current = (.ok (), { submission with cancelled := true }, submission.abort) ∧
    Held current ended { submission with cancelled := true } := by
  refine ⟨?_, hheld.process, hheld.receiver, hheld.ready⟩
  simp only [BlockingSubmission.cancel, hheld.validateProcess, hheld.receiver, Bool.not_true, Bool.false_eq_true, if_false]

end Submission

/-! ### The four facts -/

/-- Whoever waits for the submission waits for the worker, and an entry of ours is terminal only after its end. -/
structure Custody (current : Nat) (task : Blocking.Task T) (loop : Option (BlockingSubmission T)) (waiter : Waiter T)
    (quarantine : List (QuarantinedOrigin O)) : Prop where
  honest : Honest task
  loop : ∀ submission, loop = some submission → Held current task.worker.ended submission
  waiting : ∀ submission, waiter = .waiting submission → Held current task.worker.ended submission
  waited : waiter = .waited → task.worker.ended = true
  terminal : ∀ entry ∈ quarantine, entry.isOurs = true → entry.terminal = true → task.worker.ended = true

/-- The request that has been received and not started yet. -/
def receivedAt : Option (LoopPoint A R) → List (ActionRequest A)
  | some (.received request) => [request]
  | _ => []

/-- The reply of the action that has been started and not settled yet. -/
def currentAt : Option (LoopPoint A R) → List Nat
  | some (.executing request) => [request.reply]
  | some (.replying reply _) => [reply]
  | _ => []

section Points

variable (request : ActionRequest A)

@[simp] theorem receivedAt_none : receivedAt (none : Option (LoopPoint A R)) = [] := rfl

@[simp] theorem receivedAt_checking : receivedAt (some .checking : Option (LoopPoint A R)) = [] := rfl

@[simp] theorem receivedAt_receiving : receivedAt (some .receiving : Option (LoopPoint A R)) = [] := rfl

@[simp] theorem receivedAt_received : receivedAt (some (.received request) : Option (LoopPoint A R)) = [request] := rfl

@[simp] theorem receivedAt_executing : receivedAt (some (.executing request) : Option (LoopPoint A R)) = [] := rfl

@[simp] theorem currentAt_none : currentAt (none : Option (LoopPoint A R)) = [] := rfl

@[simp] theorem currentAt_checking : currentAt (some .checking : Option (LoopPoint A R)) = [] := rfl

@[simp] theorem currentAt_received : currentAt (some (.received request) : Option (LoopPoint A R)) = [] := rfl

@[simp] theorem currentAt_executing : currentAt (some (.executing request) : Option (LoopPoint A R)) = [request.reply] := rfl

end Points

/-- The requests are started in the order of the queue, and settled one by one. -/
structure Ordered (log : List (PumpEvent T A R O)) (requests : Nat) (actions : Channel (ActionRequest A))
    (point : Option (LoopPoint A R)) : Prop where
  below : ∀ request ∈ enqueuedIn log, request.reply < requests
  distinct : ((enqueuedIn log).map ActionRequest.reply).Nodup
  order : startedIn log ++ receivedAt point <+: enqueuedIn log
  queue : actions.heard = true → startedIn log ++ receivedAt point ++ actions.queue = enqueuedIn log
  heard : point.isSome = true → actions.heard = true
  current : (startedIn log).map ActionRequest.reply = settledIn log ++ currentAt point

/-- The loop is on its way out, or gone. -/
def isLeaving : Option (LoopPoint A R) → Bool
  | none | some .cancelling | some .cancelled => true
  | _ => false

/-- Behind a signal the loop does not go on. -/
def StopsAtSignal (log : List (PumpEvent T A R O)) : Prop :=
  Throughout (fun before event => before.any PumpEvent.isSignal → event.goesOn = false) log

structure Leaving (log : List (PumpEvent T A R O)) (point : Option (LoopPoint A R)) : Prop where
  stops : StopsAtSignal log
  leaving : log.any PumpEvent.isSignal = true → isLeaving point = true

/-- The owner has been let go, is with the loop or is in the quarantine, at most once. -/
def Single (log : List (PumpEvent T A R O)) (loop : Option O) (quarantine : List (QuarantinedOrigin O)) : Prop :=
  log.countP PumpEvent.releasesOwner + loop.toList.length + quarantine.countP QuarantinedOrigin.isOurs ≤ 1

structure PumpInv (current : Nat) (log : List (PumpEvent T A R O)) (s : Pump T A R O) : Prop where
  custody : Custody current s.task (s.loop.map Loop.submission) s.waiter s.quarantine
  ordered : Ordered log s.requests s.actions (s.loop.map Loop.point)
  leaving : Leaving log (s.loop.map Loop.point)
  single : Single log (s.loop.map Loop.owner) s.quarantine

/-! ### How the facts are kept -/

section Kept

variable {current requests requests' : Nat} {log events : List (PumpEvent T A R O)} {actions actions' : Channel (ActionRequest A)}
  {point point' : Option (LoopPoint A R)} {loop loop' : Option O} {quarantine quarantine' : List (QuarantinedOrigin O)}

theorem Single.append (h : Single log loop quarantine)
    (hcount : events.countP PumpEvent.releasesOwner + loop'.toList.length + quarantine'.countP QuarantinedOrigin.isOurs ≤
      loop.toList.length + quarantine.countP QuarantinedOrigin.isOurs) : Single (log ++ events) loop' quarantine' := by
  unfold Single at h ⊢
  rw [List.countP_append]
  omega

/-- An owner in the quarantine is not with the loop. -/
theorem Single.left (h : Single log loop quarantine) (hours : 0 < quarantine.countP QuarantinedOrigin.isOurs) :
    loop = none := by
  unfold Single at h
  cases loop with
  | none => rfl
  | some owner =>
      rw [Option.toList_some, List.length_singleton] at h
      omega

theorem Leaving.append (h : Leaving log point) (hquiet : ∀ event ∈ events, event.goesOn = false)
    (hsignal : events.any PumpEvent.isSignal = true → isLeaving point' = true)
    (hpoint : isLeaving point = true → isLeaving point' = true) : Leaving (log ++ events) point' := by
  refine ⟨h.stops.append fun event hevent before _ => hquiet event hevent, fun hsignalled => ?_⟩
  rw [List.any_append, Bool.or_eq_true] at hsignalled
  obtain hlog | hevents := hsignalled
  · exact hpoint (h.leaving hlog)
  · exact hsignal hevents

/-- The loop goes on only if there has been no signal. -/
theorem Leaving.go (h : Leaving log point) (hpoint : isLeaving point = false) {event : PumpEvent T A R O}
    (hevent : event.isSignal = false) : Leaving (log ++ [event]) point' := by
  have hunsignalled : log.any PumpEvent.isSignal = false := by
    refine eq_false_of_ne_true fun hsignalled => ?_
    rw [h.leaving hsignalled] at hpoint
    cases hpoint
  refine ⟨Throughout.snoc_iff.mpr ⟨h.stops, fun hsignalled => ?_⟩, fun hsignalled => ?_⟩
  · rw [hunsignalled] at hsignalled
    cases hsignalled
  · rw [List.any_append, hunsignalled, List.any_cons, hevent] at hsignalled
    cases hsignalled

/-- Nothing is enqueued, started or settled. -/
def Silent (events : List (PumpEvent T A R O)) : Prop :=
  enqueuedIn events = [] ∧ startedIn events = [] ∧ settledIn events = []

theorem Ordered.silent (h : Ordered log requests actions point) (hevents : Silent events)
    (hreceived : receivedAt point' = receivedAt point) (hcurrent : currentAt point' = currentAt point)
    (hactions : actions'.heard = true → actions.heard = true ∧ actions'.queue = actions.queue)
    (hpoint : point'.isSome = true → actions'.heard = true) : Ordered (log ++ events) requests actions' point' := by
  obtain ⟨henqueued, hstarted, hsettled⟩ := hevents
  constructor
  · simpa [henqueued] using h.below
  · simpa [henqueued] using h.distinct
  · simpa [henqueued, hstarted, hreceived] using h.order
  · intro hheard
    obtain ⟨hold, hqueue⟩ := hactions hheard
    simpa [henqueued, hstarted, hreceived, hqueue] using h.queue hold
  · exact hpoint
  · simpa [hstarted, hsettled, hcurrent] using h.current

/-- The loop returns between two actions, with or without a request it has received. -/
theorem Ordered.exit (h : Ordered log requests actions point) (hevents : Silent events) (hcurrent : currentAt point = []) :
    Ordered (log ++ events) requests actions.dropReceiver none := by
  obtain ⟨henqueued, hstarted, hsettled⟩ := hevents
  constructor
  · simpa [henqueued] using h.below
  · simpa [henqueued] using h.distinct
  · rw [startedIn_append, enqueuedIn_append, henqueued, hstarted, List.append_nil, List.append_nil, receivedAt_none,
      List.append_nil]
    exact (List.prefix_append _ _).trans h.order
  · exact nofun
  · exact nofun
  · simpa [hstarted, hsettled, hcurrent] using h.current

theorem Ordered.enqueue (h : Ordered log requests actions point) (hheard : actions.heard = true) (action : A) :
    Ordered (log ++ [.enqueued ⟨action, requests⟩]) (requests + 1) (actions.send ⟨action, requests⟩) point := by
  have hsend : actions.send ⟨action, requests⟩ = { actions with queue := actions.queue ++ [⟨action, requests⟩] } :=
    if_pos hheard
  have hevent : enqueuedIn [(.enqueued ⟨action, requests⟩ : PumpEvent T A R O)] = [⟨action, requests⟩] := rfl
  rw [hsend]
  constructor
  · intro request hrequest
    rw [enqueuedIn_append, List.mem_append, hevent, List.mem_singleton] at hrequest
    obtain hold | rfl := hrequest
    · exact Nat.lt_succ_of_lt (h.below request hold)
    · exact Nat.lt_succ_self _
  · rw [enqueuedIn_append, List.map_append, List.nodup_append]
    refine ⟨h.distinct, List.pairwise_singleton _ _, fun reply hreply other hother heq => ?_⟩
    obtain ⟨request, hrequest, rfl⟩ := List.mem_map.mp hreply
    have hother : other = requests := by simpa [hevent] using hother
    exact Nat.lt_irrefl _ (hother ▸ heq ▸ h.below request hrequest)
  · rw [startedIn_append, enqueuedIn_append]
    exact (List.append_nil (startedIn log)).symm ▸ h.order.trans (List.prefix_append _ _)
  · intro _
    have hqueue := congrArg (· ++ [⟨action, requests⟩]) (h.queue hheard)
    simpa [startedIn, enqueuedIn] using hqueue
  · exact fun _ => hheard
  · simpa [startedIn, settledIn] using h.current

/-- The first request of the queue is received. -/
theorem Ordered.receive {request : ActionRequest A} {rest : List (ActionRequest A)}
    (h : Ordered log requests actions (some .receiving : Option (LoopPoint A R))) (hqueue : actions.queue = request :: rest) :
    Ordered (log ++ []) requests { actions with queue := rest } (some (.received request) : Option (LoopPoint A R)) := by
  have hheard : actions.heard = true := h.heard rfl
  have horder : startedIn log ++ [request] ++ rest = enqueuedIn log := by
    have hold := h.queue hheard
    rw [hqueue, receivedAt_receiving, List.append_nil] at hold
    rw [List.append_assoc]
    exact hold
  rw [List.append_nil]
  exact ⟨h.below, h.distinct, ⟨rest, horder⟩, fun _ => horder, fun _ => hheard, h.current⟩

/-- The request that was received is started. -/
theorem Ordered.start {request : ActionRequest A}
    (h : Ordered log requests actions (some (.received request) : Option (LoopPoint A R))) :
    Ordered (log ++ [.started request]) requests actions (some (.executing request) : Option (LoopPoint A R)) := by
  have hcurrent : (startedIn log).map ActionRequest.reply = settledIn log := by simpa using h.current
  constructor
  · simpa [enqueuedIn] using h.below
  · simpa [enqueuedIn] using h.distinct
  · simpa [enqueuedIn, startedIn] using h.order
  · intro hheard
    simpa [enqueuedIn, startedIn] using h.queue hheard
  · exact h.heard
  · rw [startedIn_append, settledIn_append, List.map_append, hcurrent]
    simp [startedIn, settledIn]

/-- The action that was started is settled. -/
theorem Ordered.settle {reply : Nat} (h : Ordered log requests actions point) (hcurrent : currentAt point = [reply])
    (hreceived : receivedAt point = []) (hpoint : point.isSome = true) (henqueued : enqueuedIn events = [])
    (hstarted : startedIn events = []) (hsettled : settledIn events = [reply]) :
    Ordered (log ++ events) requests actions (some .checking : Option (LoopPoint A R)) := by
  constructor
  · simpa [henqueued] using h.below
  · simpa [henqueued] using h.distinct
  · simpa [henqueued, hstarted, hreceived] using h.order
  · intro hheard
    simpa [henqueued, hstarted, hreceived] using h.queue hheard
  · exact fun _ => h.heard hpoint
  · simpa [hstarted, hsettled, hcurrent] using h.current

end Kept

/-! ### The quarantine -/

theorem canReap_terminal {entry : QuarantinedOrigin O} (h : entry.canReap = true) : entry.terminal = true := by
  simp only [QuarantinedOrigin.canReap, OriginQuarantineRetentionAudit.canReap, QuarantinedOrigin.retentionAudit,
    Bool.and_eq_true] at h
  exact h.1.1

theorem removeReapable_perm {token : Nat} {entries rest : List (QuarantinedOrigin O)} {entry : QuarantinedOrigin O}
    (h : removeReapable token entries = some (entry, rest)) : entry.canReap = true ∧ entries.Perm (entry :: rest) := by
  induction entries generalizing rest with
  | nil => cases h
  | cons first entries ih =>
      rw [removeReapable] at h
      split at h
      · split at h
        · obtain ⟨rfl, rfl⟩ := Prod.mk.inj (Option.some.inj h)
          exact ⟨‹_›, List.Perm.refl _⟩
        · cases h
      · obtain ⟨⟨found, rest'⟩, hfound, heq⟩ := Option.map_eq_some_iff.mp h
        obtain ⟨rfl, rfl⟩ := Prod.mk.inj heq
        obtain ⟨hreap, hperm⟩ := ih hfound
        exact ⟨hreap, (hperm.cons first).trans (List.Perm.swap _ _ _)⟩

/-- Entries leave the quarantine; ours lets go of the owner, if at all, when it is terminal. -/
structure Reaps (entries quarantine : List (QuarantinedOrigin O)) (actions actions' : Channel (ActionRequest A))
    (events : List (PumpEvent T A R O)) : Prop where
  subset : ∀ entry ∈ quarantine, entry ∈ entries
  count : events.countP PumpEvent.releasesOwner + quarantine.countP QuarantinedOrigin.isOurs ≤
    entries.countP QuarantinedOrigin.isOurs
  channel : actions' = actions ∨ actions' = actions.dropReceiver ∧ 0 < entries.countP QuarantinedOrigin.isOurs
  custody : ∀ event ∈ events, event.isCustody = true
  release : events.any PumpEvent.releasesOwner = true → ∃ entry ∈ entries, entry.isOurs = true ∧ entry.terminal = true

section Quarantine

variable {reaped entries quarantine : List (QuarantinedOrigin O)} {actions actions' : Channel (ActionRequest A)}
  {events : List (PumpEvent T A R O)} (s : Pump T A R O)

theorem Reaps.refl (entries : List (QuarantinedOrigin O)) (actions : Channel (ActionRequest A)) :
    Reaps entries entries actions actions ([] : List (PumpEvent T A R O)) :=
  ⟨fun _ => id, by simp, .inl rfl, nofun, nofun⟩

/-- What is not reaped stays. -/
theorem Reaps.keep (h : Reaps reaped [] actions actions' events) (hperm : entries.Perm (reaped ++ quarantine)) :
    Reaps entries quarantine actions actions' events := by
  have hcount : entries.countP QuarantinedOrigin.isOurs =
      reaped.countP QuarantinedOrigin.isOurs + quarantine.countP QuarantinedOrigin.isOurs := by
    rw [hperm.countP_eq, List.countP_append]
  refine ⟨fun entry hentry => hperm.mem_iff.mpr (List.mem_append_right _ hentry), ?_, ?_, h.custody, fun hrelease => ?_⟩
  · have hevents := h.count
    rw [List.countP_nil] at hevents
    omega
  · obtain hsame | ⟨hdropped, hours⟩ := h.channel
    · exact .inl hsame
    · exact .inr ⟨hdropped, by omega⟩
  · obtain ⟨entry, hentry, hours⟩ := h.release hrelease
    exact ⟨entry, hperm.mem_iff.mpr (List.mem_append_left _ hentry), hours⟩

theorem dropEntry_reaps (entry : QuarantinedOrigin O) : ∃ actions', (s.dropEntry entry).2 = { s with actions := actions' } ∧
    Reaps [entry] [] s.actions actions' (s.dropEntry entry).1 := by
  obtain ⟨token, terminal, phase, owner⟩ := entry
  cases owner with
  | another => exact ⟨s.actions, rfl, nofun, Nat.le_refl _, .inl rfl, nofun, nofun⟩
  | ours owner =>
      cases terminal with
      | true =>
          refine ⟨s.actions.dropReceiver, rfl, nofun, Nat.le_refl _, .inr ⟨rfl, Nat.one_pos⟩, ?_, ?_⟩
          · intro event hevent
            obtain rfl := List.mem_singleton.mp hevent
            rfl
          · exact fun _ => ⟨_, List.mem_singleton_self _, rfl, rfl⟩
      | false =>
          refine ⟨s.actions, rfl, nofun, Nat.zero_le _, .inl rfl, ?_, nofun⟩
          intro event hevent
          obtain rfl := List.mem_singleton.mp hevent
          rfl

theorem dropEntries_reaps (reaped : List (QuarantinedOrigin O)) :
    ∃ actions', (s.dropEntries reaped).2 = { s with actions := actions' } ∧
      Reaps reaped [] s.actions actions' (s.dropEntries reaped).1 := by
  induction reaped generalizing s with
  | nil => exact ⟨s.actions, rfl, .refl [] s.actions⟩
  | cons entry rest ih =>
      obtain ⟨first, hfirst, hentry⟩ := dropEntry_reaps s entry
      obtain ⟨actions', hrest, hreaps⟩ := ih (s.dropEntry entry).2
      rw [hfirst] at hrest hreaps
      have hcount : (entry :: rest).countP QuarantinedOrigin.isOurs =
          [entry].countP QuarantinedOrigin.isOurs + rest.countP QuarantinedOrigin.isOurs := by
        rw [← List.countP_append, List.singleton_append]
      have hevents : (s.dropEntries (entry :: rest)).1 =
          (s.dropEntry entry).1 ++ (Pump.dropEntries { s with actions := first } rest).1 := by rw [← hfirst]; rfl
      refine ⟨actions', ?_, nofun, ?_, ?_, ?_, ?_⟩
      · rw [← hfirst] at hrest
        exact hrest.trans (by rw [hfirst])
      · rw [hevents, List.countP_append, hcount]
        have h₁ := hentry.count
        have h₂ := hreaps.count
        rw [List.countP_nil] at h₁ h₂ ⊢
        omega
      · obtain rfl | ⟨rfl, hours⟩ := hentry.channel
        · obtain rfl | ⟨rfl, hours⟩ := hreaps.channel
          · exact .inl rfl
          · exact .inr ⟨rfl, by omega⟩
        · refine .inr ⟨?_, by omega⟩
          obtain rfl | ⟨rfl, -⟩ := hreaps.channel
          · rfl
          · rfl
      · intro event hevent
        rw [hevents] at hevent
        obtain hevent | hevent := List.mem_append.mp hevent
        · exact hentry.custody event hevent
        · exact hreaps.custody event hevent
      · intro hrelease
        rw [hevents, List.any_append, Bool.or_eq_true] at hrelease
        obtain hrelease | hrelease := hrelease
        · obtain ⟨found, hfound, hours⟩ := hentry.release hrelease
          obtain rfl := List.mem_singleton.mp hfound
          exact ⟨found, List.mem_cons_self, hours⟩
        · obtain ⟨found, hfound, hours⟩ := hreaps.release hrelease
          exact ⟨found, List.mem_cons_of_mem _ hfound, hours⟩

theorem reapOriginQuarantine_reaps : ∃ quarantine actions',
    s.reapOriginQuarantine.2 = { s with quarantine, actions := actions' } ∧
      Reaps s.quarantine quarantine s.actions actions' s.reapOriginQuarantine.1 := by
  have hpartition : s.quarantine.Perm ((s.quarantine.partition QuarantinedOrigin.canReap).1 ++
      (s.quarantine.partition QuarantinedOrigin.canReap).2) := by
    rw [List.partition_eq_filter_filter]
    exact (List.filter_append_perm _ _).symm
  obtain ⟨actions', hstate, hreaps⟩ := dropEntries_reaps
    { s with quarantine := (s.quarantine.partition QuarantinedOrigin.canReap).2 }
    (s.quarantine.partition QuarantinedOrigin.canReap).1
  exact ⟨_, actions', hstate, hreaps.keep hpartition⟩

theorem clearLastToken_eq (token : Nat) : ∃ lastToken, s.clearLastToken token = { s with lastToken } := by
  unfold Pump.clearLastToken
  split
  · exact ⟨none, rfl⟩
  · exact ⟨s.lastToken, rfl⟩

theorem reapOriginQuarantineToken_reaps (token : Nat) : ∃ quarantine actions' lastToken,
    (s.reapOriginQuarantineToken token).2 = { s with quarantine, actions := actions', lastToken } ∧
      Reaps s.quarantine quarantine s.actions actions' (s.reapOriginQuarantineToken token).1 := by
  unfold Pump.reapOriginQuarantineToken
  cases hremove : removeReapable token s.quarantine with
  | none => exact ⟨s.quarantine, s.actions, s.lastToken, rfl, .refl s.quarantine s.actions⟩
  | some found =>
      obtain ⟨entry, quarantine⟩ := found
      obtain ⟨-, hperm⟩ := removeReapable_perm hremove
      obtain ⟨actions', hstate, hreaps⟩ := dropEntry_reaps { s with quarantine } entry
      obtain ⟨lastToken, hcleared⟩ := clearLastToken_eq (Pump.dropEntry { s with quarantine } entry).2 token
      refine ⟨quarantine, actions', lastToken, ?_, hreaps.keep hperm⟩
      rw [hstate] at hcleared
      exact (congrArg (Pump.clearLastToken · token) hstate).trans hcleared

theorem takeOriginQuarantineOwner_reaps (token : Nat) (typed : Bool) : ∃ quarantine actions' lastToken,
    (s.takeOriginQuarantineOwner token typed).2 = { s with quarantine, actions := actions', lastToken } ∧
      Reaps s.quarantine quarantine s.actions actions' (s.takeOriginQuarantineOwner token typed).1 := by
  unfold Pump.takeOriginQuarantineOwner
  cases hremove : removeReapable token s.quarantine with
  | none => exact ⟨s.quarantine, s.actions, s.lastToken, rfl, .refl s.quarantine s.actions⟩
  | some found =>
      obtain ⟨⟨other, terminal, phase, owner⟩, quarantine⟩ := found
      obtain ⟨hreap, hperm⟩ := removeReapable_perm hremove
      obtain rfl : terminal = true := canReap_terminal hreap
      cases owner with
      | another =>
          obtain ⟨lastToken, hcleared⟩ := clearLastToken_eq { s with quarantine } token
          refine ⟨quarantine, s.actions, lastToken, hcleared, ?_⟩
          have hreaps : Reaps [⟨other, true, phase, .another⟩] [] s.actions s.actions ([] : List (PumpEvent T A R O)) :=
            ⟨nofun, Nat.le_refl _, .inl rfl, nofun, nofun⟩
          exact hreaps.keep hperm
      | ours owner =>
          obtain ⟨lastToken, hcleared⟩ :=
            clearLastToken_eq { s with quarantine, actions := s.actions.dropReceiver } token
          refine ⟨quarantine, s.actions.dropReceiver, lastToken, hcleared, ?_⟩
          have hreaps : Reaps [⟨other, true, phase, .ours owner⟩] [] s.actions s.actions.dropReceiver
              ([if typed then .ownerHandedOut owner else .ownerDropped owner] : List (PumpEvent T A R O)) := by
            cases typed <;>
              exact ⟨nofun, Nat.le_refl _, .inr ⟨rfl, Nat.one_pos⟩, by simp [PumpEvent.isCustody],
                fun _ => ⟨_, List.mem_singleton_self _, rfl, rfl⟩⟩
          exact hreaps.keep hperm

end Quarantine

end RequestsNative.Python
