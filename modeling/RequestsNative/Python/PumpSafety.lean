import RequestsNative.Python.PumpRuns

/-!
# The pump keeps its owner

Every step of the pump keeps the four facts, and lets go of the owner only when the worker has ended, or when
`ensure_affinity` fails. So the owner outlives the worker in a run exactly if no `ensure_affinity` fails before the
worker has ended.
-/

namespace RequestsNative.Python

open RequestsNative.Lib
open RequestsNative.Blocking (BlockingSubmission BlockingTaskError WorkerOp)

variable {T A R O : Type} {current : Nat} {log events : List (PumpEvent T A R O)} {s s' : Pump T A R O}
  {loop : Loop T A R O}

/-- An `ensure_affinity` that fails. -/
def PumpOp.strays : PumpOp T A R O → Bool
  | .ensureAffinity (some _) => true
  | _ => false

/-- A step keeps the facts, and lets go of the owner for a reason. -/
structure Kept (current : Nat) (log : List (PumpEvent T A R O)) (s : Pump T A R O) (op : PumpOp T A R O)
    (events : List (PumpEvent T A R O)) (s' : Pump T A R O) : Prop where
  inv : PumpInv current (log ++ events) s'
  release : events.any PumpEvent.releasesOwner = true → s.task.worker.ended = true ∨ op.strays = true

theorem Kept.silent {op : PumpOp T A R O} (h : PumpInv current log s') : Kept current log s op [] s' :=
  ⟨(List.append_nil log).symm ▸ h, nofun⟩

theorem honest_dropReceiver {task : Blocking.Task T} (h : Honest task) :
    Honest { task with channel := task.channel.dropReceiver } := fun hrunning => ⟨rfl, (h hrunning).2⟩

/-! ### Steps of the other parties -/

theorem kept_worker (h : PumpInv current log s) {op : WorkerOp T}
    (hstep : s.step current (.worker op) = some (events, s')) : Kept current log s (.worker op) events s' := by
  obtain ⟨⟨sent, task⟩, htask, heq⟩ := Option.map_eq_some_iff.mp hstep
  obtain ⟨rfl, rfl⟩ := Prod.mk.inj heq
  have hended := task_step_ended htask
  refine .silent ⟨⟨honest_of_ended hended, ?_, ?_, fun _ => hended, fun _ _ _ _ => hended⟩, h.ordered, h.leaving, h.single⟩
  · intro submission hsubmission
    exact hended ▸ (h.custody.loop submission hsubmission).ended
  · intro submission hsubmission
    exact hended ▸ (h.custody.waiting submission hsubmission).ended

theorem kept_enqueue (h : PumpInv current log s) {action : A}
    (hstep : s.step current (.enqueue action) = some (events, s')) : Kept current log s (.enqueue action) events s' := by
  unfold Pump.step at hstep
  simp only at hstep
  split at hstep
  · cases hstep
  · split at hstep
    · next hheard =>
        obtain ⟨rfl, rfl⟩ := Prod.mk.inj (Option.some.inj hstep)
        refine ⟨⟨h.custody, h.ordered.enqueue hheard action, ?_, h.single.append (by simp [PumpEvent.releasesOwner])⟩, nofun⟩
        exact h.leaving.append (by simp [PumpEvent.goesOn]) nofun id
    · obtain ⟨rfl, rfl⟩ := Prod.mk.inj (Option.some.inj hstep)
      have hordered := h.ordered
      refine .silent ⟨h.custody, ⟨fun request hrequest => ?_, hordered.distinct, hordered.order, hordered.queue,
        hordered.heard, hordered.current⟩, h.leaving, h.single⟩
      exact Nat.lt_succ_of_lt (hordered.below request hrequest)

theorem kept_dropSenders (h : PumpInv current log s) (hstep : s.step current .dropSenders = some (events, s')) :
    Kept current log s .dropSenders events s' := by
  obtain ⟨rfl, rfl⟩ := Prod.mk.inj (Option.some.inj hstep)
  have hordered := h.ordered
  exact .silent ⟨h.custody, ⟨hordered.below, hordered.distinct, hordered.order, hordered.queue, hordered.heard,
    hordered.current⟩, h.leaving, h.single⟩

theorem kept_waiterWait (h : PumpInv current log s) (hstep : s.step current .waiterWait = some (events, s')) :
    Kept current log s .waiterWait events s' := by
  unfold Pump.step at hstep
  cases hwaiter : s.waiter with
  | waiting submission =>
      simp only [hwaiter] at hstep
      obtain ⟨result, hwait, heq⟩ := Option.map_eq_some_iff.mp hstep
      obtain ⟨rfl, rfl⟩ := Prod.mk.inj heq
      have hended : s.task.worker.ended = true := by
        refine eq_true_of_ne_false fun hrunning => ?_
        rw [wait_running (h.custody.waiting submission hwaiter) h.custody.honest hrunning] at hwait
        cases hwait
      exact .silent ⟨⟨honest_of_ended hended, h.custody.loop, nofun, fun _ => hended, h.custody.terminal⟩, h.ordered,
        h.leaving, h.single⟩
  | absent | waited | done =>
      simp only [hwaiter] at hstep
      cases hstep

theorem countP_isOurs_map (entries : List (QuarantinedOrigin O)) (f : QuarantinedOrigin O → QuarantinedOrigin O)
    (hf : ∀ entry, (f entry).isOurs = entry.isOurs) :
    (entries.map f).countP QuarantinedOrigin.isOurs = entries.countP QuarantinedOrigin.isOurs := by
  rw [List.countP_map]
  congr 1
  funext entry
  exact hf entry

theorem kept_waiterStore (h : PumpInv current log s) (hstep : s.step current .waiterStore = some (events, s')) :
    Kept current log s .waiterStore events s' := by
  unfold Pump.step at hstep
  cases hwaiter : s.waiter with
  | waited =>
      simp only [hwaiter] at hstep
      obtain ⟨rfl, rfl⟩ := Prod.mk.inj (Option.some.inj hstep)
      have hended := h.custody.waited hwaiter
      refine .silent ⟨⟨h.custody.honest, h.custody.loop, nofun, nofun, fun _ _ _ _ => hended⟩, h.ordered, h.leaving, ?_⟩
      unfold Single
      simp only
      rw [countP_isOurs_map]
      · exact h.single
      · intro entry
        split <;> rfl
  | absent | waiting submission | done =>
      simp only [hwaiter] at hstep
      cases hstep

theorem kept_skipToken (h : PumpInv current log s) (hstep : s.step current .skipToken = some (events, s')) :
    Kept current log s .skipToken events s' := by
  obtain ⟨rfl, rfl⟩ := Prod.mk.inj (Option.some.inj hstep)
  exact .silent ⟨h.custody, h.ordered, h.leaving, h.single⟩

theorem kept_retainOther (h : PumpInv current log s) {phase : SessionCancellationPhase} {terminal : Bool}
    (hstep : s.step current (.retainOther phase terminal) = some (events, s')) :
    Kept current log s (.retainOther phase terminal) events s' := by
  obtain ⟨rfl, rfl⟩ := Prod.mk.inj (Option.some.inj hstep)
  refine .silent ⟨⟨h.custody.honest, h.custody.loop, h.custody.waiting, h.custody.waited, ?_⟩, h.ordered, h.leaving, ?_⟩
  · intro entry hentry hours
    obtain hentry | hentry := List.mem_append.mp hentry
    · exact h.custody.terminal entry hentry hours
    · obtain rfl := List.mem_singleton.mp hentry
      cases hours
  · have hsingle := h.single
    unfold Single at hsingle ⊢
    simpa [Pump.takeToken, List.countP_append, QuarantinedOrigin.isOurs] using hsingle

theorem kept_terminateOther (h : PumpInv current log s) {token : Nat}
    (hstep : s.step current (.terminateOther token) = some (events, s')) :
    Kept current log s (.terminateOther token) events s' := by
  obtain ⟨rfl, rfl⟩ := Prod.mk.inj (Option.some.inj hstep)
  refine .silent ⟨⟨h.custody.honest, h.custody.loop, h.custody.waiting, h.custody.waited, ?_⟩, h.ordered, h.leaving, ?_⟩
  · intro entry hentry hours
    obtain ⟨original, horiginal, rfl⟩ := List.mem_map.mp hentry
    cases hother : original.isOurs with
    | true => exact h.custody.terminal original horiginal hother
    | false =>
        have hsame : (if !false && original.token == token then { original with terminal := true }
            else original).isOurs = original.isOurs := by split <;> rfl
        rw [hother] at hours
        rw [hsame, hother] at hours
        cases hours
  · unfold Single
    simp only
    rw [countP_isOurs_map]
    · exact h.single
    · intro entry
      split <;> rfl

/-! ### Steps of the quarantine -/

/-- The facts survive when entries leave the quarantine. -/
theorem PumpInv.reap (h : PumpInv current log s) {quarantine : List (QuarantinedOrigin O)}
    {actions : Channel (ActionRequest A)} {lastToken : Option Nat} (hreaps : Reaps s.quarantine quarantine s.actions actions events) :
    PumpInv current (log ++ events) { s with quarantine, actions, lastToken } := by
  refine ⟨⟨h.custody.honest, h.custody.loop, h.custody.waiting, h.custody.waited, ?_⟩, ?_, ?_, ?_⟩
  · exact fun entry hentry => h.custody.terminal entry (hreaps.subset entry hentry)
  · refine h.ordered.silent (isCustody_silent hreaps.custody) rfl rfl ?_ ?_
    · intro hheard
      obtain rfl | ⟨rfl, -⟩ := hreaps.channel
      · exact ⟨hheard, rfl⟩
      · cases hheard
    · intro hloop
      obtain rfl | ⟨-, hours⟩ := hreaps.channel
      · exact h.ordered.heard hloop
      · have hnone := h.single.left hours
        rw [Option.map_eq_none_iff] at hnone
        simp [hnone] at hloop
  · refine h.leaving.append (fun event hevent => ?_) (fun hsignalled => ?_) id
    · exact (isCustody_idle (hreaps.custody event hevent)).1
    · obtain ⟨event, hevent, hsignal⟩ := List.any_eq_true.mp hsignalled
      rw [(isCustody_idle (hreaps.custody event hevent)).2] at hsignal
      cases hsignal
  · have hcount := hreaps.count
    exact h.single.append (by simp only; omega)

theorem Kept.reap (h : PumpInv current log s) {quarantine : List (QuarantinedOrigin O)} {op : PumpOp T A R O}
    {actions : Channel (ActionRequest A)} {lastToken : Option Nat} (hreaps : Reaps s.quarantine quarantine s.actions actions events) :
    Kept current log s op events { s with quarantine, actions, lastToken } := by
  refine ⟨h.reap hreaps, fun hrelease => ?_⟩
  obtain ⟨entry, hentry, hours, hterminal⟩ := hreaps.release hrelease
  exact .inl (h.custody.terminal entry hentry hours hterminal)

theorem kept_reapOriginQuarantine (h : PumpInv current log s)
    (hstep : s.step current .reapOriginQuarantine = some (events, s')) :
    Kept current log s .reapOriginQuarantine events s' := by
  obtain ⟨quarantine, actions, hstate, hreaps⟩ := reapOriginQuarantine_reaps s
  have hpair := Option.some.inj hstep
  rw [show s' = s.reapOriginQuarantine.2 from congrArg Prod.snd hpair.symm,
    show events = s.reapOriginQuarantine.1 from congrArg Prod.fst hpair.symm, hstate]
  exact .reap h hreaps

theorem kept_reapOriginQuarantineToken (h : PumpInv current log s) {token : Nat}
    (hstep : s.step current (.reapOriginQuarantineToken token) = some (events, s')) :
    Kept current log s (.reapOriginQuarantineToken token) events s' := by
  obtain ⟨quarantine, actions, lastToken, hstate, hreaps⟩ := reapOriginQuarantineToken_reaps s token
  have hpair := Option.some.inj hstep
  rw [show s' = (s.reapOriginQuarantineToken token).2 from congrArg Prod.snd hpair.symm,
    show events = (s.reapOriginQuarantineToken token).1 from congrArg Prod.fst hpair.symm, hstate]
  exact .reap h hreaps

theorem kept_takeOriginQuarantineOwner (h : PumpInv current log s) {token : Nat} {typed : Bool}
    (hstep : s.step current (.takeOriginQuarantineOwner token typed) = some (events, s')) :
    Kept current log s (.takeOriginQuarantineOwner token typed) events s' := by
  obtain ⟨quarantine, actions, lastToken, hstate, hreaps⟩ := takeOriginQuarantineOwner_reaps s token typed
  have hpair := Option.some.inj hstep
  rw [show s' = (s.takeOriginQuarantineOwner token typed).2 from congrArg Prod.snd hpair.symm,
    show events = (s.takeOriginQuarantineOwner token typed).1 from congrArg Prod.fst hpair.symm, hstate]
  exact .reap h hreaps

theorem kept_exitThread (h : PumpInv current log s) (hstep : s.step current .exitThread = some (events, s')) :
    Kept current log s .exitThread events s' := by
  unfold Pump.step at hstep
  simp only at hstep
  split at hstep
  · cases hstep
  · obtain ⟨actions, hstate, hreaps⟩ := dropEntries_reaps { s with quarantine := [], lastToken := none } s.quarantine
    have hpair := Option.some.inj hstep
    rw [show s' = (Pump.dropEntries { s with quarantine := [], lastToken := none } s.quarantine).2 from
        congrArg Prod.snd hpair.symm,
      show events = (Pump.dropEntries { s with quarantine := [], lastToken := none } s.quarantine).1 from
        congrArg Prod.fst hpair.symm, hstate]
    exact .reap h hreaps

/-! ### Steps of the loop -/

variable {loop' : Loop T A R O} {task' : Blocking.Task T} {abort : Bool} {point : LoopPoint A R}

theorem PumpInv.move (h : PumpInv current log s) (hloop : s.loop = some loop) (hpoint : loop.point = point)
    (hhonest : Honest task') (hworker : task'.worker = s.task.worker)
    (hheld : Held current s.task.worker.ended loop'.submission)
    (hreceived : receivedAt (some loop'.point) = receivedAt (some point))
    (hcurrent : currentAt (some loop'.point) = currentAt (some point))
    (hleaving : isLeaving (some point) = true → isLeaving (some loop'.point) = true) :
    PumpInv current log { s with task := task', abortRequested := abort, loop := some loop' } := by
  subst hpoint
  obtain ⟨hcustody, hordered, hleft, hsingle⟩ := h
  rw [hloop] at hordered hleft hsingle
  refine ⟨⟨hhonest, ?_, ?_, ?_, ?_⟩, ?_, ⟨hleft.stops, fun hsignalled => hleaving (hleft.leaving hsignalled)⟩, hsingle⟩
  · intro submission hsubmission
    obtain rfl := Option.some.inj hsubmission
    exact hworker ▸ hheld
  · intro submission hsubmission
    exact hworker ▸ hcustody.waiting submission hsubmission
  · intro hwaited
    exact hworker ▸ hcustody.waited hwaited
  · intro entry hentry hours hterminal
    exact hworker ▸ hcustody.terminal entry hentry hours hterminal
  · have hsilent : Silent ([] : List (PumpEvent T A R O)) := ⟨rfl, rfl, rfl⟩
    have hmoved := hordered.silent hsilent hreceived hcurrent (fun hheard => ⟨hheard, rfl⟩) (fun _ => hordered.heard rfl)
    rwa [List.append_nil] at hmoved

/-- The loop returns between two actions. -/
theorem PumpInv.exit (h : PumpInv current log s) (hloop : s.loop = some loop) (hpoint : loop.point = point)
    (hhonest : Honest task') (hworker : task'.worker = s.task.worker) (hsilent : Silent events)
    (hcurrent : currentAt (some point) = []) (hleaving : Leaving (log ++ events) (none : Option (LoopPoint A R)))
    (hcount : events.countP PumpEvent.releasesOwner ≤ 1) :
    PumpInv current (log ++ events) (Pump.leave { s with task := task', abortRequested := abort } current loop') := by
  subst hpoint
  obtain ⟨hcustody, hordered, -, hsingle⟩ := h
  rw [hloop] at hordered hsingle
  refine ⟨⟨honest_dropReceiver hhonest, nofun, ?_, ?_, ?_⟩, hordered.exit hsilent hcurrent, hleaving, ?_⟩
  · intro submission hsubmission
    exact hworker ▸ hcustody.waiting submission hsubmission
  · intro hwaited
    exact hworker ▸ hcustody.waited hwaited
  · intro entry hentry hours hterminal
    exact hworker ▸ hcustody.terminal entry hentry hours hterminal
  · refine hsingle.append ?_
    change _ + 0 + s.quarantine.countP _ ≤ 1 + s.quarantine.countP _
    omega

theorem PumpInv.held (h : PumpInv current log s) (hloop : s.loop = some loop) :
    Held current s.task.worker.ended loop.submission := h.custody.loop loop.submission (by rw [hloop]; rfl)

theorem PumpInv.at (h : PumpInv current log s) (hloop : s.loop = some loop) :
    Ordered log s.requests s.actions (some loop.point) ∧ Leaving log (some loop.point) ∧
      Single log (some loop.owner) s.quarantine := by
  obtain ⟨-, hordered, hleaving, hsingle⟩ := h
  rw [hloop] at hordered hleaving hsingle
  exact ⟨hordered, hleaving, hsingle⟩

theorem PumpInv.goOn (h : PumpInv current log s) (hloop : s.loop = some loop) {actions : Channel (ActionRequest A)}
    (hsubmission : loop'.submission = loop.submission)
    (hordered : Ordered (log ++ events) s.requests actions (some loop'.point))
    (hleaving : Leaving (log ++ events) (some loop'.point)) (hcount : events.countP PumpEvent.releasesOwner = 0) :
    PumpInv current (log ++ events) { s with actions, loop := some loop' } := by
  refine ⟨⟨h.custody.honest, ?_, h.custody.waiting, h.custody.waited, h.custody.terminal⟩, hordered, hleaving, ?_⟩
  · intro submission heq
    obtain rfl := Option.some.inj heq
    rw [hsubmission]
    exact h.held hloop
  · refine (h.at hloop).2.2.append ?_
    change events.countP _ + 1 + s.quarantine.countP _ ≤ 1 + s.quarantine.countP _
    omega

/-- The loop returns an error and drops the owner. -/
theorem PumpInv.fail (h : PumpInv current log s) (hloop : s.loop = some loop) (hpoint : loop.point = point)
    (hhonest : Honest task') (hworker : task'.worker = s.task.worker) (hcurrent : currentAt (some point) = [])
    (error : PumpError) :
    PumpInv current (log ++ [.ownerDropped loop'.owner, .raised error])
      (Pump.leave { s with task := task', abortRequested := abort } current loop') := by
  refine h.exit hloop hpoint hhonest hworker ⟨rfl, rfl, rfl⟩ hcurrent ?_ (Nat.le_refl _)
  exact h.leaving.append (by simp [PumpEvent.goesOn]) nofun fun _ => rfl

theorem kept_ensureAffinity (h : PumpInv current log s) (hloop : s.loop = some loop) {error : Option AffinityError}
    (hstep : s.loopStep current loop (.ensureAffinity error) = some (events, s')) :
    Kept current log s (.ensureAffinity error) events s' := by
  obtain ⟨hordered, hleaving, -⟩ := h.at hloop
  cases hpoint : loop.point with
  | entering =>
      cases error with
      | some error =>
          simp only [Pump.loopStep, hpoint, Pump.fail] at hstep
          obtain ⟨rfl, rfl⟩ := Prod.mk.inj (Option.some.inj hstep)
          exact ⟨h.fail hloop hpoint h.custody.honest rfl rfl _, fun _ => .inr rfl⟩
      | none =>
          simp only [Pump.loopStep, hpoint] at hstep
          obtain ⟨rfl, rfl⟩ := Prod.mk.inj (Option.some.inj hstep)
          obtain ⟨quarantine, actions, hstate, hreaps⟩ := reapOriginQuarantine_reaps s
          have hkept : Kept current log s (.ensureAffinity none) s.reapOriginQuarantine.1 { s with quarantine, actions } :=
            .reap h hreaps
          rw [hstate]
          have hheld := h.held hloop
          exact ⟨hkept.inv.move hloop hpoint h.custody.honest rfl hheld rfl rfl (fun h => by cases h), hkept.release⟩
  | received request =>
      cases error with
      | some error =>
          simp only [Pump.loopStep, hpoint, Pump.fail] at hstep
          obtain ⟨rfl, rfl⟩ := Prod.mk.inj (Option.some.inj hstep)
          exact ⟨h.fail hloop hpoint h.custody.honest rfl rfl _, fun _ => .inr rfl⟩
      | none =>
          simp only [Pump.loopStep, hpoint] at hstep
          obtain ⟨rfl, rfl⟩ := Prod.mk.inj (Option.some.inj hstep)
          rw [hpoint] at hordered hleaving
          exact ⟨h.goOn hloop rfl hordered.start (hleaving.go rfl rfl) rfl, fun h => by cases h⟩
  | checking | polling | receiving | executing | replying | disconnected | cancelling | cancelled =>
      cases hpoint ▸ Pump.runsAt_of_loopStep hstep

theorem kept_checkSignals (h : PumpInv current log s) (hloop : s.loop = some loop) {signal : Bool}
    (hstep : s.loopStep current loop (.checkSignals signal) = some (events, s')) :
    Kept current log s (.checkSignals signal) events s' := by
  obtain ⟨hordered, hleaving, -⟩ := h.at hloop
  cases hpoint : loop.point with
  | checking =>
      rw [hpoint] at hordered hleaving
      cases signal with
      | true =>
          simp only [Pump.loopStep, hpoint, if_true] at hstep
          obtain ⟨rfl, rfl⟩ := Prod.mk.inj (Option.some.inj hstep)
          refine ⟨h.goOn hloop rfl ?_ ?_ rfl, fun h => by cases h⟩
          · exact hordered.silent ⟨rfl, rfl, rfl⟩ rfl rfl (fun hheard => ⟨hheard, rfl⟩) (fun _ => hordered.heard rfl)
          · exact hleaving.append (by simp [PumpEvent.goesOn]) (fun _ => rfl) (fun _ => rfl)
      | false =>
          simp only [Pump.loopStep, hpoint, Bool.false_eq_true, if_false] at hstep
          obtain ⟨rfl, rfl⟩ := Prod.mk.inj (Option.some.inj hstep)
          have hheld := h.held hloop
          exact .silent (h.move hloop hpoint h.custody.honest rfl hheld rfl rfl (fun h => by cases h))
  | entering | polling | receiving | received | executing | replying | disconnected | cancelling | cancelled =>
      cases hpoint ▸ Pump.runsAt_of_loopStep hstep

theorem ended_of_tryWait (h : PumpInv current log s) (hloop : s.loop = some loop)
    (hresult : (loop.submission.tryWait s.task.channel current).1 ≠ .ok none) : s.task.worker.ended = true := by
  refine eq_true_of_ne_false fun hrunning => hresult ?_
  rw [tryWait_running (h.held hloop) h.custody.honest hrunning]

theorem kept_tryWait (h : PumpInv current log s) (hloop : s.loop = some loop)
    (hstep : s.loopStep current loop .tryWait = some (events, s')) : Kept current log s .tryWait events s' := by
  obtain ⟨hordered, hleaving, -⟩ := h.at hloop
  have hended := ended_of_tryWait h hloop
  have hnone := tryWait_none (h.held hloop)
  have hheld := h.held hloop
  cases hpoint : loop.point with
  | polling =>
      rw [hpoint] at hordered hleaving
      simp only [Pump.loopStep, hpoint] at hstep
      cases hwait : loop.submission.tryWait s.task.channel current with
      | mk result rest =>
          obtain ⟨submission, channel⟩ := rest
          rw [hwait] at hended hnone hstep
          cases result with
          | error error =>
              have hended : s.task.worker.ended = true := hended (fun h => by cases h)
              have hhonest : Honest { s.task with channel } := honest_of_ended hended
              obtain ⟨rfl, rfl⟩ := Prod.mk.inj (Option.some.inj hstep)
              exact ⟨h.fail hloop hpoint hhonest rfl rfl (.task error), fun _ => .inl hended⟩
          | ok output =>
              cases output with
              | some output =>
                  have hended : s.task.worker.ended = true := hended (fun h => by cases h)
                  have hhonest : Honest { s.task with channel } := honest_of_ended hended
                  obtain ⟨rfl, rfl⟩ := Prod.mk.inj (Option.some.inj hstep)
                  refine ⟨h.exit hloop hpoint hhonest rfl ⟨rfl, rfl, rfl⟩ rfl ?_ (Nat.le_refl _),
                    fun _ => .inl hended⟩
                  exact hleaving.go rfl rfl
              | none =>
                  obtain ⟨rfl, rfl⟩ := Prod.mk.inj (Prod.mk.inj (hnone rfl)).2
                  obtain ⟨rfl, rfl⟩ := Prod.mk.inj (Option.some.inj hstep)
                  exact .silent (h.move hloop hpoint h.custody.honest rfl hheld rfl rfl (fun h => by cases h))
  | entering | checking | receiving | received | executing | replying | disconnected | cancelling | cancelled =>
      cases hpoint ▸ Pump.runsAt_of_loopStep hstep

theorem kept_recvTimeout (h : PumpInv current log s) (hloop : s.loop = some loop)
    (hstep : s.loopStep current loop .recvTimeout = some (events, s')) : Kept current log s .recvTimeout events s' := by
  obtain ⟨hordered, hleaving, -⟩ := h.at hloop
  have hheld := h.held hloop
  cases hpoint : loop.point with
  | receiving =>
      rw [hpoint] at hordered hleaving
      simp only [Pump.loopStep, hpoint, Channel.receive] at hstep
      cases hqueue : s.actions.queue with
      | cons request rest =>
          simp only [hqueue] at hstep
          obtain ⟨rfl, rfl⟩ := Prod.mk.inj (Option.some.inj hstep)
          have hleft : Leaving (log ++ []) (some (.received request)) :=
            hleaving.append (fun _ h => by cases h) (fun h => by cases h) (fun h => by cases h)
          exact ⟨h.goOn hloop rfl (hordered.receive hqueue) hleft rfl, fun h => by cases h⟩
      | nil =>
          simp only [hqueue] at hstep
          cases hlive : s.actions.live with
          | true =>
              simp only [hlive, if_true] at hstep
              obtain ⟨rfl, rfl⟩ := Prod.mk.inj (Option.some.inj hstep)
              exact .silent (h.move hloop hpoint h.custody.honest rfl hheld rfl rfl (fun h => by cases h))
          | false =>
              simp only [hlive, Bool.false_eq_true, if_false] at hstep
              obtain ⟨rfl, rfl⟩ := Prod.mk.inj (Option.some.inj hstep)
              exact .silent (h.move hloop hpoint h.custody.honest rfl hheld rfl rfl (fun h => by cases h))
  | entering | checking | polling | received | executing | replying | disconnected | cancelling | cancelled =>
      cases hpoint ▸ Pump.runsAt_of_loopStep hstep

theorem kept_execute (h : PumpInv current log s) (hloop : s.loop = some loop) {disposition : ActionReplyDisposition R}
    {owner : O} (hstep : s.loopStep current loop (.execute disposition owner) = some (events, s')) :
    Kept current log s (.execute disposition owner) events s' := by
  obtain ⟨hordered, hleaving, -⟩ := h.at hloop
  have hheld := h.held hloop
  cases hpoint : loop.point with
  | executing request =>
      rw [hpoint] at hordered hleaving
      cases disposition with
      | reply value =>
          simp only [Pump.loopStep, hpoint] at hstep
          obtain ⟨rfl, rfl⟩ := Prod.mk.inj (Option.some.inj hstep)
          exact .silent (h.move hloop hpoint h.custody.honest rfl hheld rfl rfl (fun h => by cases h))
      | withhold phase =>
          simp only [Pump.loopStep, hpoint] at hstep
          obtain ⟨rfl, rfl⟩ := Prod.mk.inj (Option.some.inj hstep)
          refine ⟨h.goOn hloop rfl (hordered.settle rfl rfl rfl rfl rfl rfl) ?_ rfl, fun h => by cases h⟩
          exact hleaving.append (by simp [PumpEvent.goesOn]) (fun h => by cases h) (fun h => by cases h)
  | entering | checking | polling | receiving | received | replying | disconnected | cancelling | cancelled =>
      cases hpoint ▸ Pump.runsAt_of_loopStep hstep

theorem kept_sendReply (h : PumpInv current log s) (hloop : s.loop = some loop)
    (hstep : s.loopStep current loop .sendReply = some (events, s')) : Kept current log s .sendReply events s' := by
  obtain ⟨hordered, hleaving, -⟩ := h.at hloop
  cases hpoint : loop.point with
  | replying reply value =>
      rw [hpoint] at hordered hleaving
      simp only [Pump.loopStep, hpoint] at hstep
      obtain ⟨rfl, rfl⟩ := Prod.mk.inj (Option.some.inj hstep)
      refine ⟨h.goOn hloop rfl (hordered.settle rfl rfl rfl rfl rfl rfl) ?_ rfl, fun h => by cases h⟩
      exact hleaving.append (by simp [PumpEvent.goesOn]) (fun h => by cases h) (fun h => by cases h)
  | entering | checking | polling | receiving | received | executing | disconnected | cancelling | cancelled =>
      cases hpoint ▸ Pump.runsAt_of_loopStep hstep

theorem kept_waitReadyTimeout (h : PumpInv current log s) (hloop : s.loop = some loop)
    (hstep : s.loopStep current loop .waitReadyTimeout = some (events, s')) :
    Kept current log s .waitReadyTimeout events s' := by
  obtain ⟨hheld, hhonest⟩ := (h.held hloop).waitReadyTimeout h.custody.honest
  cases hpoint : loop.point with
  | disconnected =>
      simp only [Pump.loopStep, hpoint] at hstep
      obtain ⟨rfl, rfl⟩ := Prod.mk.inj (Option.some.inj hstep)
      exact .silent (h.move hloop hpoint hhonest rfl hheld rfl rfl (fun h => by cases h))
  | entering | checking | polling | receiving | received | executing | replying | cancelling | cancelled =>
      cases hpoint ▸ Pump.runsAt_of_loopStep hstep

theorem kept_cancel (h : PumpInv current log s) (hloop : s.loop = some loop)
    (hstep : s.loopStep current loop .cancel = some (events, s')) : Kept current log s .cancel events s' := by
  obtain ⟨hcancel, hheld⟩ := (h.held hloop).cancel
  cases hpoint : loop.point with
  | cancelling =>
      simp only [Pump.loopStep, hpoint, hcancel] at hstep
      obtain ⟨rfl, rfl⟩ := Prod.mk.inj (Option.some.inj hstep)
      exact .silent (h.move hloop hpoint h.custody.honest rfl hheld rfl rfl (fun _ => rfl))
  | entering | checking | polling | receiving | received | executing | replying | disconnected | cancelled =>
      cases hpoint ▸ Pump.runsAt_of_loopStep hstep

/-- The owner goes into the quarantine, with the submission if the worker still runs. -/
theorem PumpInv.retain (h : PumpInv current log s) (hloop : s.loop = some loop) (hpoint : loop.point = .cancelled)
    (hhonest : Honest task') (hworker : task'.worker = s.task.worker) {submission : Option (BlockingSubmission T)}
    (hheld : ∀ running, submission = some running → Held current s.task.worker.ended running)
    (hended : submission = none → s.task.worker.ended = true) :
    PumpInv current (log ++ [.raised .signal])
      (Pump.retainOriginAfterCancellation { s with task := task', abortRequested := abort } submission loop') := by
  obtain ⟨hordered, hleaving, hsingle⟩ := h.at hloop
  rw [hpoint] at hordered hleaving
  refine ⟨⟨hhonest, nofun, ?_, ?_, ?_⟩, ?_, ?_, ?_⟩
  · intro running hwaiting
    rw [show (Pump.retainOriginAfterCancellation { s with task := task', abortRequested := abort } submission
      loop').task.worker = s.task.worker from hworker]
    cases submission with
    | some other =>
        obtain rfl : other = running := Waiter.waiting.inj hwaiting
        exact hheld other rfl
    | none => exact h.custody.waiting running hwaiting
  · intro hwaited
    cases submission with
    | some other => cases hwaited
    | none => exact (congrArg Blocking.Worker.ended hworker).trans (h.custody.waited hwaited)
  · intro entry hentry hours hterminal
    refine (congrArg Blocking.Worker.ended hworker).trans ?_
    obtain hentry | hentry := List.mem_append.mp hentry
    · exact h.custody.terminal entry hentry hours hterminal
    · obtain rfl := List.mem_singleton.mp hentry
      exact hended (Option.isNone_iff_eq_none.mp hterminal)
  · exact hordered.silent ⟨rfl, rfl, rfl⟩ rfl rfl (fun hheard => ⟨hheard, rfl⟩) nofun
  · exact hleaving.append (by simp [PumpEvent.goesOn]) nofun (fun _ => rfl)
  · refine hsingle.append ?_
    change 0 + 0 + (s.quarantine ++ [_]).countP _ ≤ 1 + s.quarantine.countP _
    rw [List.countP_append]
    change 0 + 0 + (_ + 1) ≤ _
    omega

theorem kept_cancelWait (h : PumpInv current log s) (hloop : s.loop = some loop) {expired : Bool}
    (hstep : s.loopStep current loop (.cancelWait expired) = some (events, s')) :
    Kept current log s (.cancelWait expired) events s' := by
  have hended := ended_of_tryWait h hloop
  have hnone := tryWait_none (h.held hloop)
  have hheld := h.held hloop
  cases hpoint : loop.point with
  | cancelled =>
      simp only [Pump.loopStep, hpoint] at hstep
      cases hwait : loop.submission.tryWait s.task.channel current with
      | mk result rest =>
          obtain ⟨submission, channel⟩ := rest
          rw [hwait] at hended hnone hstep
          cases result with
          | error error =>
              have hended : s.task.worker.ended = true := hended (fun h => by cases h)
              have hhonest : Honest { s.task with channel := channel.dropReceiver } := honest_of_ended hended
              obtain ⟨rfl, rfl⟩ := Prod.mk.inj (Option.some.inj hstep)
              exact ⟨h.retain hloop hpoint hhonest rfl (fun _ h => by cases h) (fun _ => hended), fun h => by cases h⟩
          | ok output =>
              cases output with
              | some output =>
                  have hended : s.task.worker.ended = true := hended (fun h => by cases h)
                  have hhonest : Honest { s.task with channel := channel.dropReceiver } := honest_of_ended hended
                  obtain ⟨rfl, rfl⟩ := Prod.mk.inj (Option.some.inj hstep)
                  exact ⟨h.retain hloop hpoint hhonest rfl (fun _ h => by cases h) (fun _ => hended), fun h => by cases h⟩
              | none =>
                  obtain ⟨rfl, rfl⟩ := Prod.mk.inj (Prod.mk.inj (hnone rfl)).2
                  cases expired with
                  | true =>
                      obtain ⟨rfl, rfl⟩ := Prod.mk.inj (Option.some.inj hstep)
                      refine ⟨h.retain hloop hpoint h.custody.honest rfl ?_ (fun h => by cases h), fun h => by cases h⟩
                      intro running hrunning
                      obtain rfl := Option.some.inj hrunning
                      exact hheld
                  | false =>
                      obtain ⟨rfl, rfl⟩ := Prod.mk.inj (Option.some.inj hstep)
                      exact .silent (h.move hloop hpoint h.custody.honest rfl hheld rfl rfl (fun _ => rfl))
  | entering | checking | polling | receiving | received | executing | replying | disconnected | cancelling =>
      cases hpoint ▸ Pump.runsAt_of_loopStep hstep

/-! ### Runs -/

theorem kept_step (h : PumpInv current log s) {op : PumpOp T A R O} (hstep : s.step current op = some (events, s')) :
    Kept current log s op events s' := by
  cases op with
  | worker op => exact kept_worker h hstep
  | enqueue action => exact kept_enqueue h hstep
  | dropSenders => exact kept_dropSenders h hstep
  | waiterWait => exact kept_waiterWait h hstep
  | waiterStore => exact kept_waiterStore h hstep
  | reapOriginQuarantine => exact kept_reapOriginQuarantine h hstep
  | reapOriginQuarantineToken token => exact kept_reapOriginQuarantineToken h hstep
  | takeOriginQuarantineOwner token typed => exact kept_takeOriginQuarantineOwner h hstep
  | exitThread => exact kept_exitThread h hstep
  | retainOther phase terminal => exact kept_retainOther h hstep
  | terminateOther token => exact kept_terminateOther h hstep
  | skipToken => exact kept_skipToken h hstep
  | ensureAffinity error =>
      obtain ⟨loop, hloop, hstep⟩ := Option.bind_eq_some_iff.mp hstep
      exact kept_ensureAffinity h hloop hstep
  | checkSignals signal =>
      obtain ⟨loop, hloop, hstep⟩ := Option.bind_eq_some_iff.mp hstep
      exact kept_checkSignals h hloop hstep
  | tryWait =>
      obtain ⟨loop, hloop, hstep⟩ := Option.bind_eq_some_iff.mp hstep
      exact kept_tryWait h hloop hstep
  | recvTimeout =>
      obtain ⟨loop, hloop, hstep⟩ := Option.bind_eq_some_iff.mp hstep
      exact kept_recvTimeout h hloop hstep
  | execute disposition owner =>
      obtain ⟨loop, hloop, hstep⟩ := Option.bind_eq_some_iff.mp hstep
      exact kept_execute h hloop hstep
  | sendReply =>
      obtain ⟨loop, hloop, hstep⟩ := Option.bind_eq_some_iff.mp hstep
      exact kept_sendReply h hloop hstep
  | waitReadyTimeout =>
      obtain ⟨loop, hloop, hstep⟩ := Option.bind_eq_some_iff.mp hstep
      exact kept_waitReadyTimeout h hloop hstep
  | cancel =>
      obtain ⟨loop, hloop, hstep⟩ := Option.bind_eq_some_iff.mp hstep
      exact kept_cancel h hloop hstep
  | cancelWait expired =>
      obtain ⟨loop, hloop, hstep⟩ := Option.bind_eq_some_iff.mp hstep
      exact kept_cancelWait h hloop hstep

theorem loopStep_worker {op : PumpOp T A R O} (hstep : s.loopStep current loop op = some (events, s')) :
    s'.task.worker = s.task.worker := by
  have hreap : s.reapOriginQuarantine.2.task = s.task := by
    obtain ⟨quarantine, actions, hstate, -⟩ := reapOriginQuarantine_reaps s
    rw [hstate]
  unfold Pump.loopStep at hstep
  split at hstep
  all_goals (try simp only at hstep); (repeat' split at hstep)
  all_goals cases hstep
  all_goals first
    | rfl
    | exact congrArg Blocking.Task.worker hreap

/-- The future completes, panics or is aborted. -/
def PumpOp.endsWorker : PumpOp T A R O → Bool
  | .worker (.complete _) | .worker .stop => true
  | _ => false

theorem step_ended {op : PumpOp T A R O} (hstep : s.step current op = some (events, s')) :
    s'.task.worker.ended = (s.task.worker.ended || op.endsWorker) := by
  have hloop {op : PumpOp T A R O} (hstep : (s.loop.bind fun loop => s.loopStep current loop op) = some (events, s'))
      (hop : op.endsWorker = false) : s'.task.worker.ended = (s.task.worker.ended || op.endsWorker) := by
    obtain ⟨loop, -, hstep⟩ := Option.bind_eq_some_iff.mp hstep
    rw [loopStep_worker hstep, hop, Bool.or_false]
  cases op with
  | worker op =>
      obtain ⟨⟨sent, task⟩, htask, heq⟩ := Option.map_eq_some_iff.mp hstep
      obtain ⟨rfl, rfl⟩ := Prod.mk.inj heq
      generalize s.task = before at htask
      obtain ⟨worker, channel⟩ := before
      cases worker <;> cases op <;> cases htask <;> rfl
  | enqueue action =>
      unfold Pump.step at hstep
      simp only at hstep
      split at hstep
      · cases hstep
      · split at hstep <;> cases hstep <;> exact (Bool.or_false _).symm
  | dropSenders | skipToken | retainOther | terminateOther =>
      cases hstep
      exact (Bool.or_false _).symm
  | waiterWait =>
      unfold Pump.step at hstep
      simp only at hstep
      split at hstep
      · obtain ⟨result, -, heq⟩ := Option.map_eq_some_iff.mp hstep
        cases heq
        exact (Bool.or_false _).symm
      · cases hstep
  | waiterStore =>
      unfold Pump.step at hstep
      simp only at hstep
      split at hstep <;> cases hstep
      exact (Bool.or_false _).symm
  | reapOriginQuarantine =>
      obtain ⟨quarantine, actions, hstate, -⟩ := reapOriginQuarantine_reaps s
      rw [show s' = _ from congrArg Prod.snd (Option.some.inj hstep).symm, hstate]
      exact (Bool.or_false _).symm
  | reapOriginQuarantineToken token =>
      obtain ⟨quarantine, actions, lastToken, hstate, -⟩ := reapOriginQuarantineToken_reaps s token
      rw [show s' = _ from congrArg Prod.snd (Option.some.inj hstep).symm, hstate]
      exact (Bool.or_false _).symm
  | takeOriginQuarantineOwner token typed =>
      obtain ⟨quarantine, actions, lastToken, hstate, -⟩ := takeOriginQuarantineOwner_reaps s token typed
      rw [show s' = _ from congrArg Prod.snd (Option.some.inj hstep).symm, hstate]
      exact (Bool.or_false _).symm
  | exitThread =>
      unfold Pump.step at hstep
      simp only at hstep
      split at hstep
      · cases hstep
      · obtain ⟨actions, hstate, -⟩ := dropEntries_reaps { s with quarantine := [], lastToken := none } s.quarantine
        rw [show s' = _ from congrArg Prod.snd (Option.some.inj hstep).symm, hstate]
        exact (Bool.or_false _).symm
  | ensureAffinity | checkSignals | tryWait | recvTimeout | execute | sendReply | waitReadyTimeout | cancel | cancelWait =>
      exact hloop hstep rfl

abbrev PumpTrace (T A R O : Type) := List (PumpOp T A R O × List (PumpEvent T A R O))

def eventsOf (trace : PumpTrace T A R O) : List (PumpEvent T A R O) := trace.flatMap (·.2)

/-- The worker has ended in the course of the trace. -/
def workerEnded (trace : PumpTrace T A R O) : Bool := trace.any fun step => step.1.endsWorker

/-- Requests are started one at a time in the order they were enqueued, and each is answered at most once. -/
structure ActionsInOrder (log : List (PumpEvent T A R O)) : Prop where
  distinct : ((enqueuedIn log).map ActionRequest.reply).Nodup
  order : startedIn log <+: enqueuedIn log
  oneAtATime : ∃ current, (startedIn log).map ActionRequest.reply = settledIn log ++ current ∧ current.length ≤ 1
  answered : (repliedIn log).Sublist ((startedIn log).map ActionRequest.reply)

/-- The owner is let go only after the worker has ended. -/
def OwnerOutlives (trace : PumpTrace T A R O) : Prop :=
  Throughout (fun before step => step.2.any PumpEvent.releasesOwner = true → workerEnded before = true) trace

/-- No `ensure_affinity` fails before the worker has ended. -/
def AffineWhileRunning (trace : PumpTrace T A R O) : Prop :=
  Throughout (fun before step => step.1.strays = true → workerEnded before = true) trace

theorem strays_releases {op : PumpOp T A R O} (hstep : s.step current op = some (events, s')) (hstrays : op.strays = true) :
    events.any PumpEvent.releasesOwner = true := by
  cases op with
  | ensureAffinity error =>
      cases error with
      | none => cases hstrays
      | some error =>
          obtain ⟨loop, -, hstep⟩ := Option.bind_eq_some_iff.mp hstep
          cases hpoint : loop.point <;> simp only [Pump.loopStep, hpoint] at hstep <;> cases hstep <;> rfl
  | _ => cases hstrays

theorem pumpInv_drive (processId : Nat) (owner : O) : PumpInv processId [] (Pump.drive processId owner : Pump T A R O) := by
  refine ⟨⟨fun _ => ⟨rfl, rfl⟩, ?_, nofun, nofun, nofun⟩, ?_, ⟨Throughout.nil, nofun⟩, Nat.le_refl _⟩
  · intro submission hsubmission
    obtain rfl := Option.some.inj hsubmission
    exact ⟨rfl, rfl, fun _ => rfl⟩
  · exact ⟨nofun, List.Pairwise.nil, List.nil_prefix, fun _ => rfl, fun _ => rfl, rfl⟩

theorem pump_run {processId : Nat} {owner : O} {trace : PumpTrace T A R O}
    (hrun : (Pump.machine processId).Run (Pump.drive processId owner) trace s) :
    PumpInv processId (eventsOf trace) s ∧ s.task.worker.ended = workerEnded trace ∧
      (OwnerOutlives trace ↔ AffineWhileRunning trace) := by
  refine hrun.induction (fun trace s => PumpInv processId (eventsOf trace) s ∧
    s.task.worker.ended = workerEnded trace ∧ (OwnerOutlives trace ↔ AffineWhileRunning trace)) ?_ ?_
  · exact ⟨pumpInv_drive processId owner, rfl, iff_of_true Throughout.nil Throughout.nil⟩
  · intro trace s op events s' _ ⟨hinv, hended, houtlives⟩ hstep
    obtain ⟨hkept, hrelease⟩ := kept_step hinv hstep
    have hstrays := strays_releases hstep
    refine ⟨?_, ?_, ?_⟩
    · rw [eventsOf, List.flatMap_append, List.flatMap_singleton]
      exact hkept
    · rw [step_ended hstep, hended, workerEnded, workerEnded, List.any_append, List.any_cons, List.any_nil, Bool.or_false]
    · rw [OwnerOutlives, AffineWhileRunning, Throughout.snoc_iff, Throughout.snoc_iff]
      refine and_congr houtlives ⟨fun howner hfailed => howner (hstrays hfailed), fun haffine hreleased => ?_⟩
      obtain hworker | hfailed := hrelease hreleased
      · rw [← hended]
        exact hworker
      · exact haffine hfailed

theorem pump_safe_iff (processId : Nat) (owner : O) {trace : PumpTrace T A R O}
    (hrun : (Pump.machine processId).Run (Pump.drive processId owner) trace s) :
    ActionsInOrder (eventsOf trace) ∧ StopsAtSignal (eventsOf trace) ∧
      (eventsOf trace).countP PumpEvent.releasesOwner ≤ 1 ∧ (OwnerOutlives trace ↔ AffineWhileRunning trace) := by
  obtain ⟨⟨-, hordered, hleaving, hsingle⟩, -, houtlives⟩ := pump_run hrun
  have hprefix : startedIn (eventsOf trace) <+: enqueuedIn (eventsOf trace) :=
    (List.prefix_append _ _).trans hordered.order
  refine ⟨⟨hordered.distinct, hprefix, ⟨_, hordered.current, ?_⟩, ?_⟩, hleaving.stops, ?_, houtlives⟩
  · cases s.loop.map Loop.point with
    | none => exact Nat.zero_le _
    | some point => cases point <;> simp [currentAt]
  · rw [hordered.current]
    exact (repliedIn_sublist _).trans (List.sublist_append_left _ _)
  · unfold Single at hsingle
    omega

/-! ### Runs of one action -/

/-- The worker asks for an action, and it is executed. -/
def firstAction : List (PumpOp Nat Nat Nat Nat) :=
  [.enqueue 7, .ensureAffinity none, .checkSignals false, .tryWait, .recvTimeout, .ensureAffinity none,
    .execute (.reply 8) 1, .sendReply]

/-- A signal comes, the worker stops too late, and the owner is reaped behind it. -/
def signalLater : List (PumpOp Nat Nat Nat Nat) :=
  firstAction ++ [.checkSignals true, .cancel, .cancelWait true, .worker .stop, .worker .dropSender, .waiterWait,
    .waiterStore, .reapOriginQuarantine]

theorem pump_safe_signal :
    ∃ trace s, (Pump.machine 1).exec (Pump.drive 1 0) signalLater = some (trace, s) ∧ OwnerOutlives trace := by
  have hexec : ((Pump.machine 1).exec (Pump.drive 1 0) signalLater).isSome = true := rfl
  obtain ⟨⟨trace, s⟩, hexec⟩ := Option.isSome_iff_exists.mp hexec
  refine ⟨trace, s, hexec, (pump_safe_iff 1 0 (Machine.run_of_exec hexec)).2.2.2.mpr ?_⟩
  intro before step after heq hstrays
  have hops : ∀ op ∈ signalLater, op.strays = false := by decide
  have hstep : step.1 ∈ signalLater := by
    rw [← Machine.exec_inputs hexec, heq]
    simp
  rw [hops step.1 hstep] at hstrays
  cases hstrays

/-- The action has replaced `sys.modules`: at the next one `ensure_affinity` fails, and the owner is dropped while the
worker runs. -/
theorem pump_affinity_drops_owner :
    ∃ trace s, (Pump.machine 1).exec (Pump.drive 1 0) (firstAction ++ [.enqueue 9, .checkSignals false, .tryWait,
        .recvTimeout, .ensureAffinity (some .movedInterpreter)]) = some (trace, s) ∧
      s.task.worker = .running ∧ (trace.getLast?.map fun step => step.2.any PumpEvent.releasesOwner) = some true ∧
      ¬OwnerOutlives trace := by
  refine ⟨_, _, rfl, rfl, rfl, fun houtlives => ?_⟩
  have hended := houtlives _ _ [] (List.dropLast_concat_getLast (List.cons_ne_nil _ _)).symm rfl
  cases hended

end RequestsNative.Python
