import Mathlib.Data.List.Induction

/-!
# Machines and their runs

A machine takes one input at a time, answers it, and may refuse it. A run is the list of the inputs
it took with the answers it gave, so a statement about everything a component ever did is a statement
about that list and the state it ends in. Two rules carry every run result of this development:
`Run.induction` for a property of the trace and the state together, and `Run.invariant` for one of
the state alone.
-/

namespace RequestsNative.Lib

/-- A deterministic machine. `step s i = none` says that `i` is not enabled in `s`. -/
structure Machine (State Input Output : Type*) where
  step : State → Input → Option (Output × State)

namespace Machine

variable {State Input Output : Type*} (m : Machine State Input Output)

/-- The machine takes the inputs of the trace in order, from `start`, and gives the outputs beside them. -/
inductive Run (start : State) : List (Input × Output) → State → Prop
  | nil : Run start [] start
  | snoc {trace : List (Input × Output)} {s s' : State} {input : Input} {output : Output} :
      Run start trace s → m.step s input = some (output, s') →
        Run start (trace ++ [(input, output)]) s'

variable {m}

/-- What holds at the start and survives one more answered input holds of every run. -/
theorem Run.induction {start : State} (P : List (Input × Output) → State → Prop) (hinit : P [] start)
    (hstep : ∀ trace s input output s', m.Run start trace s → P trace s →
      m.step s input = some (output, s') → P (trace ++ [(input, output)]) s')
    {trace : List (Input × Output)} {s : State} (hrun : m.Run start trace s) : P trace s := by
  induction hrun with
  | nil => exact hinit
  | snoc hprev hone ih => exact hstep _ _ _ _ _ hprev ih hone

/-- An invariant of the step is an invariant of the run. -/
theorem Run.invariant {start : State} (P : State → Prop) (hinit : P start)
    (hstep : ∀ s input output s', P s → m.step s input = some (output, s') → P s')
    {trace : List (Input × Output)} {s : State} (hrun : m.Run start trace s) : P s :=
  hrun.induction (fun _ state => P state) hinit
    (fun _ s input output s' _ hs hone => hstep s input output s' hs hone)

/-! ### Running a list of inputs -/

/-- Feed the inputs one by one, collecting the trace; `none` as soon as one is refused. -/
def exec (m : Machine State Input Output) (s : State) : List Input → Option (List (Input × Output) × State)
  | [] => some ([], s)
  | input :: rest =>
      match m.step s input with
      | none => none
      | some (output, s') => (exec m s' rest).map fun r => ((input, output) :: r.1, r.2)

theorem Run.cons {s s' : State} {input : Input} {output : Output}
    (hone : m.step s input = some (output, s')) {trace : List (Input × Output)} {t : State}
    (hrun : m.Run s' trace t) : m.Run s ((input, output) :: trace) t := by
  induction hrun with
  | nil => exact (Run.snoc Run.nil hone : m.Run s ([] ++ [(input, output)]) s')
  | snoc _ hlast ih => exact (Run.snoc ih hlast : m.Run s (((input, output) :: _) ++ [_]) _)

/-- A run goes on where another has ended. -/
theorem Run.append {s s' t : State} {trace later : List (Input × Output)} (hrun : m.Run s trace s')
    (hlater : m.Run s' later t) : m.Run s (trace ++ later) t := by
  induction hlater with
  | nil => rwa [List.append_nil]
  | snoc _ hone ih =>
      rw [← List.append_assoc]
      exact .snoc ih hone

/-- A list of inputs the machine takes is a run of it. -/
theorem run_of_exec {s t : State} {inputs : List Input} {trace : List (Input × Output)}
    (hexec : m.exec s inputs = some (trace, t)) : m.Run s trace t := by
  induction inputs generalizing s trace with
  | nil =>
      simp only [exec, Option.some.injEq, Prod.mk.injEq] at hexec
      obtain ⟨rfl, rfl⟩ := hexec
      exact Run.nil
  | cons input rest ih =>
      unfold exec at hexec
      split at hexec
      · cases hexec
      · rename_i output s' hone
        obtain ⟨⟨tail, final⟩, htail, heq⟩ := Option.map_eq_some_iff.mp hexec
        obtain ⟨rfl, rfl⟩ := Prod.mk.inj heq
        exact Run.cons hone (ih htail)

/-- The trace has the inputs that were fed. -/
theorem exec_inputs {s t : State} {inputs : List Input} {trace : List (Input × Output)}
    (hexec : m.exec s inputs = some (trace, t)) : trace.map Prod.fst = inputs := by
  induction inputs generalizing s trace with
  | nil =>
      obtain ⟨rfl, -⟩ := Prod.mk.inj (Option.some.inj hexec)
      rfl
  | cons input rest ih =>
      rw [exec] at hexec
      split at hexec
      · cases hexec
      · obtain ⟨⟨tail, final⟩, htail, heq⟩ := Option.map_eq_some_iff.mp hexec
        obtain ⟨rfl, rfl⟩ := Prod.mk.inj heq
        exact congrArg (input :: ·) (ih htail)

/-! ### Runs under a condition -/

/-- A run in which every input meets a condition on the state it comes in. -/
inductive RunWhere (m : Machine State Input Output) (P : State → Input → Prop) (start : State) :
    List (Input × Output) → State → Prop
  | nil : RunWhere m P start [] start
  | snoc {trace : List (Input × Output)} {s s' : State} {input : Input} {output : Output} :
      RunWhere m P start trace s → P s input → m.step s input = some (output, s') →
        RunWhere m P start (trace ++ [(input, output)]) s'

theorem RunWhere.run {P : State → Input → Prop} {start s : State} {trace : List (Input × Output)}
    (h : m.RunWhere P start trace s) : m.Run start trace s := by
  induction h with
  | nil => exact .nil
  | snoc _ _ hone ih => exact .snoc ih hone

/-- The last step of a run. -/
theorem Run.last {start s' : State} {trace : List (Input × Output)} {input : Input} {output : Output}
    (h : m.Run start (trace ++ [(input, output)]) s') : ∃ s, m.Run start trace s ∧ m.step s input = some (output, s') := by
  generalize hlong : trace ++ [(input, output)] = long at h
  cases h with
  | nil => simp at hlong
  | snoc hprev hone =>
      obtain ⟨rfl, hlast⟩ := List.append_inj' hlong rfl
      obtain ⟨rfl, rfl⟩ := Prod.mk.inj (List.singleton_inj.mp hlast)
      exact ⟨_, hprev, hone⟩

theorem Run.deterministic {start s t : State} {trace : List (Input × Output)} (hs : m.Run start trace s)
    (ht : m.Run start trace t) : s = t := by
  induction hs generalizing t with
  | nil =>
      generalize hnil : ([] : List (Input × Output)) = empty at ht
      cases ht with
      | nil => rfl
      | snoc _ _ => simp at hnil
  | snoc _ hone ih =>
      obtain ⟨other, hother, hstep⟩ := ht.last
      obtain rfl := ih hother
      exact (Prod.mk.inj (Option.some.inj (hone.symm.trans hstep))).2

/-- A property of every state on the way is a condition on the inputs, if it holds at the start and an input keeps it exactly when
it meets the condition. `I` is what holds in any case. -/
theorem Run.throughout_iff {start : State} {P : State → Input → Prop} {I Q : List (Input × Output) → State → Prop}
    (hinit : Q [] start) (hinv : ∀ trace s, m.Run start trace s → I trace s)
    (hstep : ∀ trace s input output s', I trace s → Q trace s → m.step s input = some (output, s') →
      (Q (trace ++ [(input, output)]) s' ↔ P s input))
    {trace : List (Input × Output)} {s : State} (hrun : m.Run start trace s) :
    (∀ before after mid, trace = before ++ after → m.Run start before mid → Q before mid) ↔ m.RunWhere P start trace s := by
  constructor
  · intro hall
    induction hrun with
    | nil => exact .nil
    | snoc hprev hone ih =>
        have hbefore := hall _ _ _ rfl hprev
        have hafter := hall _ [] _ (List.append_nil _).symm (.snoc hprev hone)
        refine .snoc (ih ?_) ((hstep _ _ _ _ _ (hinv _ _ hprev) hbefore hone).1 hafter) hone
        intro before after mid heq
        exact hall before _ mid (by rw [heq, List.append_assoc])
  · intro hwhere
    induction hwhere with
    | nil =>
        intro before after mid heq hmid
        obtain ⟨rfl, -⟩ := List.append_eq_nil_iff.mp heq.symm
        rwa [← Run.nil.deterministic hmid]
    | snoc hprev hone hlast ih =>
        have hbefore := ih hprev.run _ [] _ (List.append_nil _).symm hprev.run
        intro before after mid heq hmid
        obtain rfl | ⟨front, last, rfl⟩ := List.eq_nil_or_concat after
        · rw [List.append_nil] at heq
          subst heq
          rw [← (Run.snoc hprev.run hlast).deterministic hmid]
          exact (hstep _ _ _ _ _ (hinv _ _ hprev.run) hbefore hlast).2 hone
        · rw [List.concat_eq_append, ← List.append_assoc] at heq
          exact ih hprev.run before front mid (List.append_inj' heq rfl).1 hmid

/-- Every input of the list meets the condition in the state it comes in. -/
def meets (m : Machine State Input Output) (P : State → Input → Prop) [∀ s input, Decidable (P s input)] (s : State) :
    List Input → Bool
  | [] => true
  | input :: rest => decide (P s input) && ((m.step s input).all fun next => meets m P next.2 rest)

theorem RunWhere.cons {P : State → Input → Prop} {s s' : State} {input : Input} {output : Output} (hinput : P s input)
    (hone : m.step s input = some (output, s')) {trace : List (Input × Output)} {t : State}
    (hrun : m.RunWhere P s' trace t) : m.RunWhere P s ((input, output) :: trace) t := by
  induction hrun with
  | nil => exact (RunWhere.snoc .nil hinput hone : m.RunWhere P s ([] ++ [(input, output)]) s')
  | snoc _ hlast hstep ih => exact (RunWhere.snoc ih hlast hstep : m.RunWhere P s (((input, output) :: _) ++ [_]) _)

theorem runWhere_of_exec {P : State → Input → Prop} [∀ s input, Decidable (P s input)] {s t : State} {inputs : List Input}
    {trace : List (Input × Output)} (hexec : m.exec s inputs = some (trace, t)) (hmeets : m.meets P s inputs = true) :
    m.RunWhere P s trace t := by
  induction inputs generalizing s trace with
  | nil =>
      obtain ⟨rfl, rfl⟩ := Prod.mk.inj (Option.some.inj hexec)
      exact .nil
  | cons input rest ih =>
      unfold exec at hexec
      split at hexec
      · cases hexec
      · rename_i output s' hone
        obtain ⟨⟨tail, final⟩, htail, heq⟩ := Option.map_eq_some_iff.mp hexec
        obtain ⟨rfl, rfl⟩ := Prod.mk.inj heq
        rw [meets, hone, Option.all_some, Bool.and_eq_true, decide_eq_true_eq] at hmeets
        exact .cons hmeets.1 hone (ih htail hmeets.2)

end Machine

/-! ### Steps in their place -/

/-- Every step of a trace, with the steps before it, has the property. -/
def Throughout {α : Type*} (P : List α → α → Prop) (trace : List α) : Prop :=
  ∀ before step after, trace = before ++ step :: after → P before step

namespace Throughout

variable {α : Type*} {P Q : List α → α → Prop}

theorem nil : Throughout P [] := by
  intro before step after h
  cases before <;> cases h

theorem of_append {trace steps : List α} (h : Throughout P (trace ++ steps)) : Throughout P trace := by
  intro before step after heq
  refine h before step (after ++ steps) ?_
  rw [heq, List.append_assoc, List.cons_append]

theorem snoc_iff {trace : List α} {step : α} : Throughout P (trace ++ [step]) ↔ Throughout P trace ∧ P trace step := by
  constructor
  · exact fun h => ⟨h.of_append, h trace step [] rfl⟩
  · intro ⟨h, hstep⟩ before other after heq
    obtain rfl | ⟨rest, last, rfl⟩ := List.eq_nil_or_concat after
    · obtain ⟨rfl, hother⟩ := List.append_inj' heq rfl
      obtain rfl := List.singleton_inj.mp hother
      exact hstep
    · rw [List.concat_eq_append, ← List.cons_append, ← List.append_assoc] at heq
      exact h before other rest (List.append_inj' heq rfl).1

/-- More steps, each of which has the property whatever came before. -/
theorem append {trace : List α} (h : Throughout P trace) {steps : List α} (hsteps : ∀ step ∈ steps, ∀ before, P before step) :
    Throughout P (trace ++ steps) := by
  induction steps using List.reverseRecOn with
  | nil => rwa [List.append_nil]
  | append_singleton steps step ih =>
      rw [← List.append_assoc]
      refine snoc_iff.mpr ⟨ih fun other hother => hsteps other (List.mem_append_left _ hother), ?_⟩
      exact hsteps step (List.mem_append_right _ (List.mem_singleton_self step)) _

end Throughout

end RequestsNative.Lib
