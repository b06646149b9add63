import Mathlib.Data.List.Forall2
import Mathlib.Data.List.Induction

/-!
# Objects that answer calls

An object answers every call and goes on from a new state. Two objects cannot be told apart by any calls if a relation
between their states is kept by every call and makes the answers equal.
-/

namespace RequestsNative.Lib

structure Reactive (State Input Output : Type*) where
  call : State → Input → Output × State

namespace Reactive

variable {State State' Input Output Output' : Type*} (object : Reactive State Input Output)

/-- The answers to a list of calls. -/
def observe (s : State) : List Input → List Output
  | [] => []
  | input :: rest => (object.call s input).1 :: observe (object.call s input).2 rest

/-- The state after a list of calls. -/
def after (s : State) : List Input → State
  | [] => s
  | input :: rest => after (object.call s input).2 rest

theorem after_append (s : State) (inputs : List Input) (input : Input) :
    object.after s (inputs ++ [input]) = (object.call (object.after s inputs) input).2 := by
  induction inputs generalizing s with
  | nil => rfl
  | cons first rest ih => exact ih _

theorem observe_append (s : State) (inputs : List Input) (input : Input) :
    object.observe s (inputs ++ [input]) =
      object.observe s inputs ++ [(object.call (object.after s inputs) input).1] := by
  induction inputs generalizing s with
  | nil => rfl
  | cons first rest ih => exact congrArg _ (ih _)

variable {object}

/-- What holds of no answers at the start and survives every call holds of all answers and the state behind them. -/
theorem trace_induction (start : State) (P : List Output → State → Prop) (hstart : P [] start)
    (hcall : ∀ answers s input, P answers s → P (answers ++ [(object.call s input).1]) (object.call s input).2)
    (inputs : List Input) : P (object.observe start inputs) (object.after start inputs) := by
  induction inputs using List.reverseRecOn with
  | nil => exact hstart
  | append_singleton inputs input ih =>
      rw [observe_append, after_append]
      exact hcall _ _ _ ih

section Related

variable {other : Reactive State' Input Output'}

/-- A relation that every call keeps, with related answers, relates all answers. -/
theorem forall₂_of_related (R : State → State' → Prop) (Q : Output → Output' → Prop)
    (hcall : ∀ s t input, R s t → Q (object.call s input).1 (other.call t input).1 ∧
      R (object.call s input).2 (other.call t input).2)
    {s : State} {t : State'} (hrelated : R s t) (inputs : List Input) :
    List.Forall₂ Q (object.observe s inputs) (other.observe t inputs) ∧ R (object.after s inputs) (other.after t inputs) := by
  induction inputs generalizing s t with
  | nil => exact ⟨.nil, hrelated⟩
  | cons input rest ih =>
      obtain ⟨hanswer, hnext⟩ := hcall s t input hrelated
      obtain ⟨hanswers, hend⟩ := ih hnext
      exact ⟨.cons hanswer hanswers, hend⟩

end Related

variable {other : Reactive State' Input Output}

theorem observe_eq_of_related (R : State → State' → Prop)
    (hcall : ∀ s t input, R s t → (object.call s input).1 = (other.call t input).1 ∧
      R (object.call s input).2 (other.call t input).2)
    {s : State} {t : State'} (hrelated : R s t) (inputs : List Input) :
    object.observe s inputs = other.observe t inputs :=
  List.forall₂_eq_eq_eq ▸ (forall₂_of_related R Eq hcall hrelated inputs).1

/-- Objects that answer alike in every state of a run have the same run. -/
theorem run_eq_of_agree {other : Reactive State Input Output} (P : State → Prop)
    (hcall : ∀ s input, P s → object.call s input = other.call s input) {s : State} {inputs : List Input}
    (hrun : ∀ i < inputs.length, P (object.after s (inputs.take i))) :
    object.observe s inputs = other.observe s inputs ∧ object.after s inputs = other.after s inputs := by
  induction inputs generalizing s with
  | nil => exact ⟨rfl, rfl⟩
  | cons input rest ih =>
      have hfirst : object.call s input = other.call s input := hcall s input (hrun 0 (Nat.zero_lt_succ _))
      obtain ⟨hanswers, hend⟩ := ih fun i hi => hrun (i + 1) (Nat.succ_lt_succ hi)
      rw [observe, observe, after, after, ← hfirst]
      exact ⟨congrArg _ hanswers, hend⟩

/-- After the same answer, the rest decides. -/
theorem observe_cons_eq_iff {s : State} {t : State'} {input : Input} {rest : List Input}
    (hanswer : (object.call s input).1 = (other.call t input).1) :
    object.observe s (input :: rest) = other.observe t (input :: rest) ↔
      object.observe (object.call s input).2 rest = other.observe (other.call t input).2 rest := by
  rw [observe, observe, List.cons.injEq]
  exact and_iff_right hanswer

/-- Another answer to the first call tells them apart. -/
theorem observe_cons_ne {s : State} {t : State'} {input : Input} {rest : List Input}
    (hanswer : (object.call s input).1 ≠ (other.call t input).1) :
    object.observe s (input :: rest) ≠ other.observe t (input :: rest) := by
  rw [observe, observe]
  exact fun heq => hanswer (List.cons.inj heq).1

end Reactive

end RequestsNative.Lib
