import Mathlib.Data.List.Basic

/-!
# Programs with a state that may fail

An `Effect` reads and writes a state and may fail at any point; the state it leaves stays also when it fails. Two
programs are twins if they take related states to related states, with the same error or with related values. Twins are
put together part by part, by `Twin.bind`, so two programs that call the same operations in the same order are compared
without running either.
-/

namespace RequestsNative.Lib

def Effect (S E α : Type) : Type := S → Except E α × S

namespace Effect

variable {S E α β γ δ : Type}

instance : Monad (Effect S E) where
  pure a := fun s => (.ok a, s)
  bind x f := fun s =>
    match x s with
    | (.ok a, s) => f a s
    | (.error error, s) => (.error error, s)

def fail (error : E) : Effect S E α := fun s => (.error error, s)

def lift (result : Except E α) : Effect S E α := fun s => (result, s)

/-- What is raised becomes a value, for a handler to look at. -/
def attempt (x : Effect S E α) : Effect S E (Except E α) := fun s => (.ok (x s).1, (x s).2)

def modify (f : S → S) : Effect S E Unit := fun s => (.ok (), f s)

def read : Effect S E S := fun s => (.ok s, s)

theorem pure_apply (a : α) (s : S) : (pure a : Effect S E α) s = (.ok a, s) := rfl

theorem bind_ok {x : Effect S E α} {f : α → Effect S E β} {s s' : S} {a : α} (h : x s = (.ok a, s')) :
    (x >>= f) s = f a s' := by
  change (match x s with | (.ok a, s) => f a s | (.error error, s) => (.error error, s)) = f a s'
  rw [h]

theorem bind_error {x : Effect S E α} {f : α → Effect S E β} {s s' : S} {error : E} (h : x s = (.error error, s')) :
    (x >>= f) s = (.error error, s') := by
  change (match x s with | (.ok a, s) => f a s | (.error error, s) => (.error error, s)) = _
  rw [h]

theorem bind_pure (x : Effect S E α) : x >>= pure = x := by
  funext s
  cases hx : x s with
  | mk result s' =>
      cases result with
      | ok a => rw [bind_ok hx, pure_apply]
      | error error => rw [bind_error hx]

theorem bind_assoc (x : Effect S E α) (f : α → Effect S E β) (g : β → Effect S E γ) :
    x >>= f >>= g = x >>= fun a => f a >>= g := by
  funext s
  cases hx : x s with
  | mk result s' =>
      cases result with
      | ok a =>
          rw [bind_ok hx]
          change (match (x >>= f) s with | (.ok b, s) => g b s | (.error error, s) => (.error error, s)) = _
          rw [bind_ok hx]
          rfl
      | error error => rw [bind_error hx, bind_error (bind_error hx)]

/-- A run of two parts is a run of the first that failed, or a run of both. -/
theorem bind_run {x : Effect S E α} {f : α → Effect S E β} {s t : S} {result : Except E β}
    (h : (x >>= f) s = (result, t)) :
    (∃ error, x s = (.error error, t) ∧ result = .error error) ∨ ∃ a s', x s = (.ok a, s') ∧ f a s' = (result, t) := by
  cases hx : x s with
  | mk first s' =>
      cases first with
      | error error =>
          rw [bind_error hx] at h
          obtain ⟨rfl, rfl⟩ := Prod.mk.inj h
          exact .inl ⟨error, rfl, rfl⟩
      | ok a =>
          rw [bind_ok hx] at h
          exact .inr ⟨a, s', rfl, h⟩

/-! ### What a program can return -/

/-- Whatever the state, a value that the program returns is one of these. -/
def Yields (P : α → Prop) (x : Effect S E α) : Prop := ∀ s a s', x s = (.ok a, s') → P a

theorem Yields.pure {P : α → Prop} {a : α} (h : P a) : Yields P (Pure.pure a : Effect S E α) := by
  intro s b s' heq
  obtain ⟨hvalue, -⟩ := Prod.mk.inj heq
  exact Except.ok.inj hvalue ▸ h

theorem Yields.fail (P : α → Prop) (error : E) : Yields P (Effect.fail error : Effect S E α) := by
  intro s a s' heq
  cases heq

/-- The last part says what the whole returns. -/
theorem Yields.bind {P : β → Prop} {x : Effect S E α} {f : α → Effect S E β} (h : ∀ a, Yields P (f a)) :
    Yields P (x >>= f) := by
  intro s b t heq
  obtain ⟨error, -, hfailed⟩ | ⟨a, s', -, hrest⟩ := bind_run heq
  · cases hfailed
  · exact h a s' b t hrest

/-! ### What a program can raise -/

/-- An error that the program raises in this state is one of these. -/
def Raises (P : E → Prop) (x : Effect S E α) (s : S) : Prop := ∀ error, (x s).1 = .error error → P error

theorem raises_pure (P : E → Prop) (a : α) (s : S) : Raises P (Pure.pure a : Effect S E α) s := fun _ heq => by cases heq

theorem raises_bind {P : E → Prop} {x : Effect S E α} {f : α → Effect S E β} {s : S} :
    Raises P (x >>= f) s ↔ Raises P x s ∧ ∀ a, (x s).1 = .ok a → Raises P (f a) (x s).2 := by
  cases hx : x s with
  | mk first s' =>
      cases first with
      | error error => simp [Raises, bind_error hx, hx]
      | ok a => simp [Raises, bind_ok hx, hx]

/-! ### What a program keeps -/

/-- The property survives the program, also when it fails. -/
def Keeps (I : S → Prop) (x : Effect S E α) : Prop := ∀ s, I s → I (x s).2

variable {I : S → Prop}

theorem Keeps.pure (a : α) : Keeps I (Pure.pure a : Effect S E α) := fun _ h => h

theorem Keeps.fail (error : E) : Keeps I (Effect.fail error : Effect S E α) := fun _ h => h

theorem Keeps.modify {f : S → S} (h : ∀ s, I s → I (f s)) : Keeps I (Effect.modify f : Effect S E Unit) := h

theorem Keeps.bind {x : Effect S E α} {f : α → Effect S E β} (hx : Keeps I x) (hf : ∀ a, Keeps I (f a)) :
    Keeps I (x >>= f) := by
  intro s hs
  have hfirst := hx s hs
  cases hxs : x s with
  | mk first s' =>
      rw [hxs] at hfirst
      cases first with
      | ok a =>
          rw [bind_ok hxs]
          exact hf a s' hfirst
      | error error =>
          rw [bind_error hxs]
          exact hfirst

/-! ### Twins -/

/-- The same error, or related values. -/
def Alike (Q : α → β → Prop) : Except E α → Except E β → Prop
  | .ok a, .ok b => Q a b
  | .error error, .error error' => error = error'
  | _, _ => False

def Twin (R : S → S → Prop) (Q : α → β → Prop) (x : Effect S E α) (y : Effect S E β) : Prop :=
  ∀ s t, R s t → Alike Q (x s).1 (y t).1 ∧ R (x s).2 (y t).2

variable {R : S → S → Prop}

theorem Twin.refl (x : Effect S E α) : Twin Eq Eq x x := by
  intro s t hs
  subst hs
  refine ⟨?_, rfl⟩
  cases (x s).1 <;> rfl

theorem Twin.pure {Q : α → β → Prop} {a : α} {b : β} (h : Q a b) :
    Twin R Q (Pure.pure a : Effect S E α) (Pure.pure b) := fun _ _ hr => ⟨h, hr⟩

theorem Twin.fail {Q : α → β → Prop} (error : E) : Twin R Q (Effect.fail error : Effect S E α) (Effect.fail error) :=
  fun _ _ hr => ⟨rfl, hr⟩

theorem Twin.modify {f g : S → S} (h : ∀ s t, R s t → R (f s) (g t)) :
    Twin R Eq (Effect.modify f : Effect S E Unit) (Effect.modify g) := fun s t hr => ⟨rfl, h s t hr⟩

theorem Twin.read : Twin R R (Effect.read : Effect S E S) Effect.read := fun _ _ hr => ⟨hr, hr⟩

theorem Twin.bind {P : α → γ → Prop} {Q : β → δ → Prop} {x : Effect S E α} {y : Effect S E γ} {f : α → Effect S E β}
    {g : γ → Effect S E δ} (hx : Twin R P x y) (hf : ∀ a c, P a c → Twin R Q (f a) (g c)) :
    Twin R Q (x >>= f) (y >>= g) := by
  intro s t hr
  obtain ⟨hvalues, hstates⟩ := hx s t hr
  cases hxs : x s with
  | mk first s' =>
      cases hyt : y t with
      | mk second t' =>
          rw [hxs, hyt] at hvalues hstates
          cases first with
          | ok a =>
              cases second with
              | ok c =>
                  rw [bind_ok hxs, bind_ok hyt]
                  exact hf a c hvalues s' t' hstates
              | error => exact hvalues.elim
          | error error =>
              cases second with
              | ok => exact hvalues.elim
              | error error' =>
                  rw [bind_error hxs, bind_error hyt]
                  exact ⟨hvalues, hstates⟩

end Effect

end RequestsNative.Lib
