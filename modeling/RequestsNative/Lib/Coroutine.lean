import Mathlib.Logic.Basic

/-!
# Programs that ask for what they need

A coroutine runs until it needs something done, hands out a request and goes on with the answer. Together with a server
that keeps a state it computes an output, if it ever completes: this is what the two would do in one thread, and what any
way of passing the requests between threads has to agree with.
-/

namespace RequestsNative.Lib

/-- What a coroutine does next. -/
inductive Turn (W Request Reply Output : Type*)
  | complete (output : Output)
  | ask (request : Request) (resume : Reply → W)

namespace Coroutine

variable {W S Request Reply Output : Type*} (turn : W → Turn W Request Reply Output)
  (serve : Request → S → Option (Reply × S))

/-- The coroutine and the server are somewhere on their way from `w` and `s`; a request that is not served ends it. -/
inductive Reaches (w : W) (s : S) : W → S → Prop
  | refl : Reaches w s w s
  | answer {w' : W} {s' s'' : S} {request : Request} {resume : Reply → W} {reply : Reply} :
      Reaches w s w' s' → turn w' = .ask request resume → serve request s' = some (reply, s'') →
        Reaches w s (resume reply) s''

/-- The coroutine completes with the output, and leaves the server in the state. -/
def Returns (w : W) (s : S) (output : Output) (s' : S) : Prop :=
  ∃ w', Reaches turn serve w s w' s' ∧ turn w' = .complete output

/-- The coroutine and the server in one thread, for as many requests as there is fuel. -/
def run (fuel : Nat) (w : W) (s : S) : Option (Output × S) :=
  match turn w with
  | .complete output => some (output, s)
  | .ask request resume =>
      match fuel with
      | 0 => none
      | fuel + 1 => (serve request s).bind fun answer => run fuel (resume answer.1) answer.2

variable {turn serve} {w w' : W} {s s' : S} {request : Request} {resume : Reply → W} {reply : Reply} {output : Output}

theorem Reaches.trans {w'' : W} {s'' : S} (h : Reaches turn serve w s w' s') (h' : Reaches turn serve w' s' w'' s'') :
    Reaches turn serve w s w'' s'' := by
  induction h' with
  | refl => exact h
  | answer _ hturn hserve ih => exact ih.answer hturn hserve

/-- The way begins with the first answer, unless it has not begun. -/
theorem Reaches.first (h : Reaches turn serve w s w' s') : (w' = w ∧ s' = s) ∨
    ∃ request resume reply s₁, turn w = .ask request resume ∧ serve request s = some (reply, s₁) ∧
      Reaches turn serve (resume reply) s₁ w' s' := by
  induction h with
  | refl => exact .inl ⟨rfl, rfl⟩
  | answer _ hturn hserve ih =>
      obtain ⟨rfl, rfl⟩ | ⟨request, resume, reply, s₁, hfirst, hanswer, hrest⟩ := ih
      · exact .inr ⟨_, _, _, _, hturn, hserve, .refl⟩
      · exact .inr ⟨request, resume, reply, s₁, hfirst, hanswer, hrest.answer hturn hserve⟩

theorem returns_complete (hturn : turn w = .complete output) : Returns turn serve w s output s :=
  ⟨w, .refl, hturn⟩

/-- A completed coroutine returns its output and nothing else. -/
theorem Returns.of_complete {other : Output} (hturn : turn w = .complete output) (h : Returns turn serve w s other s') :
    other = output ∧ s' = s := by
  obtain ⟨w', hreaches, hother⟩ := h
  obtain ⟨rfl, rfl⟩ | ⟨request, resume, reply, s₁, hfirst, -, -⟩ := hreaches.first
  · rw [hturn] at hother
    exact ⟨(Turn.complete.inj hother).symm, rfl⟩
  · rw [hturn] at hfirst
    cases hfirst

/-- A coroutine that asks returns what it returns after the answer. -/
theorem Returns.of_ask (hturn : turn w = .ask request resume) (h : Returns turn serve w s output s') :
    ∃ reply s₁, serve request s = some (reply, s₁) ∧ Returns turn serve (resume reply) s₁ output s' := by
  obtain ⟨w', hreaches, hcomplete⟩ := h
  obtain ⟨rfl, rfl⟩ | ⟨first, next, reply, s₁, hfirst, hserve, hrest⟩ := hreaches.first
  · rw [hturn] at hcomplete
    cases hcomplete
  · rw [hturn] at hfirst
    obtain ⟨rfl, rfl⟩ := Turn.ask.inj hfirst
    exact ⟨reply, s₁, hserve, w', hrest, hcomplete⟩

theorem returns_ask {s₁ : S} (hturn : turn w = .ask request resume) (hserve : serve request s = some (reply, s₁))
    (h : Returns turn serve (resume reply) s₁ output s') : Returns turn serve w s output s' := by
  obtain ⟨w', hreaches, hcomplete⟩ := h
  exact ⟨w', (Reaches.refl.answer hturn hserve).trans hreaches, hcomplete⟩

/-- What holds somewhere on the way holds from its beginning, if an answer brings it back. -/
theorem Reaches.back {P : W → S → Prop} (h : Reaches turn serve w s w' s')
    (hask : ∀ w s request resume reply s₁, turn w = .ask request resume → serve request s = some (reply, s₁) →
      P (resume reply) s₁ → P w s) (hlast : P w' s') : P w s := by
  induction h with
  | refl => exact hlast
  | answer _ hturn hserve ih => exact ih (hask _ _ _ _ _ _ hturn hserve hlast)

/-- What holds where a coroutine completes, and before an answer if it holds behind it, holds where it returns. -/
theorem Returns.induction {P : W → S → Prop} (h : Returns turn serve w s output s')
    (hcomplete : ∀ w, turn w = .complete output → P w s')
    (hask : ∀ w s request resume reply s₁, turn w = .ask request resume → serve request s = some (reply, s₁) →
      Returns turn serve (resume reply) s₁ output s' → P (resume reply) s₁ → P w s) : P w s := by
  obtain ⟨w', hreaches, hturn⟩ := h
  refine (hreaches.back (P := fun w s => Returns turn serve w s output s' ∧ P w s) ?_
    ⟨returns_complete hturn, hcomplete w' hturn⟩).2
  rintro w s request resume reply s₁ hturn hserve ⟨hreturns, hrest⟩
  exact ⟨returns_ask hturn hserve hreturns, hask w s request resume reply s₁ hturn hserve hreturns hrest⟩

/-- A coroutine returns at most one output, and leaves the server in one state. -/
theorem Returns.unique {other : Output} {t : S} (h : Returns turn serve w s output s') (h' : Returns turn serve w s other t) :
    other = output ∧ t = s' := by
  refine h.induction (P := fun w s => Returns turn serve w s other t → other = output ∧ t = s') ?_ ?_ h'
  · exact fun w hturn hother => hother.of_complete hturn
  · intro w s request resume reply s₁ hturn hserve _ ih hother
    obtain ⟨reply', s₂, hserve', hrest⟩ := hother.of_ask hturn
    obtain ⟨rfl, rfl⟩ := Prod.mk.inj (Option.some.inj (hserve.symm.trans hserve'))
    exact ih hrest

end Coroutine

end RequestsNative.Lib
