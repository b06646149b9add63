import RequestsNative.Blocking.Body

/-!
# The async body behind the blocking reads

The blocking reads are modelled over `AsyncBody`, a list of frames and an end. This module ties it to the
body of `response.rs`: whatever deadlines, gates and driver results do to the polls of a `ResponseBody`, the
items that come out of it are the items of some `AsyncBody`, with the same answer to completion at the
declared length at every point.
-/

namespace RequestsNative.Blocking

open RequestsNative.Response

variable {Key : Type}

/-- What completion at the declared length reads besides the terminal flag. -/
structure SameCompletion (body other : Response.ResponseBody Key) : Prop where
  received : other.receivedBodyBytes = body.receivedBodyBytes
  declared : other.declaredCompletionLength = body.declaredCompletionLength
  encoded : other.encodedCompletion = body.encodedCompletion

theorem finishNow_completion (world : Transport.World) (body : Response.ResponseBody Key) (event : ResponseEvent) :
    (body.finishNow world event).2.terminal = true ∧ SameCompletion body (body.finishNow world event).2 := by
  by_cases hterminal : body.terminal = true
  · simp only [Response.ResponseBody.finishNow, Response.ResponseBody.beginTerminal, hterminal, if_true]
    exact ⟨trivial, rfl, rfl, rfl⟩
  · simp only [Response.ResponseBody.finishNow, Response.ResponseBody.beginTerminal, hterminal,
      Bool.false_eq_true, if_false]
    split
    · rename_i heq
      obtain ⟨-, rfl⟩ := Prod.mk.inj heq
      exact ⟨rfl, rfl, rfl, rfl⟩
    · rename_i heq
      obtain ⟨-, rfl⟩ := Prod.mk.inj heq
      split <;> exact ⟨rfl, rfl, rfl, rfl⟩

/-- What one poll can do to the part of the body a reader sees. -/
inductive PollView (body : Response.ResponseBody Key) :
    Poll Item × Response.ResponseBody.Settled Key × Response.ResponseBody Key → Prop
  | ended {settled : Response.ResponseBody.Settled Key} : body.terminal = true →
      PollView body (.ready none, settled, body)
  | frame {bytes : Bytes} {settled : Response.ResponseBody.Settled Key} {next : Response.ResponseBody Key} :
      body.terminal = false → next.terminal = false →
        next.receivedBodyBytes = saturatingAdd body.receivedBodyBytes bytes.length →
        next.declaredCompletionLength = body.declaredCompletionLength →
        next.encodedCompletion = body.encodedCompletion →
        PollView body (.ready (some (.ok bytes)), settled, next)
  | eof {settled : Response.ResponseBody.Settled Key} {next : Response.ResponseBody Key} :
      body.terminal = false → next.terminal = true → SameCompletion body next →
        PollView body (.ready none, settled, next)
  | fails {error : Error} {settled : Response.ResponseBody.Settled Key} {next : Response.ResponseBody Key} :
      body.terminal = false → next.terminal = true → SameCompletion body next →
        PollView body (.ready (some (.error error)), settled, next)
  | pending {settled : Response.ResponseBody.Settled Key} {next : Response.ResponseBody Key} :
      body.terminal = false → next.terminal = false → SameCompletion body next →
        PollView body (.pending, settled, next)

theorem PollView.of_finishError {start body : Response.ResponseBody Key} (hrunning : start.terminal = false)
    (hsame : SameCompletion start body) (world : Transport.World) (event : ResponseEvent) (error : Error) :
    PollView start (body.finishError world event error) := by
  obtain ⟨hterminal, hnext⟩ := finishNow_completion world body event
  exact .fails hrunning hterminal
    ⟨hnext.received.trans hsame.received, hnext.declared.trans hsame.declared, hnext.encoded.trans hsame.encoded⟩

theorem pollDriver_view (env : PollEnv) {start body : Response.ResponseBody Key} (hstart : start.terminal = false)
    (hbody : body.terminal = false) (hsame : SameCompletion start body) :
    PollView start (body.pollDriver env) := by
  have harmed : (body.armReadDeadline env.now).terminal = false ∧
      SameCompletion start (body.armReadDeadline env.now) := by
    unfold Response.ResponseBody.armReadDeadline
    split <;> exact ⟨hbody, hsame.received, hsame.declared, hsame.encoded⟩
  simp only [Response.ResponseBody.pollDriver]
  generalize body.armReadDeadline env.now = armed at harmed
  obtain ⟨hrunning, hreceived, hdeclared, hencoded⟩ := harmed
  split
  · exact .of_finishError hstart ⟨hreceived, hdeclared, hencoded⟩ _ _ _
  · split
    · exact .pending hstart hrunning ⟨hreceived, hdeclared, hencoded⟩
    · split
      · apply PollView.of_finishError hstart
        exact ⟨hreceived, hdeclared, hencoded⟩
      · exact .pending hstart hrunning ⟨hreceived, hdeclared, hencoded⟩
      · exact .pending hstart hrunning ⟨hreceived, hdeclared, hencoded⟩

theorem pollNext_view (env : PollEnv) (body : Response.ResponseBody Key) : PollView body (body.pollNext env) := by
  unfold Response.ResponseBody.pollNext
  split
  · rename_i hterminal
    exact .ended hterminal
  · rename_i hterminal
    have hrunning : body.terminal = false := by simpa using hterminal
    split
    · exact .of_finishError hrunning ⟨rfl, rfl, rfl⟩ _ _ _
    · split
      · exact .frame hrunning hrunning rfl rfl rfl
      · exact .of_finishError hrunning ⟨rfl, rfl, rfl⟩ _ _ _
      · obtain ⟨hended, hsame⟩ := finishNow_completion env.world { body with remainderWait := none } .cleanEof
        exact .eof hrunning hended ⟨hsame.received, hsame.declared, hsame.encoded⟩
      · simp only
        split
        · exact pollDriver_view env hrunning hrunning ⟨rfl, rfl, rfl⟩
        · split
          · exact .pending hrunning hrunning ⟨rfl, rfl, rfl⟩
          · exact pollDriver_view env hrunning hrunning ⟨rfl, rfl, rfl⟩

/-! ### The view -/

/-- The reader's view agrees with the body on everything but the items still to come. -/
structure Views (body : Response.ResponseBody Key) (view : AsyncBody) : Prop where
  terminal : view.terminal = body.terminal
  received : view.receivedBodyBytes = body.receivedBodyBytes
  declared : view.declaredCompletionLength = body.declaredCompletionLength
  encoded : view.encodedCompletion = body.encodedCompletion

/-- Completion at the declared length ends the body exactly when it ends the view. -/
theorem Views.finishDeclaredLength {body : Response.ResponseBody Key} {view : AsyncBody} (h : Views body view)
    (world : Transport.World) (allow : Bool) :
    Views (body.finishDeclaredLength world allow).2 (view.finishDeclaredLength allow) := by
  unfold Response.ResponseBody.finishDeclaredLength AsyncBody.finishDeclaredLength
  simp only [h.terminal, h.encoded, h.declared, h.received]
  split
  · obtain ⟨hended, hsame⟩ := finishNow_completion world { body with remainderWait := none } .cleanEof
    exact ⟨hended.symm, hsame.received.symm, hsame.declared.symm, hsame.encoded.symm⟩
  · exact h

/-- Poll a body again and again; the items are those of its ready polls. -/
def polls (body : Response.ResponseBody Key) : List PollEnv → List Item × Response.ResponseBody Key
  | [] => ([], body)
  | env :: rest =>
      match body.pollNext env with
      | (.ready item, _, next) => let (items, final) := polls next rest; (item :: items, final)
      | (.pending, _, next) => polls next rest

/-- The items of the next polls of a view. -/
def AsyncBody.items (view : AsyncBody) : Nat → List Item × AsyncBody
  | 0 => ([], view)
  | count + 1 => let (items, final) := view.pollNext.2.items count; (view.pollNext.1 :: items, final)

theorem AsyncBody.items_terminal {view : AsyncBody} (h : view.terminal = true) (count : Nat) :
    view.items count = (List.replicate count none, view) := by
  have hpoll : view.pollNext = (none, view) := by simp [AsyncBody.pollNext, h]
  induction count with
  | zero => rfl
  | succ count ih => rw [AsyncBody.items, hpoll, ih, List.replicate_succ]

/-- The item a view ends with. -/
def Ending.item : Ending → Item
  | .eof => none
  | .error failure => some (.error failure)

theorem endsWith {body next : Response.ResponseBody Key} {envs : List PollEnv} (ending : Ending)
    {item : Item} (hitem : ending.item = item) (hrunning : body.terminal = false) (hended : next.terminal = true)
    (hsame : SameCompletion body next)
    (hnext : ∃ view count, Views next view ∧ (view.items count).1 = (polls next envs).1 ∧
      Views (polls next envs).2 (view.items count).2) :
    ∃ view count, Views body view ∧ (view.items count).1 = item :: (polls next envs).1 ∧
      Views (polls next envs).2 (view.items count).2 := by
  obtain ⟨view, count, hviews, hitems, hfinal⟩ := hnext
  rw [AsyncBody.items_terminal (hviews.terminal.trans hended)] at hitems hfinal
  refine ⟨⟨[], ending, body.receivedBodyBytes, body.declaredCompletionLength, body.encodedCompletion, false⟩,
    count + 1, ⟨hrunning.symm, rfl, rfl, rfl⟩, ?_⟩
  have hpoll : AsyncBody.pollNext ⟨[], ending, body.receivedBodyBytes, body.declaredCompletionLength,
      body.encodedCompletion, false⟩ = (item, ⟨[], ending, body.receivedBodyBytes,
        body.declaredCompletionLength, body.encodedCompletion, true⟩) := by
    subst hitem
    cases ending <;> rfl
  rw [AsyncBody.items, hpoll, AsyncBody.items_terminal rfl]
  refine ⟨congrArg _ hitems, ?_⟩
  exact ⟨(hviews.terminal.trans hended).symm.trans hfinal.terminal,
    hsame.received.symm.trans (hviews.received.symm.trans hfinal.received),
    hsame.declared.symm.trans (hviews.declared.symm.trans hfinal.declared),
    hsame.encoded.symm.trans (hviews.encoded.symm.trans hfinal.encoded)⟩

/-- However a body is polled, its items are those of a view that agrees with it before and after. -/
theorem exists_view (envs : List PollEnv) (body : Response.ResponseBody Key) :
    ∃ view count, Views body view ∧ (view.items count).1 = (polls body envs).1 ∧
      Views (polls body envs).2 (view.items count).2 := by
  induction envs generalizing body with
  | nil =>
      refine ⟨⟨[], .eof, body.receivedBodyBytes, body.declaredCompletionLength, body.encodedCompletion,
        body.terminal⟩, 0, ⟨rfl, rfl, rfl, rfl⟩, rfl, ⟨rfl, rfl, rfl, rfl⟩⟩
  | cons env rest ih =>
      have hview := pollNext_view env body
      simp only [polls]
      generalize body.pollNext env = result at hview
      cases hview with
      | ended hterminal =>
          obtain ⟨view, count, hviews, hitems, hfinal⟩ := ih body
          have hover : view.terminal = true := hviews.terminal.trans hterminal
          rw [AsyncBody.items_terminal hover] at hitems hfinal
          refine ⟨view, count + 1, hviews, ?_, ?_⟩
          · rw [AsyncBody.items_terminal hover, List.replicate_succ]
            exact congrArg _ hitems
          · rw [AsyncBody.items_terminal hover]
            exact hfinal
      | frame hrunning hnext hreceived hdeclared hencoded =>
          rename_i bytes _ next
          obtain ⟨view, count, hviews, hitems, hfinal⟩ := ih next
          refine ⟨⟨bytes :: view.frames, view.ending, body.receivedBodyBytes, body.declaredCompletionLength,
            body.encodedCompletion, false⟩, count + 1, ⟨hrunning.symm, rfl, rfl, rfl⟩, ?_⟩
          have hpoll : AsyncBody.pollNext ⟨bytes :: view.frames, view.ending, body.receivedBodyBytes,
              body.declaredCompletionLength, body.encodedCompletion, false⟩ = (some (.ok bytes), view) := by
            obtain ⟨hterminal, hview, hlength, hencoding⟩ := hviews
            cases view
            simp only at hterminal hview hlength hencoding
            simp [AsyncBody.pollNext, ← hreceived, ← hdeclared, ← hencoded, hterminal, hview, hlength, hencoding, hnext]
          rw [AsyncBody.items, hpoll]
          exact ⟨congrArg _ hitems, hfinal⟩
      | eof hrunning hended hsame =>
          rename_i _ next
          exact endsWith .eof rfl hrunning hended hsame (ih next)
      | fails hrunning hended hsame =>
          rename_i error _ next
          exact endsWith (.error error) rfl hrunning hended hsame (ih next)
      | pending hrunning hnext hsame =>
          rename_i _ next
          obtain ⟨view, count, hviews, hitems, hfinal⟩ := ih next
          refine ⟨view, count, ?_, hitems, hfinal⟩
          exact ⟨hviews.terminal.trans (hnext.trans hrunning.symm), hviews.received.trans hsame.received,
            hviews.declared.trans hsame.declared, hviews.encoded.trans hsame.encoded⟩

end RequestsNative.Blocking
