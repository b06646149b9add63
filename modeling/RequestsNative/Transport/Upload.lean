import RequestsNative.Base
import Mathlib.Data.List.Basic

/-!
# The body of a request on its way out

`transport/mod.rs`: `OutgoingBody`, which hands the chunks of an upload to the wire library, and `client.rs`: the counts it
keeps of them. With a session runtime the upload first waits at a gate; the counts of what was queued and executed stop
when the gate opens, and the replies are counted on. The checkpoints that the runtime's hooks observe are left out.
-/

namespace RequestsNative.Transport

/-- `client.rs`, the counts of an upload; each is a `u64` that saturates. -/
structure UploadQueuedExecutedReplyCounts where
  queued : Nat := 0
  executed : Nat := 0
  replies : Nat := 0
  deriving DecidableEq, Repr

namespace UploadQueuedExecutedReplyCounts

def countQueued (counts : UploadQueuedExecutedReplyCounts) : UploadQueuedExecutedReplyCounts :=
  { counts with queued := saturatingAdd counts.queued 1 }

def countExecuted (counts : UploadQueuedExecutedReplyCounts) : UploadQueuedExecutedReplyCounts :=
  { counts with executed := saturatingAdd counts.executed 1 }

def replyObserved (counts : UploadQueuedExecutedReplyCounts) : UploadQueuedExecutedReplyCounts :=
  { counts with replies := saturatingAdd counts.replies 1 }

def isConsistent (counts : UploadQueuedExecutedReplyCounts) : Bool :=
  counts.replies ≤ counts.executed && counts.executed ≤ counts.queued

theorem isConsistent_iff {counts : UploadQueuedExecutedReplyCounts} :
    counts.isConsistent = true ↔ counts.replies ≤ counts.executed ∧ counts.executed ≤ counts.queued := by
  simp [isConsistent]

end UploadQueuedExecutedReplyCounts

/-- `BodySource`; what a stream gives is told by each poll. -/
inductive BodySource
  | empty
  | bytes (bytes : Bytes)
  | stream
  deriving DecidableEq, Repr

/-- One item of a stream: a chunk, an error or the end. -/
abbrev StreamItem := Option (Except Error Bytes)

/-- What a poll of the body meets: whether the gate of the session runtime is open, and what the stream answers. -/
structure UploadPoll where
  gate : Bool
  next : Poll StreamItem
  deriving DecidableEq, Repr

structure OutgoingBody (Runtime Identity : Type) where
  source : BodySource
  /-- Whether the body is complete, if somebody asks. -/
  progress : Option Bool
  uploadEntered : Bool := false
  uploadCounts : UploadQueuedExecutedReplyCounts := {}
  sessionRuntime : Option Runtime
  sessionIdentity : Option Identity
  /-- The future of the gate exists. -/
  uploadWait : Bool := false
  uploadWaitComplete : Bool := false
  deriving DecidableEq, Repr

namespace OutgoingBody

variable {Runtime Identity : Type}

def new (source : BodySource) (trackCompletion : Bool) (sessionRuntime : Option Runtime) (sessionIdentity : Option Identity) :
    OutgoingBody Runtime Identity :=
  let initiallyComplete :=
    match source with
    | .empty => true
    | .bytes bytes => bytes.isEmpty
    | .stream => false
  { source, sessionRuntime, sessionIdentity, progress := if trackCompletion then some initiallyComplete else none }

def markComplete (body : OutgoingBody Runtime Identity) : OutgoingBody Runtime Identity :=
  { body with progress := body.progress.map fun _ => true }

/-- The upload waits at the gate of a session runtime. -/
def gated (body : OutgoingBody Runtime Identity) : Bool := body.sessionRuntime.isSome && body.sessionIdentity.isSome

/-- The counts at the start of a poll. -/
def enterUpload (body : OutgoingBody Runtime Identity) : OutgoingBody Runtime Identity :=
  if !body.uploadWaitComplete && !body.uploadWait then
    { body with uploadEntered := true, uploadCounts := body.uploadCounts.countQueued.countExecuted }
  else body

/-- The answer to a poll, the body after it, and whether its debug assertions held. -/
structure Polled (Runtime Identity : Type) where
  answer : Poll StreamItem
  body : OutgoingBody Runtime Identity
  asserted : Bool
  deriving DecidableEq, Repr

/-- The poll of the stream, once the gate is open. -/
def pollStream (body : OutgoingBody Runtime Identity) (next : Poll StreamItem) : Polled Runtime Identity :=
  let polled :=
    match next with
    | .pending => { body with source := .stream }
    | .ready (some _) => { body with source := .stream }
    | .ready none => { body with source := .empty }.markComplete
  let replied :=
    match next with
    | .pending => polled
    | .ready _ => { polled with uploadCounts := polled.uploadCounts.replyObserved }
  ⟨next, replied, body.uploadEntered && replied.uploadCounts.isConsistent⟩

def pollFrame (body : OutgoingBody Runtime Identity) (poll : UploadPoll) : Polled Runtime Identity :=
  match body.source with
  | .empty => ⟨.ready none, { body with source := .empty }.markComplete, true⟩
  | .bytes bytes =>
      if bytes = [] then ⟨.ready none, { body with source := .empty }.markComplete, true⟩
      else ⟨.ready (some (.ok bytes)), { body with source := .empty }.markComplete, true⟩
  | .stream =>
      let entered := body.enterUpload
      if !entered.uploadWaitComplete && entered.gated then
        if poll.gate then { entered with uploadWait := false, uploadWaitComplete := true }.pollStream poll.next
        else ⟨.pending, { entered with uploadWait := true }, true⟩
      else entered.pollStream poll.next

/-- Poll after poll. -/
def pollAll (body : OutgoingBody Runtime Identity) : List UploadPoll → List (Polled Runtime Identity)
  | [] => []
  | poll :: rest => body.pollFrame poll :: pollAll (body.pollFrame poll).body rest

end OutgoingBody

/-! ### What the stream is asked -/

/-- What the stream answers in a sequence of polls. Polls that find the gate closed do not ask it, until it has once been
open, nor do polls after its end. -/
def streamAnswers (gated : Bool) : List UploadPoll → List (Poll StreamItem)
  | [] => []
  | poll :: rest =>
      if gated && !poll.gate then streamAnswers gated rest
      else
        match poll.next with
        | .ready none => [.ready none]
        | next => next :: streamAnswers false rest

/-- Chunks, errors and the end. -/
def itemCount (answers : List (Poll StreamItem)) : Nat := answers.countP fun | .ready _ => true | .pending => false

@[simp] theorem itemCount_nil : itemCount [] = 0 := rfl

@[simp] theorem itemCount_pending (answers : List (Poll StreamItem)) : itemCount (.pending :: answers) = itemCount answers := by
  simp [itemCount]

@[simp] theorem itemCount_ready (item : StreamItem) (answers : List (Poll StreamItem)) :
    itemCount (.ready item :: answers) = itemCount answers + 1 := by
  simp [itemCount]

theorem streamAnswers_closed {poll : UploadPoll} (hgate : poll.gate = false) (rest : List UploadPoll) :
    streamAnswers true (poll :: rest) = streamAnswers true rest := by
  simp [streamAnswers, hgate]

theorem streamAnswers_open {poll : UploadPoll} (hgate : poll.gate = true) (rest : List UploadPoll) :
    streamAnswers true (poll :: rest) = streamAnswers false (poll :: rest) := by
  simp [streamAnswers, hgate]

namespace OutgoingBody

variable {Runtime Identity : Type} {body : OutgoingBody Runtime Identity}

/-- A poll that keeps the counts in order and meets no failed assertion. -/
def Polled.Sound (result : Polled Runtime Identity) : Prop :=
  result.body.uploadCounts.isConsistent = true ∧ result.asserted = true

/-- The counts after an answer of the stream. -/
def counted (counts : UploadQueuedExecutedReplyCounts) : Poll StreamItem → UploadQueuedExecutedReplyCounts
  | .pending => counts
  | .ready _ => counts.replyObserved

@[simp] theorem markComplete_source : body.markComplete.source = body.source := rfl

@[simp] theorem markComplete_uploadCounts : body.markComplete.uploadCounts = body.uploadCounts := rfl

@[simp] theorem pollStream_uploadCounts (next : Poll StreamItem) :
    (body.pollStream next).body.uploadCounts = counted body.uploadCounts next := by
  rcases next with (_ | _) | _ <;> rfl

@[simp] theorem pollStream_asserted (next : Poll StreamItem) :
    (body.pollStream next).asserted = (body.uploadEntered && (counted body.uploadCounts next).isConsistent) := by
  rcases next with (_ | _) | _ <;> rfl

theorem pollStream_frame (body : OutgoingBody Runtime Identity) (next : Poll StreamItem) :
    (body.pollStream next).body.uploadEntered = body.uploadEntered ∧
    (body.pollStream next).body.uploadWait = body.uploadWait ∧
    (body.pollStream next).body.uploadWaitComplete = body.uploadWaitComplete ∧
    (body.pollStream next).body.gated = body.gated := by
  rcases next with (_ | _) | _ <;> exact ⟨rfl, rfl, rfl, rfl⟩

theorem pollStream_sound_iff (next : Poll StreamItem) (hentered : body.uploadEntered = true) :
    (body.pollStream next).Sound ↔ (counted body.uploadCounts next).isConsistent = true := by
  simp [Polled.Sound, hentered]

theorem pollStream_ended : (body.pollStream (.ready none)).body.source = .empty := rfl

theorem pollStream_goes_on {next : Poll StreamItem} (hnext : next ≠ .ready none) :
    (body.pollStream next).body.source = .stream := by
  rcases next with (_ | _) | _
  · exact absurd rfl hnext
  · rfl
  · rfl

/-! ### After the end -/

theorem pollAll_empty (hsource : body.source = .empty) (hcounts : body.uploadCounts.isConsistent = true)
    (polls : List UploadPoll) : ∀ result ∈ body.pollAll polls, result.Sound := by
  induction polls generalizing body with
  | nil => simp [pollAll]
  | cons poll rest ih =>
      have hpoll : body.pollFrame poll = ⟨.ready none, { body with source := .empty }.markComplete, true⟩ := by
        simp [pollFrame, hsource]
      rw [pollAll, hpoll, List.forall_mem_cons]
      exact ⟨⟨hcounts, rfl⟩, ih rfl hcounts⟩

/-! ### Without a gate

Every poll counts one more as queued and executed, so the replies stay behind. -/

structure Ungated (body : OutgoingBody Runtime Identity) : Prop where
  source : body.source = .stream
  free : body.gated = false
  noWait : body.uploadWait = false
  incomplete : body.uploadWaitComplete = false
  together : body.uploadCounts.executed = body.uploadCounts.queued
  behind : body.uploadCounts.replies ≤ body.uploadCounts.executed
  fits : body.uploadCounts.executed ≤ u64Max

theorem Ungated.pollFrame_eq (h : Ungated body) (poll : UploadPoll) :
    body.pollFrame poll =
      { body with uploadEntered := true, uploadCounts := body.uploadCounts.countQueued.countExecuted }.pollStream poll.next := by
  have hentered : body.enterUpload =
      { body with uploadEntered := true, uploadCounts := body.uploadCounts.countQueued.countExecuted } := by
    simp [enterUpload, h.noWait, h.incomplete]
  have hfree : body.enterUpload.gated = false := by rw [hentered]; exact h.free
  have hpoll : body.pollFrame poll = body.enterUpload.pollStream poll.next := by
    unfold pollFrame
    split
    case h_1 hempty => exact absurd (h.source.symm.trans hempty) (by simp)
    case h_2 hbytes => exact absurd (h.source.symm.trans hbytes) (by simp)
    case h_3 => simp [hfree]
  rw [hpoll, hentered]

theorem Ungated.counted_consistent (h : Ungated body) (next : Poll StreamItem) :
    let counts := counted body.uploadCounts.countQueued.countExecuted next
    counts.executed = counts.queued ∧ counts.replies ≤ counts.executed ∧ counts.executed ≤ u64Max := by
  have hbehind := h.behind
  have hfits := h.fits
  rcases next with _ | _ <;>
    simp only [counted, UploadQueuedExecutedReplyCounts.countQueued, UploadQueuedExecutedReplyCounts.countExecuted,
      UploadQueuedExecutedReplyCounts.replyObserved, saturatingAdd, h.together, true_and] <;>
    rw [h.together] at hbehind hfits <;> omega

theorem Ungated.pollAll_sound (h : Ungated body) (polls : List UploadPoll) : ∀ result ∈ body.pollAll polls, result.Sound := by
  induction polls generalizing body with
  | nil => simp [pollAll]
  | cons poll rest ih =>
      obtain ⟨htogether, hbehind, hfits⟩ := h.counted_consistent poll.next
      have hconsistent := UploadQueuedExecutedReplyCounts.isConsistent_iff.2 ⟨hbehind, Nat.le_of_eq htogether⟩
      rw [pollAll, h.pollFrame_eq, List.forall_mem_cons]
      refine ⟨(pollStream_sound_iff _ rfl).2 hconsistent, ?_⟩
      by_cases hend : poll.next = .ready none
      · rw [hend] at hconsistent ⊢
        exact pollAll_empty pollStream_ended (by rw [pollStream_uploadCounts]; exact hconsistent) rest
      · obtain ⟨-, hwait, hcomplete, hgated⟩ := pollStream_frame
          { body with uploadEntered := true, uploadCounts := body.uploadCounts.countQueued.countExecuted } poll.next
        refine ih ⟨pollStream_goes_on hend, hgated.trans h.free, hwait.trans h.noWait, hcomplete.trans h.incomplete, ?_, ?_, ?_⟩
        all_goals rw [pollStream_uploadCounts]
        · exact htogether
        · exact hbehind
        · exact hfits

/-! ### With a gate

One is queued and executed before the gate opens and none after it, so one reply is all that the counts have room for. -/

/-- The counts while the upload waits, and after it with the replies so far. -/
def oneUpload (replies : Nat) : UploadQueuedExecutedReplyCounts := ⟨1, 1, replies⟩

theorem oneUpload_isConsistent (replies : Nat) : (oneUpload replies).isConsistent = true ↔ replies ≤ 1 := by
  rw [UploadQueuedExecutedReplyCounts.isConsistent_iff]
  exact and_iff_left (Nat.le_refl 1)

theorem oneUpload_replyObserved {replies : Nat} (hreplies : replies ≤ 1) :
    (oneUpload replies).replyObserved = oneUpload (replies + 1) := by
  have hfits : replies + 1 ≤ u64Max := by unfold u64Max; omega
  simp [oneUpload, UploadQueuedExecutedReplyCounts.replyObserved, saturatingAdd, hfits]

structure Opened (body : OutgoingBody Runtime Identity) (replies : Nat) : Prop where
  source : body.source = .stream
  entered : body.uploadEntered = true
  complete : body.uploadWaitComplete = true
  counts : body.uploadCounts = oneUpload replies

theorem Opened.pollFrame_eq {replies : Nat} (h : Opened body replies) (poll : UploadPoll) :
    body.pollFrame poll = body.pollStream poll.next := by
  simp [pollFrame, h.source, enterUpload, h.complete]

/-- What follows one answer of the stream behind an open gate. -/
theorem Opened.pollStream_all_iff {replies : Nat} (h : Opened body replies) (hreplies : replies ≤ 1) (next : Poll StreamItem)
    (rest : List UploadPoll)
    (ih : ∀ replies, replies ≤ 1 → Opened (body.pollStream next).body replies →
      ((∀ result ∈ (body.pollStream next).body.pollAll rest, result.Sound) ↔
        replies + itemCount (streamAnswers false rest) ≤ 1)) :
    ((body.pollStream next).Sound ∧ ∀ result ∈ (body.pollStream next).body.pollAll rest, result.Sound) ↔
      replies + itemCount (streamAnswers false (⟨true, next⟩ :: rest)) ≤ 1 := by
  obtain ⟨hentered, -, hcomplete, -⟩ := pollStream_frame body next
  rw [pollStream_sound_iff next h.entered, h.counts]
  rcases next with (_ | item) | _
  · simp only [counted, oneUpload_replyObserved hreplies, oneUpload_isConsistent, streamAnswers, Bool.false_and,
      Bool.false_eq_true, if_false, itemCount_ready, itemCount_nil, Nat.zero_add]
    constructor
    · exact fun hsound => hsound.1
    · intro hroom
      refine ⟨hroom, pollAll_empty pollStream_ended ?_ rest⟩
      rw [pollStream_uploadCounts, h.counts, counted, oneUpload_replyObserved hreplies]
      exact (oneUpload_isConsistent _).2 hroom
  · have hcounts : (body.pollStream (.ready (some item))).body.uploadCounts = oneUpload (replies + 1) := by
      rw [pollStream_uploadCounts, h.counts, counted, oneUpload_replyObserved hreplies]
    simp only [counted, oneUpload_replyObserved hreplies, oneUpload_isConsistent, streamAnswers, Bool.false_and,
      Bool.false_eq_true, if_false, itemCount_ready]
    constructor
    · rintro ⟨hroom, hall⟩
      have := (ih (replies + 1) hroom ⟨rfl, hentered.trans h.entered, hcomplete.trans h.complete, hcounts⟩).1 hall
      omega
    · intro htotal
      have hroom : replies + 1 ≤ 1 := by omega
      refine ⟨hroom, (ih (replies + 1) hroom ⟨rfl, hentered.trans h.entered, hcomplete.trans h.complete, hcounts⟩).2 ?_⟩
      omega
  · have hopened : Opened (body.pollStream .pending).body replies :=
      ⟨rfl, hentered.trans h.entered, hcomplete.trans h.complete, by rw [pollStream_uploadCounts, h.counts, counted]⟩
    simp only [counted, oneUpload_isConsistent, hreplies, true_and, streamAnswers, Bool.false_and, Bool.false_eq_true, if_false,
      itemCount_pending]
    exact ih replies hreplies hopened

theorem Opened.pollAll_sound_iff {replies : Nat} (h : Opened body replies) (hreplies : replies ≤ 1) (polls : List UploadPoll) :
    (∀ result ∈ body.pollAll polls, result.Sound) ↔ replies + itemCount (streamAnswers false polls) ≤ 1 := by
  induction polls generalizing body replies with
  | nil => simp [pollAll, streamAnswers, hreplies]
  | cons poll rest ih =>
      rw [pollAll, h.pollFrame_eq, List.forall_mem_cons]
      exact h.pollStream_all_iff hreplies poll.next rest fun replies hreplies hopened => ih hopened hreplies

structure Waiting (body : OutgoingBody Runtime Identity) : Prop where
  source : body.source = .stream
  held : body.gated = true
  incomplete : body.uploadWaitComplete = false
  counts : body.enterUpload.uploadCounts = oneUpload 0
  entered : body.enterUpload.uploadEntered = true

theorem enterUpload_frame (body : OutgoingBody Runtime Identity) : body.enterUpload.uploadWaitComplete = body.uploadWaitComplete ∧
    body.enterUpload.gated = body.gated ∧ body.enterUpload.source = body.source := by
  unfold enterUpload
  split
  · exact ⟨rfl, rfl, rfl⟩
  · exact ⟨rfl, rfl, rfl⟩

theorem Waiting.pollFrame_eq (h : Waiting body) (poll : UploadPoll) :
    body.pollFrame poll =
      if poll.gate then { body.enterUpload with uploadWait := false, uploadWaitComplete := true }.pollStream poll.next
      else ⟨.pending, { body.enterUpload with uploadWait := true }, true⟩ := by
  obtain ⟨hcomplete, hgated, -⟩ := enterUpload_frame body
  simp [pollFrame, h.source, hcomplete, h.incomplete, hgated, h.held]

theorem Waiting.pollAll_sound_iff (h : Waiting body) (polls : List UploadPoll) :
    (∀ result ∈ body.pollAll polls, result.Sound) ↔ itemCount (streamAnswers true polls) ≤ 1 := by
  induction polls generalizing body with
  | nil => simp [pollAll, streamAnswers]
  | cons poll rest ih =>
      obtain ⟨hcomplete, hgated, hsource⟩ := enterUpload_frame body
      rw [pollAll, h.pollFrame_eq, List.forall_mem_cons]
      cases hgate : poll.gate with
      | true =>
          have hopened : Opened { body.enterUpload with uploadWait := false, uploadWaitComplete := true } 0 :=
            ⟨hsource.trans h.source, h.entered, rfl, h.counts⟩
          rw [if_pos rfl, streamAnswers_open hgate]
          have hiff := hopened.pollStream_all_iff (by omega) poll.next rest
            fun replies hreplies hnext => hnext.pollAll_sound_iff hreplies rest
          rw [Nat.zero_add] at hiff
          exact hiff
      | false =>
          have hstays : Waiting { body.enterUpload with uploadWait := true } := by
            refine ⟨hsource.trans h.source, hgated.trans h.held, hcomplete.trans h.incomplete, ?_, ?_⟩
            · simpa [enterUpload] using h.counts
            · simpa [enterUpload] using h.entered
          have hsound : (⟨.pending, { body.enterUpload with uploadWait := true }, true⟩ : Polled Runtime Identity).Sound :=
            ⟨by change body.enterUpload.uploadCounts.isConsistent = true; rw [h.counts]; rfl, rfl⟩
          rw [if_neg (by simp), streamAnswers_closed hgate, iff_true_intro hsound, true_and]
          exact ih hstays

/-- With a session runtime and its identity the counts stay in order as long as the stream gives at most one item. -/
theorem upload_counts_consistent_iff (track : Bool) (runtime : Option Runtime) (identity : Option Identity)
    (polls : List UploadPoll) :
    (∀ result ∈ (new .stream track runtime identity).pollAll polls,
      result.body.uploadCounts.isConsistent = true ∧ result.asserted = true) ↔
    runtime = none ∨ identity = none ∨ itemCount (streamAnswers true polls) ≤ 1 := by
  have hgated : (new .stream track runtime identity).gated = (runtime.isSome && identity.isSome) := rfl
  rcases runtime with _ | runtime
  · have hfree : Ungated (new .stream track (none : Option Runtime) identity) :=
      ⟨rfl, hgated, rfl, rfl, rfl, Nat.le_refl 0, Nat.zero_le _⟩
    exact iff_of_true (hfree.pollAll_sound polls) (.inl rfl)
  rcases identity with _ | identity
  · have hfree : Ungated (new .stream track (some runtime) (none : Option Identity)) :=
      ⟨rfl, hgated, rfl, rfl, rfl, Nat.le_refl 0, Nat.zero_le _⟩
    exact iff_of_true (hfree.pollAll_sound polls) (.inr (.inl rfl))
  · have hwaiting : Waiting (new .stream track (some runtime) (some identity)) := ⟨rfl, hgated, rfl, rfl, rfl⟩
    simpa [Polled.Sound] using hwaiting.pollAll_sound_iff polls

/-- A stream of one chunk, behind a gate that opens at once: its end is the second reply of one upload. -/
theorem upload_of_one_chunk_inconsistent :
    ¬ ∀ result ∈ (new .stream false (some ()) (some ())).pollAll [⟨true, .ready (some (.ok [97]))⟩, ⟨true, .ready none⟩],
      result.body.uploadCounts.isConsistent = true ∧ result.asserted = true := by
  decide

end OutgoingBody

end RequestsNative.Transport
