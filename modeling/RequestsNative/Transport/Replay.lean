import RequestsNative.Transport.DecodeRuns

/-!
# Showing the wire a second time

A `deflate` body is first taken for zlib. While that decoder has given nothing, the reader notes down what it consumed;
if the decoder fails, a decoder of raw data gets the notes and then the rest of the wire. What the reader has still to
show (`unread`) says it all: looking does not change it, consuming takes from its front, and with the notes in front of
it again it is the whole wire.
-/

namespace RequestsNative.Transport.Decode

open RequestsNative.Lib

/-- The bytes of the frames to come. -/
def frameBytes : List (Poll Frame) → Bytes
  | [] => []
  | .ready (.data bytes) :: script => bytes ++ frameBytes script
  | _ :: script => frameBytes script

/-- What a decoder has still to see. -/
def unread (wire : Incoming) (reader : IncomingReader) : Bytes :=
  reader.replay.drop reader.replayOffset ++ (reader.buffered.drop reader.bufferedOffset ++ frameBytes wire.script)

/-- The offsets lie within their buffers, and a reader that knows of the end has all frames. -/
structure InRange (wire : Incoming) (reader : IncomingReader) : Prop where
  replay : reader.replayOffset ≤ reader.replay.length
  buffered : reader.bufferedOffset ≤ reader.buffered.length
  ended : (reader.transportError.isSome || reader.cleanEof) = true → wire.script = []

/-- The bytes `consume` may take. -/
def consumable (reader : IncomingReader) : Nat :=
  if reader.replayOffset < reader.replay.length then reader.replay.length - reader.replayOffset
  else reader.buffered.length - reader.bufferedOffset

variable {wire wire' : Incoming} {reader reader' : IncomingReader}

/-! ### Looking -/

theorem slice_prefix (bytes : Bytes) (offset : Nat) (limit : Option Nat) : slice bytes offset limit <+: bytes.drop offset := by
  cases limit with
  | none => exact List.prefix_refl _
  | some n => exact List.take_prefix _ _

/-- What is shown is the front of what is unread, and all of it can be consumed. -/
theorem shown_unread (h : InRange wire reader) {available : Bytes} (hshown : reader.shown = some available) :
    available <+: unread wire reader ∧ available.length ≤ consumable reader ∧
      (available = [] → reader.inputLimit ≠ some 0 → unread wire reader = []) := by
  unfold IncomingReader.shown at hshown
  unfold consumable unread
  split at hshown
  · rename_i hreplay
    obtain rfl := Option.some.inj hshown
    have hfront := slice_prefix reader.replay reader.replayOffset reader.inputLimit
    refine ⟨hfront.trans (List.prefix_append _ _), ?_, ?_⟩
    · rw [if_pos hreplay, ← List.length_drop]
      exact hfront.length_le
    · intro hempty hlimit
      have hdrop := slice_eq_nil hlimit hempty
      omega
  rename_i hreplay
  have hreplayed : reader.replay.drop reader.replayOffset = [] := List.drop_eq_nil_of_le (Nat.le_of_not_lt hreplay)
  rw [hreplayed, List.nil_append, if_neg hreplay]
  split at hshown
  · rename_i hbuffered
    obtain rfl := Option.some.inj hshown
    have hfront := slice_prefix reader.buffered reader.bufferedOffset reader.inputLimit
    refine ⟨hfront.trans (List.prefix_append _ _), ?_, ?_⟩
    · rw [← List.length_drop]
      exact hfront.length_le
    · intro hempty hlimit
      have hdrop := slice_eq_nil hlimit hempty
      omega
  rename_i hbuffered
  split at hshown
  · rename_i hended
    obtain rfl := Option.some.inj hshown
    refine ⟨List.nil_prefix, Nat.zero_le _, fun _ _ => ?_⟩
    rw [h.ended hended, List.drop_eq_nil_of_le (Nat.le_of_not_lt hbuffered)]
    rfl
  · cases hshown

/-- What looking leaves alone. -/
structure Looks (wire : Incoming) (reader : IncomingReader) (wire' : Incoming) (reader' : IncomingReader) : Prop where
  range : InRange wire' reader'
  unread : unread wire' reader' = unread wire reader
  replay : reader'.replay = reader.replay ∧ reader'.replayOffset = reader.replayOffset
  tentative : reader'.tentative = reader.tentative
  recordTentative : reader'.recordTentative = reader.recordTentative
  inputLimit : reader'.inputLimit = reader.inputLimit

theorem looks_refl (h : InRange wire reader) : Looks wire reader wire reader := ⟨h, rfl, ⟨rfl, rfl⟩, rfl, rfl, rfl⟩

theorem Looks.trans {wire'' : Incoming} {reader'' : IncomingReader} (h : Looks wire reader wire' reader')
    (h' : Looks wire' reader' wire'' reader'') : Looks wire reader wire'' reader'' :=
  ⟨h'.range, h'.unread.trans h.unread, ⟨h'.replay.1.trans h.replay.1, h'.replay.2.trans h.replay.2⟩,
    h'.tentative.trans h.tentative, h'.recordTentative.trans h.recordTentative, h'.inputLimit.trans h.inputLimit⟩

theorem takeFrame_looks {frame : Frame} {script : List (Poll Frame)} (h : InRange { wire with script := .ready frame :: script } reader)
    (hshown : reader.shown = none) :
    Looks { wire with script := .ready frame :: script } reader { wire with script } (reader.takeFrame (some (.ok frame))) := by
  obtain ⟨hreplay, hbuffered, herror, hclean⟩ := shown_none hshown
  have hlive : (reader.transportError.isSome || reader.cleanEof) = false := by simp [herror, hclean]
  have hreplayed : reader.replay.drop reader.replayOffset = [] := List.drop_eq_nil_of_le hreplay
  have hempty : reader.buffered.drop reader.bufferedOffset = [] := List.drop_eq_nil_of_le hbuffered
  have hdead : ∀ {P : Prop}, (reader.transportError.isSome || reader.cleanEof) = true → P := by
    intro P hended
    rw [hlive] at hended
    cases hended
  cases frame with
  | trailers =>
      exact ⟨⟨h.replay, h.buffered, hdead⟩, rfl, ⟨rfl, rfl⟩, rfl, rfl, rfl⟩
  | data bytes =>
      by_cases hbytes : bytes = []
      · rw [IncomingReader.takeFrame, if_pos hbytes]
        refine ⟨⟨h.replay, h.buffered, hdead⟩, ?_, ⟨rfl, rfl⟩, rfl, rfl, rfl⟩
        rw [unread, unread, frameBytes, hbytes]
        rfl
      · rw [IncomingReader.takeFrame, if_neg hbytes]
        refine ⟨⟨h.replay, Nat.zero_le _, hdead⟩, ?_, ⟨rfl, rfl⟩, rfl, rfl, rfl⟩
        rw [unread, unread, hreplayed, hempty, frameBytes]
        rfl

theorem pollEnd_looks (h : InRange { wire with script := [] } reader) (hshown : reader.shown = none) :
    Looks { wire with script := [] } reader wire.pollEnd.2 (reader.takeFrame wire.pollEnd.1) ∧
      (reader.takeFrame wire.pollEnd.1).shown = some [] := by
  obtain ⟨hreplay, hbuffered, -, -⟩ := shown_none hshown
  unfold Incoming.pollEnd
  split
  · refine ⟨⟨⟨h.replay, h.buffered, fun _ => rfl⟩, rfl, ⟨rfl, rfl⟩, rfl, rfl, rfl⟩, ?_⟩
    simp [IncomingReader.takeFrame, IncomingReader.shown, Nat.not_lt.mpr hreplay, Nat.not_lt.mpr hbuffered]
  · refine ⟨⟨⟨h.replay, h.buffered, fun _ => rfl⟩, rfl, ⟨rfl, rfl⟩, rfl, rfl, rfl⟩, ?_⟩
    simp [IncomingReader.takeFrame, IncomingReader.shown, Nat.not_lt.mpr hreplay, Nat.not_lt.mpr hbuffered]

/-- What `poll_fill_buf` answers: it waits, or it shows what the reader can show. -/
theorem fillFrom_looks {script : List (Poll Frame)} (h : InRange { wire with script } reader)
    {poll : Poll (Except IoError Bytes)} (hfill : IncomingReader.fillFrom script wire reader = (poll, wire', reader')) :
    Looks { wire with script } reader wire' reader' ∧
      (poll = .pending ∨ ∃ available, poll = .ready (.ok available) ∧ reader'.shown = some available) := by
  induction script generalizing reader with
  | nil =>
      unfold IncomingReader.fillFrom at hfill
      split at hfill
      · rename_i available hshown
        cases hfill
        exact ⟨looks_refl h, .inr ⟨available, rfl, hshown⟩⟩
      · rename_i hshown
        cases hfill
        obtain ⟨hlooks, hnothing⟩ := pollEnd_looks h hshown
        exact ⟨hlooks, .inr ⟨[], congrArg (fun shown => Poll.ready (Except.ok (shown.getD []))) hnothing, hnothing⟩⟩
  | cons head script ih =>
      unfold IncomingReader.fillFrom at hfill
      split at hfill
      · rename_i available hshown
        cases hfill
        exact ⟨looks_refl h, .inr ⟨available, rfl, hshown⟩⟩
      rename_i hshown
      cases head with
      | pending =>
          cases hfill
          have hlive := shown_none hshown
          refine ⟨⟨⟨h.replay, h.buffered, ?_⟩, rfl, ⟨rfl, rfl⟩, rfl, rfl, rfl⟩, .inl rfl⟩
          simp [hlive.2.2]
      | ready frame =>
          have htaken := takeFrame_looks h hshown
          obtain ⟨hlooks, hanswer⟩ := ih htaken.range hfill
          exact ⟨htaken.trans hlooks, hanswer⟩

/-! ### Consuming -/

/-- What consuming does: it takes from the front of what is unread, and notes it down while the reader records. -/
structure Consumes (wire : Incoming) (reader : IncomingReader) (amount : Nat) (reader' : IncomingReader) : Prop where
  range : InRange wire reader'
  unread : unread wire reader' = (unread wire reader).drop amount
  tentative : reader'.tentative =
    if reader.recordTentative then reader.tentative ++ (Decode.unread wire reader).take amount else reader.tentative
  recordTentative : reader'.recordTentative = reader.recordTentative
  inputLimit : reader'.inputLimit = reader.inputLimit
  left : consumable reader - amount ≤ consumable reader'
  replayed : reader.replayOffset = reader.replay.length → reader'.replayOffset = reader'.replay.length

theorem consume_replay (h : InRange wire reader) (hreplay : reader.replayOffset < reader.replay.length) {amount : Nat}
    (hamount : amount ≤ consumable reader) : ∃ reader', reader.consume amount = some reader' ∧ Consumes wire reader amount reader' := by
  rw [consumable, if_pos hreplay] at hamount
  have hwithin : amount ≤ (reader.replay.drop reader.replayOffset).length := by rwa [List.length_drop]
  rw [IncomingReader.consume, if_pos hreplay, if_pos hamount]
  refine ⟨_, rfl, ⟨?_, h.buffered, h.ended⟩, ?_, ?_, rfl, rfl, ?_, ?_⟩
  · show reader.replayOffset + amount ≤ reader.replay.length
    omega
  · simp only [unread]
    rw [List.drop_append_of_le_length hwithin, List.drop_drop]
  · simp only [unread]
    rw [List.take_append_of_le_length hwithin]
  · simp only [consumable]
    split <;> split <;> omega
  · intro hreplayed
    omega

theorem consume_buffered (h : InRange wire reader) (hreplay : ¬reader.replayOffset < reader.replay.length) {amount : Nat}
    (hamount : amount ≤ consumable reader) : ∃ reader', reader.consume amount = some reader' ∧ Consumes wire reader amount reader' := by
  rw [consumable, if_neg hreplay] at hamount
  have hwithin : amount ≤ (reader.buffered.drop reader.bufferedOffset).length := by rwa [List.length_drop]
  have hreplayed : reader.replay.drop reader.replayOffset = [] := List.drop_eq_nil_of_le (Nat.le_of_not_lt hreplay)
  have hbuffered := h.buffered
  rw [IncomingReader.consume, if_neg hreplay, if_pos hamount]
  refine ⟨_, rfl, ⟨h.replay, ?_, h.ended⟩, ?_, ?_, rfl, rfl, ?_, id⟩
  · show reader.bufferedOffset + amount ≤ reader.buffered.length
    omega
  · simp only [unread]
    rw [hreplayed, List.nil_append, List.nil_append, List.drop_append_of_le_length hwithin, List.drop_drop]
  · simp only [unread]
    rw [hreplayed, List.nil_append, List.take_append_of_le_length hwithin]
  · simp only [consumable]
    rw [if_neg hreplay, if_neg hreplay]
    omega

theorem consume_consumes (h : InRange wire reader) {amount : Nat} (hamount : amount ≤ consumable reader) :
    ∃ reader', reader.consume amount = some reader' ∧ Consumes wire reader amount reader' := by
  by_cases hreplay : reader.replayOffset < reader.replay.length
  · exact consume_replay h hreplay hamount
  · exact consume_buffered h hreplay hamount

/-! ### The two decoders -/

/-- The reader, with what the decoder still has before it of the last look, and what the present decoder has consumed. -/
structure ReplayState where
  wire : Incoming
  reader : IncomingReader
  offer : Bytes := []
  seen : Bytes := []
  installed : Bool := false
  deriving DecidableEq, Repr

/-- What a decoder does to the reader, and the change of decoders. -/
inductive ReplayOp
  | fillBuf
  | consume (amount : Nat)
  | limit (limit : Option Nat)
  | install
  deriving DecidableEq, Repr

inductive ReplayAnswer
  | shown (poll : Poll (Except IoError Bytes))
  | done
  /-- An assertion has failed. -/
  | panicked
  deriving DecidableEq, Repr

namespace ReplayState

/-- A decoder consumes no more than it was shown. The change of decoders comes once. -/
def step (state : ReplayState) : ReplayOp → Option (ReplayAnswer × ReplayState)
  | .fillBuf =>
      match state.reader.pollFillBuf state.wire with
      | (.ready (.ok available), wire, reader) =>
          some (.shown (.ready (.ok available)), { state with wire, reader, offer := available })
      | (poll, wire, reader) => some (.shown poll, { state with wire, reader, offer := [] })
  | .consume amount =>
      if state.offer.length < amount then none
      else
        match state.reader.consume amount with
        | none => some (.panicked, state)
        | some reader =>
            some (.done, { state with
              reader, offer := state.offer.drop amount, seen := state.seen ++ state.offer.take amount })
  | .limit limit => some (.done, { state with reader := { state.reader with inputLimit := limit } })
  | .install =>
      if state.installed then none
      else some (.done, { state with reader := state.reader.installTentativeReplay, offer := [], seen := [], installed := true })

def machine : Machine ReplayState ReplayOp ReplayAnswer := ⟨step⟩

/-- A `deflate` body before its first read. -/
def start (wire : Incoming) (chunked : Bool) (limit : Option Nat) : ReplayState :=
  { wire, reader := { (IncomingReader.new chunked).startTentativeRecording with inputLimit := limit } }

end ReplayState

/-- What was consumed and what is unread is the wire, and until the change the notes are what was consumed. -/
structure ReplayInv (all : Bytes) (state : ReplayState) : Prop where
  range : InRange state.wire state.reader
  offer : state.offer <+: unread state.wire state.reader
  room : state.offer.length ≤ consumable state.reader
  balance : state.seen ++ unread state.wire state.reader = all
  notes : state.installed = false → state.reader.recordTentative = true ∧ state.reader.tentative = state.seen ∧
    state.reader.replayOffset = state.reader.replay.length

section Steps

variable {all : Bytes} {state state' : ReplayState} {answer : ReplayAnswer}

theorem replayInv_start (wire : Incoming) (chunked : Bool) (limit : Option Nat) :
    ReplayInv (frameBytes wire.script) (ReplayState.start wire chunked limit) :=
  ⟨⟨Nat.le_refl 0, Nat.le_refl 0, nofun⟩, List.nil_prefix, Nat.zero_le _, rfl, fun _ => ⟨rfl, rfl, rfl⟩⟩

/-- After a look at the reader the offer is what was shown. -/
theorem ReplayInv.look (h : ReplayInv all state) {offer : Bytes} (hlooks : Looks state.wire state.reader wire' reader')
    (hoffer : offer <+: unread wire' reader') (hconsumable : offer.length ≤ consumable reader') :
    ReplayInv all { state with wire := wire', reader := reader', offer } := by
  refine ⟨hlooks.range, hoffer, hconsumable, ?_, ?_⟩
  · show state.seen ++ unread wire' reader' = all
    rw [hlooks.unread, h.balance]
  · intro hbefore
    obtain ⟨hrecord, htentative, hreplayed⟩ := h.notes hbefore
    refine ⟨hlooks.recordTentative.trans hrecord, hlooks.tentative.trans htentative, ?_⟩
    show reader'.replayOffset = reader'.replay.length
    rw [hlooks.replay.1, hlooks.replay.2, hreplayed]

theorem ReplayInv.fillBuf (h : ReplayInv all state) (hstep : state.step .fillBuf = some (answer, state')) :
    ReplayInv all state' ∧ answer ≠ .panicked := by
  obtain ⟨⟨poll, wire', reader'⟩, hfill⟩ : ∃ r, state.reader.pollFillBuf state.wire = r := ⟨_, rfl⟩
  obtain ⟨hlooks, hanswer⟩ := fillFrom_looks h.range hfill
  rw [ReplayState.step, hfill] at hstep
  rcases hanswer with rfl | ⟨available, rfl, hshown⟩
  · cases hstep
    exact ⟨h.look hlooks List.nil_prefix (Nat.zero_le _), nofun⟩
  · cases hstep
    obtain ⟨hfront, hlength, -⟩ := shown_unread hlooks.range hshown
    exact ⟨h.look hlooks hfront hlength, nofun⟩

/-- What is consumed is the front of what is unread. -/
theorem ReplayInv.consume (h : ReplayInv all state) {amount : Nat} (hstep : state.step (.consume amount) = some (answer, state')) :
    ReplayInv all state' ∧ answer ≠ .panicked := by
  rw [ReplayState.step] at hstep
  split at hstep
  · cases hstep
  rename_i hwithin
  have hoffered : amount ≤ state.offer.length := Nat.le_of_not_lt hwithin
  obtain ⟨reader', hconsume, hconsumes⟩ := consume_consumes h.range (Nat.le_trans hoffered h.room)
  rw [hconsume] at hstep
  cases hstep
  obtain ⟨rest, hrest⟩ := h.offer
  have htake : (unread state.wire state.reader).take amount = state.offer.take amount := by
    rw [← hrest, List.take_append_of_le_length hoffered]
  refine ⟨⟨hconsumes.range, ?_, ?_, ?_, ?_⟩, nofun⟩
  · show state.offer.drop amount <+: unread state.wire reader'
    rw [hconsumes.unread, ← hrest, List.drop_append_of_le_length hoffered]
    exact List.prefix_append _ _
  · show (state.offer.drop amount).length ≤ consumable reader'
    have hleft := hconsumes.left
    have hroom := h.room
    rw [List.length_drop]
    omega
  · show state.seen ++ state.offer.take amount ++ unread state.wire reader' = all
    rw [hconsumes.unread, ← htake, List.append_assoc, List.take_append_drop, h.balance]
  · intro hbefore
    obtain ⟨hrecord, htentative, hreplayed⟩ := h.notes hbefore
    refine ⟨hconsumes.recordTentative.trans hrecord, ?_, hconsumes.replayed hreplayed⟩
    show reader'.tentative = state.seen ++ state.offer.take amount
    rw [hconsumes.tentative, if_pos hrecord, htentative, htake]

theorem ReplayInv.limit (h : ReplayInv all state) {limit : Option Nat} (hstep : state.step (.limit limit) = some (answer, state')) :
    ReplayInv all state' ∧ answer ≠ .panicked := by
  cases hstep
  exact ⟨⟨⟨h.range.replay, h.range.buffered, h.range.ended⟩, h.offer, h.room, h.balance, h.notes⟩, nofun⟩

theorem unread_install (hreplayed : reader.replayOffset = reader.replay.length) :
    unread wire reader.installTentativeReplay = reader.tentative ++ unread wire reader := by
  have hnone : reader.replay.drop reader.replayOffset = [] := List.drop_eq_nil_of_le (Nat.le_of_eq hreplayed.symm)
  rw [unread, unread, hnone]
  rfl

theorem ReplayInv.install (h : ReplayInv all state) (hstep : state.step .install = some (answer, state')) :
    ReplayInv all state' ∧ answer ≠ .panicked := by
  rw [ReplayState.step] at hstep
  split at hstep
  · cases hstep
  rename_i hbefore
  cases hstep
  obtain ⟨-, htentative, hreplayed⟩ := h.notes (by simpa using hbefore)
  refine ⟨⟨⟨Nat.zero_le _, h.range.buffered, h.range.ended⟩, List.nil_prefix, Nat.zero_le _, ?_, nofun⟩, nofun⟩
  show unread state.wire state.reader.installTentativeReplay = all
  rw [unread_install hreplayed, htentative, h.balance]

theorem ReplayInv.step (h : ReplayInv all state) {op : ReplayOp} (hstep : state.step op = some (answer, state')) :
    ReplayInv all state' ∧ answer ≠ .panicked := by
  cases op with
  | fillBuf => exact h.fillBuf hstep
  | consume amount => exact h.consume hstep
  | limit limit => exact h.limit hstep
  | install => exact h.install hstep

end Steps

/-! ### Runs -/

/-- The end of the range `poll_fill_buf` takes of a buffer. -/
def sliceEnd (bytes : Bytes) (offset : Nat) (limit : Option Nat) : Nat :=
  limit.elim bytes.length fun limit => min (offset + limit) bytes.length

theorem slice_eq_range {bytes : Bytes} {offset : Nat} (limit : Option Nat) :
    slice bytes offset limit = (bytes.take (sliceEnd bytes offset limit)).drop offset := by
  cases limit with
  | none => rw [sliceEnd, Option.elim_none, List.take_length, slice]
  | some n =>
      have htake : bytes.take (min (offset + n) bytes.length) = bytes.take (offset + n) := List.take_eq_take_min.symm
      rw [sliceEnd, Option.elim_some, slice, htake, List.drop_take, Nat.add_sub_cancel_left]

/-- A buffer is indexed within its bounds. -/
def Indexed (bytes : Bytes) (offset : Nat) (limit : Option Nat) : Prop :=
  offset ≤ sliceEnd bytes offset limit ∧ sliceEnd bytes offset limit ≤ bytes.length

/-- What the decoder of raw data gets to see of the wire. -/
structure ReplaysWire (all : Bytes) (trace : List (ReplayOp × ReplayAnswer)) (state : ReplayState) : Prop where
  /-- No assertion fails, and no index is out of range. -/
  sound : ∀ entry ∈ trace, entry.2 ≠ .panicked
  replayed : Indexed state.reader.replay state.reader.replayOffset state.reader.inputLimit
  buffered : Indexed state.reader.buffered state.reader.bufferedOffset state.reader.inputLimit
  /-- What it has consumed and what is before it is a front of the wire. -/
  front : state.installed = true → state.seen ++ state.offer <+: all
  /-- What it is shown next goes on from there, and nothing is shown only if it has consumed the whole wire. -/
  next : state.installed = true → ∀ available wire reader,
    state.reader.pollFillBuf state.wire = (.ready (.ok available), wire, reader) →
      state.seen ++ available <+: all ∧ (available = [] → state.reader.inputLimit ≠ some 0 → state.seen = all)

theorem indexed_of_le {bytes : Bytes} {offset : Nat} (h : offset ≤ bytes.length) (limit : Option Nat) : Indexed bytes offset limit := by
  cases limit with
  | none => exact ⟨h, Nat.le_refl _⟩
  | some n => exact ⟨Nat.le_min.mpr ⟨Nat.le_add_right _ _, h⟩, Nat.min_le_right _ _⟩

theorem replayInv_run {wire : Incoming} {chunked : Bool} {limit : Option Nat} {trace : List (ReplayOp × ReplayAnswer)}
    {state : ReplayState} (hrun : ReplayState.machine.Run (ReplayState.start wire chunked limit) trace state) :
    ReplayInv (frameBytes wire.script) state ∧ ∀ entry ∈ trace, entry.2 ≠ .panicked := by
  refine hrun.induction (fun trace state => ReplayInv (frameBytes wire.script) state ∧ ∀ entry ∈ trace, entry.2 ≠ .panicked)
    ⟨replayInv_start wire chunked limit, fun _ hmem => absurd hmem List.not_mem_nil⟩ ?_
  rintro trace state op answer state' - ⟨hinv, hsound⟩ hstep
  obtain ⟨hinv', hanswer⟩ := hinv.step hstep
  refine ⟨hinv', ?_⟩
  intro entry hentry
  rcases List.mem_append.mp hentry with hentry | hentry
  · exact hsound entry hentry
  · obtain rfl := List.mem_singleton.mp hentry
    exact hanswer

/-- Whatever the zlib decoder looked at and consumed, and whatever the decoder of raw data does after it: that one sees the
wire from its first byte, in order and whole. -/
theorem raw_decoder_sees_wire {wire : Incoming} {chunked : Bool} {limit : Option Nat} {trace : List (ReplayOp × ReplayAnswer)}
    {state : ReplayState} (hrun : ReplayState.machine.Run (ReplayState.start wire chunked limit) trace state) :
    ReplaysWire (frameBytes wire.script) trace state := by
  obtain ⟨hinv, hsound⟩ := replayInv_run hrun
  refine ⟨hsound, indexed_of_le hinv.range.replay _, indexed_of_le hinv.range.buffered _, fun _ => ?_, fun _ => ?_⟩
  · rw [← hinv.balance]
    exact (List.prefix_append_right_inj _).mpr hinv.offer
  · intro available wire' reader' hfill
    obtain ⟨hlooks, hanswer⟩ := fillFrom_looks hinv.range hfill
    obtain ⟨shown, hpoll, hshown⟩ := hanswer.resolve_left nofun
    cases hpoll
    obtain ⟨hfront, -, hempty⟩ := shown_unread hlooks.range hshown
    rw [hlooks.unread] at hfront hempty
    constructor
    · rw [← hinv.balance]
      exact (List.prefix_append_right_inj _).mpr hfront
    · intro hnothing hlimit
      rw [hlooks.inputLimit] at hempty
      rw [← hinv.balance, hempty hnothing hlimit, List.append_nil]

/-- Two frames, of which the zlib decoder takes the first and a part of the second. -/
private def twoFrames : Incoming := ⟨[.ready (.data (text "ab")), .pending, .ready (.data (text "cde"))], none, false⟩

private def changesDecoder : List ReplayOp :=
  [.fillBuf, .consume 1, .consume 1, .fillBuf, .fillBuf, .consume 1, .install, .fillBuf, .consume 2, .limit (some 1), .fillBuf,
    .consume 1, .limit none, .fillBuf, .consume 2, .fillBuf]

theorem raw_decoder_sees_two_frames : ∃ trace state,
    ReplayState.machine.Run (ReplayState.start twoFrames false none) trace state ∧ trace.map Prod.fst = changesDecoder ∧
      state.seen = text "abcde" ∧ ReplaysWire (text "abcde") trace state := by
  have hexec : (ReplayState.machine.exec (ReplayState.start twoFrames false none) changesDecoder).map
      (fun run => run.2.seen) = some (text "abcde") := by decide
  obtain ⟨⟨trace, state⟩, hsome, hseen⟩ := Option.map_eq_some_iff.mp hexec
  have hrun := Machine.run_of_exec hsome
  exact ⟨trace, state, hrun, Machine.exec_inputs hsome, hseen, raw_decoder_sees_wire hrun⟩

/-! ### The body -/

/-- The reader of the zlib decoder, before its first output. -/
structure Recorded (all : Bytes) (wire : Incoming) (reader : IncomingReader) : Prop where
  range : InRange wire reader
  balance : reader.tentative ++ unread wire reader = all
  recording : reader.recordTentative = true
  replayed : reader.replayOffset = reader.replay.length

section Body

variable {all : Bytes} {D : Type} {codec : Codec D}

theorem Recorded.look (h : Recorded all wire reader) (hlooks : Looks wire reader wire' reader') : Recorded all wire' reader' := by
  refine ⟨hlooks.range, ?_, hlooks.recordTentative.trans h.recording, ?_⟩
  · rw [hlooks.tentative, hlooks.unread, h.balance]
  · rw [hlooks.replay.1, hlooks.replay.2, h.replayed]

theorem Recorded.consume (h : Recorded all wire reader) {amount : Nat} (hconsume : reader.consume amount = some reader') :
    Recorded all wire reader' := by
  have hamount : amount ≤ consumable reader := by
    unfold IncomingReader.consume at hconsume
    unfold consumable
    grind
  obtain ⟨found, hfound, hconsumes⟩ := consume_consumes h.range hamount
  obtain rfl : found = reader' := Option.some.inj (hfound.symm.trans hconsume)
  refine ⟨hconsumes.range, ?_, hconsumes.recordTentative.trans h.recording, hconsumes.replayed h.replayed⟩
  rw [hconsumes.tentative, if_pos h.recording, hconsumes.unread, List.append_assoc, List.take_append_drop, h.balance]

/-- Whatever a decoder does, the notes are complete. -/
theorem Recorded.run {call : DecoderCall D} (h : Recorded all wire reader) {result : Poll (Option IoError)} {filled : Bytes}
    {decoder : D} (hrun : call.run wire reader = some (result, filled, decoder, wire', reader')) : Recorded all wire' reader' := by
  induction call generalizing wire reader with
  | fillBuf next ih =>
      obtain ⟨⟨available, between, looked⟩, hfill⟩ : ∃ r, reader.pollFillBuf wire = r := ⟨_, rfl⟩
      rw [DecoderCall.run, hfill] at hrun
      exact ih available (h.look (fillFrom_looks h.range hfill).1) hrun
  | consume amount next ih =>
      obtain ⟨consumed, hconsume, hrun⟩ := Option.bind_eq_some_iff.mp hrun
      exact ih (h.consume hconsume) hrun
  | done result filled decoder =>
      cases hrun
      exact h

theorem Recorded.pollDecoder {decoder decoder' : D} {outputSeen : Bool} (h : Recorded all wire reader) {poll : Poll DecoderRead}
    (hpoll : Decode.pollDecoder codec decoder wire reader outputSeen = some (poll, decoder', wire', reader')) :
    Recorded all wire' reader' := by
  unfold Decode.pollDecoder at hpoll
  generalize (if outputSeen = true then decodeChunkSize else initialDecodeOutputLimit) = outputLimit at hpoll
  obtain ⟨⟨result, filled, decoder'', between, after⟩, hrun, hpoll⟩ := Option.bind_eq_some_iff.mp hpoll
  have hrecorded := h.run hrun
  cases result with
  | pending =>
      cases hpoll
      exact hrecorded
  | ready error =>
      simp only at hpoll
      split at hpoll
      · cases hpoll
        exact hrecorded
      · cases hpoll

theorem Recorded.takeTransportError (h : Recorded all wire reader) (hnone : reader.transportError = none) :
    Recorded all wire reader.takeTransportError.2 := by
  refine ⟨⟨h.range.replay, h.range.buffered, fun hended => h.range.ended ?_⟩, h.balance, h.recording, h.replayed⟩
  rw [hnone]
  exact hended

theorem Recorded.install (h : Recorded all wire reader) :
    InRange wire reader.installTentativeReplay ∧ unread wire reader.installTentativeReplay = all :=
  ⟨⟨Nat.zero_le _, h.range.buffered, h.range.ended⟩, (unread_install h.replayed).trans h.balance⟩

/-- What a poll of a `deflate` body comes to while it has given nothing: it waits with complete notes, or it is the first
poll of a decoder of raw data that has the whole wire before it, or it gives something or ends without one. -/
inductive ZlibPolled (codec : Codec D) (all : Bytes) (body : DecodedBody D) : DecodedBody.Polled D → Prop
  | waits {decoder : D} {wire : Incoming} {reader : IncomingReader} {body' : DecodedBody D} : Recorded all wire reader →
      body'.state = some (.zlib decoder reader) → ZlibPolled codec all body (.pending, wire, body')
  | replays {wire : Incoming} {reader : IncomingReader} {polled : DecodedBody.Polled D} : InRange wire reader →
      unread wire reader = all → DecodedBody.pollDeflate codec body wire (codec.new .deflate) reader = some polled →
        ZlibPolled codec all body polled
  | gives {bytes : Bytes} {wire : Incoming} {body' : DecodedBody D} : bytes ≠ [] →
      ZlibPolled codec all body (.ready (some (.ok bytes)), wire, body')
  | drains {wire : Incoming} {reader : IncomingReader} {polled : DecodedBody.Polled D} : body.pollDrain wire reader = some polled →
      ZlibPolled codec all body polled
  | fails {wire : Incoming} {error : Error} {polled : DecodedBody.Polled D} : body.finish wire (some (.error error)) = some polled →
      ZlibPolled codec all body polled

theorem pollZlib_polled {body : DecodedBody D} {decoder : D} {polled : DecodedBody.Polled D} (h : Recorded all wire reader)
    (hpending : body.pendingDecoderError = none)
    (hpoll : DecodedBody.pollZlib codec body wire decoder reader = some polled) : ZlibPolled codec all body polled := by
  unfold DecodedBody.pollZlib at hpoll
  simp only [hpending] at hpoll
  cases herror : reader.transportError with
  | some error =>
      simp only [IncomingReader.takeTransportError, herror] at hpoll
      exact .fails hpoll
  | none =>
      have htaken := h.takeTransportError herror
      simp only [IncomingReader.takeTransportError, herror] at htaken hpoll
      obtain ⟨⟨read, decoder', wire', reader'⟩, hread, hpoll⟩ := Option.bind_eq_some_iff.mp hpoll
      have hrecorded := htaken.pollDecoder hread
      rcases read with ⟨bytes, error⟩ | _
      · simp only at hpoll
        split at hpoll
        · rename_i hne
          cases hpoll
          exact .gives hne
        cases error with
        | none =>
            simp only [DecodedBody.decoderStopped] at hpoll
            split at hpoll
            · exact .fails hpoll
            · exact .drains hpoll
        | some error =>
            cases htransport : reader'.transportError with
            | some error =>
                simp only [htransport] at hpoll
                exact .fails hpoll
            | none =>
                have hlive := hrecorded.takeTransportError htransport
                simp only [htransport] at hpoll
                simp only [IncomingReader.takeTransportError] at hlive
                split at hpoll
                · exact .drains hpoll
                split at hpoll
                · exact .replays hlive.install.1 hlive.install.2 hpoll
                · exact .fails hpoll
      · cases hpoll
        exact .waits hrecorded rfl

end Body

end RequestsNative.Transport.Decode
