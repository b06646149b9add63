import RequestsNative.Lib.Machine
import RequestsNative.Transport.Decode

/-!
# How decoded bodies end

A body gives non-empty chunks, then at most one error, then nothing. The error is the wire's if the wire has failed,
and only then; a body that ends without an error has seen the clean end of the wire. All of this comes from one fact
about the reader, whatever the decoder does with it: the reader knows how the wire ended as soon as it has ended.
-/

namespace RequestsNative.Transport.Decode

open RequestsNative.Lib

/-- The error that stands for the wire's. -/
def transportErrorOf (chunked : Bool) (message : Bytes) : Error :=
  if chunked then .chunkedEncoding message else .responseBody message

/-- The wire has ended with an error, which is `error`. -/
def Failed (chunked : Bool) (wire : Incoming) (error : Error) : Prop :=
  wire.ended = true ∧ ∃ message, wire.ending = some message ∧ error = transportErrorOf chunked message

/-- The wire has reached its clean end. -/
def CleanEnd (wire : Incoming) : Prop := wire.ended = true ∧ wire.ending = none

/-- The reader knows how the wire ended as soon as it has. -/
structure Synced (chunked : Bool) (wire : Incoming) (reader : IncomingReader) : Prop where
  mode : reader.chunked = chunked
  failed : ∀ error, reader.transportError = some error → Failed chunked wire error
  clean : reader.cleanEof = true → CleanEnd wire
  known : wire.ended = true → reader.transportError ≠ none ∨ reader.cleanEof = true
  limit : reader.inputLimit ≠ some 0

variable {chunked : Bool} {wire wire' : Incoming} {reader reader' : IncomingReader}

theorem Synced.not_failed (h : Synced chunked wire reader) (hnone : reader.transportError = none) (error : Error) :
    ¬Failed chunked wire error := by
  rintro ⟨hended, message, hending, -⟩
  rcases h.known hended with herror | hclean
  · exact herror hnone
  · rw [(h.clean hclean).2] at hending
    cases hending

/-! ### The reader -/

theorem slice_eq_nil {bytes : Bytes} {offset : Nat} {limit : Option Nat} (hlimit : limit ≠ some 0)
    (h : slice bytes offset limit = []) : bytes.length ≤ offset := by
  cases limit with
  | none => exact List.drop_eq_nil_iff.mp h
  | some n =>
      rcases List.take_eq_nil_iff.mp h with rfl | hdrop
      · exact absurd rfl hlimit
      · exact List.drop_eq_nil_iff.mp hdrop

theorem slice_length_le (bytes : Bytes) (offset : Nat) (limit : Option Nat) :
    (slice bytes offset limit).length ≤ bytes.length - offset := by
  cases limit with
  | none => exact Nat.le_of_eq List.length_drop
  | some n =>
      rw [slice, List.length_take, List.length_drop]
      omega

theorem shown_nil (hlimit : reader.inputLimit ≠ some 0) (h : reader.shown = some []) :
    reader.transportError ≠ none ∨ reader.cleanEof = true := by
  unfold IncomingReader.shown at h
  split at h
  · rename_i hreplay
    have := slice_eq_nil hlimit (Option.some.inj h)
    omega
  split at h
  · rename_i hbuffered
    have := slice_eq_nil hlimit (Option.some.inj h)
    omega
  split at h
  · rename_i hended
    simpa [Option.isSome_iff_ne_none] using hended
  · cases h

/-- With nothing to show the wire has not ended, as far as the reader knows. -/
theorem shown_none (h : reader.shown = none) :
    reader.replay.length ≤ reader.replayOffset ∧ reader.buffered.length ≤ reader.bufferedOffset ∧
      reader.transportError = none ∧ reader.cleanEof = false := by
  unfold IncomingReader.shown at h
  split at h
  · cases h
  split at h
  · cases h
  split at h
  · cases h
  · rename_i hreplay hbuffered hended
    simp only [Bool.or_eq_true, Option.isSome_iff_ne_none, ne_eq, not_or, not_not, Bool.not_eq_true] at hended
    exact ⟨Nat.le_of_not_lt hreplay, Nat.le_of_not_lt hbuffered, hended⟩

/-- What `poll_fill_buf` does to the reader and the wire, whatever they are. -/
structure Fills (chunked : Bool) (wire : Incoming) (reader : IncomingReader) (poll : Poll (Except IoError Bytes))
    (wire' : Incoming) (reader' : IncomingReader) : Prop where
  synced : Synced chunked wire' reader'
  ending : wire'.ending = wire.ending
  left : reader'.held + scriptBytes wire'.script ≤ reader.held + scriptBytes wire.script
  answer : poll = .pending ∨ ∃ available, poll = .ready (.ok available) ∧ reader'.shown = some available
  quiet : ∀ available, poll = .ready (.ok available) → available ≠ [] → reader'.transportError = reader.transportError
  still : reader.cleanEof = true → poll ≠ .pending ∧ wire' = wire ∧ reader' = reader

theorem fills_shown {available : Bytes} (h : Synced chunked wire reader) (hshown : reader.shown = some available) :
    Fills chunked wire reader (.ready (.ok available)) wire reader :=
  ⟨h, rfl, Nat.le_refl _, .inr ⟨available, rfl, hshown⟩, fun _ _ _ => rfl, fun _ => ⟨nofun, rfl, rfl⟩⟩

theorem Synced.script (h : Synced chunked wire reader) (script : List (Poll Frame)) :
    Synced chunked { wire with script } reader := ⟨h.mode, h.failed, h.clean, h.known, h.limit⟩

theorem takeFrame_data (reader : IncomingReader) (frame : Frame) :
    (∃ bytes, frame = .data bytes ∧ bytes ≠ [] ∧ reader.takeFrame (some (.ok frame)) =
      { reader with wireProgress := true, buffered := bytes, bufferedOffset := 0 }) ∨
      reader.takeFrame (some (.ok frame)) = reader := by
  cases frame with
  | trailers => exact .inr rfl
  | data bytes =>
      by_cases hbytes : bytes = []
      · exact .inr (if_pos hbytes)
      · exact .inl ⟨bytes, rfl, hbytes, if_neg hbytes⟩

/-- The end of the wire is known to the reader that polled it. -/
theorem pollEnd_fills (h : Synced chunked wire reader) (hshown : reader.shown = none) {frame : Option (Except Bytes Frame)}
    (hend : wire.pollEnd = (frame, wire')) :
    Fills chunked { wire with script := [] } reader (.ready (.ok ((reader.takeFrame frame).shown.getD []))) wire'
      (reader.takeFrame frame) := by
  obtain ⟨hreplay, hbuffered, herror, hclean⟩ := shown_none hshown
  have hnever : reader.cleanEof ≠ true := by simp [hclean]
  have hopen : wire.ended = false := by
    cases hended : wire.ended with
    | false => rfl
    | true =>
        rcases h.known hended with hsome | htrue
        · exact absurd herror hsome
        · exact absurd htrue hnever
  have hempty : ∀ other : IncomingReader, other.replay = reader.replay → other.replayOffset = reader.replayOffset →
      other.buffered = reader.buffered → other.bufferedOffset = reader.bufferedOffset →
        (other.transportError.isSome || other.cleanEof) = true → other.shown = some [] := by
    intro other hr hro hb hbo hknown
    unfold IncomingReader.shown
    rw [hr, hro, hb, hbo, if_neg (Nat.not_lt.mpr hreplay), if_neg (Nat.not_lt.mpr hbuffered), if_pos hknown]
  unfold Incoming.pollEnd at hend
  rw [hopen] at hend
  cases hending : wire.ending with
  | some message =>
      rw [hending] at hend
      cases hend
      have hnil := hempty (reader.takeFrame (some (.error message))) rfl rfl rfl rfl rfl
      refine ⟨⟨h.mode, ?_, ?_, fun _ => .inl nofun, h.limit⟩, rfl, Nat.le_refl _, .inr ⟨[], by rw [hnil]; rfl, hnil⟩, ?_, ?_⟩
      · intro error heq
        obtain rfl := Option.some.inj heq
        exact ⟨rfl, message, rfl, by rw [h.mode, transportErrorOf]⟩
      · exact fun htrue => absurd htrue hnever
      · intro available heq hne
        rw [hnil] at heq
        cases heq
        exact absurd rfl hne
      · exact fun htrue => absurd htrue hnever
  | none =>
      rw [hending] at hend
      cases hend
      have hnil := hempty (reader.takeFrame none) rfl rfl rfl rfl (by simp [IncomingReader.takeFrame])
      refine ⟨⟨h.mode, ?_, fun _ => ⟨rfl, rfl⟩, fun _ => .inr rfl, h.limit⟩, rfl, Nat.le_refl _,
        .inr ⟨[], by rw [hnil]; rfl, hnil⟩, fun _ _ _ => rfl, fun htrue => absurd htrue hnever⟩
      intro error heq
      exact absurd (herror.symm.trans heq) nofun

theorem fillFrom_fills {script : List (Poll Frame)} (h : Synced chunked wire reader)
    {poll : Poll (Except IoError Bytes)} (hfill : IncomingReader.fillFrom script wire reader = (poll, wire', reader')) :
    Fills chunked { wire with script } reader poll wire' reader' := by
  induction script generalizing reader with
  | nil =>
      unfold IncomingReader.fillFrom at hfill
      split at hfill
      · rename_i available hshown
        cases hfill
        exact fills_shown (h.script []) hshown
      · rename_i hshown
        cases hfill
        exact pollEnd_fills h hshown rfl
  | cons head script ih =>
      unfold IncomingReader.fillFrom at hfill
      split at hfill
      · rename_i available hshown
        cases hfill
        exact fills_shown (h.script _) hshown
      rename_i hshown
      obtain ⟨-, hbuffered, -, hclean⟩ := shown_none hshown
      have hnever : reader.cleanEof ≠ true := by simp [hclean]
      cases head with
      | pending =>
          cases hfill
          exact ⟨h.script _, rfl, by simp [scriptBytes], .inl rfl, nofun, fun htrue => absurd htrue hnever⟩
      | ready frame =>
          obtain ⟨bytes, rfl, -, htaken⟩ | htaken := takeFrame_data reader frame
          · have hsynced : Synced chunked wire (reader.takeFrame (some (.ok (.data bytes)))) := by
              rw [htaken]
              exact ⟨h.mode, h.failed, h.clean, h.known, h.limit⟩
            obtain ⟨hsynced', hending, hleft, hanswer, hquiet, -⟩ := ih hsynced hfill
            refine ⟨hsynced', hending, Nat.le_trans hleft ?_, hanswer, fun available hpoll hne => ?_,
              fun htrue => absurd htrue hnever⟩
            · rw [htaken]
              simp only [IncomingReader.held, scriptBytes, List.map_cons, List.sum_cons]
              omega
            · rw [hquiet available hpoll hne, htaken]
          · simp only [htaken] at hfill
            obtain ⟨hsynced', hending, hleft, hanswer, hquiet, -⟩ := ih h hfill
            refine ⟨hsynced', hending, Nat.le_trans hleft ?_, hanswer, hquiet, fun htrue => absurd htrue hnever⟩
            simp only [scriptBytes, List.map_cons, List.sum_cons]
            omega

theorem pollFillBuf_fills (h : Synced chunked wire reader) {poll : Poll (Except IoError Bytes)}
    (hfill : reader.pollFillBuf wire = (poll, wire', reader')) : Fills chunked wire reader poll wire' reader' :=
  fillFrom_fills h hfill

theorem consume_synced (h : Synced chunked wire reader) {amount : Nat} (hconsume : reader.consume amount = some reader') :
    Synced chunked wire reader' ∧ reader'.cleanEof = reader.cleanEof ∧ reader'.held ≤ reader.held - amount := by
  unfold IncomingReader.consume at hconsume
  split at hconsume
  · split at hconsume
    · cases hconsume
      refine ⟨⟨h.mode, h.failed, h.clean, h.known, h.limit⟩, rfl, ?_⟩
      simp only [IncomingReader.held]
      omega
    · cases hconsume
  · split at hconsume
    · cases hconsume
      refine ⟨⟨h.mode, h.failed, h.clean, h.known, h.limit⟩, rfl, ?_⟩
      simp only [IncomingReader.held]
      omega
    · cases hconsume

theorem consume_shown {available : Bytes} (hshown : reader.shown = some available) (hne : available ≠ []) :
    ∃ reader', reader.consume available.length = some reader' ∧ available.length ≤ reader.held := by
  unfold IncomingReader.shown at hshown
  unfold IncomingReader.consume IncomingReader.held
  split at hshown
  · rename_i hreplay
    obtain rfl := Option.some.inj hshown
    have hle := slice_length_le reader.replay reader.replayOffset reader.inputLimit
    exact ⟨_, by rw [if_pos hreplay, if_pos hle], by omega⟩
  split at hshown
  · rename_i hreplay hbuffered
    obtain rfl := Option.some.inj hshown
    have hle := slice_length_le reader.buffered reader.bufferedOffset reader.inputLimit
    exact ⟨_, by rw [if_neg hreplay, if_pos hle], by omega⟩
  split at hshown
  · exact absurd (Option.some.inj hshown).symm hne
  · cases hshown

theorem run_synced {D : Type} {call : DecoderCall D} (h : Synced chunked wire reader)
    {result : Poll (Option IoError)} {filled : Bytes} {decoder : D}
    (hrun : call.run wire reader = some (result, filled, decoder, wire', reader')) :
    Synced chunked wire' reader' ∧ wire'.ending = wire.ending := by
  induction call generalizing wire reader with
  | fillBuf next ih =>
      obtain ⟨⟨available, between, filled⟩, hfill⟩ : ∃ r, reader.pollFillBuf wire = r := ⟨_, rfl⟩
      have hfills := pollFillBuf_fills h hfill
      rw [DecoderCall.run, hfill] at hrun
      obtain ⟨hsynced, hending⟩ := ih available hfills.synced hrun
      exact ⟨hsynced, hending.trans hfills.ending⟩
  | consume amount next ih =>
      obtain ⟨consumed, hconsume, hrun⟩ := Option.bind_eq_some_iff.mp hrun
      exact ih (consume_synced h hconsume).1 hrun
  | done result filled decoder =>
      cases hrun
      exact ⟨h, rfl⟩

theorem pollDecoder_synced {D : Type} {codec : Codec D} {decoder decoder' : D} {outputSeen : Bool}
    (h : Synced chunked wire reader) {poll : Poll DecoderRead}
    (hpoll : pollDecoder codec decoder wire reader outputSeen = some (poll, decoder', wire', reader')) :
    Synced chunked wire' reader' ∧ wire'.ending = wire.ending := by
  unfold pollDecoder at hpoll
  generalize (if outputSeen = true then decodeChunkSize else initialDecodeOutputLimit) = outputLimit at hpoll
  obtain ⟨⟨result, filled, decoder'', between, after⟩, hrun, hpoll⟩ := Option.bind_eq_some_iff.mp hpoll
  cases result with
  | pending =>
      cases hpoll
      exact run_synced h hrun
  | ready error =>
      simp only at hpoll
      split at hpoll
      · cases hpoll
        exact run_synced h hrun
      · cases hpoll

/-! ### Draining -/

theorem takeTransportError_synced (h : Synced chunked wire reader) (hnone : reader.transportError = none) :
    Synced chunked wire reader.takeTransportError.2 :=
  ⟨h.mode, nofun, h.clean, fun hended => by rw [IncomingReader.takeTransportError]; exact hnone ▸ h.known hended, h.limit⟩

/-- How the wire stands after a call that waits for its end. -/
def EndsAs (chunked : Bool) (wire : Incoming) (reader : IncomingReader) : Poll (Except Error Unit) → Prop
  | .pending => Synced chunked wire reader
  | .ready (.ok ()) => CleanEnd wire
  | .ready (.error error) => Failed chunked wire error

theorem endsAs_ended (h : Synced chunked wire reader) (hshown : reader.shown = some []) :
    (∃ error, reader.transportError = some error ∧ Failed chunked wire error) ∨
      (reader.transportError = none ∧ CleanEnd wire) := by
  cases herror : reader.transportError with
  | some error => exact .inl ⟨error, rfl, h.failed error herror⟩
  | none =>
      rcases shown_nil h.limit hshown with hsome | hclean
      · exact absurd herror hsome
      · exact .inr ⟨rfl, h.clean hclean⟩

/-- What draining answers. At the clean end nothing is waited for. -/
structure Drained (chunked : Bool) (wire : Incoming) (reader : IncomingReader)
    (answer : Option (Poll (Except Error Unit) × Incoming × IncomingReader)) (poll : Poll (Except Error Unit))
    (wire' : Incoming) (reader' : IncomingReader) : Prop where
  returns : answer = some (poll, wire', reader')
  ending : wire'.ending = wire.ending
  ends : EndsAs chunked wire' reader' poll
  still : reader.cleanEof = true → poll ≠ .pending ∧ wire' = wire

/-- One turn of the loop of `poll_drain`: it is the last, or it consumes what is shown. -/
theorem drainFrom_turn (fuel : Nat) (h : Synced chunked wire reader) :
    (∃ poll wire' reader', Drained chunked wire reader (IncomingReader.drainFrom fuel wire reader) poll wire' reader') ∨
    ∃ wire' reader', Synced chunked wire' reader' ∧ wire'.ending = wire.ending ∧
      reader'.held + scriptBytes wire'.script < reader.held + scriptBytes wire.script ∧
      (reader.cleanEof = true → reader'.cleanEof = true ∧ wire' = wire) ∧
      ∀ fuel', fuel = fuel' + 1 → IncomingReader.drainFrom fuel wire reader = IncomingReader.drainFrom fuel' wire' reader' := by
  cases herror : reader.transportError with
  | some error =>
      refine .inl ⟨.ready (.error error), wire, reader.takeTransportError.2, ?_, rfl, h.failed error herror, fun _ => ⟨nofun, rfl⟩⟩
      unfold IncomingReader.drainFrom
      simp only [IncomingReader.takeTransportError, herror]
  | none =>
      have htaken := takeTransportError_synced h herror
      obtain ⟨⟨poll, between, filled⟩, hfill⟩ : ∃ r, reader.takeTransportError.2.pollFillBuf wire = r := ⟨_, rfl⟩
      have hfills := pollFillBuf_fills htaken hfill
      rcases hfills.answer with rfl | ⟨available, rfl, hshown⟩
      · refine .inl ⟨.pending, between, filled, ?_, hfills.ending, hfills.synced, fun hclean => absurd rfl (hfills.still hclean).1⟩
        unfold IncomingReader.drainFrom
        simp only [IncomingReader.takeTransportError, herror] at hfill ⊢
        rw [hfill]
      · have hstill : reader.cleanEof = true → between = wire := fun hclean => (hfills.still hclean).2.1
        cases available with
        | nil =>
            rcases endsAs_ended hfills.synced hshown with ⟨error, hsome, hfailed⟩ | ⟨hnone, hended⟩
            · refine .inl ⟨.ready (.error error), between, filled.takeTransportError.2, ?_, hfills.ending, hfailed,
                fun hclean => ⟨nofun, hstill hclean⟩⟩
              unfold IncomingReader.drainFrom
              simp only [IncomingReader.takeTransportError, herror] at hfill ⊢
              rw [hfill]
              simp only [hsome]
            · refine .inl ⟨.ready (.ok ()), between, filled.takeTransportError.2, ?_, hfills.ending, hended,
                fun hclean => ⟨nofun, hstill hclean⟩⟩
              unfold IncomingReader.drainFrom
              simp only [IncomingReader.takeTransportError, herror] at hfill ⊢
              rw [hfill]
              simp only [hnone]
        | cons b rest =>
            obtain ⟨consumed, hconsume, hheld⟩ := consume_shown hshown nofun
            obtain ⟨hsynced, hsame, hless⟩ := consume_synced hfills.synced hconsume
            refine .inr ⟨between, consumed, hsynced, hfills.ending, ?_, ?_, ?_⟩
            · have hleft : filled.held + scriptBytes between.script ≤ reader.held + scriptBytes wire.script := hfills.left
              simp only [List.length_cons] at hless hheld
              omega
            · intro hclean
              refine ⟨?_, hstill hclean⟩
              rw [hsame, (hfills.still hclean).2.2]
              exact hclean
            · rintro fuel' rfl
              rw [IncomingReader.drainFrom]
              simp only [IncomingReader.takeTransportError, herror] at hfill ⊢
              rw [hfill]
              simp only [hconsume]
              rfl

theorem drainFrom_drained {fuel : Nat} (h : Synced chunked wire reader)
    (hfuel : reader.held + scriptBytes wire.script ≤ fuel) :
    ∃ poll wire' reader', Drained chunked wire reader (IncomingReader.drainFrom fuel wire reader) poll wire' reader' := by
  induction fuel generalizing wire reader with
  | zero =>
      obtain hdone | ⟨_, _, -, -, hless, -⟩ := drainFrom_turn 0 h
      · exact hdone
      · omega
  | succ fuel ih =>
      obtain hdone | ⟨between, consumed, hsynced, hending, hless, hstill, hagain⟩ := drainFrom_turn (fuel + 1) h
      · exact hdone
      · obtain ⟨poll, wire', reader', hdrained⟩ := ih hsynced (by omega)
        refine ⟨poll, wire', reader', (hagain fuel rfl).trans hdrained.returns, hdrained.ending.trans hending,
          hdrained.ends, fun hclean => ?_⟩
        obtain ⟨hcleanToo, rfl⟩ := hstill hclean
        exact hdrained.still hcleanToo

theorem pollDrain_drained (h : Synced chunked wire reader) :
    ∃ poll wire' reader', Drained chunked wire reader (reader.pollDrain wire) poll wire' reader' :=
  drainFrom_drained h (Nat.le_refl _)

/-- Whatever follows the end of a Brotli stream is an error, the wire's own if it has failed. -/
theorem pollRejectTrailing_ends (h : Synced chunked wire reader) {poll : Poll (Except Error Unit)}
    (hreject : reader.pollRejectTrailing wire = (poll, wire', reader')) :
    wire'.ending = wire.ending ∧
      (EndsAs chunked wire' reader' poll ∨ (poll = .ready (.error .contentDecoding) ∧ ∀ error, ¬Failed chunked wire' error)) := by
  unfold IncomingReader.pollRejectTrailing at hreject
  cases herror : reader.transportError with
  | some error =>
      simp only [IncomingReader.takeTransportError, herror] at hreject
      cases hreject
      exact ⟨rfl, .inl (h.failed error herror)⟩
  | none =>
      have htaken := takeTransportError_synced h herror
      obtain ⟨⟨fill, between, filled⟩, hfill⟩ : ∃ r, reader.takeTransportError.2.pollFillBuf wire = r := ⟨_, rfl⟩
      have hfills := pollFillBuf_fills htaken hfill
      simp only [IncomingReader.takeTransportError, herror] at hreject hfill
      rw [hfill] at hreject
      rcases hfills.answer with rfl | ⟨available, rfl, hshown⟩
      · cases hreject
        exact ⟨hfills.ending, .inl hfills.synced⟩
      · simp only at hreject
        split at hreject
        · rename_i hne
          have hquiet : filled.transportError = none := hfills.quiet available rfl hne
          cases hreject
          exact ⟨hfills.ending, .inr ⟨rfl, hfills.synced.not_failed hquiet⟩⟩
        · rename_i hempty
          obtain rfl := not_not.mp hempty
          rcases endsAs_ended hfills.synced hshown with ⟨error, hsome, hfailed⟩ | ⟨hnone, hended⟩
          · simp only [hsome] at hreject
            cases hreject
            exact ⟨hfills.ending, .inl hfailed⟩
          · simp only [hnone] at hreject
            cases hreject
            exact ⟨hfills.ending, .inl hended⟩

/-! ### The body -/

variable {D : Type} {codec : Codec D} {body body' : DecodedBody D}

/-- The states that decode. -/
def DecoderState.decodes : DecoderState D → Bool
  | .drain _ | .rejectTrailing _ => false
  | _ => true

/-- The body has more to give. -/
structure Live (chunked : Bool) (wire : Incoming) (body : DecodedBody D) (state : DecoderState D) : Prop where
  holds : body.state = some state
  synced : Synced chunked wire state.readerMut
  pending : body.pendingDecoderError ≠ none → state.decodes = true

/-- The error is the wire's if the wire has failed, and says that the content is wrong if not. -/
def Blames (chunked : Bool) (wire : Incoming) (error : Error) : Prop :=
  Failed chunked wire error ∨ (error = .contentDecoding ∧ ∀ error, ¬Failed chunked wire error)

/-- What one call answers, and what it leaves. -/
inductive Answers (chunked : Bool) (wire : Incoming) (body : DecodedBody D) : Poll (Option (Except Error Bytes)) → Prop
  | pending {state : DecoderState D} : Live chunked wire body state → Answers chunked wire body .pending
  | chunk {state : DecoderState D} {bytes : Bytes} : bytes ≠ [] → Live chunked wire body state →
      Answers chunked wire body (.ready (some (.ok bytes)))
  | failed {error : Error} : body.state = none → body.pendingDecoderError = none → Blames chunked wire error →
      Answers chunked wire body (.ready (some (.error error)))
  | clean : body.state = none → body.pendingDecoderError = none → CleanEnd wire → Answers chunked wire body (.ready none)

/-- The answer, and that the wire is the same one. -/
structure PollsTo (chunked : Bool) (wire : Incoming) (polled : DecodedBody.Polled D) : Prop where
  ending : polled.2.1.ending = wire.ending
  answers : Answers chunked polled.2.1 polled.2.2 polled.1

theorem pollDrain_polls (h : Synced chunked wire reader) (hpending : body.pendingDecoderError = none) :
    ∃ polled, body.pollDrain wire reader = some polled ∧ PollsTo chunked wire polled := by
  obtain ⟨poll, wire', reader', hreturns, hending, hends, -⟩ := pollDrain_drained h
  unfold DecodedBody.pollDrain
  rw [hreturns]
  match poll, hends with
  | .pending, hends => exact ⟨_, rfl, hending, .pending ⟨rfl, hends, fun hsome => absurd hpending hsome⟩⟩
  | .ready (.ok ()), hends => exact ⟨_, rfl, hending, .clean rfl hpending hends⟩
  | .ready (.error error), hends => exact ⟨_, rfl, hending, .failed rfl hpending (.inl hends)⟩

theorem pollRejectTrailing_polls (h : Synced chunked wire reader) (hpending : body.pendingDecoderError = none) :
    ∃ polled, body.pollRejectTrailing wire reader = some polled ∧ PollsTo chunked wire polled := by
  obtain ⟨⟨poll, wire', reader'⟩, hreject⟩ : ∃ r, reader.pollRejectTrailing wire = r := ⟨_, rfl⟩
  obtain ⟨hending, hends⟩ := pollRejectTrailing_ends h hreject
  unfold DecodedBody.pollRejectTrailing
  rw [hreject]
  rcases hends with hends | ⟨rfl, hnever⟩
  · match poll, hends with
    | .pending, hends => exact ⟨_, rfl, hending, .pending ⟨rfl, hends, fun hsome => absurd hpending hsome⟩⟩
    | .ready (.ok ()), hends => exact ⟨_, rfl, hending, .clean rfl hpending hends⟩
    | .ready (.error error), hends => exact ⟨_, rfl, hending, .failed rfl hpending (.inl hends)⟩
  · exact ⟨_, rfl, hending, .failed rfl hpending (.inr ⟨rfl, hnever⟩)⟩

theorem decoderStopped_polls (h : Synced chunked wire reader) (hpending : body.pendingDecoderError = none) :
    ∃ polled, body.decoderStopped wire reader = some polled ∧ PollsTo chunked wire polled := by
  unfold DecodedBody.decoderStopped
  cases herror : reader.transportError with
  | some error =>
      simp only [IncomingReader.takeTransportError, herror]
      exact ⟨_, rfl, rfl, .failed rfl hpending (.inl (h.failed error herror))⟩
  | none =>
      have htaken := takeTransportError_synced h herror
      simp only [IncomingReader.takeTransportError, herror] at htaken ⊢
      exact pollDrain_polls htaken hpending

theorem decoderFailed_polls (accepts : IoError → IncomingReader → Bool) (error : IoError) (h : Synced chunked wire reader)
    (hpending : body.pendingDecoderError = none) :
    ∃ polled, DecodedBody.decoderFailed accepts error body wire reader = some polled ∧ PollsTo chunked wire polled := by
  unfold DecodedBody.decoderFailed
  cases herror : reader.transportError with
  | some error =>
      simp only [IncomingReader.takeTransportError, herror]
      exact ⟨_, rfl, rfl, .failed rfl hpending (.inl (h.failed error herror))⟩
  | none =>
      have htaken := takeTransportError_synced h herror
      simp only [IncomingReader.takeTransportError, herror] at htaken ⊢
      split
      · exact pollDrain_polls htaken hpending
      · exact ⟨_, rfl, rfl, .failed rfl hpending (.inr ⟨rfl, h.not_failed herror⟩)⟩

theorem polls_of_some {answer : Option (DecodedBody.Polled D)} {polled : DecodedBody.Polled D}
    (hpolls : ∃ polled, answer = some polled ∧ PollsTo chunked wire polled) (hanswer : answer = some polled) :
    PollsTo chunked wire polled := by
  obtain ⟨_, hsome, hpolls⟩ := hpolls
  cases hsome.symm.trans hanswer
  exact hpolls

theorem polledDecoder_polls {k : Poll DecoderRead × D × Incoming × IncomingReader → Option (DecodedBody.Polled D)}
    {decoder : D} {polled : DecodedBody.Polled D} (h : Synced chunked wire reader) (hpending : body.pendingDecoderError = none)
    (hk : ∀ read decoder' wire' reader', Synced chunked wire' reader' → k (read, decoder', wire', reader') = some polled →
      PollsTo chunked wire' polled)
    (hpoll : (match reader.takeTransportError with
      | (some error, _) => body.finish wire (some (.error error))
      | (none, reader) => pollDecoder codec decoder wire reader body.outputSeen >>= k) = some polled) :
    PollsTo chunked wire polled := by
  cases herror : reader.transportError with
  | some error =>
      simp only [IncomingReader.takeTransportError, herror] at hpoll
      cases hpoll
      exact ⟨rfl, .failed rfl hpending (.inl (h.failed error herror))⟩
  | none =>
      have htaken := takeTransportError_synced h herror
      simp only [IncomingReader.takeTransportError, herror] at htaken hpoll
      obtain ⟨⟨read, decoder', wire', reader'⟩, hread, hpoll⟩ := Option.bind_eq_some_iff.mp hpoll
      obtain ⟨hsynced, hending⟩ := pollDecoder_synced htaken hread
      obtain ⟨hsame, hanswers⟩ := hk read decoder' wire' reader' hsynced hpoll
      exact ⟨hsame.trans hending, hanswers⟩

theorem pollMember_polls {accepts : IoError → IncomingReader → Bool} {variant : D → IncomingReader → DecoderState D}
    (hvariant : ∀ decoder reader, (variant decoder reader).readerMut = reader ∧ (variant decoder reader).decodes = true)
    {decoder : D} {polled : DecodedBody.Polled D} (h : Synced chunked wire reader)
    (hpoll : DecodedBody.pollMember codec accepts variant body wire decoder reader = some polled) :
    PollsTo chunked wire polled := by
  unfold DecodedBody.pollMember at hpoll
  cases hpending : body.pendingDecoderError with
  | some error =>
      simp only [hpending] at hpoll
      have hcleared : { body with pendingDecoderError := none }.pendingDecoderError = none := rfl
      exact polls_of_some (decoderFailed_polls accepts error h hcleared) hpoll
  | none =>
      simp only [hpending] at hpoll
      refine polledDecoder_polls h hpending ?_ hpoll
      rintro (⟨bytes, error⟩ | _) decoder' wire' reader' hsynced hk
      · simp only at hk
        split at hk
        · rename_i hne
          cases hk
          exact ⟨rfl, .chunk hne ⟨rfl, (hvariant decoder' reader').1.symm ▸ hsynced, fun _ => (hvariant decoder' reader').2⟩⟩
        · cases error with
          | some error =>
              exact polls_of_some (decoderFailed_polls accepts error hsynced hpending) hk
          | none =>
              exact polls_of_some (decoderStopped_polls hsynced hpending) hk
      · cases hk
        exact ⟨rfl, .pending ⟨rfl, (hvariant decoder' reader').1.symm ▸ hsynced, fun _ => (hvariant decoder' reader').2⟩⟩

theorem pollDeflate_polls {decoder : D} {polled : DecodedBody.Polled D} (h : Synced chunked wire reader)
    (hpoll : DecodedBody.pollDeflate codec body wire decoder reader = some polled) : PollsTo chunked wire polled :=
  pollMember_polls (fun _ _ => ⟨rfl, rfl⟩) h hpoll

theorem pollBrotli_polls {decoder : D} {polled : DecodedBody.Polled D} (h : Synced chunked wire reader)
    (hpoll : DecodedBody.pollBrotli codec body wire decoder reader = some polled) : PollsTo chunked wire polled := by
  unfold DecodedBody.pollBrotli at hpoll
  cases hpending : body.pendingDecoderError with
  | some error =>
      simp only [hpending] at hpoll
      have hcleared : { body with pendingDecoderError := none }.pendingDecoderError = none := rfl
      exact polls_of_some (decoderFailed_polls isAcceptedTruncation error h hcleared) hpoll
  | none =>
      simp only [hpending] at hpoll
      refine polledDecoder_polls h hpending ?_ hpoll
      rintro (⟨bytes, error⟩ | _) decoder' wire' reader' hsynced hk
      · simp only at hk
        split at hk
        · rename_i hne
          cases hk
          have hlifted : Synced chunked wire' reader'.removeInputLimit :=
            ⟨hsynced.mode, hsynced.failed, hsynced.clean, hsynced.known, nofun⟩
          exact ⟨rfl, .chunk hne ⟨rfl, hlifted, fun _ => rfl⟩⟩
        · cases error with
          | some error =>
              exact polls_of_some (decoderFailed_polls isAcceptedTruncation error hsynced hpending) hk
          | none =>
              exact polls_of_some (pollRejectTrailing_polls hsynced hpending) hk
      · cases hk
        exact ⟨rfl, .pending ⟨rfl, hsynced, fun _ => rfl⟩⟩

theorem stopTentative_synced (h : Synced chunked wire reader) : Synced chunked wire reader.stopTentativeRecording :=
  ⟨h.mode, h.failed, h.clean, h.known, h.limit⟩

theorem installReplay_synced (h : Synced chunked wire reader) : Synced chunked wire reader.installTentativeReplay :=
  ⟨h.mode, h.failed, h.clean, h.known, h.limit⟩

theorem zlibFailed_polls {error : IoError} {polled : DecodedBody.Polled D} (h : Synced chunked wire reader)
    (hpending : body.pendingDecoderError = none)
    (hpoll : (match reader.takeTransportError with
      | (some error, _) => body.finish wire (some (.error error))
      | (none, reader) =>
          if isAcceptedFlateTruncation error reader then body.pollDrain wire reader.stopTentativeRecording
          else if !body.zlibOutput then DecodedBody.pollDeflate codec body wire (codec.new .deflate) reader.installTentativeReplay
          else body.finish wire (some (.error .contentDecoding))) = some polled) :
    PollsTo chunked wire polled := by
  cases herror : reader.transportError with
  | some error =>
      simp only [IncomingReader.takeTransportError, herror] at hpoll
      cases hpoll
      exact ⟨rfl, .failed rfl hpending (.inl (h.failed error herror))⟩
  | none =>
      have htaken := takeTransportError_synced h herror
      simp only [IncomingReader.takeTransportError, herror] at htaken hpoll
      split at hpoll
      · exact polls_of_some (pollDrain_polls (stopTentative_synced htaken) hpending) hpoll
      split at hpoll
      · exact pollDeflate_polls (installReplay_synced htaken) hpoll
      · cases hpoll
        exact ⟨rfl, .failed rfl hpending (.inr ⟨rfl, h.not_failed herror⟩)⟩

theorem pollZlib_polls {decoder : D} {polled : DecodedBody.Polled D} (h : Synced chunked wire reader)
    (hpoll : DecodedBody.pollZlib codec body wire decoder reader = some polled) : PollsTo chunked wire polled := by
  unfold DecodedBody.pollZlib at hpoll
  cases hpending : body.pendingDecoderError with
  | some error =>
      simp only [hpending] at hpoll
      have hcleared : { body with pendingDecoderError := none }.pendingDecoderError = none := rfl
      exact polls_of_some (decoderFailed_polls isAcceptedFlateTruncation error (stopTentative_synced h) hcleared) hpoll
  | none =>
      simp only [hpending] at hpoll
      refine polledDecoder_polls h hpending ?_ hpoll
      rintro (⟨bytes, error⟩ | _) decoder' wire' reader' hsynced hk
      · simp only at hk
        split at hk
        · rename_i hne
          cases hk
          exact ⟨rfl, .chunk hne ⟨rfl, stopTentative_synced hsynced, fun _ => rfl⟩⟩
        · cases error with
          | none =>
              exact polls_of_some (decoderStopped_polls (stopTentative_synced hsynced) hpending) hk
          | some error => exact zlibFailed_polls hsynced hpending hk
      · cases hk
        exact ⟨rfl, .pending ⟨rfl, hsynced, fun _ => rfl⟩⟩

theorem pollNext_polls {state : DecoderState D} {polled : DecodedBody.Polled D} (hlive : Live chunked wire body state)
    (hpoll : body.pollNext codec wire = some polled) : PollsTo chunked wire polled := by
  obtain ⟨hstate, hsynced, hpending⟩ := hlive
  unfold DecodedBody.pollNext at hpoll
  rw [hstate] at hpoll
  cases state with
  | gzip decoder reader => exact pollMember_polls (fun _ _ => ⟨rfl, rfl⟩) hsynced hpoll
  | zlib decoder reader => exact pollZlib_polls hsynced hpoll
  | deflate decoder reader => exact pollDeflate_polls hsynced hpoll
  | brotli decoder reader => exact pollBrotli_polls hsynced hpoll
  | zstandard decoder reader => exact pollMember_polls (fun _ _ => ⟨rfl, rfl⟩) hsynced hpoll
  | drain reader =>
      have hnone : body.pendingDecoderError = none := by
        by_contra hsome
        cases hpending hsome
      exact polls_of_some (pollDrain_polls hsynced hnone) hpoll
  | rejectTrailing reader =>
      have hnone : body.pendingDecoderError = none := by
        by_contra hsome
        cases hpending hsome
      exact polls_of_some (pollRejectTrailing_polls hsynced hnone) hpoll

/-! ### Errors of the decoder -/

/-- The decoder of a state. -/
def DecoderState.decoder : DecoderState D → Option D
  | .gzip decoder _ | .zlib decoder _ | .deflate decoder _ | .brotli decoder _ | .zstandard decoder _ => some decoder
  | .drain _ | .rejectTrailing _ => none

/-- The errors of its decoder that a state takes for the mark of a body cut short. -/
def DecoderState.excuses : DecoderState D → IoError → Bool
  | .gzip _ _, error | .brotli _ _, error | .zstandard _ _, error => error.kind = .unexpectedEof
  | .zlib _ _, error | .deflate _ _, error => isFlateIncomplete error
  | .drain _, _ | .rejectTrailing _, _ => false

/-- An error of the decoder is delivered as the wire's if that has failed, passed over if it is excused and the wire has
ended cleanly, and delivered as wrong content in all other cases. -/
inductive Settles (chunked : Bool) (wire : Incoming) (excused : Bool) : Poll (Option (Except Error Bytes)) → Prop
  | transport {error : Error} : Failed chunked wire error → Settles chunked wire excused (.ready (some (.error error)))
  | truncation : CleanEnd wire → excused = true → Settles chunked wire excused (.ready none)
  | content : (∀ error, ¬Failed chunked wire error) → ¬(CleanEnd wire ∧ excused = true) →
      Settles chunked wire excused (.ready (some (.error .contentDecoding)))

theorem Synced.clean_iff (h : Synced chunked wire reader) (hnone : reader.transportError = none) :
    reader.cleanEof = true ↔ CleanEnd wire :=
  ⟨h.clean, fun hclean => (h.known hclean.1).resolve_left (not_not.mpr hnone)⟩

/-- What a state accepts as a cut: an error it excuses, at the clean end. -/
def AcceptsCut (accepts : IoError → IncomingReader → Bool) (excuses : IoError → Bool) : Prop :=
  ∀ error reader, accepts error reader = (reader.cleanEof && reader.transportError.isNone && excuses error)

theorem acceptsCut_truncation : AcceptsCut isAcceptedTruncation fun error => error.kind = .unexpectedEof := by
  intro error reader
  rw [isAcceptedTruncation, Bool.and_assoc, Bool.and_comm]

theorem acceptsCut_flate : AcceptsCut isAcceptedFlateTruncation isFlateIncomplete := fun _ _ => rfl

theorem AcceptsCut.iff {accepts : IoError → IncomingReader → Bool} {excuses : IoError → Bool} (haccepts : AcceptsCut accepts excuses)
    (error : IoError) (h : Synced chunked wire reader) (hnone : reader.transportError = none) :
    accepts error reader = true ↔ CleanEnd wire ∧ excuses error = true := by
  rw [haccepts, hnone, ← h.clean_iff hnone]
  simp only [Option.isNone_none, Bool.and_true, Bool.and_eq_true]

theorem takeTransportError_none (hnone : reader.transportError = none) : reader.takeTransportError = (none, reader) := by
  obtain ⟨_⟩ := reader
  cases hnone
  rfl

theorem pollDrain_clean (h : Synced chunked wire reader) (hnone : reader.transportError = none) (hclean : CleanEnd wire) :
    body.pollDrain wire reader = some (.ready none, wire, { body with state := none }) := by
  obtain ⟨poll, wire', reader', hreturns, -, hends, hstill⟩ := pollDrain_drained h
  obtain ⟨hready, rfl⟩ := hstill ((h.clean_iff hnone).mpr hclean)
  unfold DecodedBody.pollDrain
  rw [hreturns]
  match poll, hends with
  | .pending, _ => exact absurd rfl hready
  | .ready (.ok ()), _ => rfl
  | .ready (.error error), hends => exact absurd hends (h.not_failed hnone error)

theorem decoderFailed_settles {accepts : IoError → IncomingReader → Bool} {excuses : IoError → Bool}
    (haccepts : AcceptsCut accepts excuses) (error : IoError) (h : Synced chunked wire reader) :
    ∃ poll, DecodedBody.decoderFailed accepts error body wire reader = some (poll, wire, { body with state := none }) ∧
      Settles chunked wire (excuses error) poll := by
  unfold DecodedBody.decoderFailed
  cases herror : reader.transportError with
  | some error =>
      simp only [IncomingReader.takeTransportError, herror]
      exact ⟨_, rfl, .transport (h.failed error herror)⟩
  | none =>
      rw [takeTransportError_none herror]
      by_cases haccepted : accepts error reader = true
      · obtain ⟨hclean, hexcused⟩ := (haccepts.iff error h herror).mp haccepted
        simp only [if_pos haccepted]
        exact ⟨_, pollDrain_clean h herror hclean, .truncation hclean hexcused⟩
      · simp only [if_neg haccepted]
        exact ⟨_, rfl, .content (h.not_failed herror) (mt (haccepts.iff error h herror).mpr haccepted)⟩

/-- The call after one that left an error behind: it settles the error, whichever decoder there is. -/
theorem pollNext_settles {state : DecoderState D} (hlive : Live chunked wire body state) {error : IoError}
    (herror : body.pendingDecoderError = some error) :
    ∃ poll body', (∀ any : Codec D, body.pollNext any wire = some (poll, wire, body')) ∧ body'.state = none ∧
      Settles chunked wire (state.excuses error) poll := by
  obtain ⟨hstate, hsynced, hpending⟩ := hlive
  have hmember : ∀ {accepts : IoError → IncomingReader → Bool}, AcceptsCut accepts state.excuses →
      ∀ reader, Synced chunked wire reader →
        (∀ any : Codec D, body.pollNext any wire =
          DecodedBody.decoderFailed accepts error { body with pendingDecoderError := none } wire reader) →
        ∃ poll body', (∀ any : Codec D, body.pollNext any wire = some (poll, wire, body')) ∧ body'.state = none ∧
          Settles chunked wire (state.excuses error) poll := by
    intro accepts haccepts reader hsynced hany
    obtain ⟨poll, hfailed, hsettles⟩ := decoderFailed_settles haccepts error hsynced
    exact ⟨poll, _, fun any => (hany any).trans hfailed, rfl, hsettles⟩
  cases state with
  | gzip decoder reader =>
      refine hmember acceptsCut_truncation reader hsynced fun any => ?_
      simp only [DecodedBody.pollNext, hstate, DecodedBody.pollGzip, DecodedBody.pollMember, herror]
  | zlib decoder reader =>
      refine hmember acceptsCut_flate reader.stopTentativeRecording (stopTentative_synced hsynced) fun any => ?_
      simp only [DecodedBody.pollNext, hstate, DecodedBody.pollZlib, herror]
  | deflate decoder reader =>
      refine hmember acceptsCut_flate reader hsynced fun any => ?_
      simp only [DecodedBody.pollNext, hstate, DecodedBody.pollDeflate, DecodedBody.pollMember, herror]
  | brotli decoder reader =>
      refine hmember acceptsCut_truncation reader hsynced fun any => ?_
      simp only [DecodedBody.pollNext, hstate, DecodedBody.pollBrotli, herror]
  | zstandard decoder reader =>
      refine hmember acceptsCut_truncation reader hsynced fun any => ?_
      simp only [DecodedBody.pollNext, hstate, DecodedBody.pollZstandard, DecodedBody.pollMember, herror]
  | drain reader => cases hpending (by rw [herror]; nofun)
  | rejectTrailing reader => cases hpending (by rw [herror]; nofun)

/-- The bytes are read again as raw data: nothing has come out of them as zlib, and their error is not settled. -/
def ReadsAgain (codec : Codec D) (chunked : Bool) (wire : Incoming) (reader : IncomingReader) (body : DecodedBody D)
    (state : DecoderState D) (error : IoError) (answer : Option (DecodedBody.Polled D)) : Prop :=
  (∃ decoder reader, state = .zlib decoder reader) ∧ body.zlibOutput = false ∧ (∀ failed, ¬Failed chunked wire failed) ∧
    ¬(CleanEnd wire ∧ state.excuses error = true) ∧
      answer = DecodedBody.pollDeflate codec body wire (codec.new .deflate) reader.installTentativeReplay

section Failed

variable {error : IoError} {decoder decoder' : D} (hpending : body.pendingDecoderError = none)
  (hnone : reader.transportError = none) (hread : pollDecoder codec decoder wire reader body.outputSeen =
    some (.ready ⟨[], some error⟩, decoder', wire', reader'))

include hpending hnone hread

theorem pollMember_failed (accepts : IoError → IncomingReader → Bool) (variant : D → IncomingReader → DecoderState D) :
    DecodedBody.pollMember codec accepts variant body wire decoder reader =
      DecodedBody.decoderFailed accepts error body wire' reader' := by
  unfold DecodedBody.pollMember
  simp only [hpending, takeTransportError_none hnone, hread, bind, Option.bind_some, ne_eq, not_true_eq_false, if_false]

theorem pollBrotli_failed : DecodedBody.pollBrotli codec body wire decoder reader =
    DecodedBody.decoderFailed isAcceptedTruncation error body wire' reader' := by
  unfold DecodedBody.pollBrotli
  simp only [hpending, takeTransportError_none hnone, hread, bind, Option.bind_some, ne_eq, not_true_eq_false, if_false]

end Failed

theorem zlibFailed_settles {state : DecoderState D} {error : IoError} {decoder decoder' : D} (hstate : state = .zlib decoder reader)
    (hpending : body.pendingDecoderError = none) (hnone : reader.transportError = none)
    (hread : pollDecoder codec decoder wire reader body.outputSeen =
      some (.ready ⟨[], some error⟩, decoder', wire', reader')) (h : Synced chunked wire' reader') :
    (∃ poll body', DecodedBody.pollZlib codec body wire decoder reader = some (poll, wire', body') ∧ body'.state = none ∧
      Settles chunked wire' (state.excuses error) poll) ∨
    ReadsAgain codec chunked wire' reader' body state error (DecodedBody.pollZlib codec body wire decoder reader) := by
  obtain rfl := hstate
  unfold DecodedBody.pollZlib
  simp only [hpending, takeTransportError_none hnone, hread, bind, Option.bind_some, ne_eq, not_true_eq_false, if_false]
  cases herror : reader'.transportError with
  | some failed =>
      simp only [IncomingReader.takeTransportError, herror]
      exact .inl ⟨_, _, rfl, rfl, .transport (h.failed failed herror)⟩
  | none =>
      simp only [takeTransportError_none herror]
      by_cases haccepted : isAcceptedFlateTruncation error reader' = true
      · obtain ⟨hclean, hexcused⟩ := (acceptsCut_flate.iff error h herror).mp haccepted
        simp only [if_pos haccepted]
        exact .inl ⟨_, _, pollDrain_clean (stopTentative_synced h) herror hclean, rfl, .truncation hclean hexcused⟩
      have hkept := mt (acceptsCut_flate.iff error h herror).mpr haccepted
      simp only [if_neg haccepted]
      cases houtput : body.zlibOutput with
      | false => exact .inr ⟨⟨_, _, rfl⟩, houtput, h.not_failed herror, hkept, rfl⟩
      | true => exact .inl ⟨_, _, rfl, rfl, .content (h.not_failed herror) hkept⟩

/-- An error that comes without bytes is settled at once, or the bytes are read again. -/
theorem pollNext_fails {state : DecoderState D} (hlive : Live chunked wire body state) (codec : Codec D) {error : IoError}
    {decoder decoder' : D} (hdecoder : state.decoder = some decoder) (hpending : body.pendingDecoderError = none)
    (hnone : state.readerMut.transportError = none)
    (hread : pollDecoder codec decoder wire state.readerMut body.outputSeen =
      some (.ready ⟨[], some error⟩, decoder', wire', reader')) :
    (∃ poll body', body.pollNext codec wire = some (poll, wire', body') ∧ body'.state = none ∧
      Settles chunked wire' (state.excuses error) poll) ∨
    ReadsAgain codec chunked wire' reader' body state error (body.pollNext codec wire) := by
  obtain ⟨hstate, hsynced, -⟩ := hlive
  obtain ⟨hsynced', -⟩ := pollDecoder_synced hsynced hread
  have hfails : ∀ {accepts : IoError → IncomingReader → Bool}, AcceptsCut accepts state.excuses →
      body.pollNext codec wire = DecodedBody.decoderFailed accepts error body wire' reader' →
        ∃ poll body', body.pollNext codec wire = some (poll, wire', body') ∧ body'.state = none ∧
          Settles chunked wire' (state.excuses error) poll := by
    intro accepts haccepts hpoll
    obtain ⟨poll, hfailed, hsettles⟩ := decoderFailed_settles haccepts error hsynced'
    exact ⟨poll, _, hpoll.trans hfailed, rfl, hsettles⟩
  cases state with
  | gzip decoder reader =>
      cases hdecoder
      refine .inl (hfails acceptsCut_truncation ?_)
      simp only [DecodedBody.pollNext, hstate]
      exact pollMember_failed hpending hnone hread _ _
  | zlib decoder reader =>
      cases hdecoder
      have hsettles := zlibFailed_settles rfl hpending hnone hread hsynced'
      simp only [DecodedBody.pollNext, hstate]
      exact hsettles
  | deflate decoder reader =>
      cases hdecoder
      refine .inl (hfails acceptsCut_flate ?_)
      simp only [DecodedBody.pollNext, hstate]
      exact pollMember_failed hpending hnone hread _ _
  | brotli decoder reader =>
      cases hdecoder
      refine .inl (hfails acceptsCut_truncation ?_)
      simp only [DecodedBody.pollNext, hstate]
      exact pollBrotli_failed hpending hnone hread
  | zstandard decoder reader =>
      cases hdecoder
      refine .inl (hfails acceptsCut_truncation ?_)
      simp only [DecodedBody.pollNext, hstate]
      exact pollMember_failed hpending hnone hread _ _
  | drain reader => cases hdecoder
  | rejectTrailing reader => cases hdecoder

/-! ### Runs -/

/-- A body with its wire, polled again and again. -/
def decodeMachine (codec : Codec D) : Machine (Incoming × DecodedBody D) Unit (Poll (Option (Except Error Bytes))) where
  step s _ := (s.2.pollNext codec s.1).map fun (poll, wire, body) => (poll, wire, body)

abbrev DecodeTrace := List (Unit × Poll (Option (Except Error Bytes)))

/-- The answers of a body that has more to give. -/
def Open (poll : Poll (Option (Except Error Bytes))) : Prop :=
  poll = .pending ∨ ∃ bytes, bytes ≠ [] ∧ poll = .ready (some (.ok bytes))

/-- The last answer that says anything, and those after it. -/
def Closes (chunked : Bool) (wire : Incoming) (answers : List (Poll (Option (Except Error Bytes)))) : Prop :=
  ∃ n, (∃ error, Blames chunked wire error ∧ answers = .ready (some (.error error)) :: List.replicate n (.ready none)) ∨
    (CleanEnd wire ∧ answers = List.replicate (n + 1) (.ready none))

/-- Either the body has more to give and has only given chunks, or it is over. -/
inductive DecodeInv (chunked : Bool) (trace : DecodeTrace) (wire : Incoming) (body : DecodedBody D) : Prop
  | live {state : DecoderState D} : Live chunked wire body state → (∀ step ∈ trace, Open step.2) →
      DecodeInv chunked trace wire body
  | closed {before : DecodeTrace} {closing : List (Poll (Option (Except Error Bytes)))} : body.state = none →
      body.pendingDecoderError = none → (∀ step ∈ before, Open step.2) → Closes chunked wire closing →
        trace.map (·.2) = before.map (·.2) ++ closing → DecodeInv chunked trace wire body

theorem closes_more {answers : List (Poll (Option (Except Error Bytes)))} (h : Closes chunked wire answers) :
    Closes chunked wire (answers ++ [.ready none]) := by
  obtain ⟨n, ⟨error, hblames, rfl⟩ | ⟨hclean, rfl⟩⟩ := h
  · exact ⟨n + 1, .inl ⟨error, hblames, by rw [List.cons_append, List.replicate_succ']⟩⟩
  · exact ⟨n + 1, .inr ⟨hclean, by rw [← List.replicate_succ']⟩⟩

theorem new_live (codec : Codec D) (encoding : ContentEncoding) (chunked : Bool) (script : List (Poll Frame)) (ending : Option Bytes) :
    ∃ state, Live chunked ⟨script, ending, false⟩ (DecodedBody.new codec encoding chunked) state := by
  cases encoding <;> exact ⟨_, rfl, ⟨rfl, nofun, nofun, nofun, nofun⟩, fun h => absurd rfl h⟩

theorem decodeInv_run {encoding : ContentEncoding} {script : List (Poll Frame)} {ending : Option Bytes} {trace : DecodeTrace}
    {s : Incoming × DecodedBody D}
    (hrun : (decodeMachine codec).Run (⟨script, ending, false⟩, DecodedBody.new codec encoding chunked) trace s) :
    DecodeInv chunked trace s.1 s.2 := by
  refine hrun.induction (fun trace s => DecodeInv chunked trace s.1 s.2) ?_ ?_
  · obtain ⟨state, hlive⟩ := new_live codec encoding chunked script ending
    exact .live hlive nofun
  · rintro trace ⟨wire, body⟩ u poll ⟨wire', body'⟩ - hinv hstep
    obtain ⟨⟨_, _, _⟩, hpoll, heq⟩ := Option.map_eq_some_iff.mp hstep
    cases heq
    cases hinv with
    | live hlive hopen =>
        have hsnoc : ∀ {last : Poll (Option (Except Error Bytes))}, Open last →
            ∀ step ∈ trace ++ [(u, last)], Open step.2 := by
          intro last hlast step hmem
          rcases List.mem_append.mp hmem with hold | hnew
          · exact hopen step hold
          · obtain rfl := List.mem_singleton.mp hnew
            exact hlast
        cases (pollNext_polls hlive hpoll).answers with
        | pending hlive' => exact .live hlive' (hsnoc (.inl rfl))
        | chunk hne hlive' => exact .live hlive' (hsnoc (.inr ⟨_, hne, rfl⟩))
        | failed hstate hnone hblames =>
            exact .closed hstate hnone hopen ⟨0, .inl ⟨_, hblames, rfl⟩⟩ (by rw [List.map_append]; rfl)
        | clean hstate hnone hclean =>
            exact .closed hstate hnone hopen ⟨0, .inr ⟨hclean, rfl⟩⟩ (by rw [List.map_append]; rfl)
    | closed hstate hnone hopen hcloses htrace =>
        have hover : DecodedBody.pollNext codec body wire = some (.ready none, wire, body) := by
          unfold DecodedBody.pollNext
          rw [show body.state = none from hstate]
        cases hover.symm.trans hpoll
        refine .closed hstate hnone hopen (closes_more hcloses) ?_
        rw [List.map_append, htrace, List.append_assoc]
        rfl

/-- How a body ends, from everything it has answered and the wire it has read. -/
structure EndsCorrectly (chunked : Bool) (trace : DecodeTrace) (wire : Incoming) (body : DecodedBody D) : Prop where
  /-- Chunks, then at most one error, then nothing for ever. -/
  items : ∃ before closing, trace.map (·.2) = before ++ closing ∧ (∀ poll ∈ before, Open poll) ∧
    (closing = [] ∨ ∃ n, (∃ error, closing = .ready (some (.error error)) :: List.replicate n (.ready none)) ∨
      closing = List.replicate (n + 1) (.ready none))
  /-- The error is the wire's if the wire has failed. -/
  blames : ∀ error, .ready (some (.error error)) ∈ trace.map (·.2) →
    (∀ message, wire.ended = true → wire.ending = some message → error = transportErrorOf chunked message) ∧
      (wire.ended = false ∨ wire.ending = none → error = .contentDecoding)
  /-- Without an error, nothing is answered only at the clean end. -/
  clean : (∀ error, .ready (some (.error error)) ∉ trace.map (·.2)) → .ready none ∈ trace.map (·.2) →
    wire.ended = true ∧ wire.ending = none
  /-- An error that waits is settled by the next call, which does not decode. -/
  waiting : ∀ error, body.pendingDecoderError = some error →
    ∃ state poll body', body.state = some state ∧ (∀ any : Codec D, body.pollNext any wire = some (poll, wire, body')) ∧
      body'.state = none ∧ Settles chunked wire (state.excuses error) poll
  /-- An error that comes without bytes is settled by the same call, unless the bytes are read again as raw data. -/
  failing : ∀ state (codec : Codec D) decoder error decoder' wire' reader', body.state = some state →
    state.decoder = some decoder → body.pendingDecoderError = none → state.readerMut.transportError = none →
    pollDecoder codec decoder wire state.readerMut body.outputSeen =
      some (.ready ⟨[], some error⟩, decoder', wire', reader') →
    (∃ poll body', body.pollNext codec wire = some (poll, wire', body') ∧ body'.state = none ∧
      Settles chunked wire' (state.excuses error) poll) ∨
    ReadsAgain codec chunked wire' reader' body state error (body.pollNext codec wire)

theorem not_open_error (error : Error) : ¬Open (.ready (some (.error error))) := by
  rintro (hpending | ⟨_, -, hchunk⟩)
  · cases hpending
  · cases hchunk

theorem not_open_none : ¬Open (.ready none) := by
  rintro (hpending | ⟨_, -, hchunk⟩)
  · cases hpending
  · cases hchunk

/-- Whatever the decoder does and however the wire ends, the body ends correctly. -/
theorem body_ends_correctly {codec : Codec D} {encoding : ContentEncoding} {script : List (Poll Frame)} {ending : Option Bytes}
    {trace : DecodeTrace} {s : Incoming × DecodedBody D}
    (hrun : (decodeMachine codec).Run (⟨script, ending, false⟩, DecodedBody.new codec encoding chunked) trace s) :
    EndsCorrectly chunked trace s.1 s.2 := by
  cases decodeInv_run hrun with
  | live hlive hopen =>
      have hall : ∀ poll ∈ trace.map (·.2), Open poll := by
        intro poll hmem
        obtain ⟨step, hstep, rfl⟩ := List.mem_map.mp hmem
        exact hopen step hstep
      refine ⟨⟨_, [], (List.append_nil _).symm, hall, .inl rfl⟩, ?_, ?_, ?_, ?_⟩
      · exact fun error hmem => absurd (hall _ hmem) (not_open_error error)
      · exact fun _ hmem => absurd (hall _ hmem) not_open_none
      · exact fun error herror => ⟨_, (pollNext_settles hlive herror).imp fun _ => Exists.imp fun _ h => ⟨hlive.holds, h⟩⟩
      · intro state codec decoder error decoder' wire' reader' hstate hdecoder hpending hnone hread
        obtain rfl := Option.some.inj (hlive.holds.symm.trans hstate)
        exact pollNext_fails hlive codec hdecoder hpending hnone hread
  | @closed before closing hstate hnone hopen hcloses htrace =>
      have hall : ∀ poll ∈ before.map (·.2), Open poll := by
        intro poll hmem
        obtain ⟨step, hstep, rfl⟩ := List.mem_map.mp hmem
        exact hopen step hstep
      have hclosing : ∀ poll ∈ trace.map (·.2), ¬Open poll → poll ∈ closing := by
        intro poll hmem hnot
        rw [htrace] at hmem
        exact (List.mem_append.mp hmem).resolve_left fun hbefore => hnot (hall poll hbefore)
      refine ⟨⟨_, closing, htrace, hall, .inr ?_⟩, ?_, ?_, ?_, ?_⟩
      · obtain ⟨n, ⟨error, -, rfl⟩ | ⟨-, rfl⟩⟩ := hcloses
        · exact ⟨n, .inl ⟨error, rfl⟩⟩
        · exact ⟨n, .inr rfl⟩
      · intro error hmem
        have hin := hclosing _ hmem (not_open_error error)
        obtain ⟨n, ⟨blamed, hblames, rfl⟩ | ⟨-, rfl⟩⟩ := hcloses
        · obtain rfl : error = blamed := by
            rcases List.mem_cons.mp hin with heq | hlater
            · cases heq
              rfl
            · cases List.eq_of_mem_replicate hlater
          rcases hblames with ⟨hended, message, hending, rfl⟩ | ⟨rfl, hnever⟩
          · refine ⟨fun other _ hother => ?_, fun hopen => ?_⟩
            · rw [hending] at hother
              cases hother
              rfl
            · rcases hopen with hfalse | hempty
              · rw [hended] at hfalse
                cases hfalse
              · rw [hending] at hempty
                cases hempty
          · exact ⟨fun message hended hending => absurd ⟨hended, message, hending, rfl⟩ (hnever _), fun _ => rfl⟩
        · cases List.eq_of_mem_replicate hin
      · intro hquiet hmem
        have hin := hclosing _ hmem not_open_none
        obtain ⟨n, ⟨error, -, rfl⟩ | ⟨hclean, -⟩⟩ := hcloses
        · refine absurd ?_ (hquiet error)
          rw [htrace]
          exact List.mem_append_right _ List.mem_cons_self
        · exact hclean
      · intro error hsome
        rw [hnone] at hsome
        cases hsome
      · intro state _ _ _ _ _ _ hsome
        rw [hstate] at hsome
        cases hsome

/-- A decoder that hands on what it reads, one look at a time. -/
private def copying : Codec Unit where
  new _ := ()
  pollRead _ limit := .fillBuf fun
    | .pending => .done .pending [] ()
    | .ready (.error error) => .done (.ready (some error)) [] ()
    | .ready (.ok available) => .consume (min available.length limit) (.done (.ready none) (available.take limit) ())

/-- A chunked response that breaks off after a frame. -/
theorem body_ends_correctly_broken :
    ∃ s : Incoming × DecodedBody Unit, EndsCorrectly true [((), .ready (some (.ok (text "data")))), ((), .pending),
      ((), .ready (some (.error (.chunkedEncoding (text "reset"))))), ((), .ready none)] s.1 s.2 := by
  obtain ⟨s, hexec⟩ : ∃ s, (decodeMachine copying).exec
      (⟨[.ready (.data (text "data")), .pending, .ready .trailers], some (text "reset"), false⟩,
        DecodedBody.new copying .gzip true) [(), (), (), ()] =
      some ([((), .ready (some (.ok (text "data")))), ((), .pending),
        ((), .ready (some (.error (.chunkedEncoding (text "reset"))))), ((), .ready none)], s) := ⟨_, rfl⟩
  exact ⟨s, body_ends_correctly (Machine.run_of_exec hexec)⟩

end RequestsNative.Transport.Decode
