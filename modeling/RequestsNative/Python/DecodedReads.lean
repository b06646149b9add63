import RequestsNative.Base
import RequestsNative.Lib.Slices

/-!
# Decoded reads

`adapters.rs`, `NativeAdapterRaw::read_amount` for a response whose content is decoded by a decoder that can be bounded.
A read fills a buffer: it asks the decoder for no more than is still wanted, gives it a frame of the wire only when it has
nothing left to decode, and at the end of the wire takes everything that is left, wanted or not. So the buffer may hold
more than one read takes.

The decoder and the body are parameters. `Decoder.Bounded` is what a decoder promises on one wire, which it can decode: what
it gives depends on the wire and not on how it is fed, it keeps to its maximum, and it gives something as long as it says that
it has a tail. On other wires, and at the end of a wire that is cut short, it may fail.
-/

namespace RequestsNative.Python

open RequestsNative.Lib

/-! ### Decoders and bodies -/

/-- A decoder of `urllib3.response`; a maximum of -1 is none. -/
structure Decoder (D E : Type) where
  decompress : D → Bytes → Option Nat → Except E Bytes × D
  hasUnconsumedTail : D → Bool
  flush : D → Except E Bytes × D
  /-- `decoder_reached_clean_end`. -/
  reachedCleanEnd : D → Bool

/-- The blocking response body. -/
structure WireBody (W E : Type) where
  /-- `read_frame_async`: a frame of at most so many bytes, or nothing at the end. -/
  readFrame : W → Nat → Except E (Bytes × W)
  finishEncodedDeclaredLength : W → W

structure NativeAdapterRaw (D W : Type) where
  decoder : D
  body : Option W
  decoded : Bytes := []
  decodedOffset : Nat := 0
  decoderEof : Bool := false
  decodeStarted : Bool := false
  decodeFailed : Bool := false
  closed : Bool := false

def isizeMax : Nat := 2 ^ 63 - 1

namespace NativeAdapterRaw

variable {D W E : Type} (decoder : Decoder D E) (wire : WireBody W E)

def finishBodyFailure (s : NativeAdapterRaw D W) : NativeAdapterRaw D W :=
  { s with body := none, closed := true, decoderEof := true, decoded := [], decodedOffset := 0 }

def readWire (s : NativeAdapterRaw D W) : Except E Bytes × NativeAdapterRaw D W :=
  match s.body with
  | none => (.ok [], s)
  | some body =>
      match wire.readFrame body 8192 with
      | .ok (bytes, body) => (.ok bytes, { s with body := some body })
      | .error error => (.error error, s.finishBodyFailure)

/-- What the decoder gives goes to the end of the buffer; `map_decode_failure` remembers an error. -/
def extend (s : NativeAdapterRaw D W) (result : Except E Bytes × D) : Except E Unit × NativeAdapterRaw D W :=
  match result with
  | (.ok bytes, d) => (.ok (), { s with decoder := d, decoded := s.decoded ++ bytes })
  | (.error error, d) => (.error error, { s with decoder := d, decodeFailed := true })

/-- The end of the wire. -/
def finishDecoder (s : NativeAdapterRaw D W) : Except E Unit × NativeAdapterRaw D W :=
  let s := { s with body := none }
  if s.decodeFailed then (.ok (), { s with decoderEof := true })
  else
    match s.extend (decoder.decompress s.decoder [] none) with
    | (.error error, s) => (.error error, s)
    | (.ok (), s) =>
        match s.extend (decoder.flush s.decoder) with
        | (.error error, s) => (.error error, s)
        | (.ok (), s) => (.ok (), { s with decoderEof := true })

/-- The loop of `fill_decoded_bounded`. `fuel` bounds the turns; `none` when it runs out. -/
def fill (wanted : Option Nat) : Nat → NativeAdapterRaw D W → Option (Except E Unit × NativeAdapterRaw D W)
  | 0, _ => none
  | fuel + 1, s =>
      if s.decoderEof || wanted.any (· ≤ s.decoded.length) then some (.ok (), s)
      else
        let hasTail := decoder.hasUnconsumedTail s.decoder
        match if hasTail then (.ok [], s) else s.readWire wire with
        | (.error error, s) => some (.error error, s)
        | (.ok data, s) =>
            if data = [] ∧ hasTail = false then some (s.finishDecoder decoder)
            else
              let maximum := wanted.map fun wanted => min (wanted - s.decoded.length) isizeMax
              match { s with decodeStarted := true }.extend (decoder.decompress s.decoder data maximum) with
              | (.error error, s) => some (.error error, s)
              | (.ok (), s) => fill wanted fuel s

def fillDecodedBounded (wanted : Option Nat) (fuel : Nat) (s : NativeAdapterRaw D W) :
    Option (Except E Unit × NativeAdapterRaw D W) :=
  fill decoder wire wanted fuel { s with decoded := s.decoded.drop s.decodedOffset, decodedOffset := 0 }

def finishDecodedWireIfComplete (s : NativeAdapterRaw D W) : NativeAdapterRaw D W :=
  if decoder.reachedCleanEnd s.decoder then { s with body := s.body.map wire.finishEncodedDeclaredLength } else s

/-- The bytes a read takes from the buffer. -/
def takeDecoded (s : NativeAdapterRaw D W) (amount : Option Nat) : Bytes × NativeAdapterRaw D W :=
  let stop :=
    match amount with
    | some amount => min (s.decodedOffset + amount) s.decoded.length
    | none => s.decoded.length
  ((s.decoded.take stop).drop s.decodedOffset,
    { s with decodedOffset := stop, closed := s.closed || (s.decoderEof && stop == s.decoded.length) })

/-- `read_amount` with `decode_content`. -/
def readAmount (fuel : Nat) (s : NativeAdapterRaw D W) (amount : Option Nat) :
    Option (Except E Bytes × NativeAdapterRaw D W) :=
  if amount = some 0 ∨ s.closed = true then some (.ok [], s)
  else
    match s.fillDecodedBounded decoder wire amount fuel with
    | none => none
    | some (.error error, s) => some (.error error, s)
    | some (.ok (), s) =>
        let available := s.decoded.length - s.decodedOffset
        let s := if amount.all (available < ·) then s.finishDecodedWireIfComplete decoder wire else s
        let (bytes, s) := s.takeDecoded amount
        some (.ok bytes, s)

/-- One read after another. -/
def reads (fuel : Nat) (s : NativeAdapterRaw D W) :
    List (Option Nat) → Option (List (Except E Bytes) × NativeAdapterRaw D W)
  | [] => some ([], s)
  | amount :: rest => do
      let (result, s) ← s.readAmount decoder wire fuel amount
      let (results, s) ← s.reads fuel rest
      return (result :: results, s)

end NativeAdapterRaw

/-! ### What decoders and bodies promise -/

section Promises

variable {D W E : Type}

namespace Decoder

variable (decoder : Decoder D E)

/-- What the decoder gives for some calls, none of which fails. -/
def feed (d : D) : List (Bytes × Option Nat) → Option (Bytes × D)
  | [] => some ([], d)
  | (data, maximum) :: rest =>
      match decoder.decompress d data maximum with
      | (.ok bytes, d) => (feed d rest).map fun later => (bytes ++ later.1, later.2)
      | (.error _, _) => none

/-- What it gives at the end of the wire: its tail and what it flushes. -/
def finish (d : D) : Option Bytes :=
  match decoder.decompress d [] none with
  | (.ok tail, d) =>
      match decoder.flush d with
      | (.ok flushed, _) => some (tail ++ flushed)
      | (.error _, _) => none
  | (.error _, _) => none

/-- The output on a whole wire. -/
def output (start : D) (wire : Bytes) : Option Bytes := do
  let (bytes, d) ← decoder.feed start [(wire, none)]
  let last ← decoder.finish d
  return bytes ++ last

/-- The promises of a bounded decoder on a wire. -/
structure Bounded (start : D) (encoded : Bytes) : Prop where
  decodes : ∀ calls, calls.flatMap Prod.fst <+: encoded → ∃ given d, decoder.feed start calls = some (given, d)
  whole : ∀ calls given d, calls.flatMap Prod.fst = encoded → decoder.feed start calls = some (given, d) →
    ∃ last, decoder.finish d = some last ∧ decoder.output start encoded = some (given ++ last)
  bounded : ∀ {d data maximum bytes d'}, decoder.decompress d data (some maximum) = (.ok bytes, d') → bytes.length ≤ maximum
  progress : ∀ {calls given d maximum taken d'}, calls.flatMap Prod.fst <+: encoded →
    decoder.feed start calls = some (given, d) → decoder.hasUnconsumedTail d = true → maximum ≠ some 0 →
      decoder.decompress d [] maximum = (.ok taken, d') → taken ≠ []

end Decoder

/-- The frames a body gives, one after the other, and then nothing. -/
def WireBody.Delivers (wire : WireBody W E) : W → List Bytes → Prop
  | body, [] => ∃ body', wire.readFrame body 8192 = .ok ([], body')
  | body, frame :: rest => frame ≠ [] ∧ ∃ body', wire.readFrame body 8192 = .ok (frame, body') ∧ wire.Delivers body' rest

end Promises

/-! ### Feeding a decoder -/

section Feeding

variable {D W E : Type} {decoder : Decoder D E} {start d : D} {calls : List (Bytes × Option Nat)} {given encoded : Bytes}

theorem feed_append (d : D) (first second : List (Bytes × Option Nat)) : decoder.feed d (first ++ second) =
    (decoder.feed d first).bind fun fed => (decoder.feed fed.2 second).map fun later => (fed.1 ++ later.1, later.2) := by
  induction first generalizing d with
  | nil => simp [Decoder.feed]
  | cons call rest ih =>
      obtain ⟨data, maximum⟩ := call
      rw [List.cons_append, Decoder.feed, Decoder.feed]
      cases decoder.decompress d data maximum with
      | mk result d' =>
          cases result with
          | error error => rfl
          | ok bytes =>
              simp only [ih]
              cases hrest : decoder.feed d' rest with
              | none => rfl
              | some fed => simp [Function.comp_def]

theorem Decoder.Bounded.next (h : decoder.Bounded start encoded) (hfeed : decoder.feed start calls = some (given, d))
    {data : Bytes} (hdata : calls.flatMap Prod.fst ++ data <+: encoded) (maximum : Option Nat) :
    ∃ taken d', decoder.decompress d data maximum = (.ok taken, d') ∧
      decoder.feed start (calls ++ [(data, maximum)]) = some (given ++ taken, d') := by
  have hcalls : (calls ++ [(data, maximum)]).flatMap Prod.fst <+: encoded := by
    rwa [List.flatMap_append, List.flatMap_singleton]
  obtain ⟨bytes, d', hnext⟩ := h.decodes (calls ++ [(data, maximum)]) hcalls
  have happend : decoder.feed start (calls ++ [(data, maximum)]) = _ := feed_append start calls [(data, maximum)]
  rw [hfeed, Option.bind_some, Decoder.feed] at happend
  cases hcall : decoder.decompress d data maximum with
  | mk result d'' =>
      cases result with
      | error error =>
          rw [hcall, hnext] at happend
          cases happend
      | ok taken =>
          rw [hcall] at happend
          refine ⟨taken, d'', rfl, ?_⟩
          rw [happend]
          simp [Decoder.feed]

/-- What it has given is the front of the output: the rest of the wire could be fed at once. -/
theorem Decoder.Bounded.isPrefix (h : decoder.Bounded start encoded) (hfeed : decoder.feed start calls = some (given, d))
    (hcalls : calls.flatMap Prod.fst <+: encoded) {output : Bytes} (houtput : decoder.output start encoded = some output) :
    given <+: output := by
  obtain ⟨more, hmore⟩ := hcalls
  obtain ⟨taken, d', -, hnext⟩ := h.next hfeed ⟨[], by rw [List.append_nil, hmore]⟩ none
  have hwhole : (calls ++ [(more, none)]).flatMap Prod.fst = encoded := by
    rw [List.flatMap_append, List.flatMap_singleton, hmore]
  obtain ⟨last, -, hlast⟩ := h.whole _ _ _ hwhole hnext
  rw [Option.some.inj (houtput.symm.trans hlast), List.append_assoc]
  exact List.prefix_append given _

end Feeding

/-! ### The buffer -/

namespace NativeAdapterRaw

variable {D W E : Type} {decoder : Decoder D E} {wire : WireBody W E} {start : D} {frames rest : List Bytes}
  {output delivered : Bytes} {s : NativeAdapterRaw D W}

/-- The wire has not ended: the decoder has given what was delivered and what is in the buffer. -/
structure Reading (decoder : Decoder D E) (wire : WireBody W E) (start : D) (frames : List Bytes) (delivered : Bytes)
    (rest : List Bytes) (s : NativeAdapterRaw D W) : Prop where
  fed : ∃ calls, decoder.feed start calls = some (delivered ++ s.decoded, s.decoder) ∧
    calls.flatMap Prod.fst ++ rest.flatten = frames.flatten
  body : ∃ body, s.body = some body ∧ wire.Delivers body rest
  offset : s.decodedOffset = 0
  eof : s.decoderEof = false
  failed : s.decodeFailed = false
  closed : s.closed = false

/-- The wire has ended, and the rest of the output is in the buffer. -/
structure Ended (output delivered : Bytes) (s : NativeAdapterRaw D W) : Prop where
  whole : delivered ++ s.decoded = output
  body : s.body = none
  offset : s.decodedOffset = 0
  eof : s.decoderEof = true
  closed : s.closed = false

theorem Reading.decompress (hbounded : decoder.Bounded start frames.flatten)
    (h : Reading decoder wire start frames delivered rest s) {data : Bytes} {rest' : List Bytes} {body' : W}
    (hdata : rest.flatten = data ++ rest'.flatten) (hdelivers : wire.Delivers body' rest') (maximum : Option Nat) :
    ∃ taken d', decoder.decompress s.decoder data maximum = (.ok taken, d') ∧
      Reading decoder wire start frames delivered rest'
        { s with body := some body', decodeStarted := true, decoder := d', decoded := s.decoded ++ taken } := by
  obtain ⟨calls, hfeed, hframes⟩ := h.fed
  rw [hdata, ← List.append_assoc] at hframes
  obtain ⟨taken, d', hcall, hnext⟩ := hbounded.next hfeed ⟨_, hframes⟩ maximum
  refine ⟨taken, d', hcall, ⟨⟨calls ++ [(data, maximum)], ?_, ?_⟩, ⟨body', rfl, hdelivers⟩, h.offset, h.eof, h.failed, h.closed⟩⟩
  · rw [hnext, List.append_assoc]
  · rw [List.flatMap_append, List.flatMap_singleton, hframes]

theorem Reading.isPrefix (hbounded : decoder.Bounded start frames.flatten)
    (houtput : decoder.output start frames.flatten = some output) (h : Reading decoder wire start frames delivered rest s) :
    delivered ++ s.decoded <+: output := by
  obtain ⟨calls, hfeed, hframes⟩ := h.fed
  exact hbounded.isPrefix hfeed ⟨_, hframes⟩ houtput

theorem Reading.finishDecoder (hbounded : decoder.Bounded start frames.flatten)
    (houtput : decoder.output start frames.flatten = some output)
    (h : Reading decoder wire start frames delivered [] s) :
    ∃ s' : NativeAdapterRaw D W, (∀ body : Option W, { s with body }.finishDecoder decoder = (.ok (), s')) ∧
      Ended output delivered s' := by
  obtain ⟨calls, hfeed, hframes⟩ := h.fed
  rw [List.flatten_nil, List.append_nil] at hframes
  obtain ⟨last, hfinish, hwhole⟩ := hbounded.whole calls _ _ hframes hfeed
  rw [houtput] at hwhole
  unfold Decoder.finish at hfinish
  split at hfinish
  · next tail d htail =>
      split at hfinish
      · next flushed d' hflush =>
          obtain rfl := Option.some.inj hfinish
          refine ⟨{ s with
            body := none, decoder := d', decoded := s.decoded ++ tail ++ flushed, decoderEof := true }, fun body => ?_, ?_⟩
          · simp [NativeAdapterRaw.finishDecoder, extend, h.failed, htail, hflush]
          · refine ⟨?_, rfl, h.offset, rfl, h.closed⟩
            rw [Option.some.inj hwhole]
            simp only [List.append_assoc]
      · cases hfinish
  · cases hfinish

/-- One turn of the loop: the tail gives something, the wire ends, or a frame is decoded. -/
theorem Reading.turn (hbounded : decoder.Bounded start frames.flatten)
    (houtput : decoder.output start frames.flatten = some output)
    (h : Reading decoder wire start frames delivered rest s) {wanted : Option Nat}
    (hwanted : wanted.any (· ≤ s.decoded.length) = false) :
    (∃ s', s.decoded.length < s'.decoded.length ∧ Reading decoder wire start frames delivered rest s' ∧
      ∀ fuel, fill decoder wire wanted (fuel + 1) s = fill decoder wire wanted fuel s') ∨
    (∃ s', Ended output delivered s' ∧ ∀ fuel, fill decoder wire wanted (fuel + 1) s = some (.ok (), s')) ∨
    (∃ frame rest' s', rest = frame :: rest' ∧ Reading decoder wire start frames delivered rest' s' ∧
      ∀ fuel, fill decoder wire wanted (fuel + 1) s = fill decoder wire wanted fuel s') := by
  obtain ⟨body, hbody, hdelivers⟩ := h.body
  have henter : (s.decoderEof || wanted.any (· ≤ s.decoded.length)) = false := by rw [h.eof, hwanted]; rfl
  generalize hmaximum : wanted.map (fun wanted => min (wanted - s.decoded.length) isizeMax) = maximum
  by_cases htail : decoder.hasUnconsumedTail s.decoder = true
  · have hsame : rest.flatten = [] ++ rest.flatten := rfl
    obtain ⟨taken, d', hcall, hnext⟩ := h.decompress hbounded hsame hdelivers maximum
    have hpositive : maximum ≠ some 0 := by
      rw [← hmaximum]
      cases wanted with
      | none => exact nofun
      | some n =>
          have hn : ¬n ≤ s.decoded.length := by simpa using hwanted
          have hmax : isizeMax ≠ 0 := by decide
          simp only [Option.map_some, ne_eq, Option.some.injEq]
          omega
    obtain ⟨calls, hfeed, hframes⟩ := h.fed
    have htaken : taken ≠ [] := hbounded.progress ⟨_, hframes⟩ hfeed htail hpositive hcall
    refine .inl ⟨_, ?_, hnext, fun fuel => ?_⟩
    · show s.decoded.length < (s.decoded ++ taken).length
      rw [List.length_append]
      exact Nat.lt_add_of_pos_right (List.length_pos_iff.mpr htaken)
    · rw [fill, henter]
      simp [htail, hmaximum, hcall, extend, ← hbody]
  · rw [Bool.not_eq_true] at htail
    cases rest with
    | nil =>
        obtain ⟨body', hread⟩ := hdelivers
        obtain ⟨s', hfinish, hended⟩ := h.finishDecoder hbounded houtput
        refine .inr (.inl ⟨s', hended, fun fuel => ?_⟩)
        rw [fill, henter]
        simp [htail, readWire, hbody, hread, hfinish]
    | cons frame rest' =>
        obtain ⟨hframe, body', hread, hdelivers'⟩ := hdelivers
        obtain ⟨taken, d', hcall, hnext⟩ := h.decompress hbounded List.flatten_cons hdelivers' maximum
        refine .inr (.inr ⟨frame, rest', _, rfl, hnext, fun fuel => ?_⟩)
        rw [fill, henter]
        simp [htail, readWire, hbody, hread, hframe, hmaximum, hcall, extend]

/-- Enough turns fill the buffer, or come to the end of the wire. -/
def Fills (decoder : Decoder D E) (wire : WireBody W E) (start : D) (frames : List Bytes) (output delivered : Bytes)
    (wanted : Option Nat) (s : NativeAdapterRaw D W) : Prop :=
  ∃ s', (∃ enough, ∀ fuel ≥ enough, fill decoder wire wanted fuel s = some (.ok (), s')) ∧
    (Ended output delivered s' ∨ ∃ rest, Reading decoder wire start frames delivered rest s' ∧
      wanted.any (· ≤ s'.decoded.length) = true)

theorem Fills.of_turn {wanted : Option Nat} {s s' : NativeAdapterRaw D W}
    (h : Fills decoder wire start frames output delivered wanted s')
    (hturn : ∀ fuel, fill decoder wire wanted (fuel + 1) s = fill decoder wire wanted fuel s') :
    Fills decoder wire start frames output delivered wanted s := by
  obtain ⟨final, ⟨enough, hfill⟩, hfinal⟩ := h
  refine ⟨final, ⟨enough + 1, fun fuel hfuel => ?_⟩, hfinal⟩
  obtain ⟨fuel, rfl⟩ : ∃ less, fuel = less + 1 := ⟨fuel - 1, by omega⟩
  rw [hturn]
  exact hfill fuel (by omega)

theorem Reading.fills (hbounded : decoder.Bounded start frames.flatten)
    (houtput : decoder.output start frames.flatten = some output)
    (wanted : Option Nat) {rest : List Bytes} {s : NativeAdapterRaw D W}
    (h : Reading decoder wire start frames delivered rest s) :
    Fills decoder wire start frames output delivered wanted s := by
  by_cases hwanted : wanted.any (· ≤ s.decoded.length) = true
  · refine ⟨s, ⟨1, fun fuel hfuel => ?_⟩, .inr ⟨rest, h, hwanted⟩⟩
    obtain ⟨fuel, rfl⟩ : ∃ less, fuel = less + 1 := ⟨fuel - 1, by omega⟩
    rw [fill, hwanted, Bool.or_true, if_pos rfl]
  · obtain ⟨s', hlonger, hnext, hturn⟩ | ⟨s', hended, hturn⟩ | ⟨frame, rest', s', hrest, hnext, hturn⟩ :=
      h.turn hbounded houtput (eq_false_of_ne_true hwanted)
    · have hfits : delivered.length + s'.decoded.length ≤ output.length := by
        rw [← List.length_append]
        exact (hnext.isPrefix hbounded houtput).length_le
      exact (hnext.fills hbounded houtput wanted).of_turn hturn
    · refine ⟨s', ⟨1, fun fuel hfuel => ?_⟩, .inl hended⟩
      obtain ⟨fuel, rfl⟩ : ∃ less, fuel = less + 1 := ⟨fuel - 1, by omega⟩
      exact hturn fuel
    · exact (hnext.fills hbounded houtput wanted).of_turn hturn
termination_by (rest.length, output.length - s.decoded.length)
decreasing_by
  · exact Prod.Lex.right _ (by omega)
  · rw [hrest]
    exact Prod.Lex.left _ _ (Nat.lt_succ_self _)

/-! ### Reads -/

/-- The buffer without what was taken from it. -/
def drained (s : NativeAdapterRaw D W) : NativeAdapterRaw D W :=
  { s with decoded := s.decoded.drop s.decodedOffset, decodedOffset := 0 }

/-- Where the reads stand: what was delivered, and what is left in the buffer, on the wire and in the decoder. -/
inductive ReadPhase (decoder : Decoder D E) (wire : WireBody W E) (start : D) (frames : List Bytes)
    (output delivered : Bytes) (s : NativeAdapterRaw D W) : Prop
  | reading (rest : List Bytes) (h : Reading decoder wire start frames delivered rest s.drained)
  | ended (h : Ended output delivered s.drained)
  | closed (hclosed : s.closed = true) (hwhole : delivered = output)

theorem takeDecoded_eq {s : NativeAdapterRaw D W} (hoffset : s.decodedOffset = 0) (hclosed : s.closed = false)
    (amount : Option Nat) : (s.takeDecoded amount).1 = (slice s.decoded amount).1 ∧
      (s.takeDecoded amount).2.drained = { s with
        decoded := (slice s.decoded amount).2
        closed := s.decoderEof && (slice s.decoded amount).2.isEmpty } := by
  cases amount with
  | none => simp [takeDecoded, slice, drained, hoffset, hclosed]
  | some n =>
      have hempty : (min n s.decoded.length == s.decoded.length) = (s.decoded.drop n).isEmpty := by
        rw [Bool.eq_iff_iff, beq_iff_eq, List.isEmpty_iff, List.drop_eq_nil_iff]
        omega
      simp [takeDecoded, slice, drained, hoffset, hclosed, hempty, ← List.take_eq_take_min, ← List.drop_eq_drop_min]

theorem Ended.take (h : Ended output delivered s) (amount : Option Nat) :
    (s.takeDecoded amount).1 = (slice s.decoded amount).1 ∧
      ReadPhase decoder wire start frames output (delivered ++ (slice s.decoded amount).1) (s.takeDecoded amount).2 := by
  obtain ⟨hbytes, hdrained⟩ := takeDecoded_eq h.offset h.closed amount
  refine ⟨hbytes, ?_⟩
  have hwhole : delivered ++ (slice s.decoded amount).1 ++ (slice s.decoded amount).2 = output := by
    rw [List.append_assoc, slice_append, h.whole]
  cases hrest : (slice s.decoded amount).2 with
  | nil =>
      have hclosed : (s.takeDecoded amount).2.drained.closed = true := by
        rw [hdrained, h.eof, hrest]
        rfl
      rw [hrest, List.append_nil] at hwhole
      exact .closed hclosed hwhole
  | cons b bytes =>
      refine .ended ?_
      rw [hdrained, hrest]
      exact ⟨hrest ▸ hwhole, h.body, h.offset, h.eof, by rw [h.eof]; rfl⟩

theorem Reading.take (h : Reading decoder wire start frames delivered rest s) (n : Nat) :
    (s.takeDecoded (some n)).1 = s.decoded.take n ∧
      ReadPhase decoder wire start frames output (delivered ++ s.decoded.take n) (s.takeDecoded (some n)).2 := by
  obtain ⟨hbytes, hdrained⟩ := takeDecoded_eq h.offset h.closed (some n)
  refine ⟨hbytes, .reading rest ?_⟩
  rw [hdrained]
  refine ⟨?_, h.body, h.offset, h.eof, h.failed, by rw [h.eof]; rfl⟩
  obtain ⟨calls, hfeed, hframes⟩ := h.fed
  refine ⟨calls, ?_, hframes⟩
  rw [hfeed, List.append_assoc]
  exact congrArg (fun decoded => some (delivered ++ decoded, s.decoder)) (List.take_append_drop n s.decoded).symm

theorem finishDecodedWireIfComplete_none (hbody : s.body = none) : s.finishDecodedWireIfComplete decoder wire = s := by
  unfold finishDecodedWireIfComplete
  split
  · obtain ⟨d, body⟩ := s
    obtain rfl : body = none := hbody
    rfl
  · rfl

theorem ReadPhase.left (hbounded : decoder.Bounded start frames.flatten)
    (houtput : decoder.output start frames.flatten = some output)
    (h : ReadPhase decoder wire start frames output delivered s) :
    ∃ left, delivered ++ left = output ∧ (s.closed = true → left = []) := by
  cases h with
  | reading rest h =>
      obtain ⟨left, hleft⟩ := h.isPrefix hbounded houtput
      rw [List.append_assoc] at hleft
      exact ⟨_, hleft, fun hclosed => absurd (hclosed.symm.trans h.closed) (by decide)⟩
  | ended h => exact ⟨_, h.whole, fun hclosed => absurd (hclosed.symm.trans h.closed) (by decide)⟩
  | closed hclosed hwhole => exact ⟨[], by rw [List.append_nil, hwhole], fun _ => rfl⟩

theorem ReadPhase.fills (hbounded : decoder.Bounded start frames.flatten)
    (houtput : decoder.output start frames.flatten = some output)
    (h : ReadPhase decoder wire start frames output delivered s) (hopen : s.closed = false) (wanted : Option Nat) :
    Fills decoder wire start frames output delivered wanted s.drained := by
  cases h with
  | reading rest h => exact h.fills hbounded houtput wanted
  | ended h =>
      refine ⟨s.drained, ⟨1, fun fuel hfuel => ?_⟩, .inl h⟩
      obtain ⟨fuel, rfl⟩ : ∃ less, fuel = less + 1 := ⟨fuel - 1, by omega⟩
      rw [fill, h.eof, Bool.true_or, if_pos rfl]
  | closed hclosed hwhole => exact absurd (hclosed.symm.trans hopen) (by decide)

theorem Fills.take (hbounded : decoder.Bounded start frames.flatten)
    (houtput : decoder.output start frames.flatten = some output)
    {amount : Option Nat} (h : Fills decoder wire start frames output delivered amount s.drained)
    (hsome : ¬(amount = some 0 ∨ s.closed = true)) :
    ∃ left s', delivered ++ left = output ∧
      (∃ enough, ∀ fuel ≥ enough, s.readAmount decoder wire fuel amount = some (.ok (slice left amount).1, s')) ∧
      ReadPhase decoder wire start frames output (delivered ++ (slice left amount).1) s' := by
  obtain ⟨full, ⟨enough, hfill⟩, hended | ⟨rest, hreading, hfull⟩⟩ := h
  · obtain ⟨hbytes, hphase⟩ : (full.takeDecoded amount).1 = (slice full.decoded amount).1 ∧
        ReadPhase decoder wire start frames output (delivered ++ (slice full.decoded amount).1) (full.takeDecoded amount).2 :=
      hended.take amount
    refine ⟨full.decoded, _, hended.whole, ⟨enough, fun fuel hfuel => ?_⟩, hphase⟩
    have hfilled : s.fillDecodedBounded decoder wire amount fuel = some (.ok (), full) := hfill fuel hfuel
    rw [NativeAdapterRaw.readAmount, if_neg hsome, hfilled, ← hbytes]
    -- The body is gone at the end of the wire, so nothing is left to be finished.
    simp only [finishDecodedWireIfComplete_none hended.body, ite_self]
  · obtain ⟨n, rfl⟩ : ∃ n, amount = some n := by
      cases amount with
      | none => cases hfull
      | some n => exact ⟨n, rfl⟩
    have hn : n ≤ full.decoded.length := by simpa using hfull
    obtain ⟨left, hleft⟩ := hreading.isPrefix hbounded houtput
    rw [List.append_assoc] at hleft
    obtain ⟨hbytes, hphase⟩ : (full.takeDecoded (some n)).1 = full.decoded.take n ∧
        ReadPhase decoder wire start frames output (delivered ++ full.decoded.take n) (full.takeDecoded (some n)).2 :=
      hreading.take n
    have hslice : (slice (full.decoded ++ left) (some n)).1 = full.decoded.take n := List.take_append_of_le_length hn
    refine ⟨full.decoded ++ left, (full.takeDecoded (some n)).2, hleft, ⟨enough, fun fuel hfuel => ?_⟩, ?_⟩
    · have hfilled : s.fillDecodedBounded decoder wire (some n) fuel = some (.ok (), full) := hfill fuel hfuel
      have henough : ¬full.decoded.length - full.decodedOffset < n := by
        rw [hreading.offset]
        omega
      rw [NativeAdapterRaw.readAmount, if_neg hsome, hfilled, hslice, ← hbytes]
      simp [henough]
    · rwa [hslice]

theorem ReadPhase.readAmount (hbounded : decoder.Bounded start frames.flatten)
    (houtput : decoder.output start frames.flatten = some output)
    (h : ReadPhase decoder wire start frames output delivered s) (amount : Option Nat) :
    ∃ left s', delivered ++ left = output ∧
      (∃ enough, ∀ fuel ≥ enough, s.readAmount decoder wire fuel amount = some (.ok (slice left amount).1, s')) ∧
      ReadPhase decoder wire start frames output (delivered ++ (slice left amount).1) s' := by
  by_cases hnothing : amount = some 0 ∨ s.closed = true
  · have hread (fuel : Nat) : s.readAmount decoder wire fuel amount = some (.ok [], s) := if_pos hnothing
    obtain ⟨left, hleft, hclosed⟩ := h.left hbounded houtput
    have hslice : (slice left amount).1 = [] := by
      obtain rfl | hclosed' := hnothing
      · rfl
      · rw [hclosed hclosed']
        cases amount with
        | none => rfl
        | some n => exact List.take_nil
    refine ⟨left, s, hleft, ⟨0, fun fuel _ => ?_⟩, ?_⟩
    · rw [hread, hslice]
    · rwa [hslice, List.append_nil]
  · have hopen : s.closed = false := eq_false_of_ne_true fun hclosed => hnothing (.inr hclosed)
    exact (h.fills hbounded houtput hopen amount).take hbounded houtput hnothing

theorem ReadPhase.reads (hbounded : decoder.Bounded start frames.flatten)
    (houtput : decoder.output start frames.flatten = some output) (amounts : List (Option Nat))
    {delivered : Bytes} {s : NativeAdapterRaw D W} (h : ReadPhase decoder wire start frames output delivered s)
    {left : Bytes} (hleft : delivered ++ left = output) :
    ∃ s' enough, ∀ fuel ≥ enough, s.reads decoder wire fuel amounts = some ((slices left amounts).map .ok, s') := by
  induction amounts generalizing delivered s left with
  | nil => exact ⟨s, 0, fun fuel _ => rfl⟩
  | cons amount rest ih =>
      obtain ⟨left', s₁, hleft', ⟨enough₁, hread⟩, hphase⟩ := h.readAmount hbounded houtput amount
      obtain rfl : left' = left := List.append_cancel_left (hleft'.trans hleft.symm)
      obtain ⟨s₂, enough₂, hrest⟩ := ih hphase (by rw [List.append_assoc, slice_append, hleft])
      refine ⟨s₂, max enough₁ enough₂, fun fuel hfuel => ?_⟩
      rw [NativeAdapterRaw.reads, hread fuel (by omega)]
      simp [hrest fuel (by omega), slices]

end NativeAdapterRaw

/-- The reads of a decoded response deliver the output of its decoder exactly, in the order of the wire. -/
theorem decoded_reads_exact {D W E : Type} {decoder : Decoder D E} {wire : WireBody W E} {start : D} {body : W}
    {frames : List Bytes} (hbounded : decoder.Bounded start frames.flatten) (hwire : wire.Delivers body frames)
    (amounts : List (Option Nat)) :
    ∃ output results s', decoder.output start frames.flatten = some output ∧ ReadExactly output amounts results ∧
      ∃ enough, ∀ fuel ≥ enough, NativeAdapterRaw.reads decoder wire fuel { decoder := start, body := some body } amounts =
        some (results.map .ok, s') := by
  have hcalls : [(frames.flatten, (none : Option Nat))].flatMap Prod.fst = frames.flatten := List.flatMap_singleton _ _
  obtain ⟨bytes, d, hfeed⟩ := hbounded.decodes _ ⟨[], by rw [List.append_nil, hcalls]⟩
  obtain ⟨last, -, houtput⟩ := hbounded.whole _ _ _ hcalls hfeed
  have hreading : NativeAdapterRaw.ReadPhase decoder wire start frames (bytes ++ last) []
      { decoder := start, body := some body } :=
    .reading frames ⟨⟨[], rfl, rfl⟩, ⟨body, rfl, hwire⟩, rfl, rfl, rfl, rfl⟩
  obtain ⟨s', enough, hreads⟩ := hreading.reads hbounded houtput amounts (List.nil_append _)
  exact ⟨_, _, s', houtput, slices_readExactly _ _, enough, hreads⟩

/-! ### A decoder -/

/-- The wire is a row of pairs, a number and the byte that is repeated so often: what comes of some bytes behind a pair or in
the middle of one. There is no pair for nothing. -/
def expand : Option UInt8 → Bytes → Option (Bytes × Option UInt8)
  | half, [] => some ([], half)
  | none, count :: rest => if count = 0 then none else expand (some count) rest
  | some count, b :: rest => (expand none rest).map fun more => (List.replicate count.toNat b ++ more.1, more.2)

theorem expand_append (half : Option UInt8) (first second : Bytes) : expand half (first ++ second) =
    (expand half first).bind fun fed => (expand fed.2 second).map fun more => (fed.1 ++ more.1, more.2) := by
  induction first generalizing half with
  | nil => simp [expand]
  | cons b rest ih =>
      cases half with
      | none =>
          rw [List.cons_append, expand, expand]
          split
          · rfl
          · exact ih _
      | some count =>
          rw [List.cons_append, expand, expand, ih]
          cases expand none rest with
          | none => rfl
          | some fed => simp [Function.comp_def]

/-- The state is what it has not given, and half a pair. A wire may not end in the middle of a pair. -/
def counted : Decoder (Bytes × Option UInt8) Unit where
  decompress state data maximum :=
    match expand state.2 data with
    | none => (.error (), state)
    | some (bytes, half) => (.ok (slice (state.1 ++ bytes) maximum).1, ((slice (state.1 ++ bytes) maximum).2, half))
  hasUnconsumedTail state := !state.1.isEmpty
  flush state := if state.2.isSome then (.error (), state) else (.ok [], state)
  reachedCleanEnd state := state.1.isEmpty && state.2.isNone

theorem counted_feed (state : Bytes × Option UInt8) {calls : List (Bytes × Option Nat)} {bytes : Bytes} {half : Option UInt8}
    (h : expand state.2 (calls.flatMap Prod.fst) = some (bytes, half)) :
    ∃ given left, counted.feed state calls = some (given, (left, half)) ∧ given ++ left = state.1 ++ bytes := by
  induction calls generalizing state bytes with
  | nil =>
      obtain ⟨rfl, rfl⟩ := Prod.mk.inj (Option.some.inj h)
      exact ⟨[], state.1, rfl, (List.append_nil _).symm⟩
  | cons call rest ih =>
      obtain ⟨data, maximum⟩ := call
      rw [List.flatMap_cons, expand_append] at h
      obtain ⟨⟨first, half'⟩, hfirst, hrest⟩ := Option.bind_eq_some_iff.mp h
      obtain ⟨⟨more, _⟩, hmore, heq⟩ := Option.map_eq_some_iff.mp hrest
      obtain ⟨rfl, rfl⟩ := Prod.mk.inj heq
      obtain ⟨given, left, hfeed, htotal⟩ := ih ((slice (state.1 ++ first) maximum).2, half') hmore
      refine ⟨(slice (state.1 ++ first) maximum).1 ++ given, left, ?_, ?_⟩
      · rw [Decoder.feed, counted]
        simp only [hfirst]
        exact congrArg (Option.map fun later => (_ ++ later.1, later.2)) hfeed
      · rw [List.append_assoc, htotal, ← List.append_assoc, slice_append, List.append_assoc]

theorem counted_bounded {encoded bytes : Bytes} (h : expand none encoded = some (bytes, none)) :
    counted.Bounded ([], none) encoded where
  decodes calls hcalls := by
    obtain ⟨more, rfl⟩ := hcalls
    rw [expand_append] at h
    obtain ⟨⟨first, half⟩, hfirst, -⟩ := Option.bind_eq_some_iff.mp h
    obtain ⟨given, left, hfeed, -⟩ := counted_feed ([], none) hfirst
    exact ⟨given, _, hfeed⟩
  whole calls given d hcalls hfeed := by
    obtain ⟨given', left, hfeed', htotal⟩ := counted_feed ([], none) (hcalls ▸ h)
    obtain ⟨rfl, rfl⟩ := Prod.mk.inj (Option.some.inj (hfeed.symm.trans hfeed'))
    refine ⟨left, ?_, ?_⟩
    · simp [Decoder.finish, counted, expand, slice]
    · rw [htotal]
      simp [Decoder.output, Decoder.feed, Decoder.finish, counted, h, expand, slice]
  bounded {d data maximum taken d'} hcall := by
    simp only [counted] at hcall
    split at hcall
    · cases hcall
    · obtain ⟨htaken, -⟩ := Prod.mk.inj hcall
      rw [← Except.ok.inj htaken]
      exact List.length_take_le _ _
  progress {calls given d maximum taken d'} _ _ htail hmaximum hcall := by
    obtain ⟨pending, half⟩ := d
    obtain ⟨htaken, -⟩ := Prod.mk.inj hcall
    rw [← Except.ok.inj htaken]
    cases pending with
    | nil => cases htail
    | cons b pending =>
        cases maximum with
        | none => exact fun h => by cases h
        | some n =>
            cases n with
            | zero => exact absurd rfl hmaximum
            | succ n => exact fun h => by cases h

/-- A body that has its frames. -/
def framesBody : WireBody (List Bytes) Unit where
  readFrame frames _ := .ok (frames.headD [], frames.tail)
  finishEncodedDeclaredLength frames := frames

/-- Two pairs in three frames, of a decoder that fails on a pair for nothing and on half a pair. -/
theorem decoded_reads_of_two_pairs :
    counted.output ([], none) [0, 7] = none ∧ counted.output ([], none) [2] = none ∧
    ∃ output results s', counted.output ([], none) [[2], [7, 3], [9]].flatten = some output ∧
      ReadExactly output [some 1, some 0, some 4, none, some 7] results ∧
      ∃ enough, ∀ fuel ≥ enough, NativeAdapterRaw.reads counted framesBody fuel
        { decoder := ([], none), body := some [[2], [7, 3], [9]] } [some 1, some 0, some 4, none, some 7] =
          some (results.map .ok, s') :=
  have hdelivers : framesBody.Delivers [[2], [7, 3], [9]] [[2], [7, 3], [9]] :=
    ⟨nofun, _, rfl, nofun, _, rfl, nofun, [], rfl, [], rfl⟩
  have hpairs : expand none [[2], [7, 3], [9]].flatten = some ([7, 7, 9, 9, 9], none) := by decide
  ⟨by decide, by decide, decoded_reads_exact (counted_bounded hpairs) hdelivers [some 1, some 0, some 4, none, some 7]⟩

end RequestsNative.Python
