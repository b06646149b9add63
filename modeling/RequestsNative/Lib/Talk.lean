import Mathlib.Data.List.Basic

/-!
# Programs that talk over a byte stream

A `Talk` writes to a stream and reads from it, and may fail at any point. The stream is what the peer sends
until it closes, what was written to it, and how long it takes writes. One rule takes a program apart: a run
of `m >>= f` is a run of `m` that failed, or a run of `m` followed by a run of `f` (`Talk.bind_run`). Each of the
operations has one lemma that says what it does to the stream.
-/

namespace RequestsNative.Lib

structure Wire where
  /-- What the peer sends, and the text of the error that follows it; without one the stream is closed. -/
  incoming : List UInt8
  ending : Option (List UInt8) := none
  written : List UInt8 := []
  /-- The bytes that are still taken, and the text of the error that follows them. -/
  room : Option (Nat × List UInt8) := none
  flushFault : Option (List UInt8) := none
  deriving DecidableEq, Repr

def Talk (E α : Type) : Type := Wire → Except E α × Wire

namespace Talk

variable {E α β : Type}

instance : Monad (Talk E) where
  pure a := fun wire => (.ok a, wire)
  bind m f := fun wire =>
    match m wire with
    | (.ok a, wire) => f a wire
    | (.error error, wire) => (.error error, wire)

def lift (x : Except E α) : Talk E α := fun wire => (x, wire)

def fail (error : E) : Talk E α := fun wire => (.error error, wire)

/-- `write_all`: a stream that stops taking bytes has taken the first of them. -/
def writeAll (toError : List UInt8 → E) (bytes : List UInt8) : Talk E Unit := fun wire =>
  match wire.room with
  | none => (.ok (), { wire with written := wire.written ++ bytes })
  | some (room, fault) =>
      if bytes.length ≤ room then
        (.ok (), { wire with written := wire.written ++ bytes, room := some (room - bytes.length, fault) })
      else (.error (toError fault), { wire with written := wire.written ++ bytes.take room, room := some (0, fault) })

def flush (toError : List UInt8 → E) : Talk E Unit := fun wire =>
  match wire.flushFault with
  | none => (.ok (), wire)
  | some fault => (.error (toError fault), wire)

/-- `read_exact`: what arrives before the end is lost if it is too short. -/
def readExact (toError : Option (List UInt8) → E) (n : Nat) : Talk E (List UInt8) := fun wire =>
  if n ≤ wire.incoming.length then (.ok (wire.incoming.take n), { wire with incoming := wire.incoming.drop n })
  else (.error (toError wire.ending), { wire with incoming := [] })

/-- A read of one byte; nothing is read at the end of the stream. -/
def readByte (toError : List UInt8 → E) : Talk E (Option UInt8) := fun wire =>
  match wire.incoming, wire.ending with
  | b :: rest, _ => (.ok (some b), { wire with incoming := rest })
  | [], none => (.ok none, wire)
  | [], some fault => (.error (toError fault), wire)

theorem lift_ok (a : α) (f : α → Talk E β) : (lift (.ok a) >>= f) = f a := rfl

/-- Computations beside the stream can be made one after the other, or all at once. -/
theorem lift_bind {γ : Type} (x : Except E α) (f : α → Except E β) (g : β → Talk E γ) :
    (lift (x >>= f) >>= g) = lift x >>= fun a => lift (f a) >>= g := by
  cases x <;> rfl

section Runs

variable {wire wire' : Wire}

theorem bind_ok {m : Talk E α} {f : α → Talk E β} {a : α} (h : m wire = (.ok a, wire')) : (m >>= f) wire = f a wire' := by
  simp only [bind, h]

theorem bind_run {m : Talk E α} {f : α → Talk E β} {result : Except E β} (h : (m >>= f) wire = (result, wire')) :
    (∃ error, m wire = (.error error, wire') ∧ result = .error error) ∨
      ∃ a between, m wire = (.ok a, between) ∧ f a between = (result, wire') := by
  simp only [bind] at h
  split at h
  · rename_i a between hm
    exact .inr ⟨a, between, hm, h⟩
  · rename_i error between hm
    cases h
    exact .inl ⟨error, hm, rfl⟩

theorem lift_run {x : Except E α} {f : α → Talk E β} {result : Except E β} (h : (lift x >>= f) wire = (result, wire')) :
    (∃ error, x = .error error ∧ result = .error error ∧ wire' = wire) ∨
      ∃ a, x = .ok a ∧ f a wire = (result, wire') := by
  cases x with
  | error error =>
      cases h
      exact .inl ⟨error, rfl, rfl, rfl⟩
  | ok a => exact .inr ⟨a, rfl, h⟩

theorem writeAll_run {toError : List UInt8 → E} {bytes : List UInt8} {result : Except E Unit}
    (h : writeAll toError bytes wire = (result, wire')) :
    wire'.incoming = wire.incoming ∧
      ((result = .ok () ∧ wire'.written = wire.written ++ bytes) ∨
        ∃ error part, result = .error error ∧ part <+: bytes ∧ wire'.written = wire.written ++ part ∧
          wire.room ≠ none) := by
  unfold writeAll at h
  split at h
  · cases h
    exact ⟨rfl, .inl ⟨rfl, rfl⟩⟩
  · rename_i room fault hroom
    split at h
    · cases h
      exact ⟨rfl, .inl ⟨rfl, rfl⟩⟩
    · cases h
      exact ⟨rfl, .inr ⟨_, _, rfl, List.take_prefix _ _, rfl, by rw [hroom]; nofun⟩⟩

theorem readExact_run {toError : Option (List UInt8) → E} {n : Nat} {result : Except E (List UInt8)}
    (h : readExact toError n wire = (result, wire')) :
    wire'.written = wire.written ∧
      ((∃ bytes, result = .ok bytes ∧ wire.incoming = bytes ++ wire'.incoming ∧ bytes.length = n) ∨
        ∃ error, result = .error error) := by
  unfold readExact at h
  split at h
  · rename_i hle
    cases h
    exact ⟨rfl, .inl ⟨_, rfl, (List.take_append_drop _ _).symm, List.length_take_of_le hle⟩⟩
  · cases h
    exact ⟨rfl, .inr ⟨_, rfl⟩⟩

end Runs

/-! ### Programs that only listen -/

/-- The program writes nothing. -/
def Silent (m : Talk E α) : Prop := ∀ wire, (m wire).2.written = wire.written

theorem silent_pure (a : α) : Silent (pure a : Talk E α) := fun _ => rfl

theorem silent_fail (error : E) : Silent (fail error : Talk E α) := fun _ => rfl

theorem silent_flush (toError : List UInt8 → E) : Silent (flush toError) := by
  intro wire
  unfold flush
  split <;> rfl

theorem silent_readExact (toError : Option (List UInt8) → E) (n : Nat) : Silent (readExact toError n) := by
  intro wire
  unfold readExact
  split <;> rfl

theorem silent_readByte (toError : List UInt8 → E) : Silent (readByte toError) := by
  intro wire
  unfold readByte
  split <;> rfl

theorem Silent.bind {m : Talk E α} {f : α → Talk E β} (hm : Silent m) (hf : ∀ a, Silent (f a)) : Silent (m >>= f) := by
  intro wire
  obtain ⟨error, hrun, hresult⟩ | ⟨a, between, hrun, hnext⟩ := bind_run (rfl : (m >>= f) wire = _)
  · have hsame := hm wire
    rw [hrun] at hsame
    exact hsame
  · have hsame := hm wire
    have hrest := hf a between
    rw [hrun] at hsame
    rw [hnext] at hrest
    exact hrest.trans hsame

theorem Silent.ite {p : Prop} [Decidable p] {m other : Talk E α} (hm : Silent m) (hother : Silent other) :
    Silent (if p then m else other) := by
  split
  · exact hm
  · exact hother

/-- A program that writes once and then listens: all of the bytes are written if it succeeds. -/
theorem writeAll_then_silent {toError : List UInt8 → E} {bytes : List UInt8} {m : Unit → Talk E α}
    (hm : ∀ u, Silent (m u)) {wire wire' : Wire} {result : Except E α}
    (h : (writeAll toError bytes >>= m) wire = (result, wire')) :
    ∃ sent, wire'.written = wire.written ++ sent ∧ sent <+: bytes ∧
      ((∃ a, result = .ok a) ∨ wire.room = none → sent = bytes) := by
  obtain ⟨error, hwrite, rfl⟩ | ⟨u, between, hwrite, hrest⟩ := bind_run h
  · obtain ⟨-, ⟨hok, -⟩ | ⟨_, part, -, hpart, hwritten, hroom⟩⟩ := writeAll_run hwrite
    · cases hok
    · refine ⟨part, hwritten, hpart, ?_⟩
      rintro (⟨a, hok⟩ | hnone)
      · cases hok
      · exact absurd hnone hroom
  · obtain ⟨-, ⟨-, hwritten⟩ | ⟨_, _, herror, -⟩⟩ := writeAll_run hwrite
    · have hsame := hm u between
      rw [hrest, hwritten] at hsame
      exact ⟨bytes, hsame, List.prefix_rfl, fun _ => rfl⟩
    · cases herror

end Talk

/-! ### Runs that succeed

A run that succeeds is an exchange: some bytes are written, some are read, and nothing else happens to the stream.
The exchanges of a program are put together from those of its parts. -/

namespace Wire

/-- The stream still takes `n` bytes. -/
def Takes (wire : Wire) (n : Nat) : Prop := ∀ room fault, wire.room = some (room, fault) → n ≤ room

/-- `sent` is written, and `read` is read, which is what arrives first. -/
structure Exchange (wire : Wire) (sent read : List UInt8) (wire' : Wire) : Prop where
  taken : wire.Takes sent.length
  arrived : wire.incoming = read ++ wire'.incoming
  written : wire'.written = wire.written ++ sent
  room : wire'.room = wire.room.map fun (room, fault) => (room - sent.length, fault)
  ending : wire'.ending = wire.ending
  flushFault : wire'.flushFault = wire.flushFault

/-- The stream takes the bytes and starts with the others: there is such an exchange. -/
theorem exists_exchange {wire : Wire} {sent read rest : List UInt8} (htakes : wire.Takes sent.length)
    (harrived : wire.incoming = read ++ rest) : ∃ wire', wire.Exchange sent read wire' ∧ wire'.incoming = rest :=
  ⟨⟨rest, wire.ending, wire.written ++ sent, wire.room.map fun (room, fault) => (room - sent.length, fault),
    wire.flushFault⟩, ⟨htakes, harrived, rfl, rfl, rfl, rfl⟩, rfl⟩

theorem exchange_nil {wire wire' : Wire} : wire.Exchange [] [] wire' ↔ wire' = wire := by
  constructor
  · intro h
    obtain ⟨incoming, ending, written, room, flushFault⟩ := wire
    obtain ⟨-, harrived, hwritten, hroom, hending, hflush⟩ := h
    cases wire'
    simp only [List.nil_append] at harrived
    simp only [List.append_nil] at hwritten
    simp only [List.length_nil, Nat.sub_zero, Option.map_id'] at hroom
    simp_all
  · rintro rfl
    exact ⟨fun _ _ _ => Nat.zero_le _, rfl, (List.append_nil _).symm, by simp, rfl, rfl⟩

/-- One exchange after the other is an exchange. -/
theorem Exchange.trans {wire between wire' : Wire} {sent read sent' read' : List UInt8}
    (hfirst : wire.Exchange sent read between) (hthen : between.Exchange sent' read' wire') :
    wire.Exchange (sent ++ sent') (read ++ read') wire' where
  taken := by
    intro room fault hroom
    have hone := hfirst.taken room fault hroom
    have hrest := hthen.taken (room - sent.length) fault (by rw [hfirst.room, hroom]; rfl)
    rw [List.length_append]
    omega
  arrived := by rw [hfirst.arrived, hthen.arrived, List.append_assoc]
  written := by rw [hthen.written, hfirst.written, List.append_assoc]
  room := by
    rw [hthen.room, hfirst.room, Option.map_map]
    congr 1
    funext entry
    simp only [Function.comp, List.length_append, Nat.sub_sub]
  ending := hthen.ending.trans hfirst.ending
  flushFault := hthen.flushFault.trans hfirst.flushFault

/-- An exchange can be cut in two anywhere. -/
theorem Exchange.split {wire wire' : Wire} {sent read sent' read' : List UInt8}
    (h : wire.Exchange (sent ++ sent') (read ++ read') wire') :
    ∃ between, wire.Exchange sent read between ∧ between.Exchange sent' read' wire' := by
  have htakes : wire.Takes sent.length := fun room fault hroom => by
    have htaken := h.taken room fault hroom
    rw [List.length_append] at htaken
    omega
  obtain ⟨between, hfirst, hbetween⟩ :=
    exists_exchange htakes (h.arrived.trans (List.append_assoc read read' wire'.incoming))
  refine ⟨between, hfirst, ⟨?_, hbetween, ?_, ?_, h.ending.trans hfirst.ending.symm,
    h.flushFault.trans hfirst.flushFault.symm⟩⟩
  · intro room fault hroom
    rw [hfirst.room] at hroom
    obtain ⟨⟨before, _⟩, hbefore, heq⟩ := Option.map_eq_some_iff.mp hroom
    cases heq
    have htaken := h.taken before _ hbefore
    rw [List.length_append] at htaken
    omega
  · rw [h.written, hfirst.written, List.append_assoc]
  · rw [h.room, hfirst.room, Option.map_map]
    congr 1
    funext entry
    simp only [Function.comp, List.length_append, Nat.sub_sub]

end Wire

namespace Talk

variable {E α β : Type}

/-- The runs of the program that succeed are the exchanges of `P`, with their results. -/
def Succeeds (m : Talk E α) (P : α → List UInt8 → List UInt8 → Prop) : Prop :=
  ∀ wire a wire', m wire = (.ok a, wire') ↔ ∃ sent read, P a sent read ∧ wire.Exchange sent read wire'

theorem Succeeds.congr {m : Talk E α} {P Q : α → List UInt8 → List UInt8 → Prop} (hm : Succeeds m P)
    (h : ∀ a sent read, P a sent read ↔ Q a sent read) : Succeeds m Q := by
  intro wire a wire'
  simp only [hm wire a wire', h]

theorem succeeds_pure (a : α) : Succeeds (pure a : Talk E α) fun b sent read => b = a ∧ sent = [] ∧ read = [] := by
  intro wire b wire'
  constructor
  · intro h
    cases h
    exact ⟨[], [], ⟨rfl, rfl, rfl⟩, Wire.exchange_nil.mpr rfl⟩
  · rintro ⟨_, _, ⟨rfl, rfl, rfl⟩, hexchange⟩
    cases Wire.exchange_nil.mp hexchange
    rfl

theorem succeeds_fail (error : E) : Succeeds (fail error : Talk E α) fun _ _ _ => False := by
  intro wire a wire'
  constructor
  · intro h
    cases h
  · rintro ⟨_, _, hfalse, -⟩
    exact hfalse.elim

theorem succeeds_lift (x : Except E α) : Succeeds (lift x) fun a sent read => x = .ok a ∧ sent = [] ∧ read = [] := by
  cases x with
  | error error => exact (succeeds_fail error).congr fun _ _ _ => iff_of_false id nofun
  | ok b =>
      refine (succeeds_pure b).congr fun a _ _ => ?_
      rw [Except.ok.injEq, eq_comm]

theorem succeeds_writeAll (toError : List UInt8 → E) (bytes : List UInt8) :
    Succeeds (writeAll toError bytes) fun _ sent read => sent = bytes ∧ read = [] := by
  intro wire a wire'
  obtain ⟨incoming, ending, written, room, flushFault⟩ := wire
  constructor
  · intro h
    refine ⟨bytes, [], ⟨rfl, rfl⟩, ?_⟩
    unfold writeAll at h
    split at h
    · rename_i hroom
      cases h
      cases hroom
      exact ⟨nofun, rfl, rfl, rfl, rfl, rfl⟩
    · rename_i left fault hroom
      cases hroom
      split at h
      · rename_i hle
        cases h
        exact ⟨fun _ _ heq => by cases heq; exact hle, rfl, rfl, rfl, rfl, rfl⟩
      · cases h
  · rintro ⟨_, _, ⟨rfl, rfl⟩, htakes, harrived, hwritten, hroom, hending, hflush⟩
    obtain ⟨incoming', ending', written', room', flushFault'⟩ := wire'
    simp only [List.nil_append] at harrived hwritten hroom hending hflush
    subst harrived hwritten hroom hending hflush
    unfold writeAll
    cases room with
    | none => rfl
    | some entry =>
        obtain ⟨left, fault⟩ := entry
        have hle := htakes left fault rfl
        simp only [hle, if_true, Option.map_some]

theorem succeeds_readExact (toError : Option (List UInt8) → E) (n : Nat) :
    Succeeds (readExact toError n) fun bytes sent read => sent = [] ∧ read = bytes ∧ bytes.length = n := by
  intro wire bytes wire'
  obtain ⟨incoming, ending, written, room, flushFault⟩ := wire
  constructor
  · intro h
    obtain ⟨-, ⟨_, hok, harrived, hlength⟩ | ⟨_, herror⟩⟩ := readExact_run h
    · cases hok
      refine ⟨[], bytes, ⟨rfl, rfl, hlength⟩, ?_⟩
      unfold readExact at h
      split at h
      · cases h
        exact ⟨fun _ _ _ => Nat.zero_le _, harrived, (List.append_nil _).symm, by simp, rfl, rfl⟩
      · cases h
    · cases herror
  · rintro ⟨_, _, ⟨rfl, rfl, rfl⟩, -, harrived, hwritten, hroom, hending, hflush⟩
    obtain ⟨incoming', ending', written', room', flushFault'⟩ := wire'
    simp only [List.append_nil, List.length_nil, Nat.sub_zero, Option.map_id'] at harrived hwritten hroom hending hflush
    subst harrived hwritten hroom hending hflush
    simp [readExact]

/-- A program that reads one byte and fails at the end of the stream. -/
theorem succeeds_nextByte {toError : List UInt8 → E} {closed : E} {f : UInt8 → Talk E α}
    {Q : UInt8 → α → List UInt8 → List UInt8 → Prop} (hf : ∀ b, Succeeds (f b) (Q b)) :
    Succeeds (do match ← readByte toError with | none => fail closed | some b => f b) fun a sent read =>
      ∃ b rest, read = b :: rest ∧ Q b a sent rest := by
  intro wire a wire'
  obtain ⟨incoming, ending, written, room, flushFault⟩ := wire
  cases incoming with
  | nil =>
      refine iff_of_false ?_ ?_
      · intro h
        cases ending <;> cases h
      · rintro ⟨sent, read, ⟨b, rest, rfl, -⟩, hexchange⟩
        cases hexchange.arrived
  | cons first incoming =>
      refine (hf first ⟨incoming, ending, written, room, flushFault⟩ a wire').trans ?_
      constructor
      · rintro ⟨sent, read, hQ, hexchange⟩
        refine ⟨sent, first :: read, ⟨first, read, rfl, hQ⟩, hexchange.taken, ?_, hexchange.written, hexchange.room,
          hexchange.ending, hexchange.flushFault⟩
        exact congrArg (first :: ·) hexchange.arrived
      · rintro ⟨sent, _, ⟨b, rest, rfl, hQ⟩, hexchange⟩
        obtain ⟨rfl, hrest⟩ := List.cons.inj hexchange.arrived
        exact ⟨sent, rest, hQ, hexchange.taken, hrest, hexchange.written, hexchange.room, hexchange.ending, hexchange.flushFault⟩

theorem Succeeds.bind {m : Talk E α} {f : α → Talk E β} {P : α → List UInt8 → List UInt8 → Prop}
    {Q : α → β → List UInt8 → List UInt8 → Prop} (hm : Succeeds m P) (hf : ∀ a, Succeeds (f a) (Q a)) :
    Succeeds (m >>= f) fun b sent read => ∃ a first heard, P a first heard ∧
      ∃ rest more, Q a b rest more ∧ sent = first ++ rest ∧ read = heard ++ more := by
  intro wire b wire'
  constructor
  · intro h
    obtain ⟨error, -, herror⟩ | ⟨a, between, hfirst, hthen⟩ := bind_run h
    · cases herror
    · obtain ⟨first, heard, hP, hone⟩ := (hm wire a between).mp hfirst
      obtain ⟨rest, more, hQ, hrest⟩ := (hf a between b wire').mp hthen
      exact ⟨_, _, ⟨a, first, heard, hP, rest, more, hQ, rfl, rfl⟩, hone.trans hrest⟩
  · rintro ⟨_, _, ⟨a, first, heard, hP, rest, more, hQ, rfl, rfl⟩, hexchange⟩
    obtain ⟨between, hone, hrest⟩ := hexchange.split
    have hfirst := (hm wire a between).mpr ⟨first, heard, hP, hone⟩
    have hthen := (hf a between b wire').mpr ⟨rest, more, hQ, hrest⟩
    simp only [Bind.bind, hfirst, hthen]

theorem Succeeds.ite {p : Prop} [Decidable p] {m other : Talk E α} {P Q : α → List UInt8 → List UInt8 → Prop}
    (hm : Succeeds m P) (hother : Succeeds other Q) :
    Succeeds (if p then m else other) fun a sent read => (p ∧ P a sent read) ∨ (¬p ∧ Q a sent read) := by
  by_cases hp : p
  · rw [if_pos hp]
    exact hm.congr fun a sent read => by simp [hp]
  · rw [if_neg hp]
    exact hother.congr fun a sent read => by simp [hp]

end Talk

end RequestsNative.Lib
