import RequestsNative.Request.Digest
import RequestsNative.Lib.Machine

/-!
# Runs of digest authentication

One state answers any sequence of challenges. Each is prepared and finished; in between, the bindings store the count and ask
for the time and for random bytes, which may fail.
-/

namespace RequestsNative.Request

open RequestsNative.Lib

/-- A challenge, and what the callbacks for the time and the random bytes answer, unless they fail. -/
structure DigestAttempt where
  request : DigestRequest
  callbacks : Option (Bytes × Bytes)
  deriving DecidableEq, Repr

inductive DigestAnswer
  | unsupported
  | panicked (panic : Panic)
  | failed
  | finished (header : Option Bytes)
  deriving DecidableEq, Repr

/-- `requests-python/src/auth.rs`, `_digest_auth_trial`. -/
def digestAuthTrial (env : DigestEnv) (state : DigestState) (attempt : DigestAttempt) : DigestAnswer × DigestState :=
  match prepareDigest env attempt.request state with
  | .error panic => (.panicked panic, state)
  | .ok (.unsupported state) => (.unsupported, state)
  | .ok (.ready plan) =>
      match attempt.callbacks with
      | none => (.failed, plan.state)
      | some (ctime, random) =>
          let output := plan.finish env ctime random
          (.finished output.header, output.state)

def digestMachine (env : DigestEnv) : Machine DigestState DigestAttempt DigestAnswer :=
  ⟨fun state attempt => some (digestAuthTrial env state attempt)⟩

abbrev DigestTrace := List (DigestAttempt × DigestAnswer)

/-! ### Counts along a run -/

/-- The challenges that get as far as the count. -/
def supportedCount (env : DigestEnv) (trace : DigestTrace) : Nat := trace.countP fun entry => entry.1.request.supported env

/-- A header with a `qop` names a greater count than any header before it with a `qop` for the same nonce, if no challenge
between them counts another nonce. -/
def CountsOn (env : DigestEnv) (earlier : DigestTrace) (second : DigestAttempt × DigestAnswer) : Prop :=
  ∀ before first between firstHeader secondHeader, earlier = before ++ first :: between →
    first.2 = .finished (some firstHeader) → first.1.request.challenge.hasQop = true →
    second.2 = .finished (some secondHeader) → second.1.request.challenge.hasQop = true →
    second.1.request.challenge.nonce = first.1.request.challenge.nonce →
    (∀ entry ∈ between, entry.1.request.supported env = true →
      entry.1.request.challenge.nonce = first.1.request.challenge.nonce) →
    ncOf firstHeader < ncOf secondHeader

/-- What one challenge does. -/
inductive Attempted (env : DigestEnv) (state : DigestState) (attempt : DigestAttempt) : DigestAnswer → DigestState → Prop
  | unsupported : attempt.request.supported env = false → Attempted env state attempt .unsupported state
  | panicked {panic : Panic} : attempt.request.supported env = true → env.overflowChecks = true →
      state.Overflows attempt.request.challenge.nonce → Attempted env state attempt (.panicked panic) state
  /-- No header: the count changes and the remembered nonce does not. -/
  | counted {answer : DigestAnswer} : attempt.request.supported env = true →
      (env.overflowChecks = true → ¬ state.Overflows attempt.request.challenge.nonce) →
      (∀ header, answer ≠ .finished (some header)) →
        Attempted env state attempt answer ⟨state.lastNonce, state.next attempt.request.challenge.nonce⟩
  | sent {header : Bytes} : attempt.request.supported env = true →
      (env.overflowChecks = true → ¬ state.Overflows attempt.request.challenge.nonce) →
      (attempt.request.challenge.hasQop = true → ncOf header = (state.next attempt.request.challenge.nonce).toNat) →
        Attempted env state attempt (.finished (some header))
          ⟨attempt.request.challenge.nonce, state.next attempt.request.challenge.nonce⟩

theorem attempted (env : DigestEnv) (state : DigestState) (attempt : DigestAttempt) :
    Attempted env state attempt (digestAuthTrial env state attempt).1 (digestAuthTrial env state attempt).2 := by
  obtain ⟨hsupported, hprepare⟩ | ⟨hsupported, hchecks, hoverflows, hprepare⟩ | ⟨hsupported, hroom, algorithm, path, hprepare⟩ :=
    prepareDigest_cases env attempt.request state
  · simp only [digestAuthTrial, hprepare]
    exact .unsupported hsupported
  · simp only [digestAuthTrial, hprepare]
    exact .panicked hsupported hchecks hoverflows
  · simp only [digestAuthTrial, hprepare]
    cases attempt.callbacks with
    | none => exact .counted hsupported hroom (by simp)
    | some callbacks =>
        obtain hnone | ⟨header, hheader, hcount⟩ := DigestPlan.finish_cases env
          ⟨attempt.request, algorithm, path, ⟨state.lastNonce, state.next attempt.request.challenge.nonce⟩⟩ callbacks.1 callbacks.2
        · simp only [hnone]
          exact .counted hsupported hroom (by simp)
        · simp only [hheader]
          exact .sent hsupported hroom hcount

theorem attempted_of_step {env : DigestEnv} {state next : DigestState} {attempt : DigestAttempt} {answer : DigestAnswer}
    (hstep : (digestMachine env).step state attempt = some (answer, next)) : Attempted env state attempt answer next := by
  have hattempted := attempted env state attempt
  rwa [Option.some.inj hstep] at hattempted

section Runs

variable {env : DigestEnv} {start state next : DigestState} {trace : DigestTrace} {attempt : DigestAttempt} {answer : DigestAnswer}

theorem supportedCount_snoc (env : DigestEnv) (trace : DigestTrace) (attempt : DigestAttempt) (answer : DigestAnswer) :
    supportedCount env (trace ++ [(attempt, answer)]) =
      supportedCount env trace + if attempt.request.supported env = true then 1 else 0 := by
  rw [supportedCount, List.countP_append, List.countP_singleton]
  rfl

theorem DigestState.next_toNat_le (state : DigestState) (nonce : Bytes) : (state.next nonce).toNat ≤ state.nonceCount.toNat + 1 := by
  unfold DigestState.next
  split
  · rw [UInt32.toNat_add]
    exact Nat.mod_le _ _
  · exact Nat.le_add_left _ _

theorem nonceCount_le (hrun : (digestMachine env).Run start trace state) :
    state.nonceCount.toNat ≤ start.nonceCount.toNat + supportedCount env trace := by
  refine hrun.induction (fun trace state => state.nonceCount.toNat ≤ start.nonceCount.toNat + supportedCount env trace)
    (Nat.le_refl _) ?_
  intro trace state attempt answer next _ h hstep
  rw [supportedCount_snoc]
  have hnext := state.next_toNat_le attempt.request.challenge.nonce
  cases attempted_of_step hstep with
  | unsupported hsupported => omega
  | panicked hsupported _ _ => omega
  | counted hsupported _ _ =>
      rw [if_pos hsupported]
      exact hnext.trans (Nat.succ_le_succ h)
  | sent hsupported _ _ =>
      rw [if_pos hsupported]
      exact hnext.trans (Nat.succ_le_succ h)

theorem not_overflows (hrun : (digestMachine env).Run start trace state)
    (hbound : start.nonceCount.toNat + supportedCount env trace + 1 < 2 ^ 32) (nonce : Bytes) : ¬ state.Overflows nonce := by
  rintro ⟨-, hmax⟩
  have hle := nonceCount_le hrun
  omega

/-- A challenge that does not overflow the counter. -/
def Fits (env : DigestEnv) (state : DigestState) (attempt : DigestAttempt) : Prop :=
  attempt.request.supported env = true → env.overflowChecks = true ∨ ¬ state.Overflows attempt.request.challenge.nonce

/-- It counts the remembered nonce once more. -/
theorem Fits.next_toNat (h : Fits env state attempt) (hsupported : attempt.request.supported env = true)
    (hchecks : env.overflowChecks = true → ¬ state.Overflows attempt.request.challenge.nonce)
    (hnonce : attempt.request.challenge.nonce = state.lastNonce) :
    (state.next attempt.request.challenge.nonce).toNat = state.nonceCount.toNat + 1 := by
  have hroom := (h hsupported).elim hchecks id
  rw [hnonce] at hroom ⊢
  exact DigestState.next_toNat hroom

/-- The last header with a `qop` whose nonce alone was counted since then: the state remembers its nonce and has counted at least
as far. -/
def Held (env : DigestEnv) (trace : DigestTrace) (state : DigestState) : Prop :=
  ∀ before first between header, trace = before ++ first :: between → first.2 = .finished (some header) →
    first.1.request.challenge.hasQop = true →
    (∀ entry ∈ between, entry.1.request.supported env = true →
      entry.1.request.challenge.nonce = first.1.request.challenge.nonce) →
    state.lastNonce = first.1.request.challenge.nonce ∧ ncOf header ≤ state.nonceCount.toNat

theorem Held.step (h : Held env trace state) (hstep : Attempted env state attempt answer next) (hfits : Fits env state attempt) :
    Held env (trace ++ [(attempt, answer)]) next := by
  intro before first between header heq hheader hqop hbetween
  obtain rfl | ⟨between, last, rfl⟩ := List.eq_nil_or_concat between
  · -- the header is the one just sent
    obtain ⟨rfl, hlast⟩ := List.append_inj' heq rfl
    obtain rfl := List.singleton_inj.mp hlast
    cases hstep with
    | unsupported _ => cases hheader
    | panicked _ _ _ => cases hheader
    | counted _ _ hnone => exact absurd hheader (hnone header)
    | sent _ _ hcount =>
        obtain rfl : _ = header := by simpa using hheader
        exact ⟨rfl, Nat.le_of_eq (hcount hqop)⟩
  · rw [List.concat_eq_append, ← List.cons_append, ← List.append_assoc] at heq
    obtain ⟨htrace, hlast⟩ := List.append_inj' heq rfl
    obtain rfl := List.singleton_inj.mp hlast
    rw [List.concat_eq_append] at hbetween
    obtain ⟨hnonce, hle⟩ := h before first between header htrace hheader hqop fun entry hentry =>
      hbetween entry (List.mem_append_left _ hentry)
    have hsame := hbetween (attempt, answer) (List.mem_append_right _ (List.mem_singleton_self _))
    cases hstep with
    | unsupported _ => exact ⟨hnonce, hle⟩
    | panicked _ _ _ => exact ⟨hnonce, hle⟩
    | counted hsupported hchecks _ =>
        refine ⟨hnonce, hle.trans ?_⟩
        rw [hfits.next_toNat hsupported hchecks ((hsame hsupported).trans hnonce.symm)]
        exact Nat.le_succ _
    | sent hsupported hchecks _ =>
        refine ⟨hsame hsupported, hle.trans ?_⟩
        rw [hfits.next_toNat hsupported hchecks ((hsame hsupported).trans hnonce.symm)]
        exact Nat.le_succ _

theorem Held.countsOn (h : Held env trace state) (hstep : Attempted env state attempt answer next)
    (hfits : Fits env state attempt) : CountsOn env trace (attempt, answer) := by
  intro before first between firstHeader secondHeader heq hfirst hqop hsecond hqop' hnonce hbetween
  obtain ⟨hlast, hle⟩ := h before first between firstHeader heq hfirst hqop hbetween
  cases hstep with
  | unsupported _ => cases hsecond
  | panicked _ _ _ => cases hsecond
  | counted _ _ hnone => exact absurd hsecond (hnone secondHeader)
  | sent hsupported hchecks hcount =>
      obtain rfl : _ = secondHeader := by simpa using hsecond
      rw [hcount hqop', hfits.next_toNat hsupported hchecks (hnonce.trans hlast.symm)]
      exact Nat.lt_succ_of_le hle

/-- In a run that does not leave the range of the counter, counts of one nonce increase as long as no challenge counts another
nonce; and fewer than `2 ^ 32` challenges do not leave the range. -/
theorem digest_counts_increase (hrun : (digestMachine env).Run start trace state) :
    (env.overflowChecks = true ∨ start.nonceCount.toNat + supportedCount env trace < 2 ^ 32 → Throughout (CountsOn env) trace) ∧
      (start.nonceCount.toNat + supportedCount env trace < 2 ^ 32 →
        ∀ before attempt answer after mid, trace = before ++ (attempt, answer) :: after →
          (digestMachine env).Run start before mid → attempt.request.supported env = true →
            ¬ mid.Overflows attempt.request.challenge.nonce) := by
  constructor
  · intro hbound
    have hall := hrun.induction (fun trace state =>
      env.overflowChecks = true ∨ start.nonceCount.toNat + supportedCount env trace < 2 ^ 32 →
        Throughout (CountsOn env) trace ∧ Held env trace state) ?_ ?_
    · exact (hall hbound).1
    · refine fun _ => ⟨.nil, fun before first between header heq => ?_⟩
      simp at heq
    · intro trace state attempt answer next hprev h hstep hbound
      rw [supportedCount_snoc] at hbound
      obtain ⟨hcounts, hheld⟩ := h (hbound.imp_right fun hlt => by omega)
      have hfits : Fits env state attempt := by
        intro hsupported
        rw [if_pos hsupported] at hbound
        exact hbound.imp_right fun hlt => not_overflows hprev hlt _
      have hattempted := attempted_of_step hstep
      exact ⟨Throughout.snoc_iff.mpr ⟨hcounts, hheld.countsOn hattempted hfits⟩, hheld.step hattempted hfits⟩
  · rintro hbound before attempt answer after mid rfl hbefore hsupported
    have hcount : supportedCount env before + 1 ≤ supportedCount env (before ++ (attempt, answer) :: after) := by
      rw [List.append_cons, supportedCount, supportedCount, List.countP_append, ← supportedCount, ← supportedCount,
        supportedCount_snoc, if_pos hsupported]
      exact Nat.le_add_right _ _
    exact not_overflows hbefore (by omega) _

end Runs

/-- The real digests of what is hashed below, in a build without overflow checks. -/
private def sampleEnv : DigestEnv where
  md5 value :=
    if value = text "u:r:p" then [68, 173, 210, 43, 111, 49, 121, 183, 81, 234, 253, 104, 238, 55, 15, 125]
    else if value = text "GET:/" then [113, 153, 140, 100, 174, 163, 122, 231, 112, 32, 196, 156, 0, 247, 63, 168]
    else if value = text "44add22b6f3179b751eafd68ee370f7d:A:00000001:2dc206864d7232d4:auth:71998c64aea37ae77020c49c00f73fa8" then
      [106, 82, 253, 179, 175, 3, 145, 147, 27, 128, 218, 243, 35, 133, 16, 231]
    else if value = text "44add22b6f3179b751eafd68ee370f7d:A:00000002:f6931266a13c4187:auth:71998c64aea37ae77020c49c00f73fa8" then
      [204, 147, 171, 36, 198, 91, 9, 123, 68, 171, 135, 186, 13, 172, 195, 207]
    else List.replicate 16 0
  sha1 value :=
    if value = text "1AThu Jan  1 00:00:00 1970" ++ [0, 1, 2, 3, 4, 5, 6, 7] then
      [45, 194, 6, 134, 77, 114, 50, 212, 189, 118, 111, 90, 125, 154, 124, 106, 37, 138, 70, 156]
    else if value = text "2AThu Jan  1 00:00:00 1970" ++ [0, 1, 2, 3, 4, 5, 6, 7] then
      [246, 147, 18, 102, 161, 60, 65, 135, 189, 157, 158, 230, 26, 71, 103, 206, 214, 251, 254, 10]
    else if value = text "1BThu Jan  1 00:00:00 1970" ++ [0, 1, 2, 3, 4, 5, 6, 7] then
      [88, 199, 17, 195, 216, 45, 58, 243, 244, 151, 157, 87, 27, 103, 136, 92, 37, 116, 79, 109]
    else List.replicate 20 0
  sha256 _ := List.replicate 32 0
  sha512 _ := List.replicate 64 0
  sha1_length value := by
    split
    · rfl
    · split
      · rfl
      · split <;> rfl
  parse value := if value = text "http://h/" then some ⟨text "http", true, text "/", none⟩ else none
  overflowChecks := false

private def sampleAttempt (nonce qop : Bytes) : DigestAttempt where
  request := ⟨text "u", text "p", text "GET", text "http://h/", ⟨text "r", nonce, some qop, none, none⟩⟩
  callbacks := some (text "Thu Jan  1 00:00:00 1970", [0, 1, 2, 3, 4, 5, 6, 7])

private def firstHeader : Bytes := text ("Digest username=\"u\", realm=\"r\", nonce=\"A\", uri=\"/\", " ++
  "response=\"6a52fdb3af0391931b80daf3238510e7\", qop=\"auth\", nc=00000001, cnonce=\"2dc206864d7232d4\"")

private def secondHeader : Bytes := text ("Digest username=\"u\", realm=\"r\", nonce=\"A\", uri=\"/\", " ++
  "response=\"cc93ab24c65b097b44ab87ba0dacc3cf\", qop=\"auth\", nc=00000002, cnonce=\"f6931266a13c4187\"")

/-- Two headers for one nonce. -/
theorem digest_counts_increase_twice : ∃ trace state, (digestMachine sampleEnv).Run ⟨[], 0⟩ trace state ∧
    trace.map Prod.snd = [.finished (some firstHeader), .finished (some secondHeader)] ∧
    ncOf firstHeader = 1 ∧ ncOf secondHeader = 2 ∧ Throughout (CountsOn sampleEnv) trace := by
  have hexec : (digestMachine sampleEnv).exec ⟨[], 0⟩ [sampleAttempt (text "A") (text "auth"), sampleAttempt (text "A") (text "auth")] =
      some ([(sampleAttempt (text "A") (text "auth"), .finished (some firstHeader)),
        (sampleAttempt (text "A") (text "auth"), .finished (some secondHeader))], ⟨text "A", 2⟩) := by decide +kernel
  have hrun := Machine.run_of_exec hexec
  exact ⟨_, _, hrun, rfl, by decide +kernel, by decide +kernel, (digest_counts_increase hrun).1 (.inr (by decide +kernel))⟩

/-- A challenge for another nonce, whose quality of protection is not known, gets no header and starts the count again: the next
header for the first nonce has the count of the one before. -/
theorem digest_reuses_count : ∃ trace state, (digestMachine sampleEnv).Run ⟨[], 0⟩ trace state ∧
    trace = [(sampleAttempt (text "A") (text "auth"), .finished (some firstHeader)),
      (sampleAttempt (text "A") (text "auth"), .finished (some secondHeader)),
      (sampleAttempt (text "B") (text "auth-int"), .finished none),
      (sampleAttempt (text "A") (text "auth"), .finished (some secondHeader))] ∧ ncOf secondHeader = 2 := by
  have hexec : (digestMachine sampleEnv).exec ⟨[], 0⟩ [sampleAttempt (text "A") (text "auth"), sampleAttempt (text "A") (text "auth"),
        sampleAttempt (text "B") (text "auth-int"), sampleAttempt (text "A") (text "auth")] =
      some ([(sampleAttempt (text "A") (text "auth"), .finished (some firstHeader)),
        (sampleAttempt (text "A") (text "auth"), .finished (some secondHeader)),
        (sampleAttempt (text "B") (text "auth-int"), .finished none),
        (sampleAttempt (text "A") (text "auth"), .finished (some secondHeader))], ⟨text "A", 2⟩) := by decide +kernel
  exact ⟨_, _, Machine.run_of_exec hexec, rfl, by decide +kernel⟩

end RequestsNative.Request
