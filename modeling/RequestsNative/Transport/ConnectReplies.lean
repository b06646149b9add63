import RequestsNative.Lib.Crlf
import RequestsNative.Transport.ProxyReplies
import Mathlib.Data.List.Infix

/-!
# The replies of an HTTP proxy

`transport/proxy.rs`: what `http_connect` takes as a granted tunnel. It reads up to the first empty line and takes the status from
what stands between the first two spaces of that text. That is the status code of most replies, but not of one without a reason
phrase, where the space is missing; and other texts have a number there too.
-/

namespace RequestsNative.Transport

open RequestsNative.Lib

/-! ### What a granted tunnel is -/

/-- `head` is the beginning of the stream up to its first empty line. -/
structure FirstHead (stream head rest : Bytes) : Prop where
  split : stream = head ++ rest
  ends : text "\r\n\r\n" <:+ head
  first : ∀ shorter, shorter <+: head → text "\r\n\r\n" <:+ shorter → shorter = head

def firstLine (head : Bytes) : Bytes := head.take ((position [13, 10] head).getD head.length)

def IsVersion (version : Bytes) : Prop := ∃ minor, isAsciiDigit minor = true ∧ version = text "HTTP/1." ++ [minor]

/-- A status code from 200 to 299. -/
def IsSuccess (code : Bytes) : Prop := ∃ tens ones, isAsciiDigit tens = true ∧ isAsciiDigit ones = true ∧ code = [50, tens, ones]

/-- A status line with such a code, without a reason phrase. -/
def BareSuccess (line : Bytes) : Prop := ∃ version code, IsVersion version ∧ IsSuccess code ∧ line = version ++ 32 :: code

def ReasonedSuccess (line : Bytes) : Prop :=
  ∃ version code reason, IsVersion version ∧ IsSuccess code ∧ line = version ++ 32 :: (code ++ 32 :: reason)

def SuccessLine (line : Bytes) : Prop := BareSuccess line ∨ ReasonedSuccess line

/-! ### What the code takes for one -/

/-- A success code, behind a plus sign and zeroes or not. -/
def ReadsAsSuccess (number : Bytes) : Prop :=
  ∃ sign zeroes code, (sign = [] ∨ sign = [43]) ∧ (∀ b ∈ zeroes, b = 48) ∧ IsSuccess code ∧ number = sign ++ (zeroes ++ code)

/-- The texts up to the first space and between the first two. -/
structure FirstParts (head version number rest : Bytes) : Prop where
  split : head = version ++ 32 :: (number ++ 32 :: rest)
  version : 32 ∉ version
  number : 32 ∉ number

/-- Something else than a status code of HTTP/1 reads as one: there is a sign or a zero before it, or other text. -/
def Misread (head : Bytes) : Prop := ∃ version number rest, FirstParts head version number rest ∧ ReadsAsSuccess number ∧
  ¬(IsVersion version ∧ IsSuccess number)

/-! ### Numbers -/

theorem digitsValue_append_three (digits : Bytes) (a b c : UInt8) :
    digitsValue (digits ++ [a, b, c]) = digitsValue digits * 1000 + ((a.toNat - 48) * 100 + (b.toNat - 48) * 10 + (c.toNat - 48)) := by
  rw [show digits ++ [a, b, c] = ((digits ++ [a]) ++ [b]) ++ [c] by simp, digitsValue_snoc, digitsValue_snoc, digitsValue_snoc]
  omega

theorem digitsValue_eq_zero_iff {digits : Bytes} (hall : digits.all isAsciiDigit = true) :
    digitsValue digits = 0 ↔ ∀ b ∈ digits, b = 48 := by
  induction digits using List.reverseRecOn with
  | nil => exact iff_of_true rfl (by simp)
  | append_singleton digits b ih =>
      rw [List.all_append, Bool.and_eq_true] at hall
      have hdigit : isAsciiDigit b = true := by simpa using hall.2
      have hzero : b.toNat - 48 = 0 ↔ b = 48 := by
        rw [← UInt8.toNat_inj]
        have hrange := digit_toNat hdigit
        change _ ↔ b.toNat = 48
        omega
      rw [digitsValue_snoc, Nat.add_eq_zero_iff, hzero, Nat.mul_eq_zero, or_iff_left (by decide), ih hall.1]
      simp [or_imp, forall_and]

theorem digitsValue_short {digits : Bytes} (hall : digits.all isAsciiDigit = true) (hlength : digits.length < 3) :
    digitsValue digits < 100 := by
  match digits, hlength with
  | [], _ => decide
  | [a], _ =>
      have ha := digit_toNat (by simpa using hall : isAsciiDigit a = true)
      simp only [digitsValue, List.foldl_cons, List.foldl_nil]
      omega
  | [a, b], _ =>
      have hdigits : isAsciiDigit a = true ∧ isAsciiDigit b = true := by simpa using hall
      have ha := digit_toNat hdigits.1
      have hb := digit_toNat hdigits.2
      simp only [digitsValue, List.foldl_cons, List.foldl_nil]
      omega

/-- Digits of a number from 200 to 299. -/
theorem digitsValue_success_iff {digits : Bytes} (hall : digits.all isAsciiDigit = true) :
    (200 ≤ digitsValue digits ∧ digitsValue digits < 300) ↔
      ∃ zeroes code, (∀ b ∈ zeroes, b = 48) ∧ IsSuccess code ∧ digits = zeroes ++ code := by
  constructor
  · rintro ⟨hlow, hhigh⟩
    have hlength : 3 ≤ digits.length := by
      by_contra hshort
      have := digitsValue_short hall (by omega)
      omega
    obtain ⟨a, b, c, hlast⟩ := List.length_eq_three.mp (by rw [List.length_drop]; omega : (digits.drop (digits.length - 3)).length = 3)
    have hsplit : digits.take (digits.length - 3) ++ [a, b, c] = digits := by rw [← hlast, List.take_append_drop]
    generalize digits.take (digits.length - 3) = zeroes at hsplit
    subst hsplit
    rw [List.all_append, Bool.and_eq_true] at hall
    have hcode : isAsciiDigit a = true ∧ isAsciiDigit b = true ∧ isAsciiDigit c = true := by simpa using hall.2
    have ha := digit_toNat hcode.1
    have hb := digit_toNat hcode.2.1
    have hc := digit_toNat hcode.2.2
    rw [digitsValue_append_three] at hlow hhigh
    refine ⟨zeroes, [a, b, c], (digitsValue_eq_zero_iff hall.1).1 (by omega), ⟨b, c, hcode.2.1, hcode.2.2, ?_⟩, rfl⟩
    have htwo : a = 50 := by
      rw [← UInt8.toNat_inj]
      change a.toNat = 50
      omega
    rw [htwo]
  · rintro ⟨zeroes, code, hzeroes, ⟨tens, ones, htens, hones, rfl⟩, rfl⟩
    rw [List.all_append, Bool.and_eq_true] at hall
    rw [digitsValue_append_three, (digitsValue_eq_zero_iff hall.1).2 hzeroes]
    have ht := digit_toNat htens
    have ho := digit_toNat hones
    change 200 ≤ 0 * 1000 + ((50 - 48) * 100 + _ + _) ∧ 0 * 1000 + ((50 - 48) * 100 + _ + _) < 300
    omega

theorem isSuccess_digits {code : Bytes} (h : IsSuccess code) : code.all isAsciiDigit = true := by
  obtain ⟨tens, ones, htens, hones, rfl⟩ := h
  simp only [List.all_cons, htens, hones, List.all_nil, Bool.and_true]
  decide

theorem digits_success_iff (digits : Bytes) :
    (digits ≠ [] ∧ digits.all isAsciiDigit = true ∧ 200 ≤ digitsValue digits ∧ digitsValue digits < 300) ↔
      ∃ zeroes code, (∀ b ∈ zeroes, b = 48) ∧ IsSuccess code ∧ digits = zeroes ++ code := by
  constructor
  · rintro ⟨-, hall, hrange⟩
    exact (digitsValue_success_iff hall).1 hrange
  · rintro ⟨zeroes, code, hzeroes, hcode, rfl⟩
    have hall : (zeroes ++ code).all isAsciiDigit = true := by
      rw [List.all_append, isSuccess_digits hcode, Bool.and_true, List.all_eq_true]
      intro b hb
      rw [hzeroes b hb]
      rfl
    refine ⟨?_, hall, (digitsValue_success_iff hall).2 ⟨zeroes, code, hzeroes, hcode, rfl⟩⟩
    obtain ⟨tens, ones, -, -, rfl⟩ := hcode
    simp

theorem success_ne_plus {zeroes code rest : Bytes} (hzeroes : ∀ b ∈ zeroes, b = 48) (hcode : IsSuccess code) :
    zeroes ++ code ≠ 43 :: rest := by
  intro heq
  obtain ⟨tens, ones, -, -, rfl⟩ := hcode
  cases zeroes with
  | nil => exact absurd (List.cons.inj heq).1 (by decide)
  | cons zero zeroes =>
      rw [hzeroes zero List.mem_cons_self] at heq
      exact absurd (List.cons.inj heq).1 (by decide)

/-- What `str::parse::<u16>` reads as 200 to 299. -/
theorem parseU16_success_iff (number : Bytes) :
    (∃ status, parseU16 number = some status ∧ 200 ≤ status ∧ status < 300) ↔ ReadsAsSuccess number := by
  have hparse : ∀ digits, (if number.head? = some 43 then number.tail else number) = digits →
      ((∃ status, parseU16 number = some status ∧ 200 ≤ status ∧ status < 300) ↔
        ∃ zeroes code, (∀ b ∈ zeroes, b = 48) ∧ IsSuccess code ∧ digits = zeroes ++ code) := by
    intro digits hdigits
    rw [← digits_success_iff]
    simp only [parseU16, hdigits, Option.ite_none_right_eq_some, Option.some.injEq]
    constructor
    · rintro ⟨status, ⟨⟨hne, hall, -⟩, rfl⟩, hrange⟩
      exact ⟨hne, hall, hrange⟩
    · rintro ⟨hne, hall, hrange⟩
      exact ⟨_, ⟨⟨hne, hall, by omega⟩, rfl⟩, hrange⟩
  by_cases hplus : number.head? = some 43
  · obtain ⟨rest, rfl⟩ : ∃ rest, number = 43 :: rest := by
      cases number with
      | nil => cases hplus
      | cons first rest => exact ⟨rest, by rw [Option.some.inj hplus]⟩
    rw [hparse rest rfl]
    constructor
    · rintro ⟨zeroes, code, hzeroes, hcode, rfl⟩
      exact ⟨[43], zeroes, code, .inr rfl, hzeroes, hcode, rfl⟩
    · rintro ⟨sign, zeroes, code, rfl | rfl, hzeroes, hcode, heq⟩
      · rw [List.nil_append] at heq
        exact absurd heq.symm (success_ne_plus hzeroes hcode)
      · exact ⟨zeroes, code, hzeroes, hcode, (List.cons.inj heq).2⟩
  · rw [hparse number (if_neg hplus)]
    constructor
    · rintro ⟨zeroes, code, hzeroes, hcode, rfl⟩
      exact ⟨[], zeroes, code, .inl rfl, hzeroes, hcode, rfl⟩
    · rintro ⟨sign, zeroes, code, rfl | rfl, hzeroes, hcode, rfl⟩
      · exact ⟨zeroes, code, hzeroes, hcode, rfl⟩
      · exact absurd rfl hplus

theorem ReadsAsSuccess.plain {number : Bytes} (h : ReadsAsSuccess number) {b : UInt8} (hb : b ∈ number) : 43 ≤ b := by
  obtain ⟨sign, zeroes, code, hsign, hzeroes, hcode, rfl⟩ := h
  rcases List.mem_append.mp hb with hsigned | hrest
  · rcases hsign with rfl | rfl
    · cases hsigned
    · rw [List.mem_singleton.mp hsigned]
      decide
  · rcases List.mem_append.mp hrest with hzero | hdigit
    · rw [hzeroes b hzero]
      decide
    · have hall := List.all_eq_true.mp (isSuccess_digits hcode) b hdigit
      have hrange := digit_toNat hall
      rw [UInt8.le_iff_toNat_le]
      change 43 ≤ b.toNat
      omega

theorem ReadsAsSuccess.ne_nil {number : Bytes} (h : ReadsAsSuccess number) : number ≠ [] := by
  obtain ⟨sign, zeroes, code, -, -, ⟨tens, ones, -, -, rfl⟩, rfl⟩ := h
  simp

/-! ### The parts of a head -/

theorem emptyLine_eq : text "\r\n\r\n" = [13, 10, 13, 10] := by decide

theorem mem_of_ends {front tail : Bytes} {b : UInt8} (hends : text "\r\n\r\n" <:+ front ++ b :: tail) (htail : tail ≠ []) :
    10 ∈ tail := by
  obtain ⟨before, hbefore⟩ := hends
  obtain ⟨init, last, rfl⟩ := (List.eq_nil_or_concat tail).resolve_left htail
  rw [List.concat_eq_append] at hbefore ⊢
  have hlast : (before ++ [13, 10, 13]) ++ [10] = (front ++ b :: init) ++ [last] := by
    rw [emptyLine_eq] at hbefore
    simpa using hbefore
  obtain ⟨-, hten⟩ := List.append_inj' hlast rfl
  rw [← List.singleton_inj.mp hten]
  simp

theorem cut_unique {a b s t : Bytes} (ha : 32 ∉ a) (hb : 32 ∉ b) (h : a ++ 32 :: s = b ++ 32 :: t) : a = b ∧ s = t := by
  have hparts := congrArg (List.splitOn 32) h
  rw [List.splitOn_append_cons_self_of_not_mem ha, List.splitOn_append_cons_self_of_not_mem hb] at hparts
  obtain rfl := (List.cons.inj hparts).1
  exact ⟨rfl, (List.cons.inj (List.append_cancel_left h)).2⟩

theorem FirstParts.unique {head version version' number number' rest rest' : Bytes} (h : FirstParts head version number rest)
    (h' : FirstParts head version' number' rest') : version = version' ∧ number = number' := by
  obtain ⟨hversion, htail⟩ := cut_unique h.version h'.version (h.split.symm.trans h'.split)
  exact ⟨hversion, (cut_unique h.number h'.number htail).1⟩

theorem status_iff {head : Bytes} (hends : text "\r\n\r\n" <:+ head) :
    (∃ status, (head.splitOn 32)[1]?.bind parseU16 = some status ∧ 200 ≤ status ∧ status < 300) ↔
      ∃ version number rest, FirstParts head version number rest ∧ ReadsAsSuccess number := by
  constructor
  · rintro ⟨status, hstatus, hrange⟩
    obtain ⟨number, hnumber, hparse⟩ := Option.bind_eq_some_iff.mp hstatus
    have hreads := (parseU16_success_iff number).1 ⟨status, hparse, hrange⟩
    by_cases hspace : 32 ∈ head
    · obtain ⟨version, tail, rfl, hversion⟩ := List.eq_append_cons_of_mem hspace
      rw [List.splitOn_append_cons_self_of_not_mem hversion, List.getElem?_cons_succ] at hnumber
      by_cases hnext : 32 ∈ tail
      · obtain ⟨first, rest, rfl, hfirst⟩ := List.eq_append_cons_of_mem hnext
        rw [List.splitOn_append_cons_self_of_not_mem hfirst] at hnumber
        obtain rfl := Option.some.inj hnumber
        exact ⟨version, first, rest, ⟨rfl, hversion, hfirst⟩, hreads⟩
      · rw [List.splitOn_eq_singleton hnext] at hnumber
        obtain rfl := Option.some.inj hnumber
        -- the head ends in a line feed, which no number has
        have hfeed := mem_of_ends hends hreads.ne_nil
        exact absurd (hreads.plain hfeed) (by decide)
    · rw [List.splitOn_eq_singleton hspace] at hnumber
      cases hnumber
  · rintro ⟨version, number, rest, ⟨rfl, hversion, hnumber⟩, hreads⟩
    obtain ⟨status, hparse, hrange⟩ := (parseU16_success_iff number).2 hreads
    refine ⟨status, ?_, hrange⟩
    rw [List.splitOn_append_cons_self_of_not_mem hversion, List.splitOn_append_cons_self_of_not_mem hnumber]
    exact hparse

/-! ### The first line -/

theorem firstLine_append {p : Bytes} (hp : 13 ∉ p) (s : Bytes) : firstLine (p ++ s) = p ++ firstLine s := by
  have hskip : ∀ b ∈ p, b ≠ 13 := fun b hb heq => hp (heq ▸ hb)
  unfold firstLine
  rw [position_skip hskip]
  cases position [13, 10] s with
  | none => simp [List.take_of_length_le]
  | some i => rw [Option.map_some, Option.getD_some, Option.getD_some, Nat.add_comm, List.take_length_add_append]

theorem exists_firstLine {head : Bytes} (hends : text "\r\n\r\n" <:+ head) : ∃ rest, head = firstLine head ++ 13 :: 10 :: rest := by
  obtain ⟨front, hfront⟩ := hends
  have hsome := position_isSome (List.cons_ne_nil 13 [10]) front [13, 10]
  rw [show front ++ ([13, 10] ++ [13, 10]) = head by rw [← hfront, emptyLine_eq]; rfl] at hsome
  obtain ⟨i, hi⟩ := Option.isSome_iff_exists.mp hsome
  have hsplit := position_split hi
  refine ⟨head.drop (i + 2), ?_⟩
  rw [firstLine, hi, Option.getD_some]
  exact hsplit

/-- A version and a code have no space and no line end. -/
theorem IsVersion.plain {version : Bytes} (h : IsVersion version) : 32 ∉ version ∧ 13 ∉ version := by
  obtain ⟨minor, hminor, rfl⟩ := h
  have hrange := digit_toNat hminor
  refine ⟨fun hmem => ?_, fun hmem => ?_⟩
  all_goals
    rcases List.mem_append.mp hmem with hname | hdigit
    · exact absurd hname (by decide)
    · rw [← List.mem_singleton.mp hdigit] at hrange
      exact absurd hrange.1 (by decide)

theorem IsSuccess.reads {code : Bytes} (h : IsSuccess code) : ReadsAsSuccess code :=
  ⟨[], [], code, .inl rfl, by simp, h, rfl⟩

theorem ReadsAsSuccess.no_space {number : Bytes} (h : ReadsAsSuccess number) : 32 ∉ number ∧ 13 ∉ number :=
  ⟨fun hmem => absurd (h.plain hmem) (by decide), fun hmem => absurd (h.plain hmem) (by decide)⟩

theorem BareSuccess.not_parts {head : Bytes} (hends : text "\r\n\r\n" <:+ head) (h : BareSuccess (firstLine head)) :
    ¬∃ version number rest, FirstParts head version number rest ∧ ReadsAsSuccess number := by
  obtain ⟨version, code, hversion, hcode, hline⟩ := h
  obtain ⟨after, hafter⟩ := exists_firstLine hends
  rw [hline, List.append_assoc, List.cons_append] at hafter
  rintro ⟨version', number, rest, hparts, hreads⟩
  obtain ⟨-, htail⟩ := cut_unique hparts.version hversion.plain.1 (hparts.split.symm.trans hafter)
  rcases List.append_eq_append_iff.mp htail with ⟨more, hmore, hnext⟩ | ⟨more, hmore, hnext⟩
  · cases more with
    | nil => exact absurd (List.cons.inj hnext).1 (by decide)
    | cons b more =>
        obtain ⟨rfl, -⟩ := List.cons.inj hnext
        exact hcode.reads.no_space.1 (hmore ▸ List.mem_append_right _ List.mem_cons_self)
  · cases more with
    | nil => exact absurd (List.cons.inj hnext).1 (by decide)
    | cons b more =>
        obtain ⟨rfl, -⟩ := List.cons.inj hnext
        exact hreads.no_space.2 (hmore ▸ List.mem_append_right _ List.mem_cons_self)

/-- With a reason phrase it is. -/
theorem ReasonedSuccess.parts {head : Bytes} (hends : text "\r\n\r\n" <:+ head) (h : ReasonedSuccess (firstLine head)) :
    ∃ version code rest, FirstParts head version code rest ∧ IsVersion version ∧ IsSuccess code := by
  obtain ⟨version, code, reason, hversion, hcode, hline⟩ := h
  obtain ⟨after, hafter⟩ := exists_firstLine hends
  refine ⟨version, code, reason ++ 13 :: 10 :: after, ⟨?_, hversion.plain.1, hcode.reads.no_space.1⟩, hversion, hcode⟩
  rw [hline] at hafter
  simpa using hafter

theorem FirstParts.reasonedSuccess {head version code rest : Bytes} (h : FirstParts head version code rest)
    (hversion : IsVersion version) (hcode : IsSuccess code) : ReasonedSuccess (firstLine head) := by
  refine ⟨version, code, firstLine rest, hversion, hcode, ?_⟩
  have hplain : 13 ∉ version ++ 32 :: (code ++ [32]) := by
    simp [hversion.plain.2, hcode.reads.no_space.2]
  have hsplit : head = (version ++ 32 :: (code ++ [32])) ++ rest := by
    rw [h.split]
    simp
  rw [hsplit, firstLine_append hplain]
  simp

theorem agrees_iff {head : Bytes} (hends : text "\r\n\r\n" <:+ head) :
    ((∃ version number rest, FirstParts head version number rest ∧ ReadsAsSuccess number) ↔ SuccessLine (firstLine head)) ↔
      ¬BareSuccess (firstLine head) ∧ ¬Misread head := by
  constructor
  · intro hiff
    refine ⟨fun hbare => hbare.not_parts hends (hiff.2 (.inl hbare)), ?_⟩
    rintro ⟨version, number, rest, hparts, hreads, hother⟩
    rcases hiff.1 ⟨version, number, rest, hparts, hreads⟩ with hbare | hreasoned
    · exact hbare.not_parts hends ⟨version, number, rest, hparts, hreads⟩
    · obtain ⟨version', code, rest', hparts', hversion, hcode⟩ := hreasoned.parts hends
      obtain ⟨rfl, rfl⟩ := hparts.unique hparts'
      exact hother ⟨hversion, hcode⟩
  · rintro ⟨hbare, hmisread⟩
    constructor
    · rintro ⟨version, number, rest, hparts, hreads⟩
      have hgood : IsVersion version ∧ IsSuccess number := by
        by_contra hother
        exact hmisread ⟨version, number, rest, hparts, hreads, hother⟩
      exact .inr (hparts.reasonedSuccess hgood.1 hgood.2)
    · intro hline
      obtain ⟨version, code, rest, hparts, -, hcode⟩ := (hline.resolve_left hbare).parts hends
      exact ⟨version, code, rest, hparts, hcode.reads⟩

/-! ### The handshake -/

/-- What is read to get from `response` to the end of the head. -/
structure CompletesHead (left : Nat) (response out read : Bytes) : Prop where
  whole : out = response ++ read
  fits : read.length ≤ left
  ends : text "\r\n\r\n" <:+ out
  first : ∀ shorter, shorter <+: read → text "\r\n\r\n" <:+ response ++ shorter → shorter = read

theorem completesHead_succ {left : Nat} {response out read : Bytes} (hopen : ¬text "\r\n\r\n" <:+ response) :
    (∃ b rest, read = b :: rest ∧ CompletesHead left (response ++ [b]) out rest) ↔ CompletesHead (left + 1) response out read := by
  constructor
  · rintro ⟨b, rest, rfl, h⟩
    refine ⟨by rw [h.whole]; simp, Nat.succ_le_succ h.fits, h.ends, ?_⟩
    intro shorter hprefix hends
    cases shorter with
    | nil =>
        rw [List.append_nil] at hends
        exact absurd hends hopen
    | cons c shorter =>
        obtain ⟨rfl, htail⟩ := List.cons_prefix_cons.mp hprefix
        rw [h.first shorter htail (by simpa using hends)]
  · intro h
    cases read with
    | nil =>
        have hends := h.ends
        rw [h.whole, List.append_nil] at hends
        exact absurd hends hopen
    | cons b rest =>
        refine ⟨b, rest, rfl, by rw [h.whole]; simp, Nat.le_of_succ_le_succ h.fits, h.ends, ?_⟩
        intro shorter hprefix hends
        have hwhole := h.first (b :: shorter) (List.cons_prefix_cons.mpr ⟨rfl, hprefix⟩) (by simpa using hends)
        exact (List.cons.inj hwhole).2

theorem completesHead_done {left : Nat} {response out read : Bytes} (hends : text "\r\n\r\n" <:+ response) :
    CompletesHead left response out read ↔ out = response ∧ read = [] := by
  constructor
  · intro h
    have hread := h.first [] List.nil_prefix (by simpa using hends)
    refine ⟨?_, hread.symm⟩
    rw [h.whole, ← hread, List.append_nil]
  · rintro ⟨rfl, rfl⟩
    exact ⟨(List.append_nil out).symm, Nat.zero_le left, hends, fun shorter hprefix _ => List.prefix_nil.mp hprefix⟩

theorem readHeadFrom_succeeds (left : Nat) (response : Bytes) :
    Talk.Succeeds (Proxy.readHeadFrom left response) fun out sent read => sent = [] ∧ CompletesHead left response out read := by
  induction left generalizing response with
  | zero =>
      unfold Proxy.readHeadFrom
      split
      · rename_i hends
        refine (Talk.succeeds_pure response).congr fun out sent read => ?_
        rw [completesHead_done hends, and_left_comm]
      · rename_i hopen
        refine (Talk.succeeds_fail _).congr fun out sent read => iff_of_false id ?_
        rintro ⟨-, h⟩
        have hends := h.ends
        rw [h.whole, List.eq_nil_of_length_eq_zero (Nat.le_zero.mp h.fits), List.append_nil] at hends
        exact hopen hends
  | succ left ih =>
      unfold Proxy.readHeadFrom
      split
      · rename_i hends
        refine (Talk.succeeds_pure response).congr fun out sent read => ?_
        rw [completesHead_done hends, and_left_comm]
      · rename_i hopen
        refine (Talk.succeeds_nextByte fun b => ih (response ++ [b])).congr fun out sent read => ?_
        rw [← completesHead_succ hopen]
        constructor
        · rintro ⟨b, rest, hread, hsent, h⟩
          exact ⟨hsent, b, rest, hread, h⟩
        · rintro ⟨hsent, b, rest, hread, h⟩
          exact ⟨b, rest, hread, hsent, h⟩

/-- The end of `http_connect`, with the head it has read. -/
def checkStatus (response : Bytes) : ProxyTalk Unit :=
  match (response.splitOn 32)[1]?.bind parseU16 with
  | none => Talk.fail (.proxy (text "CONNECT response has no valid status"))
  | some status =>
      if 200 ≤ status ∧ status < 300 then pure ()
      else Talk.fail (.proxy (text "CONNECT proxy returned status " ++ decimal status))

theorem checkStatus_succeeds (response : Bytes) : Talk.Succeeds (checkStatus response) fun _ sent read =>
    (∃ status, (response.splitOn 32)[1]?.bind parseU16 = some status ∧ 200 ≤ status ∧ status < 300) ∧ sent = [] ∧ read = [] := by
  unfold checkStatus
  split
  · rename_i hnone
    refine (Talk.succeeds_fail _).congr fun _ _ _ => iff_of_false id ?_
    rintro ⟨⟨status, hsome, -⟩, -⟩
    exact absurd (hnone.symm.trans hsome) (by simp)
  · rename_i status hsome
    split
    · rename_i hrange
      refine (Talk.succeeds_pure ()).congr fun _ _ _ => ?_
      simp [hsome, hrange]
    · rename_i hrange
      refine (Talk.succeeds_fail _).congr fun _ _ _ => iff_of_false id ?_
      rintro ⟨⟨status', hsome', hrange'⟩, -⟩
      obtain rfl := Option.some.inj (hsome.symm.trans hsome')
      exact hrange hrange'

theorem connectReply_succeeds : Talk.Succeeds (Proxy.readHead >>= checkStatus) fun _ sent head => sent = [] ∧
    CompletesHead Proxy.maxResponseHead [] head head ∧
      ∃ version number rest, FirstParts head version number rest ∧ ReadsAsSuccess number := by
  refine ((readHeadFrom_succeeds _ _).bind checkStatus_succeeds).congr fun _ sent head => ?_
  constructor
  · rintro ⟨out, _, read, ⟨rfl, hhead⟩, _, _, ⟨hstatus, rfl, rfl⟩, rfl, rfl⟩
    obtain rfl : out = read := hhead.whole
    simp only [List.append_nil]
    exact ⟨trivial, hhead, (status_iff hhead.ends).1 hstatus⟩
  · rintro ⟨rfl, hhead, hparts⟩
    exact ⟨head, [], head, ⟨rfl, hhead⟩, [], [], ⟨(status_iff hhead.ends).2 hparts, rfl, rfl⟩, rfl, (List.append_nil head).symm⟩

theorem firstHead_iff {stream head rest : Bytes} : FirstHead stream head rest ∧ head.length ≤ Proxy.maxResponseHead ↔
    CompletesHead Proxy.maxResponseHead [] head head ∧ stream = head ++ rest := by
  constructor
  · rintro ⟨h, hfits⟩
    exact ⟨⟨rfl, hfits, h.ends, h.first⟩, h.split⟩
  · rintro ⟨h, hsplit⟩
    exact ⟨⟨hsplit, h.ends, h.first⟩, h.fits⟩

theorem FirstHead.unique {stream head head' rest rest' : Bytes} (h : FirstHead stream head rest)
    (h' : FirstHead stream head' rest') : head = head' ∧ rest = rest' := by
  have hprefix : head <+: stream := ⟨rest, h.split.symm⟩
  have hprefix' : head' <+: stream := ⟨rest', h'.split.symm⟩
  have hhead : head = head' := by
    rcases List.prefix_or_prefix_of_prefix hprefix hprefix' with hle | hle
    · exact h'.first head hle h.ends
    · exact (h.first head' hle h'.ends).symm
  subst hhead
  exact ⟨rfl, List.append_cancel_left (h.split.symm.trans h'.split)⟩

section Connect

variable {reader : AuthorityReader} {parseUrl : ProxyUrlParser} {proxy : Proxy reader} {host : Bytes} {port : Nat}
  {authorization : Option Bytes} {wire : Wire}

theorem httpConnect_opened_iff (hauthorization : Proxy.authorization parseUrl proxy = .ok authorization)
    (htakes : wire.Takes (Proxy.connectRequest host port authorization).length) (hflush : wire.flushFault = none) (rest : Bytes) :
    Opened (Proxy.httpConnect parseUrl proxy host port) wire rest ↔
      ∃ head, (FirstHead wire.incoming head rest ∧ head.length ≤ Proxy.maxResponseHead) ∧
        ∃ version number after, FirstParts head version number after ∧ ReadsAsSuccess number := by
  obtain ⟨asked, hexchange, hincoming⟩ := Wire.exists_exchange htakes (List.nil_append wire.incoming).symm
  have hwrite : Proxy.writeAll (Proxy.connectRequest host port authorization) wire = (.ok (), asked) :=
    (Talk.succeeds_writeAll _ _ wire () asked).mpr ⟨_, [], ⟨rfl, rfl⟩, hexchange⟩
  have hflushed : Talk.flush Error.proxy asked = (.ok (), asked) := by
    rw [Talk.flush, hexchange.flushFault, hflush]
  have hrun : Proxy.httpConnect parseUrl proxy host port wire = (Proxy.readHead >>= checkStatus) asked := by
    rw [Proxy.httpConnect, hauthorization, Talk.lift_ok, Talk.bind_ok hwrite, Talk.bind_ok hflushed]
    rfl
  have hopened : Opened (Proxy.httpConnect parseUrl proxy host port) wire rest ↔
      Opened (Proxy.readHead >>= checkStatus) asked rest := by
    unfold Opened
    rw [hrun]
  rw [hopened, opened_iff connectReply_succeeds, hincoming]
  constructor
  · rintro ⟨sent, head, ⟨-, hhead, hparts⟩, -, hsplit⟩
    exact ⟨head, firstHead_iff.2 ⟨hhead, hsplit⟩, hparts⟩
  · rintro ⟨head, hhead, hparts⟩
    obtain ⟨hcompletes, hsplit⟩ := firstHead_iff.1 hhead
    exact ⟨[], head, ⟨rfl, hcompletes, hparts⟩, fun _ _ _ => Nat.zero_le _, hsplit⟩

/-- `http_connect` grants the tunnel for the replies that it should exactly if the head is neither a success without a reason
phrase nor a text that has a number in the place of the code. In any case it reads up to the empty line and no further. -/
theorem connect_replies_iff (hauthorization : Proxy.authorization parseUrl proxy = .ok authorization)
    (htakes : wire.Takes (Proxy.connectRequest host port authorization).length) (hflush : wire.flushFault = none) :
    (((∃ rest, Opened (Proxy.httpConnect parseUrl proxy host port) wire rest) ↔
        ∃ head rest, FirstHead wire.incoming head rest ∧ head.length ≤ Proxy.maxResponseHead ∧ SuccessLine (firstLine head)) ∧
      ∀ rest, Opened (Proxy.httpConnect parseUrl proxy host port) wire rest → ∃ head, FirstHead wire.incoming head rest) ↔
    ∀ head rest, FirstHead wire.incoming head rest → head.length ≤ Proxy.maxResponseHead →
      ¬BareSuccess (firstLine head) ∧ ¬Misread head := by
  have hopened := httpConnect_opened_iff hauthorization htakes hflush
  have hconsumed : ∀ rest, Opened (Proxy.httpConnect parseUrl proxy host port) wire rest → ∃ head, FirstHead wire.incoming head rest := by
    intro rest hopen
    obtain ⟨head, ⟨hhead, -⟩, -⟩ := (hopened rest).1 hopen
    exact ⟨head, hhead⟩
  rw [and_iff_left hconsumed]
  constructor
  · intro hiff head rest hhead hfits
    refine (agrees_iff hhead.ends).1 ⟨fun hparts => ?_, fun hline => ?_⟩
    · obtain ⟨head', rest', hhead', -, hline⟩ := hiff.1 ⟨rest, (hopened rest).2 ⟨head, ⟨hhead, hfits⟩, hparts⟩⟩
      obtain ⟨rfl, -⟩ := hhead.unique hhead'
      exact hline
    · obtain ⟨rest', hopen⟩ := hiff.2 ⟨head, rest, hhead, hfits, hline⟩
      obtain ⟨head', ⟨hhead', -⟩, hparts⟩ := (hopened rest').1 hopen
      obtain ⟨rfl, -⟩ := hhead.unique hhead'
      exact hparts
  · intro hgood
    constructor
    · rintro ⟨rest, hopen⟩
      obtain ⟨head, ⟨hhead, hfits⟩, hparts⟩ := (hopened rest).1 hopen
      exact ⟨head, rest, hhead, hfits, ((agrees_iff hhead.ends).2 (hgood head rest hhead hfits)).1 hparts⟩
    · rintro ⟨head, rest, hhead, hfits, hline⟩
      have hparts := ((agrees_iff hhead.ends).2 (hgood head rest hhead hfits)).2 hline
      exact ⟨rest, (hopened rest).2 ⟨head, ⟨hhead, hfits⟩, hparts⟩⟩

end Connect

theorem firstHead_of_inits {head : Bytes} (rest : Bytes) (hends : text "\r\n\r\n" <:+ head)
    (hfirst : ∀ shorter ∈ head.inits, text "\r\n\r\n" <:+ shorter → shorter = head) : FirstHead (head ++ rest) head rest :=
  ⟨rfl, hends, fun shorter hprefix => hfirst shorter ((List.mem_inits _ _).mpr hprefix)⟩

private def connectUri : Uri httpAuthority := ⟨some .http, some ⟨text "proxy.test:3128", by decide⟩, some ⟨text "/", none⟩⟩

private def readConnectUrl : ProxyUrlParser := fun url =>
  if url = connectUri.display then .ok ⟨[], none⟩ else .error (text "relative URL without a base")

/-- A proxy that sends these bytes and takes everything. -/
private def sends (bytes : Bytes) : Wire := ⟨bytes, none, [], none, none⟩

private theorem connectUri_authorization : Proxy.authorization readConnectUrl (.http connectUri) = .ok none := by decide

theorem connect_replies_granted : ∃ rest, Opened (Proxy.httpConnect readConnectUrl (.http connectUri) (text "origin.test") 443)
    (sends (text "HTTP/1.1 200 OK\r\n\r\n" ++ [22, 3])) rest := by
  have hhead : FirstHead (text "HTTP/1.1 200 OK\r\n\r\n" ++ [22, 3]) (text "HTTP/1.1 200 OK\r\n\r\n") [22, 3] :=
    firstHead_of_inits _ (by decide) (by decide)
  have hparts : FirstParts (text "HTTP/1.1 200 OK\r\n\r\n") (text "HTTP/1.1") (text "200") (text "OK\r\n\r\n") :=
    ⟨by decide, by decide, by decide⟩
  have hversion : IsVersion (text "HTTP/1.1") := ⟨49, by decide, by decide⟩
  have hcode : IsSuccess (text "200") := ⟨48, 48, by decide, by decide, by decide⟩
  have hline := hparts.reasonedSuccess hversion hcode
  have hgood := (agrees_iff hhead.ends).1 (iff_of_true ⟨_, _, _, hparts, hcode.reads⟩ (.inr hline))
  refine ((connect_replies_iff connectUri_authorization (fun _ _ h => by cases h) rfl).2 ?_).1.2
    ⟨_, _, hhead, by decide, .inr hline⟩
  intro head rest hother _
  obtain ⟨rfl, -⟩ := hhead.unique hother
  exact hgood

/-- A success without a reason phrase is refused. -/
theorem connect_refuses_bare_success :
    ¬((∃ rest, Opened (Proxy.httpConnect readConnectUrl (.http connectUri) (text "origin.test") 443)
        (sends (text "HTTP/1.1 200\r\n\r\n")) rest) ↔
      ∃ head rest, FirstHead (text "HTTP/1.1 200\r\n\r\n") head rest ∧ head.length ≤ Proxy.maxResponseHead ∧
        SuccessLine (firstLine head)) := by
  have hhead : FirstHead (text "HTTP/1.1 200\r\n\r\n" ++ []) (text "HTTP/1.1 200\r\n\r\n") [] :=
    firstHead_of_inits _ (by decide) (by decide)
  rw [List.append_nil] at hhead
  have hbare : BareSuccess (firstLine (text "HTTP/1.1 200\r\n\r\n")) :=
    ⟨text "HTTP/1.1", text "200", ⟨49, by decide, by decide⟩, ⟨48, 48, by decide, by decide, by decide⟩, by decide⟩
  intro hiff
  obtain ⟨rest, hopen⟩ := hiff.2 ⟨_, _, hhead, by decide, .inl hbare⟩
  obtain ⟨head, ⟨hother, -⟩, hparts⟩ :=
    (httpConnect_opened_iff connectUri_authorization (fun _ _ h => by cases h) rfl rest).1 hopen
  obtain ⟨rfl, -⟩ := hhead.unique hother
  exact hbare.not_parts hhead.ends hparts

end RequestsNative.Transport
