import RequestsNative.Utf8
import RequestsNative.Lib.IndexMap
import RequestsNative.Url.Prepare

/-!
# `prepare_headers`

`models.rs`, `structures.rs` and `utils.rs`. The headers of a request are checked one after the other and written into a map
whose keys are their names in lower case. A name or a value is a text or bytes; bytes are checked as bytes, and a name of
bytes becomes a text by lossy decoding.
-/

namespace RequestsNative.Request

open RequestsNative.Lib
open Url (isPythonWhitespace)

/-! ### The checks -/

inductive HeaderPart
  | text (value : String)
  | bytes (value : Bytes)
  deriving DecidableEq, Repr

structure HeaderInput where
  name : HeaderPart
  value : HeaderPart
  deriving DecidableEq, Repr

inductive HeaderValidationError
  | invalidName
  | invalidValue
  deriving DecidableEq, Repr

def validateHeaderName (name : String) : Except HeaderValidationError Unit :=
  match name.toList with
  | [] => .error .invalidName
  | first :: chars =>
      if first = ':' ∨ isPythonWhitespace first.toNat = true ∨ chars.any (fun ch => ch = ':' ∨ ch = '\r' ∨ ch = '\n') = true then
        .error .invalidName
      else .ok ()

def validateHeaderValue (value : String) : Except HeaderValidationError Unit :=
  match value.toList with
  | [] => .ok ()
  | first :: chars =>
      if isPythonWhitespace first.toNat = true ∨ first = '\r' ∨ first = '\n' then .error .invalidValue
      else if chars.any (fun ch => ch = '\r' ∨ ch = '\n') = true then .error .invalidValue
      else .ok ()

def isPythonBytesWhitespace (value : UInt8) : Bool := isAsciiWhitespace value || value == 0x0B

def hasReturn (value : Bytes) : Bool := value.contains 13 || value.contains 10

def validateHeaderNameBytes : Bytes → Except HeaderValidationError Unit
  | [] => .error .invalidName
  | first :: rest =>
      if first = 58 ∨ isPythonBytesWhitespace first = true ∨ rest.contains 58 = true ∨ hasReturn rest = true then
        .error .invalidName
      else .ok ()

def validateHeaderValueBytes : Bytes → Except HeaderValidationError Unit
  | [] => .ok ()
  | first :: rest => if isPythonBytesWhitespace first = true ∨ hasReturn rest = true then .error .invalidValue else .ok ()

def validateName : HeaderPart → Except HeaderValidationError Unit
  | .text name => validateHeaderName name
  | .bytes name => validateHeaderNameBytes name

def validateValue : HeaderPart → Except HeaderValidationError Unit
  | .text value => validateHeaderValue value
  | .bytes value => validateHeaderValueBytes value

/-! ### The loop -/

/-- `structures.rs`: under a name in lower case, the name as it was written and a value. -/
structure CaseInsensitiveMap (V : Type) where
  entries : IndexMap Bytes (Bytes × V)

namespace CaseInsensitiveMap

variable {V : Type}

def new : CaseInsensitiveMap V := ⟨.empty⟩

def insert (map : CaseInsensitiveMap V) (normalizedKey casedKey : Bytes) (value : V) : CaseInsensitiveMap V :=
  ⟨map.entries.insert normalizedKey (casedKey, value)⟩

def iter (map : CaseInsensitiveMap V) : List (Bytes × V) := map.entries.entries.map Prod.snd

end CaseInsensitiveMap

structure PreparedHeader where
  sourceIndex : Nat
  name : Bytes
  deriving DecidableEq, Repr

inductive InvalidHeaderPart
  | name
  | value
  deriving DecidableEq, Repr

structure HeaderPreparationError where
  prepared : List PreparedHeader
  sourceIndex : Nat
  part : InvalidHeaderPart
  deriving DecidableEq, Repr

def preparedHeaders (prepared : CaseInsensitiveMap Nat) : List PreparedHeader :=
  prepared.iter.map fun entry => ⟨entry.2, entry.1⟩

def headerError (prepared : CaseInsensitiveMap Nat) (sourceIndex : Nat) (part : InvalidHeaderPart) : HeaderPreparationError :=
  ⟨preparedHeaders prepared, sourceIndex, part⟩

/-- The text of a name. -/
def HeaderPart.toName : HeaderPart → Bytes
  | .text name => RequestsNative.text name
  | .bytes name => fromUtf8Lossy name

def prepareHeadersFrom (prepared : CaseInsensitiveMap Nat) (sourceIndex : Nat) :
    List HeaderInput → Except HeaderPreparationError (List PreparedHeader)
  | [] => .ok (preparedHeaders prepared)
  | header :: headers =>
      match validateName header.name with
      | .error _ => .error (headerError prepared sourceIndex .name)
      | .ok () =>
          match validateValue header.value with
          | .error _ => .error (headerError prepared sourceIndex .value)
          | .ok () =>
              let name := header.name.toName
              prepareHeadersFrom (prepared.insert (toAsciiLowercase name) name sourceIndex) (sourceIndex + 1) headers

def prepareHeaders (headers : List HeaderInput) : Except HeaderPreparationError (List PreparedHeader) :=
  prepareHeadersFrom .new 0 headers

/-! ### What it should return -/

/-- A header passes both checks. -/
def HeaderInput.Valid (header : HeaderInput) : Prop := validateName header.name = .ok () ∧ validateValue header.value = .ok ()

instance (header : HeaderInput) : Decidable header.Valid := inferInstanceAs (Decidable (_ ∧ _))

/-- The place of the first header with a name, up to the case of ASCII. -/
def firstOccurrence (headers : List HeaderInput) (name : Bytes) : Nat :=
  headers.findIdx fun header => eqIgnoreAsciiCase header.name.toName name

/-- One entry for each name, in the order of the first headers with the names, each from the last header with its name. -/
structure LastWins (headers : List HeaderInput) (prepared : List PreparedHeader) : Prop where
  complete : ∀ header ∈ headers, ∃ entry ∈ prepared, eqIgnoreAsciiCase entry.name header.name.toName = true
  distinct : prepared.Pairwise fun a b => eqIgnoreAsciiCase a.name b.name = false
  ordered : prepared.Pairwise fun a b => firstOccurrence headers a.name < firstOccurrence headers b.name
  last : ∀ entry ∈ prepared, ∃ before header after, headers = before ++ header :: after ∧
    entry = ⟨before.length, header.name.toName⟩ ∧ ∀ later ∈ after, eqIgnoreAsciiCase later.name.toName entry.name = false

/-! ### The loop as a list of writes -/

/-- What a list of headers writes. -/
def writesFrom (sourceIndex : Nat) (headers : List HeaderInput) : List (Bytes × Bytes × Nat) :=
  (headers.zipIdx sourceIndex).map fun item => (toAsciiLowercase item.1.name.toName, item.1.name.toName, item.2)

theorem prepareHeadersFrom_append (prepared : CaseInsensitiveMap Nat) (sourceIndex : Nat) {before : List HeaderInput}
    (h : ∀ header ∈ before, header.Valid) (rest : List HeaderInput) :
    prepareHeadersFrom prepared sourceIndex (before ++ rest) =
      prepareHeadersFrom ⟨prepared.entries.insertAll (writesFrom sourceIndex before)⟩ (sourceIndex + before.length) rest := by
  induction before generalizing prepared sourceIndex with
  | nil => rfl
  | cons header before ih =>
      obtain ⟨hname, hvalue⟩ := h header List.mem_cons_self
      rw [List.cons_append, prepareHeadersFrom, hname]
      simp only [hvalue]
      rw [ih _ _ fun other hother => h other (List.mem_cons_of_mem _ hother), List.length_cons, Nat.add_right_comm, Nat.add_assoc]
      rfl

/-- The map after valid headers. -/
def written (headers : List HeaderInput) : CaseInsensitiveMap Nat := ⟨IndexMap.empty.insertAll (writesFrom 0 headers)⟩

theorem prepareHeaders_append {before : List HeaderInput} (h : ∀ header ∈ before, header.Valid) (rest : List HeaderInput) :
    prepareHeaders (before ++ rest) = prepareHeadersFrom (written before) before.length rest := by
  rw [prepareHeaders, prepareHeadersFrom_append .new 0 h, Nat.zero_add]
  rfl

theorem prepareHeaders_valid {headers : List HeaderInput} (h : ∀ header ∈ headers, header.Valid) :
    prepareHeaders headers = .ok (preparedHeaders (written headers)) := by
  have hall := prepareHeaders_append h []
  rwa [List.append_nil] at hall

theorem prepareHeaders_invalid {before after : List HeaderInput} {header : HeaderInput} (h : ∀ header ∈ before, header.Valid)
    (hinvalid : ¬ header.Valid) :
    prepareHeaders (before ++ header :: after) = .error ⟨preparedHeaders (written before), before.length,
      if validateName header.name = .ok () then .value else .name⟩ := by
  rw [prepareHeaders_append h, prepareHeadersFrom]
  cases hname : validateName header.name with
  | error error => simp [headerError]
  | ok _ =>
      cases hvalue : validateValue header.value with
      | error error => simp [headerError]
      | ok _ => exact absurd ⟨hname, hvalue⟩ hinvalid

theorem exists_first_invalid {headers : List HeaderInput} (h : ¬ ∀ header ∈ headers, header.Valid) :
    ∃ before header after, headers = before ++ header :: after ∧ (∀ header ∈ before, header.Valid) ∧ ¬ header.Valid := by
  induction headers with
  | nil => exact absurd (fun header hheader => absurd hheader List.not_mem_nil) h
  | cons first headers ih =>
      by_cases hfirst : first.Valid
      · have hrest : ¬ ∀ header ∈ headers, header.Valid := fun hall =>
          h (List.forall_mem_cons.mpr ⟨hfirst, hall⟩)
        obtain ⟨before, header, after, rfl, hbefore, hinvalid⟩ := ih hrest
        exact ⟨first :: before, header, after, rfl, List.forall_mem_cons.mpr ⟨hfirst, hbefore⟩, hinvalid⟩
      · exact ⟨[], first, headers, rfl, fun header hheader => absurd hheader List.not_mem_nil, hfirst⟩

/-! ### The map as a list of headers -/

theorem map_fst_writes (headers : List HeaderInput) :
    (writesFrom 0 headers).map Prod.fst = headers.map fun header => toAsciiLowercase header.name.toName := by
  rw [writesFrom, List.map_map]
  conv_rhs => rw [← List.zipIdx_map_fst 0 headers, List.map_map]
  rfl

theorem writes_split {headers : List HeaderInput} {before after : List (Bytes × Bytes × Nat)} {key name : Bytes} {sourceIndex : Nat}
    (h : writesFrom 0 headers = before ++ (key, name, sourceIndex) :: after) :
    ∃ front header back, headers = front ++ header :: back ∧ key = toAsciiLowercase name ∧ name = header.name.toName ∧
      sourceIndex = front.length ∧ after.map Prod.fst = back.map fun header => toAsciiLowercase header.name.toName := by
  obtain ⟨front, rest, hsplit, hfront, hrest⟩ := List.map_eq_append_iff.mp h
  obtain ⟨⟨header, index⟩, back, rfl, hwrite, hback⟩ := List.map_eq_cons_iff.mp hrest
  simp only [Prod.mk.injEq] at hwrite
  obtain ⟨rfl, rfl, rfl⟩ := hwrite
  have hheaders := congrArg (List.map Prod.fst) hsplit
  rw [List.zipIdx_map_fst, List.map_append, List.map_cons] at hheaders
  refine ⟨front.map Prod.fst, header, back.map Prod.fst, hheaders, rfl, rfl, ?_, ?_⟩
  · have hindex := congrArg (fun items => items[front.length]?) hsplit
    simp only [List.getElem?_zipIdx, List.getElem?_append_right (Nat.le_refl _), Nat.sub_self,
      List.getElem?_cons_zero, Option.map_eq_some_iff, Prod.mk.injEq] at hindex
    obtain ⟨-, -, -, heq⟩ := hindex
    rw [List.length_map, ← heq, Nat.zero_add]
  · rw [← hback, List.map_map, List.map_map]
    rfl

theorem firstWrite_writes (headers : List HeaderInput) (name : Bytes) :
    IndexMap.firstWrite (writesFrom 0 headers) (toAsciiLowercase name) = firstOccurrence headers name := by
  have hfirst : IndexMap.firstWrite (writesFrom 0 headers) (toAsciiLowercase name) =
      ((writesFrom 0 headers).map Prod.fst).findIdx fun key => key = toAsciiLowercase name := by
    rw [List.findIdx_map]
    rfl
  rw [hfirst, map_fst_writes, List.findIdx_map, firstOccurrence]
  congr 1
  funext header
  rw [eqIgnoreAsciiCase, Function.comp_apply, Bool.beq_eq_decide_eq]

theorem lastWrites_written (headers : List HeaderInput) :
    IndexMap.LastWrites (writesFrom 0 headers) (written headers).entries.entries :=
  IndexMap.lastWrites_insertAll (writesFrom 0 headers)

theorem written_key {headers : List HeaderInput} {entry : Bytes × Bytes × Nat}
    (hentry : entry ∈ (written headers).entries.entries) : entry.1 = toAsciiLowercase entry.2.1 := by
  obtain ⟨before, after, hsplit, -⟩ := (lastWrites_written headers).last entry hentry
  obtain ⟨-, -, -, -, hlower, -⟩ := writes_split hsplit
  exact hlower

theorem preparedHeaders_written (headers : List HeaderInput) :
    preparedHeaders (written headers) = (written headers).entries.entries.map fun entry => ⟨entry.2.2, entry.2.1⟩ := by
  rw [preparedHeaders, CaseInsensitiveMap.iter, List.map_map]
  rfl

theorem written_ordered (headers : List HeaderInput) : (preparedHeaders (written headers)).Pairwise fun a b =>
    firstOccurrence headers a.name < firstOccurrence headers b.name := by
  rw [preparedHeaders_written, List.pairwise_map]
  refine (lastWrites_written headers).ordered.imp_of_mem fun {a b} ha hb hlt => ?_
  rw [written_key ha, written_key hb, firstWrite_writes, firstWrite_writes] at hlt
  exact hlt

theorem written_last {headers : List HeaderInput} {entry : PreparedHeader} (hentry : entry ∈ preparedHeaders (written headers)) :
    ∃ before header after, headers = before ++ header :: after ∧ entry = ⟨before.length, header.name.toName⟩ ∧
      ∀ later ∈ after, eqIgnoreAsciiCase later.name.toName entry.name = false := by
  rw [preparedHeaders_written] at hentry
  obtain ⟨write, hwrite, rfl⟩ := List.mem_map.mp hentry
  obtain ⟨before, after, hsplit, hlast⟩ := (lastWrites_written headers).last write hwrite
  obtain ⟨front, header, back, hheaders, hlower, hname, hindex, hafter⟩ := writes_split hsplit
  refine ⟨front, header, back, hheaders, by rw [hname, hindex], fun later hlater => ?_⟩
  rw [← Bool.not_eq_true, eqIgnoreAsciiCase_iff]
  intro hsame
  rw [hafter, hlower] at hlast
  exact hlast (List.mem_map.mpr ⟨later, hlater, hsame⟩)

theorem lastWins_written (headers : List HeaderInput) : LastWins headers (preparedHeaders (written headers)) := by
  refine ⟨?_, ?_, written_ordered headers, fun _ => written_last⟩
  · intro header hheader
    have hmem : toAsciiLowercase header.name.toName ∈ (writesFrom 0 headers).map Prod.fst := by
      rw [map_fst_writes]
      exact List.mem_map.mpr ⟨header, hheader, rfl⟩
    obtain ⟨entry, hentry, heq⟩ := List.mem_map.mp (((lastWrites_written headers).keys _).2 hmem)
    refine ⟨⟨entry.2.2, entry.2.1⟩, preparedHeaders_written headers ▸ List.mem_map_of_mem hentry, ?_⟩
    rw [eqIgnoreAsciiCase_iff, ← written_key hentry, heq]
  · -- two entries of one name would have one first occurrence
    refine (written_ordered headers).imp fun {a b} hlt => ?_
    by_contra hsame
    rw [Bool.not_eq_false, eqIgnoreAsciiCase_iff] at hsame
    rw [← firstWrite_writes, ← firstWrite_writes, hsame] at hlt
    exact Nat.lt_irrefl _ hlt

/-- Valid headers give one entry for each name, in the order of the first ones and from the last ones; otherwise the first header
that is not valid is reported, by its name if that is not valid, with the result of the headers before it. -/
theorem prepare_headers_last_wins (headers : List HeaderInput) :
    if ∀ header ∈ headers, header.Valid then ∃ prepared, prepareHeaders headers = .ok prepared ∧ LastWins headers prepared
    else ∃ before header after prepared, headers = before ++ header :: after ∧ (∀ valid ∈ before, valid.Valid) ∧
      ¬ header.Valid ∧ prepareHeaders before = .ok prepared ∧
      prepareHeaders headers = .error ⟨prepared, before.length, if validateName header.name = .ok () then .value else .name⟩ := by
  split
  · rename_i hvalid
    exact ⟨_, prepareHeaders_valid hvalid, lastWins_written headers⟩
  · rename_i hinvalid
    obtain ⟨before, header, after, rfl, hbefore, hheader⟩ := exists_first_invalid hinvalid
    exact ⟨before, header, after, _, rfl, hbefore, hheader, prepareHeaders_valid hbefore, prepareHeaders_invalid hbefore hheader⟩

/-- Two names of bytes that are no texts are decoded to one, which is neither of them. -/
theorem prepare_headers_merges_bytes :
    eqIgnoreAsciiCase [0xFF] [0xFE] = false ∧
      prepareHeaders [⟨.bytes [0xFF], .bytes []⟩, ⟨.bytes [0xFE], .bytes []⟩] = .ok [⟨1, [0xEF, 0xBF, 0xBD]⟩] := by
  decide

end RequestsNative.Request
