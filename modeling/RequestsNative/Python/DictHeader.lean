import Mathlib.Data.List.DropRight
import RequestsNative.Lib.IndexMap
import RequestsNative.Lib.QuotedList
import RequestsNative.Url.Prepare

/-!
# The parameters of a challenge

`parse_dict_header` of `utils.py`, over `urllib.request.parse_http_list`, and the expression of `handle_401` that takes the
scheme from the front of a challenge. `parse_http_list` takes the escapes out of a quoted string
already, and `unquote_header_value` takes a second pair of quotes off what is left of it: a parameter is read back as it was
meant exactly if its value does not begin and end with a quote itself.
-/

namespace RequestsNative.Python

open RequestsNative.Lib
open RequestsNative.Url (isPythonWhitespace)

/-! ### `utils.py` -/

/-- `str.isspace`. -/
def isSpace (c : Char) : Bool := isPythonWhitespace c.toNat

/-- `str.strip`. -/
def strip (value : List Char) : List Char := (value.dropWhile isSpace).rdropWhile isSpace

def headerSyntax : ListSyntax Char where
  comma := ','
  quote := '"'
  escape := '\\'
  quote_ne_comma := by decide
  quote_ne_escape := by decide

/-- `urllib.request.parse_http_list`. -/
def parseHttpList (value : List Char) : List (List Char) := (headerSyntax.items value).map strip

/-- `str.replace`, of two characters by one. -/
def replacePair (first second new : Char) : List Char → List Char
  | [] => []
  | [c] => [c]
  | c :: d :: rest =>
      if c = first ∧ d = second then new :: replacePair first second new rest
      else c :: replacePair first second new (d :: rest)

/-- `value[:1] == value[-1:] == '"'`. -/
def IsQuoted (value : List Char) : Prop := value.head? = some '"' ∧ value.getLast? = some '"'

instance (value : List Char) : Decidable (IsQuoted value) := inferInstanceAs (Decidable (_ ∧ _))

/-- `value[1:-1]`. -/
def inner (value : List Char) : List Char := (value.drop 1).dropLast

def unquoteHeaderValue (value : List Char) (isFilename : Bool) : List Char :=
  if IsQuoted value then
    let value := inner value
    if !isFilename || value.take 2 != ['\\', '\\'] then replacePair '\\' '"' '"' (replacePair '\\' '\\' '\\' value) else value
  else value

/-- A value without its quotes. -/
def unquoteItem (value : List Char) : List Char := if IsQuoted value then unquoteHeaderValue (inner value) false else value

/-- An item of `parse_dict_header`, with `item.split("=", 1)`. -/
def dictItem (item : List Char) : List Char × Option (List Char) :=
  if '=' ∈ item then
    let name := item.takeWhile (· ≠ '=')
    (name, some (unquoteItem (item.drop (name.length + 1))))
  else (item, none)

def parseDictHeader (value : List Char) : IndexMap (List Char) (Option (List Char)) :=
  IndexMap.empty.insertAll ((parseHttpList value).map dictItem)

/-! ### `auth.py` -/

/-- A character as `re.IGNORECASE` compares it with the letters of `digest`. -/
def foldLetter (c : Char) : Char :=
  if c = 'İ' ∨ c = 'ı' then 'i' else if c = 'ſ' then 's' else c.toLower

/-- `re.compile(r"digest ", flags=re.IGNORECASE)` matches at the front. -/
def leadsDigest (value : List Char) : Bool := (value.take 7).map foldLetter == "digest ".toList

/-- `pat.sub("", s_auth, count=1)`. -/
def subDigest : List Char → List Char
  | [] => []
  | c :: rest => if leadsDigest (c :: rest) then rest.drop 6 else c :: subDigest rest

/-- `parse_dict_header(pat.sub("", s_auth, count=1))`. -/
def parseChallenge (sAuth : List Char) : IndexMap (List Char) (Option (List Char)) := parseDictHeader (subDigest sAuth)

/-! ### Parameters as they are written -/

inductive ParamValue
  | token (text : List Char)
  | quoted (text : List Char)
  deriving DecidableEq, Repr

def ParamValue.text : ParamValue → List Char
  | .token text | .quoted text => text

/-- A parameter with the white space around it. -/
structure Param where
  before : List Char := []
  name : List Char
  value : Option ParamValue := none
  after : List Char := []
  deriving DecidableEq, Repr

namespace Param

/-- The pieces that the parameter is written with. -/
def pieces (param : Param) : List (ListSyntax.Piece Char) :=
  match param.value with
  | none => [.bare (param.before ++ param.name ++ param.after)]
  | some (.token text) => [.bare (param.before ++ (param.name ++ '=' :: text) ++ param.after)]
  | some (.quoted text) => [.bare (param.before ++ param.name ++ ['=']), .quoted text, .bare param.after]

/-- What the parameter says. -/
def entry (param : Param) : List Char × Option (List Char) := (param.name, param.value.map ParamValue.text)

end Param

/-- A character of a token. -/
def isToken (c : Char) : Bool := c != ',' && c != '"' && c != '=' && !isSpace c

def ParamValue.Plain : ParamValue → Prop
  | .token text => ∀ c ∈ text, isToken c = true
  | .quoted _ => True

structure Param.Plain (param : Param) : Prop where
  before : ∀ c ∈ param.before, isSpace c = true
  name : ∀ c ∈ param.name, isToken c = true
  named : param.name ≠ []
  value : ∀ value, param.value = some value → value.Plain
  after : ∀ c ∈ param.after, isSpace c = true

instance (value : ParamValue) : Decidable value.Plain :=
  match value with
  | .token text => decidable_of_iff (text.all isToken = true) List.all_eq_true
  | .quoted _ => isTrue trivial

theorem Param.plain_iff (param : Param) :
    (param.before.all isSpace = true ∧ param.name.all isToken = true ∧ param.name ≠ [] ∧
      (∀ value ∈ param.value, value.Plain) ∧ param.after.all isSpace = true) ↔ param.Plain := by
  simp only [List.all_eq_true]
  exact ⟨fun h => ⟨h.1, h.2.1, h.2.2.1, h.2.2.2.1, h.2.2.2.2⟩, fun h => ⟨h.before, h.name, h.named, h.value, h.after⟩⟩

instance (param : Param) : Decidable param.Plain := decidable_of_iff _ param.plain_iff

/-- Parameters with commas between them. -/
def dumpParams (params : List Param) : List Char :=
  List.intercalate [','] (params.map fun param => param.pieces.flatMap headerSyntax.written)

/-- The item that a parameter is read as. -/
def Param.item (param : Param) : List Char :=
  match param.value with
  | none => param.name
  | some (.token text) => param.name ++ '=' :: text
  | some (.quoted text) => param.name ++ '=' :: '"' :: (text ++ ['"'])

/-! ### Reading parameters -/

theorem strip_padded {before body after : List Char} (hbefore : ∀ c ∈ before, isSpace c = true)
    (hafter : ∀ c ∈ after, isSpace c = true) (hhead : ∀ c ∈ body.head?, isSpace c = false)
    (hlast : ∀ c ∈ body.getLast?, isSpace c = false) (hne : body ≠ []) : strip (before ++ body ++ after) = body := by
  have hfront : (before ++ body ++ after).dropWhile isSpace = body ++ after := by
    rw [List.append_assoc, List.dropWhile_append_of_pos hbefore]
    cases body with
    | nil => exact absurd rfl hne
    | cons c body => exact List.dropWhile_cons_of_neg (by rw [hhead c rfl]; decide)
  have hback : body.reverse.dropWhile isSpace = body.reverse := by
    cases hreverse : body.reverse with
    | nil => rfl
    | cons c rest =>
        refine List.dropWhile_cons_of_neg ?_
        rw [hlast c (by rw [← List.head?_reverse, hreverse]; rfl)]
        decide
  rw [strip, hfront, List.rdropWhile, List.reverse_append,
    List.dropWhile_append_of_pos (fun c hc => hafter c (List.mem_reverse.mp hc)), hback, List.reverse_reverse]

theorem isToken_plain {c : Char} (h : isToken c = true) : c ≠ ',' ∧ c ≠ '"' ∧ c ≠ '=' ∧ isSpace c = false := by
  simpa [isToken, and_assoc] using h

theorem isSpace_plain {c : Char} (h : isSpace c = true) : c ≠ ',' ∧ c ≠ '"' := by
  have hcomma : isSpace ',' = false := by decide
  have hquote : isSpace '"' = false := by decide
  refine ⟨?_, ?_⟩
  · rintro rfl
    rw [hcomma] at h
    cases h
  · rintro rfl
    rw [hquote] at h
    cases h

theorem plain_bare {text : List Char} (h : ∀ c ∈ text, c ≠ ',' ∧ c ≠ '"') : headerSyntax.Plain (.bare text) :=
  ⟨fun hmem => (h _ hmem).1 rfl, fun hmem => (h _ hmem).2 rfl⟩

namespace Param.Plain

variable {param : Param}

theorem bare_name (h : param.Plain) : ∀ c ∈ param.before ++ param.name, c ≠ ',' ∧ c ≠ '"' := by
  intro c hc
  obtain hbefore | hname := List.mem_append.mp hc
  · exact isSpace_plain (h.before c hbefore)
  · obtain ⟨hcomma, hquote, -, -⟩ := isToken_plain (h.name c hname)
    exact ⟨hcomma, hquote⟩

theorem pieces (h : param.Plain) : ∀ piece ∈ param.pieces, headerSyntax.Plain piece := by
  have hname := h.bare_name
  have hafter : ∀ c ∈ param.after, c ≠ ',' ∧ c ≠ '"' := fun c hc => isSpace_plain (h.after c hc)
  unfold Param.pieces
  cases hvalue : param.value with
  | none =>
      refine List.forall_mem_singleton.mpr (plain_bare fun c hc => ?_)
      exact (List.mem_append.mp hc).elim (hname c) (hafter c)
  | some value =>
      cases value with
      | token text =>
          have htext : ∀ c ∈ text, isToken c = true := h.value _ hvalue
          refine List.forall_mem_singleton.mpr (plain_bare fun c hc => ?_)
          simp only [List.append_assoc, List.cons_append, List.mem_append, List.mem_cons] at hc
          obtain hbefore | hin | rfl | hin | hin := hc
          · exact hname c (List.mem_append_left _ hbefore)
          · exact hname c (List.mem_append_right _ hin)
          · decide
          · obtain ⟨hcomma, hquote, -, -⟩ := isToken_plain (htext c hin)
            exact ⟨hcomma, hquote⟩
          · exact hafter c hin
      | quoted text =>
          refine List.forall_mem_cons.mpr ⟨plain_bare fun c hc => ?_, List.forall_mem_cons.mpr ⟨trivial, ?_⟩⟩
          · obtain hin | hin := List.mem_append.mp hc
            · exact hname c hin
            · rw [List.mem_singleton.mp hin]
              decide
          · exact List.forall_mem_singleton.mpr (plain_bare hafter)

theorem shown (param : Param) :
    param.pieces.flatMap headerSyntax.shown = param.before ++ param.item ++ param.after := by
  unfold Param.pieces Param.item
  cases param.value with
  | none => simp [ListSyntax.shown]
  | some value => cases value <;> simp [ListSyntax.shown, headerSyntax]

theorem item_ne_nil (h : param.Plain) : param.item ≠ [] := by
  unfold Param.item
  cases param.value with
  | none => exact h.named
  | some value => cases value <;> simp

theorem item_head (h : param.Plain) : ∀ c ∈ param.item.head?, isSpace c = false := by
  have hhead : ∀ rest : List Char, ∀ c ∈ (param.name ++ rest).head?, isSpace c = false := by
    intro rest c hc
    rw [List.head?_append_of_ne_nil _ h.named] at hc
    exact (isToken_plain (h.name c (List.mem_of_mem_head? hc))).2.2.2
  unfold Param.item
  cases param.value with
  | none =>
      have hnil := hhead []
      rwa [List.append_nil] at hnil
  | some value => cases value <;> exact hhead _

theorem item_last (h : param.Plain) : ∀ c ∈ param.item.getLast?, isSpace c = false := by
  unfold Param.item
  cases hvalue : param.value with
  | none => exact fun c hc => (isToken_plain (h.name c (List.mem_of_getLast? hc))).2.2.2
  | some value =>
      cases value with
      | token text =>
          have htext : ∀ c ∈ text, isToken c = true := h.value _ hvalue
          intro c hc
          rw [List.getLast?_append_of_ne_nil _ (List.cons_ne_nil _ _)] at hc
          obtain rfl | hin := List.mem_cons.mp (List.mem_of_getLast? hc)
          · decide
          · exact (isToken_plain (htext c hin)).2.2.2
      | quoted text =>
          intro c hc
          have hends : (param.name ++ '=' :: '"' :: (text ++ ['"'])).getLast? = some '"' := by
            rw [← List.cons_append, ← List.cons_append, ← List.append_assoc, List.getLast?_concat]
          rw [hends] at hc
          obtain rfl := Option.some.inj hc
          decide

end Param.Plain

theorem parseHttpList_dumpParams {params : List Param} (h : ∀ param ∈ params, param.Plain) :
    parseHttpList (dumpParams params) = params.map Param.item := by
  have hpieces : ∀ item ∈ params.map Param.pieces, ∀ piece ∈ item, headerSyntax.Plain piece := by
    intro item hitem
    obtain ⟨param, hparam, rfl⟩ := List.mem_map.mp hitem
    exact (h param hparam).pieces
  have hlast : ∀ item ∈ (params.map Param.pieces).getLast?, item.flatMap headerSyntax.shown ≠ [] := by
    intro item hitem
    obtain ⟨param, hparam, rfl⟩ := List.mem_map.mp (List.mem_of_getLast? hitem)
    rw [Param.Plain.shown]
    simp [(h param hparam).item_ne_nil]
  have hitems := headerSyntax.items_intercalate hpieces hlast
  rw [List.map_map, List.map_map] at hitems
  rw [parseHttpList, dumpParams]
  change List.map strip (headerSyntax.items (List.intercalate [headerSyntax.comma] _)) = _
  rw [show (fun param : Param => param.pieces.flatMap headerSyntax.written) =
    List.flatMap headerSyntax.written ∘ Param.pieces from rfl, hitems, List.map_map]
  refine List.map_congr_left fun param hparam => ?_
  change strip (param.pieces.flatMap headerSyntax.shown) = _
  have hplain := h param hparam
  rw [Param.Plain.shown]
  exact strip_padded hplain.before hplain.after hplain.item_head hplain.item_last hplain.item_ne_nil

/-! ### Quotes inside a value -/

theorem replacePair_length (first second new : Char) (value : List Char) :
    (replacePair first second new value).length ≤ value.length := by
  induction value using replacePair.induct first second with
  | case1 => rw [replacePair]
  | case2 c => rw [replacePair]
  | case3 c d rest hpair ih =>
      rw [replacePair, if_pos hpair, List.length_cons, List.length_cons, List.length_cons]
      omega
  | case4 c d rest hpair ih =>
      rw [replacePair, if_neg hpair, List.length_cons, List.length_cons]
      omega

theorem inner_length_lt {value : List Char} (h : IsQuoted value) : (inner value).length < value.length := by
  have hne : value ≠ [] := by
    rintro rfl
    cases h.1
  have hpos := List.length_pos_iff.mpr hne
  rw [inner, List.length_dropLast, List.length_drop]
  omega

theorem unquoteHeaderValue_eq_iff (value : List Char) : unquoteHeaderValue value false = value ↔ ¬IsQuoted value := by
  constructor
  · intro heq hquoted
    have hle := (replacePair_length '\\' '"' '"' (replacePair '\\' '\\' '\\' (inner value))).trans
      (replacePair_length '\\' '\\' '\\' (inner value))
    have hlt := inner_length_lt hquoted
    have hvalue : replacePair '\\' '"' '"' (replacePair '\\' '\\' '\\' (inner value)) = value := by
      rwa [unquoteHeaderValue, if_pos hquoted] at heq
    rw [hvalue] at hle
    omega
  · exact fun hquoted => if_neg hquoted

theorem unquoteItem_quoted (text : List Char) : unquoteItem ('"' :: (text ++ ['"'])) = unquoteHeaderValue text false := by
  have hquoted : IsQuoted ('"' :: (text ++ ['"'])) := by
    refine ⟨rfl, ?_⟩
    rw [← List.cons_append, List.getLast?_concat]
  have hinner : inner ('"' :: (text ++ ['"'])) = text := by
    rw [inner, List.drop_one, List.tail_cons, List.dropLast_concat]
  rw [unquoteItem, if_pos hquoted, hinner]

theorem unquoteItem_token {text : List Char} (h : ∀ c ∈ text, isToken c = true) : unquoteItem text = text := by
  refine if_neg fun hquoted => ?_
  exact (isToken_plain (h '"' (List.mem_of_mem_head? hquoted.1))).2.1 rfl

/-- A value as the parser gives it. -/
def ParamValue.read : ParamValue → List Char
  | .token text => text
  | .quoted text => unquoteHeaderValue text false

theorem ParamValue.read_eq_text_iff (value : ParamValue) :
    value.read = value.text ↔ ∀ text, value = .quoted text → ¬IsQuoted text := by
  cases value with
  | token text => exact ⟨(fun _ _ heq => by cases heq), fun _ => rfl⟩
  | quoted text =>
      refine (unquoteHeaderValue_eq_iff text).trans ⟨fun h other heq => ?_, fun h => h text rfl⟩
      cases heq
      exact h

theorem dictItem_valued {name : List Char} (h : ∀ c ∈ name, isToken c = true) (value : List Char) :
    dictItem (name ++ '=' :: value) = (name, some (unquoteItem value)) := by
  have hname : (name ++ '=' :: value).takeWhile (· ≠ '=') = name := by
    rw [List.takeWhile_append_of_pos, List.takeWhile_cons_of_neg, List.append_nil]
    · simp
    · exact fun c hc => by simpa using (isToken_plain (h c hc)).2.2.1
  have hvalue : (name ++ '=' :: value).drop (name.length + 1) = value := by
    rw [List.drop_append, List.drop_eq_nil_of_le (Nat.le_succ _), Nat.add_sub_cancel_left, List.nil_append, List.drop_one,
      List.tail_cons]
  have hmem : '=' ∈ name ++ '=' :: value := List.mem_append_right _ List.mem_cons_self
  rw [dictItem, if_pos hmem]
  simp only [hname, hvalue]

theorem dictItem_item {param : Param} (h : param.Plain) : dictItem param.item = (param.name, param.value.map ParamValue.read) := by
  unfold Param.item
  cases hvalue : param.value with
  | none =>
      have hnone : '=' ∉ param.name := fun hmem => (isToken_plain (h.name _ hmem)).2.2.1 rfl
      exact if_neg hnone
  | some value =>
      cases value with
      | token text =>
          have htext : ∀ c ∈ text, isToken c = true := h.value _ hvalue
          simp only [dictItem_valued h.name, unquoteItem_token htext]
          rfl
      | quoted text =>
          simp only [dictItem_valued h.name, unquoteItem_quoted]
          rfl

theorem parseDictHeader_dumpParams {params : List Param} (h : ∀ param ∈ params, param.Plain)
    (hnodup : (params.map Param.name).Nodup) :
    (parseDictHeader (dumpParams params)).entries = params.map fun param => (param.name, param.value.map ParamValue.read) := by
  have hitems : (params.map Param.item).map dictItem = params.map fun param => (param.name, param.value.map ParamValue.read) := by
    rw [List.map_map]
    exact List.map_congr_left fun param hparam => dictItem_item (h param hparam)
  rw [parseDictHeader, parseHttpList_dumpParams h, hitems]
  refine IndexMap.insertAll_self ?_
  rwa [List.map_map]

theorem subDigest_scheme {scheme : List Char} (hlength : scheme.length = 7) (hleads : leadsDigest scheme = true)
    (rest : List Char) : subDigest (scheme ++ rest) = rest := by
  cases scheme with
  | nil => cases hlength
  | cons c scheme =>
      have hscheme : scheme.length = 6 := Nat.succ.inj hlength
      have htake : ((c :: scheme) ++ rest).take 7 = (c :: scheme).take 7 := by
        rw [List.take_append_of_le_length (by rw [hlength])]
      have hfull : leadsDigest (c :: (scheme ++ rest)) = true := by
        rw [← List.cons_append, leadsDigest, htake]
        exact hleads
      rw [List.cons_append, subDigest, if_pos hfull, ← hscheme, List.drop_left]

/-- Whatever stands in the quoted values, a challenge is read back as it was meant exactly if no value begins and ends with a
quote itself. -/
theorem parseChallenge_eq_iff {scheme : List Char} (hlength : scheme.length = 7) (hleads : leadsDigest scheme = true)
    {params : List Param} (hplain : ∀ param ∈ params, param.Plain) (hnodup : (params.map Param.name).Nodup) :
    (parseChallenge (scheme ++ dumpParams params)).entries = params.map Param.entry ↔
      ∀ param ∈ params, ∀ text, param.value = some (.quoted text) → ¬IsQuoted text := by
  rw [parseChallenge, subDigest_scheme hlength hleads, parseDictHeader_dumpParams hplain hnodup, List.map_inj_left]
  refine forall₂_congr fun param _ => ?_
  unfold Param.entry
  cases param.value with
  | none => exact ⟨(fun _ _ heq => by cases heq), fun _ => rfl⟩
  | some value =>
      have hread := value.read_eq_text_iff
      simpa only [Option.map_some, Prod.mk.injEq, true_and, Option.some.injEq] using hread

/-- Parameters of some site: a quote, an escape and a comma in the realm. -/
def siteParams : List Param :=
  [{ name := ['r', 'e', 'a', 'l', 'm'], value := some (.quoted ['a', '"', 'b', '\\', ',', 'c']) },
    { before := [' '], name := ['n', 'o', 'n', 'c', 'e'], value := some (.token ['d', 'c']), after := [' '] },
    { before := [' '], name := ['s', 't', 'a', 'l', 'e'] }]

theorem siteParams_plain : ∀ param ∈ siteParams, param.Plain := by
  refine List.forall_mem_cons.mpr ⟨by decide, List.forall_mem_cons.mpr ⟨by decide, List.forall_mem_singleton.mpr (by decide)⟩⟩

theorem site_parseChallenge : (∀ param ∈ siteParams, param.Plain) ∧
    (parseChallenge (['D', 'I', 'G', 'E', 'S', 'T', ' '] ++ dumpParams siteParams)).entries = siteParams.map Param.entry := by
  refine ⟨siteParams_plain, (parseChallenge_eq_iff rfl (by decide) siteParams_plain (by decide)).mpr ?_⟩
  intro param hparam text hvalue hquoted
  simp only [siteParams, List.mem_cons, List.not_mem_nil, or_false] at hparam
  obtain rfl | rfl | rfl := hparam
  · cases hvalue
    exact absurd hquoted (by decide)
  · cases hvalue
  · cases hvalue

end RequestsNative.Python
