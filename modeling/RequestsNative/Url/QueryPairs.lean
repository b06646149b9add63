import RequestsNative.Lib.Percent
import RequestsNative.Url.Pieces

/-!
# Query pairs

`encode_query_pairs` writes names and values as a form: everything but the unreserved characters is quoted, a space as a plus
sign, so that the separators stand between the components and nowhere in them. A form parser gets the pairs back.
-/

namespace RequestsNative.Url

open RequestsNative.Lib

def quoteFormComponent (value : Bytes) : Bytes := quoteBytes value [] true

/-- The body of the loop of `encode_query_pairs`. -/
def pushQueryPair (encoded : Bytes) (item : (Bytes × Bytes) × Nat) : Bytes :=
  (if item.2 ≠ 0 then encoded ++ [38] else encoded) ++ quoteFormComponent item.1.1 ++ 61 :: quoteFormComponent item.1.2

def encodeQueryPairs (pairs : List (Bytes × Bytes)) : Bytes := pairs.zipIdx.foldl pushQueryPair []

example : encodeQueryPairs [(text "a b", text "c&d=e"), (text "f+", [])] = text "a+b=c%26d%3De&f%2B=" := by decide

/-! ### What an escape spells -/

theorem hexValue_eq_digit (b : UInt8) : hexValue b = Percent.digit b :=
  (Percent.digit_eq b).symm

/-- The escape of a byte spells it. -/
theorem escape_spells (b : UInt8) :
    Percent.Spells [37, hexDigit (b >>> 4), hexDigit (b &&& 0x0F)] [⟨b, true⟩] := by
  obtain ⟨hhigh, hlow⟩ := nibbles_lt b
  have hfirst := (hexDigit_plain hhigh).2.1
  have hsecond := (hexDigit_plain hlow).2.1
  rw [hexValue_eq_digit] at hfirst hsecond
  have hspells := Percent.Spells.escape hfirst hsecond .nil
  rwa [nibbles_eq] at hspells

/-! ### Components -/

theorem quoteByte_form (b : UInt8) :
    (isUnreserved b = true ∧ quoteByte [] true b = [b]) ∨ (b = 32 ∧ quoteByte [] true b = [43]) ∨
      quoteByte [] true b = [37, hexDigit (b >>> 4), hexDigit (b &&& 0x0F)] := by
  by_cases hplain : isUnreserved b = true
  · exact .inl ⟨hplain, by rw [quoteByte, hplain, Bool.true_or, if_pos rfl]⟩
  by_cases hspace : b = 32
  · subst hspace
    exact .inr (.inl ⟨rfl, rfl⟩)
  · refine .inr (.inr ?_)
    simp [quoteByte, hplain, hspace]

theorem quoteFormComponent_plain {value : Bytes} {b : UInt8} (h : b ∈ quoteFormComponent value) :
    isUnreserved b = true ∨ b = 43 ∨ b = 37 := by
  obtain ⟨c, -, hc⟩ := List.mem_flatMap.mp h
  obtain ⟨hhigh, hlow⟩ := nibbles_lt c
  obtain ⟨hplain, heq⟩ | ⟨-, heq⟩ | heq := quoteByte_form c
  · rw [heq, List.mem_singleton] at hc
    exact .inl (hc ▸ hplain)
  · rw [heq, List.mem_singleton] at hc
    exact .inr (.inl hc)
  · rw [heq] at hc
    simp only [List.mem_cons, List.not_mem_nil, or_false] at hc
    obtain rfl | rfl | rfl := hc
    · exact .inr (.inr rfl)
    · exact .inl (alphanumeric_plain (hexDigit_plain hhigh).1).2.1
    · exact .inl (alphanumeric_plain (hexDigit_plain hlow).1).2.1

theorem not_mem_quoteFormComponent {value : Bytes} {b : UInt8} (hreserved : isUnreserved b = false) (hplus : b ≠ 43)
    (hpercent : b ≠ 37) : b ∉ quoteFormComponent value := by
  intro hmem
  obtain hplain | heq | heq := quoteFormComponent_plain hmem
  · rw [hreserved] at hplain
    cases hplain
  · exact hplus heq
  · exact hpercent heq

theorem unreserved_plusToSpace {b : UInt8} : isUnreserved b = true → Percent.plusToSpace b = b := by
  grind [isUnreserved, isAsciiAlphanumeric, isAsciiDigit, Percent.plusToSpace]

theorem decodeForm_quoteFormComponent (value : Bytes) : Percent.decodeForm (quoteFormComponent value) = value := by
  have hencodes : Percent.Encodes ((quoteFormComponent value).map Percent.plusToSpace) value := by
    rw [quoteFormComponent, quoteBytes, List.map_flatMap]
    refine Percent.Encodes.flatMap fun b _ => ?_
    obtain ⟨hplain, heq⟩ | ⟨rfl, heq⟩ | heq := quoteByte_form b
    · rw [heq, List.map_singleton, unreserved_plusToSpace hplain]
      exact ⟨_, .plain (unreserved_plain hplain).1 .nil, rfl⟩
    · rw [heq]
      exact ⟨_, .plain (by decide) .nil, rfl⟩
    · obtain ⟨hhigh, hlow⟩ := nibbles_lt b
      have hfirst := unreserved_plusToSpace (alphanumeric_plain (hexDigit_plain hhigh).1).2.1
      have hsecond := unreserved_plusToSpace (alphanumeric_plain (hexDigit_plain hlow).1).2.1
      rw [heq, List.map_cons, List.map_cons, List.map_singleton, hfirst, hsecond]
      exact ⟨_, escape_spells b, rfl⟩
  exact hencodes.decode_eq

/-! ### Pairs -/

theorem unreserved_form {b : UInt8} (h : isUnreserved b = true) : isAsciiAlphanumeric b = true ∨ b ∈ text "-._~+%&=" := by
  have htext : text "-._~+%&=" = [45, 46, 95, 126, 43, 37, 38, 61] := by decide
  rw [htext]
  simp only [isUnreserved, Bool.or_eq_true, beq_iff_eq] at h
  simp only [List.mem_cons, List.not_mem_nil, or_false]
  tauto

/-- One pair. -/
def quotePair (pair : Bytes × Bytes) : Bytes := quoteFormComponent pair.1 ++ 61 :: quoteFormComponent pair.2

theorem foldl_pushQueryPair (pairs : List (Bytes × Bytes)) (encoded : Bytes) (n : Nat) :
    (pairs.zipIdx (n + 1)).foldl pushQueryPair encoded = encoded ++ (pairs.map quotePair).flatMap (38 :: ·) := by
  induction pairs generalizing encoded n with
  | nil => simp
  | cons pair pairs ih =>
      rw [List.zipIdx_cons, List.foldl_cons, ih, pushQueryPair, if_pos (Nat.succ_ne_zero n)]
      simp [quotePair]

theorem intercalate_cons (part : Bytes) (parts : List Bytes) :
    [38].intercalate (part :: parts) = part ++ parts.flatMap (38 :: ·) := by
  induction parts generalizing part with
  | nil => simp
  | cons next parts ih =>
      rw [List.intercalate_cons_cons, ih, List.flatMap_cons, List.append_assoc, List.singleton_append, List.cons_append]

theorem encodeQueryPairs_eq (pairs : List (Bytes × Bytes)) : encodeQueryPairs pairs = [38].intercalate (pairs.map quotePair) := by
  cases pairs with
  | nil => rfl
  | cons pair pairs =>
      rw [encodeQueryPairs, List.zipIdx_cons, List.foldl_cons, foldl_pushQueryPair, List.map_cons, intercalate_cons]
      rfl

theorem mem_encodeQueryPairs {pairs : List (Bytes × Bytes)} {b : UInt8} (h : b ∈ encodeQueryPairs pairs) :
    b = 38 ∨ ∃ pair ∈ pairs, b ∈ quotePair pair := by
  rw [encodeQueryPairs_eq] at h
  cases pairs with
  | nil => cases h
  | cons pair pairs =>
      rw [List.map_cons, intercalate_cons, List.mem_append, List.mem_flatMap] at h
      obtain hfirst | ⟨part, hpart, hmem⟩ := h
      · exact .inr ⟨pair, List.mem_cons_self, hfirst⟩
      · obtain ⟨other, hother, rfl⟩ := List.mem_map.mp hpart
        obtain heq | hmem := List.mem_cons.mp hmem
        · exact .inl heq
        · exact .inr ⟨other, List.mem_cons_of_mem _ hother, hmem⟩

theorem ampersand_not_mem_quotePair (pair : Bytes × Bytes) : (38 : UInt8) ∉ quotePair pair := by
  have hcomponent : ∀ value : Bytes, (38 : UInt8) ∉ quoteFormComponent value :=
    fun value => not_mem_quoteFormComponent rfl (by decide) (by decide)
  simp [quotePair, hcomponent]

theorem parsePair_quotePair (pair : Bytes × Bytes) : Percent.parsePair (quotePair pair) = pair := by
  have hname : (61 : UInt8) ∉ quoteFormComponent pair.1 := not_mem_quoteFormComponent rfl (by decide) (by decide)
  rw [quotePair, Percent.parsePair_append hname, decodeForm_quoteFormComponent, decodeForm_quoteFormComponent]

theorem encodeQueryPairs_roundTrip (pairs : List (Bytes × Bytes)) :
    (pairs ≠ [] → Percent.parseForm (encodeQueryPairs pairs) = pairs) ∧
      ∀ b ∈ encodeQueryPairs pairs, isAsciiAlphanumeric b = true ∨ b ∈ text "-._~+%&=" := by
  constructor
  · intro hne
    rw [encodeQueryPairs_eq, Percent.parseForm, List.splitOn_intercalate 38 _ (by simpa using hne), List.map_map]
    · rw [show Percent.parsePair ∘ quotePair = id from funext parsePair_quotePair, List.map_id]
    · intro part hpart
      obtain ⟨pair, -, rfl⟩ := List.mem_map.mp hpart
      exact ampersand_not_mem_quotePair pair
  · intro b hb
    have hcomponent : ∀ {value : Bytes}, b ∈ quoteFormComponent value → isAsciiAlphanumeric b = true ∨ b ∈ text "-._~+%&=" := by
      intro value hmem
      obtain hplain | rfl | rfl := quoteFormComponent_plain hmem
      · exact unreserved_form hplain
      · exact .inr (by decide)
      · exact .inr (by decide)
    obtain rfl | ⟨pair, -, hmem⟩ := mem_encodeQueryPairs hb
    · exact .inr (by decide)
    rw [quotePair, List.mem_append, List.mem_cons] at hmem
    obtain hname | rfl | hvalue := hmem
    · exact hcomponent hname
    · exact .inr (by decide)
    · exact hcomponent hvalue

theorem encodeQueryPairs_roundTrip_two :
    Percent.parseForm (encodeQueryPairs [(text "a b", text "c&d=e"), ([255], [])]) = [(text "a b", text "c&d=e"), ([255], [])] :=
  (encodeQueryPairs_roundTrip _).1 (List.cons_ne_nil _ _)

end RequestsNative.Url
