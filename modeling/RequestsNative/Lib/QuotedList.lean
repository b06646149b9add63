import Mathlib.Data.List.Basic

/-!
# Lists of items that may be quoted

The items of a list are parted by commas, which count for nothing between quotes. Between quotes an escape stands before a
character that is taken as it is; reading drops the escapes and keeps the quotes. A text in which the quotes and the escapes
are escaped is therefore read as it was, whatever it is.
-/

namespace RequestsNative.Lib

/-- The characters that part and quote the items. -/
structure ListSyntax (α : Type*) where
  comma : α
  quote : α
  escape : α
  quote_ne_comma : quote ≠ comma
  quote_ne_escape : quote ≠ escape

namespace ListSyntax

/-- Where the reader is. -/
inductive ScanMode
  | plain | quoted | escaped
  deriving DecidableEq, Repr

variable {α : Type*} [DecidableEq α] (syn : ListSyntax α)

/-- The items behind what has been read of the first; an empty last item is none. -/
def itemsFrom (part : List α) : ScanMode → List α → List (List α)
  | _, [] => if part = [] then [] else [part]
  | .escaped, c :: rest => itemsFrom (part ++ [c]) .quoted rest
  | .quoted, c :: rest =>
      if c = syn.escape then itemsFrom part .escaped rest
      else itemsFrom (part ++ [c]) (if c = syn.quote then .plain else .quoted) rest
  | .plain, c :: rest =>
      if c = syn.comma then part :: itemsFrom [] .plain rest
      else itemsFrom (part ++ [c]) (if c = syn.quote then .quoted else .plain) rest

def items (value : List α) : List (List α) := syn.itemsFrom [] .plain value

/-- A part of an item: as it stands, or between quotes. -/
inductive Piece (α : Type*)
  | bare (text : List α)
  | quoted (text : List α)

def escaped (text : List α) : List α :=
  text.flatMap fun c => if c = syn.quote ∨ c = syn.escape then [syn.escape, c] else [c]

/-- How a piece is written. -/
def written : Piece α → List α
  | .bare text => text
  | .quoted text => syn.quote :: (syn.escaped text ++ [syn.quote])

/-- How a piece is read. -/
def shown : Piece α → List α
  | .bare text => text
  | .quoted text => syn.quote :: (text ++ [syn.quote])

/-- A piece that is not quoted holds nothing that parts or quotes. -/
def Plain : Piece α → Prop
  | .bare text => syn.comma ∉ text ∧ syn.quote ∉ text
  | .quoted _ => True

theorem itemsFrom_bare {text : List α} (hcomma : syn.comma ∉ text) (hquote : syn.quote ∉ text) (part rest : List α) :
    syn.itemsFrom part .plain (text ++ rest) = syn.itemsFrom (part ++ text) .plain rest := by
  induction text generalizing part with
  | nil => rw [List.nil_append, List.append_nil]
  | cons c text ih =>
      rw [List.mem_cons, not_or] at hcomma hquote
      rw [List.cons_append, itemsFrom, if_neg (Ne.symm hcomma.1), if_neg (Ne.symm hquote.1), ih hcomma.2 hquote.2,
        List.append_assoc, List.singleton_append]

theorem itemsFrom_escaped (text part rest : List α) :
    syn.itemsFrom part .quoted (syn.escaped text ++ rest) = syn.itemsFrom (part ++ text) .quoted rest := by
  induction text generalizing part with
  | nil => rw [escaped, List.flatMap_nil, List.nil_append, List.append_nil]
  | cons c text ih =>
      have hcons : syn.escaped (c :: text) =
          (if c = syn.quote ∨ c = syn.escape then [syn.escape, c] else [c]) ++ syn.escaped text := rfl
      rw [hcons, List.append_assoc]
      by_cases hspecial : c = syn.quote ∨ c = syn.escape
      · rw [if_pos hspecial, List.cons_append, itemsFrom, if_pos rfl, List.singleton_append, itemsFrom, ih, List.append_assoc,
          List.singleton_append]
      · obtain ⟨hquote, hescape⟩ := not_or.mp hspecial
        rw [if_neg hspecial, List.singleton_append, itemsFrom, if_neg hescape, if_neg hquote, ih, List.append_assoc,
          List.singleton_append]

theorem itemsFrom_piece {piece : Piece α} (h : syn.Plain piece) (part rest : List α) :
    syn.itemsFrom part .plain (syn.written piece ++ rest) = syn.itemsFrom (part ++ syn.shown piece) .plain rest := by
  cases piece with
  | bare text => exact syn.itemsFrom_bare h.1 h.2 part rest
  | quoted text =>
      have hwritten : syn.written (.quoted text) ++ rest = syn.quote :: (syn.escaped text ++ syn.quote :: rest) := by
        rw [written, List.cons_append, List.append_assoc, List.singleton_append]
      have hshown : part ++ syn.shown (.quoted text) = part ++ [syn.quote] ++ text ++ [syn.quote] := by
        rw [shown, List.append_assoc, List.append_assoc, List.singleton_append]
      rw [hwritten, hshown, itemsFrom, if_neg syn.quote_ne_comma, if_pos rfl, itemsFrom_escaped, itemsFrom,
        if_neg syn.quote_ne_escape, if_pos rfl]

theorem itemsFrom_pieces {pieces : List (Piece α)} (h : ∀ piece ∈ pieces, syn.Plain piece) (part rest : List α) :
    syn.itemsFrom part .plain (pieces.flatMap syn.written ++ rest) =
      syn.itemsFrom (part ++ pieces.flatMap syn.shown) .plain rest := by
  induction pieces generalizing part with
  | nil => rw [List.flatMap_nil, List.flatMap_nil, List.nil_append, List.append_nil]
  | cons piece pieces ih =>
      obtain ⟨hpiece, hpieces⟩ := List.forall_mem_cons.mp h
      rw [List.flatMap_cons, List.append_assoc, syn.itemsFrom_piece hpiece, ih hpieces, List.flatMap_cons, List.append_assoc]

/-- Items that are written with commas between them are read back, if the last of them is not empty. -/
theorem items_intercalate {written : List (List (Piece α))} (h : ∀ item ∈ written, ∀ piece ∈ item, syn.Plain piece)
    (hlast : ∀ item ∈ written.getLast?, item.flatMap syn.shown ≠ []) :
    syn.items (List.intercalate [syn.comma] (written.map (List.flatMap syn.written))) =
      written.map (List.flatMap syn.shown) := by
  unfold items
  induction written with
  | nil => rfl
  | cons item written ih =>
      obtain ⟨hitem, hwritten⟩ := List.forall_mem_cons.mp h
      cases written with
      | nil =>
          have hends : syn.itemsFrom ([] ++ item.flatMap syn.shown) .plain [] = [item.flatMap syn.shown] := by
            rw [itemsFrom, List.nil_append, if_neg (hlast item rfl)]
          have hread := syn.itemsFrom_pieces hitem [] []
          rw [List.append_nil] at hread
          rw [List.map_singleton, List.intercalate_singleton, hread, hends, List.map_singleton]
      | cons next written =>
          have hrest := ih hwritten hlast
          rw [List.map_cons] at hrest
          rw [List.map_cons, List.map_cons, List.intercalate_cons_cons, List.append_assoc, syn.itemsFrom_pieces hitem,
            List.singleton_append, itemsFrom, if_pos rfl, List.nil_append, hrest]
          rfl

end ListSyntax

end RequestsNative.Lib
