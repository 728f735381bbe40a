import ApiDocs.Extract.Prose
import Mathlib.Data.List.Forall2
import Mathlib.Tactic.SplitIfs

namespace ApiDocs.Extract

open Xml

/-- The text of the first child with this tag, or no text without such a child. -/
inductive ChildText (e : Element) (tag : Text) : Text → Prop
  | absent : e.childrenNamed tag = [] → ChildText e tag []
  | first {child rest} : e.childrenNamed tag = child :: rest →
      ChildText e tag (Text.clean (inlineText child))

inductive ItemText (item : Element) : Text → Prop
  | own : ChildText item "term" [] → ChildText item "description" [] →
      ItemText item (Text.clean (inlineText item))
  | term {t} : t ≠ [] → ChildText item "term" t → ChildText item "description" [] →
      ItemText item t
  | description {d} : d ≠ [] → ChildText item "term" [] → ChildText item "description" d →
      ItemText item d
  | both {t d} : t ≠ [] → d ≠ [] → ChildText item "term" t → ChildText item "description" d →
      ItemText item (t ++ ": " ++ d)

/-- The text of a list: its items with a text, or else what the list says itself. -/
inductive ListText (list : Element) : Text → Prop
  | own {ts} : List.Forall₂ ItemText (list.elements.filter isItem) ts → (∀ t ∈ ts, t = []) →
      ListText list (Text.clean (inlineText list))
  | items {ts t rest} : List.Forall₂ ItemText (list.elements.filter isItem) ts →
      ts.filter (· ≠ []) = t :: rest → ListText list (Text.joinWith "; " (t :: rest))

variable {e : Element} {tag t : Text}

theorem forall₂_iff_map {α β : Type} {R : α → β → Prop} {f : α → β} (h : ∀ x y, R x y ↔ f x = y)
    {xs : List α} {ys : List β} : List.Forall₂ R xs ys ↔ xs.map f = ys := by
  have hr : R = fun x y => f x = y := by
    ext x y
    exact h x y
  rw [hr, ← List.forall₂_map_left_iff, List.forall₂_eq_eq_eq]

theorem child?_eq_head? (e : Element) (tag : Text) : e.child? tag = (e.childrenNamed tag).head? :=
  (List.head?_filter ..).symm

theorem childText_childProse (e : Element) (tag : Text) : ChildText e tag (childProse e tag) := by
  rw [childProse, child?_eq_head?]
  cases h : e.childrenNamed tag with
  | nil => exact .absent h
  | cons child rest => exact .first h

theorem childText_iff : ChildText e tag t ↔ childProse e tag = t := by
  constructor
  · intro h
    rw [childProse, child?_eq_head?]
    cases h with
    | absent hnone => rw [hnone, List.head?_nil]
    | first hfirst => rw [hfirst, List.head?_cons]; rfl
  · rintro rfl
    exact childText_childProse e tag

theorem itemText_itemLine (item : Element) : ItemText item (itemLine item) := by
  have ht := childText_childProse item "term"
  have hd := childText_childProse item "description"
  unfold itemLine
  simp only
  split_ifs with hnone hdescription hterm
  · exact .own (hnone.1 ▸ ht) (hnone.2 ▸ hd)
  · exact .term (fun h => hnone ⟨h, hdescription⟩) ht (hdescription ▸ hd)
  · exact .description hdescription (hterm ▸ ht) hd
  · exact .both hterm hdescription ht hd

theorem itemText_iff : ItemText e t ↔ itemLine e = t := by
  constructor
  · intro h
    unfold itemLine
    simp only
    cases h with
    | own ht hd =>
        rw [childText_iff.1 ht, childText_iff.1 hd, if_pos ⟨rfl, rfl⟩]
        rfl
    | term hne ht hd =>
        rw [childText_iff.1 ht, childText_iff.1 hd, if_neg fun h => hne h.1, if_pos rfl]
    | description hne ht hd =>
        rw [childText_iff.1 ht, childText_iff.1 hd, if_neg fun h => hne h.2, if_neg hne, if_pos rfl]
    | both hne hne' ht hd =>
        rw [childText_iff.1 ht, childText_iff.1 hd, if_neg fun h => hne h.1, if_neg hne',
          if_neg hne]
  · rintro rfl
    exact itemText_itemLine e

theorem itemTexts_iff {items : List Element} {ts : List Text} :
    List.Forall₂ ItemText items ts ↔ items.map itemLine = ts :=
  forall₂_iff_map (f := itemLine) fun _ _ => itemText_iff

theorem listText_iff : ListText e t ↔ listLine e = t := by
  constructor
  · intro h
    unfold listLine listItems
    cases h with
    | own hts hnone =>
        rw [itemTexts_iff.1 hts, List.filter_eq_nil_iff.2 (by simpa using hnone)]
        rfl
    | items hts hsome => rw [itemTexts_iff.1 hts, hsome]
  · rintro rfl
    have hts := itemTexts_iff.2 (rfl : (e.elements.filter isItem).map itemLine = _)
    unfold listLine
    cases h : listItems e with
    | nil => exact .own hts (by simpa [listItems] using h)
    | cons item items => exact .items hts h

end ApiDocs.Extract
