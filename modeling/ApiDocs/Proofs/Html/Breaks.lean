import ApiDocs.Html.Page
import ApiDocs.Proofs.Html.Escape
import Mathlib.Data.List.Chain

namespace ApiDocs.Html

/-- No reference by number begins in the text. -/
def NoNumber (s : Text) : Prop := s.IsChain fun c d => c = '&' → d ≠ '#'

def startsBracket (s : Text) : Bool := s.head?.any opensBracket

/-- At every place of the text, a break mark ends there if and only if a bracket follows. -/
def BreaksAtBrackets (s : Text) : Prop :=
  ∀ before after, s = before ++ after → (zeroWidthSpace <:+ before ↔ startsBracket after = true)

def withoutBreaks : Text → Text
  | '&' :: '#' :: '8' :: '2' :: '0' :: '3' :: ';' :: s => withoutBreaks s
  | c :: s => c :: withoutBreaks s
  | [] => []

variable {c : Char} {s : Text}

section Escaped

theorem zeroWidthSpace_eq : zeroWidthSpace = '&' :: '#' :: "8203;" := rfl

theorem Escapes.noNumber {u : Text} (h : Escapes c u) : NoNumber u ∧ '&' ∉ u.getLast? := by
  unfold NoNumber
  cases h with
  | plain hamp => exact ⟨.singleton c, by simpa using hamp⟩
  | _ => decide

theorem noNumber_escape (s : Text) : NoNumber (escape s) := by
  induction s with
  | nil => exact .nil
  | cons c s ih =>
      obtain ⟨hfirst, hlast⟩ := (escapes_escapeChar c).noNumber
      refine List.isChain_append.2 ⟨hfirst, ih, fun d hd _ _ hamp => ?_⟩
      exact absurd (hamp ▸ hd) hlast

theorem NoNumber.unmarked (h : NoNumber s) : ¬ zeroWidthSpace <:+: s := by
  intro hinfix
  have hmark : NoNumber zeroWidthSpace := List.IsChain.infix h hinfix
  rw [zeroWidthSpace_eq] at hmark
  exact (List.isChain_cons_cons.1 hmark).1 rfl rfl

end Escaped

section Deleted

theorem withoutBreaks_mark (s : Text) : withoutBreaks (zeroWidthSpace ++ s) = withoutBreaks s := rfl

theorem withoutBreaks_cons (h : ¬ zeroWidthSpace <+: c :: s) :
    withoutBreaks (c :: s) = c :: withoutBreaks s := by
  rw [withoutBreaks]
  rintro t rfl rfl
  exact h ⟨t, rfl⟩

theorem NoNumber.withoutBreaks_eq (h : NoNumber s) : withoutBreaks s = s := by
  induction s with
  | nil => rfl
  | cons c s ih =>
      rw [withoutBreaks_cons fun hmark => h.unmarked hmark.isInfix, ih (List.IsChain.tail h)]

end Deleted

section Inserted

theorem withBreaks_cons_of_pos (h : opensBracket c = true) (s : Text) :
    withBreaks (c :: s) = zeroWidthSpace ++ c :: withBreaks s := by
  rw [withBreaks, List.flatMap_cons, if_pos h, List.append_assoc]
  rfl

theorem withBreaks_cons_of_neg (h : opensBracket c = false) (s : Text) :
    withBreaks (c :: s) = c :: withBreaks s := by
  rw [withBreaks, List.flatMap_cons, if_neg (Bool.eq_false_iff.1 h)]
  rfl

theorem opensBracket_of_mem (h : c ∈ zeroWidthSpace) : opensBracket c = false := by
  have hall : (zeroWidthSpace.all fun d => !opensBracket d) = true := by decide
  simpa using List.all_eq_true.1 hall c h

theorem head?_of_withBreaks (h : (withBreaks s).head? = some '#') : s.head? = some '#' := by
  cases s with
  | nil => exact h
  | cons c s =>
      cases hc : opensBracket c with
      | true =>
          rw [withBreaks_cons_of_pos hc] at h
          cases h
      | false =>
          rw [withBreaks_cons_of_neg hc] at h
          exact h

/-- Behind its first character a break mark has a number sign, and the marks that are put in have
none in front, so no character of the text begins one. -/
theorem NoNumber.unmarked_start (h : NoNumber (c :: s)) : ¬ zeroWidthSpace <+: c :: withBreaks s := by
  intro hmark
  obtain ⟨rfl, t, ht⟩ := List.cons_prefix_cons.1 (zeroWidthSpace_eq ▸ hmark)
  have hhead : s.head? = some '#' := head?_of_withBreaks (ht ▸ rfl)
  exact (List.isChain_cons.1 h).1 '#' hhead rfl rfl

theorem NoNumber.withoutBreaks_withBreaks (h : NoNumber s) : withoutBreaks (withBreaks s) = s := by
  induction s with
  | nil => rfl
  | cons c s ih =>
      have hrest := ih (List.IsChain.tail h)
      cases hc : opensBracket c with
      | true =>
          rw [withBreaks_cons_of_pos hc, withoutBreaks_mark, withoutBreaks_cons h.unmarked_start,
            hrest]
      | false => rw [withBreaks_cons_of_neg hc, withoutBreaks_cons h.unmarked_start, hrest]

end Inserted

section Places

theorem suffix_append_cons (h : c ∉ zeroWidthSpace) (s t : Text) :
    zeroWidthSpace <:+ s ++ c :: t ↔ zeroWidthSpace <:+ t := by
  refine ⟨fun hmark => ?_, fun hmark => hmark.trans ⟨s ++ [c], List.append_assoc _ _ _⟩⟩
  rcases List.suffix_or_suffix_of_suffix hmark (List.suffix_append s (c :: t)) with hmark | hcons
  · rcases List.suffix_cons_iff.1 hmark with he | hmark
    · exact absurd (he ▸ List.mem_cons_self) h
    · exact hmark
  · exact absurd (hcons.subset List.mem_cons_self) h

theorem not_suffix_of_append {before rest : Text} (h : zeroWidthSpace = before ++ c :: rest) :
    ¬ zeroWidthSpace <:+ before := by
  intro hmark
  have hle := hmark.length_le
  rw [h, List.length_append, List.length_cons] at hle
  omega

section Steps

variable {t : Text} (ht : BreaksAtBrackets t)
include ht

theorem BreaksAtBrackets.cons (hc : opensBracket c = false) (hmark : ¬ zeroWidthSpace <+: c :: t) :
    BreaksAtBrackets (c :: t) := by
  intro before after he
  cases before with
  | nil =>
      obtain rfl : c :: t = after := he
      refine iff_of_false (fun hends => ?_) (Bool.eq_false_iff.1 hc)
      cases List.suffix_nil.1 hends
  | cons d before =>
      obtain ⟨rfl, hafter⟩ := List.cons.inj he
      rw [← ht before after hafter, List.suffix_cons_iff]
      refine or_iff_right fun hends => hmark ?_
      rw [hends, he]
      exact List.prefix_append (c :: before) after

theorem BreaksAtBrackets.mark_cons (hc : opensBracket c = true) :
    BreaksAtBrackets (zeroWidthSpace ++ c :: t) := by
  have hnot : c ∉ zeroWidthSpace := fun hm => by simp [opensBracket_of_mem hm] at hc
  intro before after he
  rcases List.append_eq_append_iff.1 he with ⟨front, rfl, hfront⟩ | ⟨back, hmark, rfl⟩
  · cases front with
    | nil =>
        obtain rfl : c :: t = after := hfront
        rw [List.append_nil]
        exact iff_of_true List.suffix_rfl hc
    | cons d front =>
        obtain ⟨rfl, hafter⟩ := List.cons.inj hfront
        rw [suffix_append_cons hnot, ht front after hafter]
  · cases back with
    | nil =>
        rw [List.append_nil] at hmark
        rw [← hmark]
        exact iff_of_true List.suffix_rfl hc
    | cons d back =>
        have hd : opensBracket d = false := opensBracket_of_mem (hmark ▸ by simp)
        exact iff_of_false (not_suffix_of_append hmark) (Bool.eq_false_iff.1 hd)

end Steps

theorem breaksAtBrackets_nil : BreaksAtBrackets [] := by
  intro before after he
  obtain ⟨rfl, rfl⟩ := List.append_eq_nil_iff.1 he.symm
  decide

theorem NoNumber.breaksAtBrackets (h : NoNumber s) : BreaksAtBrackets (withBreaks s) := by
  induction s with
  | nil => exact breaksAtBrackets_nil
  | cons c s ih =>
      have hrest := ih (List.IsChain.tail h)
      cases hc : opensBracket c with
      | true =>
          rw [withBreaks_cons_of_pos hc]
          exact hrest.mark_cons hc
      | false =>
          rw [withBreaks_cons_of_neg hc]
          exact hrest.cons hc h.unmarked_start

theorem BreaksAtBrackets.single (h : BreaksAtBrackets s) :
    ¬ zeroWidthSpace ++ zeroWidthSpace <:+: s := by
  rintro ⟨front, back, rfl⟩
  have hplace := h (front ++ zeroWidthSpace) (zeroWidthSpace ++ back) (by simp)
  exact absurd (hplace.1 (List.suffix_append front zeroWidthSpace)) Bool.false_ne_true

end Places

section Linked

variable (title : Text) {name : Text}

theorem linkText_long (h : longName < name.length) :
    linkText title name = withBreaks (escape title) := if_pos h

theorem linkText_short (h : name.length ≤ longName) : linkText title name = escape title :=
  if_neg (Nat.not_lt.2 h)

theorem withoutBreaks_linkText (title name : Text) :
    withoutBreaks (linkText title name) = escape title := by
  rcases Nat.lt_or_ge longName name.length with h | h
  · rw [linkText_long title h, (noNumber_escape title).withoutBreaks_withBreaks]
  · rw [linkText_short title h, (noNumber_escape title).withoutBreaks_eq]

end Linked
end ApiDocs.Html
