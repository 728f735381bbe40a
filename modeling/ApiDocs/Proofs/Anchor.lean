import ApiDocs.Anchor
import ApiDocs.Proofs.Text.Cut
import ApiDocs.Proofs.Text.Lowercase

namespace ApiDocs

namespace CodePoint

def apart (ranges others : List Range) : Bool :=
  ranges.all fun r => others.all fun q => Nat.blt r.2 q.1 || Nat.blt q.2 r.1

theorem covers_eq_false_of_apart {ranges others : List Range} {c : Char}
    (h : apart ranges others = true) (hc : covers ranges c = true) : covers others c = false := by
  refine Bool.eq_false_iff.2 fun hc' => ?_
  obtain ⟨r, hr, hfirst, hlast⟩ := covers_iff.1 hc
  obtain ⟨q, hq, hfirst', hlast'⟩ := covers_iff.1 hc'
  have hboth := List.all_eq_true.1 (List.all_eq_true.1 h r hr) q hq
  simp only [Bool.or_eq_true, Nat.blt_eq] at hboth
  omega

end CodePoint

namespace Text

theorem isAlphanumeric_of_isBlank {c : Char} (h : isBlank c = true) : isAlphanumeric c = false := by
  rw [isAlphanumeric]
  split
  · exact CodePoint.covers_eq_false_of_apart (by decide +kernel) h
  · split
    · exact CodePoint.covers_eq_false_of_apart (by decide +kernel) h
    · exact CodePoint.covers_eq_false_of_apart (by decide +kernel) h

theorem trim_of_forall {s : Text} (h : ∀ c ∈ s, isBlank c = false) : trim s = s := by
  have hfront {t : Text} (ht : ∀ c ∈ t, isBlank c = false) : t.dropWhile isBlank = t := by
    cases t with
    | nil => rfl
    | cons c t => rw [List.dropWhile_cons, ht c List.mem_cons_self]; rfl
  have hback := hfront (t := s.reverse) fun c hc => h c (List.mem_reverse.1 hc)
  rw [trim, hfront h, dropEndWhile, hback, List.reverse_reverse]

end Text

namespace Anchor

variable {c : Char} {s : Text}

theorem isBlank_of_isSlugChar (h : isSlugChar c = true) : Text.isBlank c = false := by
  refine Bool.eq_false_iff.2 fun hblank => ?_
  rw [isSlugChar, Text.isAlphanumeric_of_isBlank hblank, Bool.false_or, decide_eq_true_eq] at h
  rw [h] at hblank
  exact absurd hblank (by decide)

theorem ofHeading_eq_filter (s : Text) : ofHeading s = (Text.lower s).filter isSlugChar :=
  Text.trim_of_forall fun _ hc => isBlank_of_isSlugChar (List.of_mem_filter hc)

theorem isSlugChar_of_mem_ofHeading (h : c ∈ ofHeading s) : isSlugChar c = true := by
  rw [ofHeading_eq_filter] at h
  exact List.of_mem_filter h

theorem small_of_mem_ofHeading (h : c ∈ ofHeading s) : Text.Small c := by
  rw [ofHeading_eq_filter] at h
  exact Text.small_of_mem_lower (List.mem_of_mem_filter h)

theorem ofHeading_eq_self_iff :
    ofHeading s = s ↔ ∀ c ∈ s, isSlugChar c = true ∧ Text.lowerChar c = [c] := by
  constructor
  · intro h c hc
    rw [← h] at hc
    exact ⟨isSlugChar_of_mem_ofHeading hc, Text.lowerChar_of_small (small_of_mem_ofHeading hc)⟩
  · intro h
    have hsmall : Text.lower s = s :=
      Text.lower_of_small fun c hc => Text.lowerChar_eq_self_iff.1 (h c hc).2
    rw [ofHeading_eq_filter, hsmall]
    exact List.filter_eq_self.2 fun c hc => (h c hc).1

theorem not_mem_ofHeading (h : isSlugChar c = false) (s : Text) : c ∉ ofHeading s :=
  fun hc => Bool.eq_false_iff.1 h (isSlugChar_of_mem_ofHeading hc)

theorem cutAt?_ofHeading (h : isSlugChar c = false) (s rest : Text) :
    Text.cutAt? [c] (ofHeading s ++ c :: rest) = some (ofHeading s, rest) := by
  exact Text.cutAt?_char (not_mem_ofHeading h s) rest

/-- An anchor has letters, digits and underscores only, so it ends where a link target or a quoted
value ends that holds it, and its own anchor is itself. The texts that are their own anchor are those
of letters, digits and underscores that lower-casing leaves alone. -/
theorem ofHeading_normal :
    (∀ s, ∀ c ∈ ofHeading s, Text.isAlphanumeric c = true ∨ c = '_') ∧
    (∀ s, ofHeading s = (Text.lower s).filter isSlugChar) ∧
    (∀ s rest, Text.cutAt? [')'] (ofHeading s ++ ')' :: rest) = some (ofHeading s, rest)) ∧
    (∀ s rest, Text.cutAt? ['"'] (ofHeading s ++ '"' :: rest) = some (ofHeading s, rest)) ∧
    (∀ s, ofHeading (ofHeading s) = ofHeading s) ∧
    ∀ s, ofHeading s = s ↔ ∀ c ∈ s, isSlugChar c = true ∧ Text.lowerChar c = [c] := by
  refine ⟨fun s c hc => ?_, ofHeading_eq_filter, cutAt?_ofHeading (by decide +kernel),
    cutAt?_ofHeading (by decide +kernel), fun s => ?_, fun s => ofHeading_eq_self_iff⟩
  · simpa [isSlugChar] using isSlugChar_of_mem_ofHeading hc
  · refine ofHeading_eq_self_iff.2 fun c hc => ?_
    exact ⟨isSlugChar_of_mem_ofHeading hc, Text.lowerChar_of_small (small_of_mem_ofHeading hc)⟩

/-- The hyphen ends a word and the dot does not, which the sigmas in front of them keep when both are
gone; the dot above, the second form of the last letter, goes too. -/
theorem ofHeading_normal_sigma :
    ofHeading "ΑΣ-ΑΣ.İ" = "αςασi" ∧ ofHeading "αςασi" = "αςασi" ∧ 'ς' ∈ ofHeading "ΑΣ-ΑΣ.İ" ∧
      (Text.isAlphanumeric 'ς' = true ∨ 'ς' = '_') := by
  have hform : ofHeading "ΑΣ-ΑΣ.İ" = "αςασi" := by decide +kernel
  have hmem : 'ς' ∈ ofHeading "ΑΣ-ΑΣ.İ" := by
    rw [hform]
    decide
  have hagain := ofHeading_normal.2.2.2.2.1 "ΑΣ-ΑΣ.İ"
  rw [hform] at hagain
  exact ⟨hform, hagain, hmem, ofHeading_normal.1 _ _ hmem⟩

end Anchor
end ApiDocs
