import ApiDocs.Text.Lowercase
import Mathlib.Data.List.Basic

namespace ApiDocs.Text

/-- All characters with another lower-case form, with the two that are looked at apart. -/
def capitalRuns : List CaseRun :=
  ⟨0x130, 0x130, 1, 0x69⟩ :: ⟨0x3a3, 0x3a3, 1, 0x3c3⟩ :: caseRuns

def Small (c : Char) : Prop := ∀ r ∈ capitalRuns, r.has c.toNat = false

namespace CaseRun

/-- The forms of the one run are not in the other: they lie before or behind it, or in its gaps. -/
def avoids (r q : CaseRun) : Bool :=
  Nat.blt (r.target + (r.last - r.first)) q.first || Nat.blt q.last r.target ||
    ((r.step == 2 || r.first == r.last) && q.step == 2 && r.target % 2 != q.first % 2)

variable {r q : CaseRun} {n : Nat}

theorem has_iff : r.has n = true ↔ r.first ≤ n ∧ n ≤ r.last ∧ (n - r.first) % r.step = 0 := by
  simp [has, and_assoc]

theorem has_lower_of_avoids (h : r.avoids q = true) (hn : r.has n = true) :
    q.has (r.lower n) = false := by
  obtain ⟨hfirst, hlast, hstep⟩ := has_iff.1 hn
  refine Bool.eq_false_iff.2 fun hq => ?_
  obtain ⟨hfirst', hlast', hstep'⟩ := has_iff.1 hq
  rw [lower] at hfirst' hlast' hstep'
  simp only [avoids, Bool.or_eq_true, Bool.and_eq_true, Nat.blt_eq, beq_iff_eq, bne_iff_ne] at h
  rcases h with (h | h) | ⟨⟨h, hq⟩, hparity⟩
  · omega
  · omega
  · rw [hq] at hstep'
    rcases h with h | h
    · rw [h] at hstep
      omega
    · omega

theorem avoids_caseRuns :
    (caseRuns.all fun r => capitalRuns.all fun q => r.avoids q) = true := by decide +kernel

theorem valid_caseRuns : ∀ r ∈ caseRuns, r.target + (r.last - r.first) < 0xd800 ∨
    0xdfff < r.target ∧ r.target + (r.last - r.first) < 0x110000 := by decide +kernel

theorem toNat_lower (hr : r ∈ caseRuns) (hn : r.has n = true) :
    (Char.ofNat (r.lower n)).toNat = r.lower n := by
  obtain ⟨hfirst, hlast, -⟩ := has_iff.1 hn
  have hends := valid_caseRuns r hr
  have hvalid : (r.lower n).isValidChar := by
    rw [lower, Nat.isValidChar]
    omega
  exact CodePoint.toNat_ofNat hvalid

theorem small_lower (hr : r ∈ caseRuns) (hn : r.has n = true) : Small (Char.ofNat (r.lower n)) := by
  intro q hq
  rw [toNat_lower hr hn]
  have hall := List.all_eq_true.1 (List.all_eq_true.1 avoids_caseRuns r hr) q hq
  exact has_lower_of_avoids hall hn

end CaseRun

section Characters

variable {c d : Char}

theorem small_of_all (h : (capitalRuns.all fun r => !r.has c.toNat) = true) : Small c := by
  simpa [Small] using h

theorem Small.toNat_ne (h : Small c) : c.toNat ≠ 0x130 ∧ c ≠ capitalSigma := by
  unfold Small capitalRuns at h
  simp only [List.forall_mem_cons, Bool.eq_false_iff] at h
  obtain ⟨hdotted, hsigma, -⟩ := h
  constructor
  · intro hc
    exact hdotted (CaseRun.has_iff.2 ⟨Nat.le_of_eq hc.symm, Nat.le_of_eq hc, Nat.mod_one _⟩)
  · rintro rfl
    exact hsigma (by decide)

theorem small_of_forall (hdotted : c.toNat ≠ 0x130) (hsigma : c ≠ capitalSigma)
    (h : ∀ r ∈ caseRuns, r.has c.toNat = false) : Small c := by
  unfold Small capitalRuns
  simp only [List.forall_mem_cons, Bool.eq_false_iff]
  refine ⟨fun hc => hdotted ?_, fun hc => hsigma ?_, fun r hr => Bool.eq_false_iff.1 (h r hr)⟩
  · obtain ⟨hfirst, hlast, -⟩ := CaseRun.has_iff.1 hc
    exact Nat.le_antisymm hlast hfirst
  · obtain ⟨hfirst, hlast, -⟩ := CaseRun.has_iff.1 hc
    exact Char.toNat_inj.1 (Nat.le_antisymm hlast hfirst)

theorem lowerChar_of_small (h : Small c) : lowerChar c = [c] := by
  obtain ⟨hdotted, hsigma⟩ := h.toNat_ne
  have hnone : caseRuns.find? (·.has c.toNat) = none := by
    refine List.find?_eq_none.2 fun r hr => ?_
    rw [h r (List.mem_cons_of_mem _ (List.mem_cons_of_mem _ hr))]
    exact Bool.false_ne_true
  rw [lowerChar, if_neg hdotted, if_neg hsigma, hnone]

theorem small_of_mem_lowerChar (h : d ∈ lowerChar c) : Small d := by
  rw [lowerChar] at h
  by_cases hdotted : c.toNat = 0x130
  · rw [if_pos hdotted, List.mem_pair] at h
    rcases h with rfl | rfl
    · exact small_of_all (by decide +kernel)
    · exact small_of_all (by decide +kernel)
  · by_cases hsigma : c = capitalSigma
    · rw [if_neg hdotted, if_pos hsigma] at h
      obtain rfl := List.mem_singleton.1 h
      exact small_of_all (by decide +kernel)
    · rw [if_neg hdotted, if_neg hsigma] at h
      cases hfind : caseRuns.find? (·.has c.toNat) with
      | some r =>
          rw [hfind] at h
          obtain rfl := List.mem_singleton.1 h
          have hhas : r.has c.toNat = true := by simpa using List.find?_some hfind
          exact CaseRun.small_lower (List.mem_of_find?_eq_some hfind) hhas
      | none =>
          rw [hfind] at h
          obtain rfl := List.mem_singleton.1 h
          refine small_of_forall hdotted hsigma fun r hr => ?_
          exact Bool.eq_false_iff.2 (List.find?_eq_none.1 hfind r hr)

theorem lowerChar_eq_self_iff : lowerChar c = [c] ↔ Small c :=
  ⟨fun h => small_of_mem_lowerChar (h ▸ List.mem_singleton_self c), lowerChar_of_small⟩

end Characters

section Texts

variable {s : Text}

theorem small_of_mem_lowerAfter {c : Char} (before : Text) (h : c ∈ lowerAfter before s) :
    Small c := by
  induction s generalizing before with
  | nil => cases h
  | cons a s ih =>
      rw [lowerAfter, List.mem_append] at h
      rcases h with h | h
      · split at h
        · obtain rfl := List.mem_singleton.1 h
          exact small_of_all (by decide +kernel)
        · exact small_of_mem_lowerChar h
      · exact ih _ h

theorem small_of_mem_lower {c : Char} (h : c ∈ lower s) : Small c := small_of_mem_lowerAfter [] h

theorem lowerAfter_of_small (before : Text) (h : ∀ c ∈ s, Small c) : lowerAfter before s = s := by
  induction s generalizing before with
  | nil => rfl
  | cons c s ih =>
      rw [List.forall_mem_cons] at h
      have hsigma : (c = capitalSigma && endsWord before s) = false := by
        rw [decide_eq_false h.1.toNat_ne.2, Bool.false_and]
      rw [lowerAfter, if_neg (Bool.eq_false_iff.1 hsigma), lowerChar_of_small h.1, ih _ h.2]
      rfl

theorem lower_of_small (h : ∀ c ∈ s, Small c) : lower s = s := lowerAfter_of_small [] h

end Texts
end ApiDocs.Text
