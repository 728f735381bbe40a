import ApiDocs.Files.Path
import ApiDocs.Proofs.Text.Pieces
import Mathlib.Data.List.Basic
import Mathlib.Data.List.Induction
import Mathlib.Tactic.SplitIfs
import Mathlib.Tactic.Tauto

namespace ApiDocs.Path

theorem components_ne_nil {path : Text} (h : path ≠ []) : components path ≠ [] := by
  obtain ⟨c, s, rfl⟩ := List.exists_cons_of_ne_nil h
  intro hnil
  obtain ⟨hlead, hpieces⟩ := List.append_eq_nil_iff.1 hnil
  by_cases hc : c = '/'
  · subst hc
    cases hlead
  · obtain ⟨part, parts, -, hsplit⟩ := Text.splitAt_cons_of_ne hc s
    rw [hsplit] at hlead hpieces
    have hnone : ofPiece (c :: part) = none :=
      List.filterMap_eq_nil_iff.1 hpieces _ List.mem_cons_self
    by_cases hhere : c :: part = "."
    · rw [hhere, List.head?_cons] at hlead
      split_ifs at hlead with _ hnot
      exact hnot rfl
    · rw [ofPiece, if_neg (not_or.2 ⟨List.cons_ne_nil c part, hhere⟩)] at hnone
      split_ifs at hnone

theorem ofPiece_ne_root (piece : Text) : ofPiece piece ≠ some .root := by
  unfold ofPiece
  split_ifs <;> exact nofun

theorem root_mem_components (path : Text) : .root ∈ components path ↔ isAbsolute path = true := by
  have hpieces : .root ∉ (Text.splitAt '/' path).filterMap ofPiece := by
    intro h
    obtain ⟨piece, -, hpiece⟩ := List.mem_filterMap.1 h
    exact ofPiece_ne_root piece hpiece
  simp only [components, List.mem_append, hpieces, or_false]
  split_ifs with habsolute
  · simp [habsolute]
  · simp [habsolute]
  · simp [habsolute]

section Order

variable {a b c : Component} {as bs cs : List Component} {p q r : Text}

theorem Component.before_iff :
    a.before b = true ↔ a.rank < b.rank ∨ a.rank = b.rank ∧ a.text < b.text := by
  simp only [before, Bool.or_eq_true, Bool.and_eq_true, decide_eq_true_eq]

theorem Component.eq_of_rank_of_text (hrank : a.rank = b.rank) (htext : a.text = b.text) :
    a = b := by
  cases a <;> cases b <;> simp_all [rank, text]

theorem Component.before_irrefl (a : Component) : a.before a = false := by
  rw [← Bool.not_eq_true, before_iff]
  rintro (h | ⟨-, h⟩)
  · exact Nat.lt_irrefl _ h
  · exact List.lt_irrefl _ h

theorem Component.before_trans (hab : a.before b = true) (hbc : b.before c = true) :
    a.before c = true := by
  rw [before_iff] at *
  rcases hab with hab | ⟨hrank, hab⟩ <;> rcases hbc with hbc | ⟨hrank', hbc⟩
  · exact .inl (Nat.lt_trans hab hbc)
  · exact .inl (hrank' ▸ hab)
  · exact .inl (hrank ▸ hbc)
  · exact .inr ⟨hrank.trans hrank', List.lt_trans hab hbc⟩

theorem Component.before_or_before (h : a ≠ b) : a.before b = true ∨ b.before a = true := by
  rw [before_iff, before_iff]
  rcases Nat.lt_trichotomy a.rank b.rank with hlt | heq | hgt
  · exact .inl (.inl hlt)
  · by_cases hab : a.text < b.text
    · exact .inl (.inr ⟨heq, hab⟩)
    · by_cases hba : b.text < a.text
      · exact .inr (.inr ⟨heq.symm, hba⟩)
      · exact absurd (eq_of_rank_of_text heq (Std.Trichotomous.trichotomous _ _ hab hba)) h
  · exact .inr (.inl hgt)

theorem componentsBefore_irrefl (as : List Component) : componentsBefore as as = false := by
  induction as with
  | nil => rfl
  | cons a as ih => rw [componentsBefore, if_pos rfl, ih]

theorem componentsBefore_trans (hab : componentsBefore as bs = true)
    (hbc : componentsBefore bs cs = true) : componentsBefore as cs = true := by
  induction as generalizing bs cs with
  | nil =>
      cases cs with
      | nil => cases bs <;> cases hbc
      | cons c cs => rfl
  | cons a as ih =>
      cases bs with
      | nil => cases hab
      | cons b bs =>
          cases cs with
          | nil => cases hbc
          | cons c cs =>
              rw [componentsBefore] at *
              split_ifs at hab with hab' <;> split_ifs at hbc with hbc'
              · rw [if_pos (hab'.trans hbc')]
                exact ih hab hbc
              · rw [if_neg (hab' ▸ hbc'), hab']
                exact hbc
              · rw [if_neg (hbc' ▸ hab'), ← hbc']
                exact hab
              · have hac : a.before c = true := Component.before_trans hab hbc
                rw [if_neg]
                · exact hac
                · rintro rfl
                  rw [Component.before_irrefl] at hac
                  cases hac

theorem componentsBefore_or_componentsBefore (h : as ≠ bs) :
    componentsBefore as bs = true ∨ componentsBefore bs as = true := by
  induction as generalizing bs with
  | nil =>
      cases bs with
      | nil => exact absurd rfl h
      | cons b bs => exact .inl rfl
  | cons a as ih =>
      cases bs with
      | nil => exact .inr rfl
      | cons b bs =>
          rw [componentsBefore, componentsBefore]
          by_cases hab : a = b
          · rw [if_pos hab, if_pos hab.symm]
            exact ih fun he => h (hab ▸ he ▸ rfl)
          · rw [if_neg hab, if_neg (Ne.symm hab)]
            exact Component.before_or_before hab

theorem before_trans (hpq : before p q = true) (hqr : before q r = true) : before p r = true :=
  componentsBefore_trans hpq hqr

theorem components_ne_of_before (h : before p q = true) : components p ≠ components q := by
  intro he
  rw [before, he, componentsBefore_irrefl] at h
  cases h

end Order

section Ordering

variable {p q : Text} {qs : List Text}

theorem mem_insert (h : q ∈ insert qs p) : q = p ∨ q ∈ qs := by
  induction qs with
  | nil => exact .inl (List.mem_singleton.1 h)
  | cons first qs ih =>
      rw [insert] at h
      split_ifs at h with he hb
      · exact .inr h
      · exact List.mem_cons.1 h
      · rcases List.mem_cons.1 h with rfl | h
        · exact .inr List.mem_cons_self
        · exact (ih h).imp id (List.mem_cons_of_mem _)

def Increasing (paths : List Text) : Prop := paths.Pairwise fun p q => before p q = true

theorem Increasing.insert (h : Increasing qs) (p : Text) : Increasing (insert qs p) := by
  induction qs with
  | nil => exact List.pairwise_singleton _ _
  | cons first qs ih =>
      obtain ⟨hfirst, hqs⟩ := List.pairwise_cons.1 h
      rw [Path.insert]
      split_ifs with he hb
      · exact h
      · refine List.pairwise_cons.2 ⟨fun q hq => ?_, h⟩
        rcases List.mem_cons.1 hq with rfl | hq
        · exact hb
        · exact before_trans hb (hfirst q hq)
      · refine List.pairwise_cons.2 ⟨fun q hq => ?_, ih hqs⟩
        rcases mem_insert hq with rfl | hq
        · exact (componentsBefore_or_componentsBefore he).resolve_right hb
        · exact hfirst q hq

variable {keep : Text → Bool}

/-- Whether a path is kept depends on its components only. -/
def Respects (keep : Text → Bool) (paths : List Text) : Prop :=
  ∀ p ∈ paths, ∀ q ∈ paths, components p = components q → keep p = keep q

theorem Respects.of_subset {paths : List Text} (h : Respects keep paths) (hqs : qs ⊆ paths) :
    Respects keep qs :=
  fun p hp q hq => h p (hqs hp) q (hqs hq)

theorem filter_insert_of_not_keep (hp : keep p = false) (qs : List Text) :
    (insert qs p).filter keep = qs.filter keep := by
  induction qs with
  | nil => exact List.filter_cons_of_neg (by simp [hp])
  | cons first qs ih =>
      rw [insert]
      split_ifs
      · rfl
      · exact List.filter_cons_of_neg (by simp [hp])
      · rw [List.filter_cons, List.filter_cons, ih]

theorem insert_of_forall_before (h : ∀ q ∈ qs, before p q = true) : insert qs p = p :: qs := by
  cases qs with
  | nil => rfl
  | cons q qs =>
      have hq := h q List.mem_cons_self
      rw [insert, if_neg (components_ne_of_before hq).symm, if_pos hq]

theorem filter_insert_of_keep (hincreasing : Increasing qs) (hrespects : Respects keep (p :: qs))
    (hp : keep p = true) : (insert qs p).filter keep = insert (qs.filter keep) p := by
  induction qs with
  | nil => exact List.filter_cons_of_pos hp
  | cons first qs ih =>
      obtain ⟨hfirst, hqs⟩ := List.pairwise_cons.1 hincreasing
      have hrest : Respects keep (p :: qs) :=
        hrespects.of_subset (List.cons_subset_cons p (List.subset_cons_self first qs))
      rw [insert]
      split_ifs with he hb
      · have hkeep : keep first = true :=
          (hrespects first (by simp) p (by simp) he).trans hp
        rw [List.filter_cons_of_pos hkeep, insert, if_pos he]
      · rw [List.filter_cons_of_pos hp, insert_of_forall_before]
        intro q hq
        rcases List.mem_cons.1 (List.mem_of_mem_filter hq) with rfl | hq
        · exact hb
        · exact before_trans hb (hfirst q hq)
      · rw [List.filter_cons, List.filter_cons, ih hqs hrest]
        split_ifs
        · rw [insert, if_neg he, if_neg hb]
        · rfl

end Ordering

section Ordered

variable {q : Text} {paths : List Text} {keep : Text → Bool}

/-- The last path is the last to find its place, so what holds of the paths in order is proved by
induction from the back. -/
theorem ordered_concat (paths : List Text) (p : Text) :
    ordered (paths ++ [p]) = insert (ordered paths) p :=
  List.foldl_append

theorem mem_of_mem_ordered (h : q ∈ ordered paths) : q ∈ paths := by
  induction paths using List.reverseRecOn with
  | nil => exact h
  | append_singleton paths p ih =>
      rw [ordered_concat] at h
      rcases mem_insert h with rfl | h
      · exact List.mem_concat_self
      · exact List.mem_append_left _ (ih h)

theorem increasing_ordered (paths : List Text) : Increasing (ordered paths) := by
  induction paths using List.reverseRecOn with
  | nil => exact List.Pairwise.nil
  | append_singleton paths p ih =>
      rw [ordered_concat]
      exact ih.insert p

theorem filter_ordered (h : Respects keep paths) :
    (ordered paths).filter keep = ordered (paths.filter keep) := by
  induction paths using List.reverseRecOn with
  | nil => rfl
  | append_singleton paths p ih =>
      have hpaths : paths ⊆ paths ++ [p] := List.subset_append_left _ _
      rw [ordered_concat, List.filter_append]
      cases hp : keep p with
      | false =>
          rw [filter_insert_of_not_keep hp, ih (h.of_subset hpaths),
            List.filter_cons_of_neg (by simp [hp]), List.filter_nil, List.append_nil]
      | true =>
          have hrespects : Respects keep (p :: ordered paths) :=
            h.of_subset (List.cons_subset.2
              ⟨List.mem_concat_self, fun q hq => hpaths (mem_of_mem_ordered hq)⟩)
          rw [filter_insert_of_keep (increasing_ordered paths) hrespects hp,
            ih (h.of_subset hpaths), List.filter_cons_of_pos hp, List.filter_nil, ordered_concat]

end Ordered

section Canonical

variable {c : List Component} {paths : List Text}

theorem mem_map_components_insert (qs : List Text) (p : Text) :
    c ∈ (insert qs p).map components ↔ c = components p ∨ c ∈ qs.map components := by
  induction qs with
  | nil => rw [insert, List.map_cons, List.mem_cons]
  | cons q qs ih =>
      rw [insert]
      split_ifs with he hb
      · rw [List.map_cons, List.mem_cons, he]
        tauto
      · rw [List.map_cons, List.mem_cons]
      · rw [List.map_cons, List.mem_cons, ih, List.map_cons, List.mem_cons]
        tauto

theorem mem_map_components_ordered :
    c ∈ (ordered paths).map components ↔ c ∈ paths.map components := by
  induction paths using List.reverseRecOn with
  | nil => rfl
  | append_singleton paths p ih =>
      rw [ordered_concat, mem_map_components_insert, ih, List.map_append, List.map_singleton,
        List.mem_append, List.mem_singleton]
      exact or_comm

theorem Increasing.map_components {qs : List Text} (h : Increasing qs) :
    (qs.map components).Pairwise fun as bs => componentsBefore as bs = true :=
  List.pairwise_map.2 h

theorem nodup_map_components_ordered (paths : List Text) :
    ((ordered paths).map components).Nodup := by
  refine (increasing_ordered paths).map_components.imp fun {as bs} hbefore he => ?_
  rw [he, componentsBefore_irrefl] at hbefore
  cases hbefore

theorem componentsBefore_antisymm {as bs : List Component} (h : componentsBefore as bs = true)
    (h' : componentsBefore bs as = true) : as = bs := by
  have hself := componentsBefore_trans h h'
  rw [componentsBefore_irrefl] at hself
  cases hself

/-- What the paths in order are depends on which paths there are, not on where and how often they
come or how they are spelled. -/
theorem map_components_ordered {others : List Text}
    (h : ∀ c, c ∈ paths.map components ↔ c ∈ others.map components) :
    (ordered paths).map components = (ordered others).map components := by
  have hperm : ((ordered paths).map components).Perm ((ordered others).map components) := by
    refine (List.perm_ext_iff_of_nodup (nodup_map_components_ordered paths)
      (nodup_map_components_ordered others)).2 fun c => ?_
    rw [mem_map_components_ordered, mem_map_components_ordered]
    exact h c
  exact hperm.eq_of_pairwise (fun _ _ _ _ => componentsBefore_antisymm)
    (increasing_ordered paths).map_components (increasing_ordered others).map_components

end Canonical
end ApiDocs.Path
