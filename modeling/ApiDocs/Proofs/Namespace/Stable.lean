import ApiDocs.Proofs.Namespace.Partition
import ApiDocs.Proofs.Text.Bytes

namespace ApiDocs

def Class.before (c d : Class) : Bool := c.nameSpace.bytes ≤ d.nameSpace.bytes

/-- The same classes in order of their namespaces, those of one namespace in the order as before. -/
structure StablySorted (classes sorted : List Class) : Prop where
  ordered : sorted.Pairwise fun c d => c.before d
  kept : ∀ n, classesIn n sorted = classesIn n classes

variable {classes sorted : List Class}

section Sorting

theorem Class.before_trans (a b c : Class) (hab : a.before b) (hbc : b.before c) : a.before c :=
  decide_eq_true (List.le_trans (of_decide_eq_true hab) (of_decide_eq_true hbc))

theorem Class.before_total (a b : Class) : a.before b || b.before a := by
  rw [Bool.or_eq_true]
  exact (List.le_total a.nameSpace.bytes b.nameSpace.bytes).imp decide_eq_true decide_eq_true

theorem Class.not_lt_of_before {c d : Class} (h : c.before d) : ¬ d.nameSpace < c.nameSpace :=
  fun hlt => List.not_lt.2 (of_decide_eq_true h) (Text.bytes_lt hlt)

theorem stablySorted_mergeSort (classes : List Class) :
    StablySorted classes (classes.mergeSort Class.before) := by
  have hperm := List.mergeSort_perm classes Class.before
  refine ⟨List.pairwise_mergeSort Class.before_trans Class.before_total classes, fun n => ?_⟩
  have hsame : (classesIn n classes).Pairwise fun c d => c.before d := by
    refine List.pairwise_of_forall_mem_list fun c hc d hd => ?_
    have hc := of_decide_eq_true (List.mem_filter.1 hc).2
    have hd := of_decide_eq_true (List.mem_filter.1 hd).2
    rw [Class.before, hc, hd]
    exact decide_eq_true (List.le_refl _)
  have hsub := List.sublist_mergeSort Class.before_trans Class.before_total hsame List.filter_sublist
  have hin : (classesIn n classes).Sublist (classesIn n (classes.mergeSort Class.before)) := by
    have hfilter := hsub.filter (·.nameSpace = n)
    simpa only [classesIn, List.filter_filter, Bool.and_self] using hfilter
  exact (hin.eq_of_length (hperm.filter _).length_eq.symm).symm

end Sorting

namespace Group

section Flat

variable {groups : List Group}

theorem Increasing.flatMap_insert (h : Increasing groups) {c : Class}
    (hlast : ∀ g ∈ groups, ¬ c.nameSpace < g.nameSpace) :
    (Group.insert groups c).flatMap (·.classes) = groups.flatMap (·.classes) ++ [c] := by
  induction groups with
  | nil => rfl
  | cons g groups ih =>
      obtain ⟨hg, hgroups⟩ := List.forall_mem_cons.1 hlast
      rw [Group.insert]
      by_cases he : c.nameSpace = g.nameSpace
      · obtain rfl : groups = [] := by
          refine List.eq_nil_iff_forall_not_mem.2 fun g' hg' => hgroups g' hg' ?_
          rw [he]
          exact h.below _ (List.mem_map_of_mem hg')
        rw [if_pos he]
        simp
      · rw [if_neg he, if_neg hg, List.flatMap_cons, ih (List.pairwise_cons.1 h).2 hgroups,
          List.flatMap_cons, List.append_assoc]

theorem flatMap_of_ordered (h : sorted.Pairwise fun c d => c.before d) :
    (ofClasses sorted).flatMap (·.classes) = sorted := by
  induction sorted using List.reverseRecOn with
  | nil => rfl
  | append_singleton sorted c ih =>
      obtain ⟨hsorted, -, hlast⟩ := List.pairwise_append.1 h
      rw [ofClasses_concat, (increasing_ofClasses sorted).flatMap_insert, ih hsorted]
      intro g hg hlt
      obtain ⟨d, hd, he⟩ := (mem_nameSpaces sorted g.nameSpace).1 (List.mem_map_of_mem hg)
      exact Class.not_lt_of_before (hlast d hd c List.mem_cons_self) (he ▸ hlt)

end Flat

theorem flatMap_eq_of_stablySorted (h : StablySorted classes sorted) :
    (ofClasses classes).flatMap (·.classes) = sorted := by
  rw [← ofClasses_congr h.kept, flatMap_of_ordered h.ordered]

theorem flatMap_eq_mergeSort (classes : List Class) :
    (ofClasses classes).flatMap (·.classes) = classes.mergeSort Class.before :=
  flatMap_eq_of_stablySorted (stablySorted_mergeSort classes)

/-- The groups stand in increasing order of the bytes of their namespaces, one for each namespace
that occurs, and each holds the classes of its namespace. One after another they are the classes in
the only stable order by namespace. -/
theorem ofClasses_stable (classes : List Class) :
    ((ofClasses classes).map (·.nameSpace.bytes)).Pairwise (· < ·) ∧
      (∀ n, n ∈ (ofClasses classes).map (·.nameSpace) ↔ ∃ c ∈ classes, c.nameSpace = n) ∧
      (∀ g ∈ ofClasses classes, g.classes ≠ [] ∧
        g.classes = classes.filter (·.nameSpace = g.nameSpace)) ∧
      (∀ sorted, StablySorted classes sorted ↔ (ofClasses classes).flatMap (·.classes) = sorted) ∧
      (ofClasses classes).flatMap (·.classes) = classes.mergeSort Class.before ∧
      ((ofClasses classes).flatMap (·.classes)).Perm classes := by
  have hsort := flatMap_eq_mergeSort classes
  refine ⟨?_, mem_nameSpaces classes, fun g hg => ⟨classes_ne_nil classes g hg, classes_eq hg⟩,
    fun sorted => ⟨flatMap_eq_of_stablySorted, ?_⟩, hsort, perm_ofClasses classes⟩
  · have hincreasing := List.pairwise_map.1 (increasing_ofClasses classes)
    exact List.pairwise_map.2 (hincreasing.imp Text.bytes_lt)
  · rintro rfl
    rw [hsort]
    exact stablySorted_mergeSort classes

end Group
end ApiDocs
