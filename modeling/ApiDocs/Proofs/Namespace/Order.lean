import ApiDocs.Proofs.Namespace.Groups
import Mathlib.Data.List.Perm.Basic
import Mathlib.Tactic.Tauto

namespace ApiDocs.Group

variable {groups : List Group}

def Increasing (groups : List Group) : Prop := (groups.map (·.nameSpace)).Pairwise (· < ·)

theorem mem_nameSpaces_insert (groups : List Group) (c : Class) (s : Text) :
    s ∈ (insert groups c).map (·.nameSpace) ↔
      s = c.nameSpace ∨ s ∈ groups.map (·.nameSpace) := by
  induction groups with
  | nil => simp [insert]
  | cons g groups ih =>
      rw [insert]
      by_cases he : c.nameSpace = g.nameSpace
      · rw [if_pos he]
        simp only [List.map_cons, List.mem_cons, he]
        tauto
      · rw [if_neg he]
        by_cases hl : c.nameSpace < g.nameSpace
        · rw [if_pos hl]
          simp only [List.map_cons, List.mem_cons]
        · rw [if_neg hl]
          simp only [List.map_cons, List.mem_cons, ih]
          tauto

theorem Increasing.insert (h : Increasing groups) (c : Class) : Increasing (insert groups c) := by
  induction groups with
  | nil => exact List.pairwise_singleton _ _
  | cons g groups ih =>
      obtain ⟨hg, hgroups⟩ := List.pairwise_cons.1 h
      rw [Group.insert]
      by_cases he : c.nameSpace = g.nameSpace
      · rw [if_pos he]
        exact h
      · rw [if_neg he]
        by_cases hl : c.nameSpace < g.nameSpace
        · rw [if_pos hl]
          refine List.pairwise_cons.2 ⟨fun s hs => ?_, h⟩
          rcases List.mem_cons.1 hs with rfl | hs
          · exact hl
          · exact List.lt_trans hl (hg s hs)
        · rw [if_neg hl]
          refine List.pairwise_cons.2 ⟨fun s hs => ?_, ih hgroups⟩
          rcases (mem_nameSpaces_insert groups c s).1 hs with rfl | hs
          · by_contra hgt
            exact he (Std.Trichotomous.trichotomous _ _ hl hgt)
          · exact hg s hs

theorem increasing_ofClasses (classes : List Class) : Increasing (ofClasses classes) := by
  induction classes using List.reverseRecOn with
  | nil => exact List.Pairwise.nil
  | append_singleton classes c ih =>
      rw [ofClasses_concat]
      exact ih.insert c

theorem nodup_nameSpaces (classes : List Class) :
    ((ofClasses classes).map (·.nameSpace)).Nodup := by
  refine (increasing_ofClasses classes).imp ?_
  rintro s t hlt rfl
  exact List.lt_irrefl s hlt

theorem perm_insert (groups : List Group) (c : Class) :
    ((insert groups c).flatMap (·.classes)).Perm (c :: groups.flatMap (·.classes)) := by
  induction groups with
  | nil => exact List.Perm.refl _
  | cons g groups ih =>
      rw [insert]
      by_cases he : c.nameSpace = g.nameSpace
      · rw [if_pos he, List.flatMap_cons, List.flatMap_cons, List.append_assoc]
        exact List.perm_middle
      · rw [if_neg he]
        by_cases hl : c.nameSpace < g.nameSpace
        · rw [if_pos hl]
          exact List.Perm.refl _
        · rw [if_neg hl, List.flatMap_cons, List.flatMap_cons]
          exact (ih.append_left _).trans List.perm_middle

theorem perm_ofClasses (classes : List Class) :
    ((ofClasses classes).flatMap (·.classes)).Perm classes := by
  induction classes using List.reverseRecOn with
  | nil => exact List.Perm.refl _
  | append_singleton classes c ih =>
      rw [ofClasses_concat]
      exact (perm_insert _ c).trans ((ih.cons c).trans (List.perm_append_singleton c classes).symm)

end ApiDocs.Group
