import ApiDocs.Namespace.Group
import Mathlib.Data.List.Basic
import Mathlib.Data.List.Induction
import Mathlib.Tactic.Tauto

namespace ApiDocs.Group

def Holds (groups : List Group) (nameSpace : Text) (c : Class) : Prop :=
  ∃ g ∈ groups, g.nameSpace = nameSpace ∧ c ∈ g.classes

variable {groups : List Group}

/-- The last class is the last to find its group, so what holds of the groups is proved by induction
from the back of the classes. -/
theorem ofClasses_concat (classes : List Class) (c : Class) :
    ofClasses (classes ++ [c]) = insert (ofClasses classes) c :=
  List.foldl_append

theorem holds_nil (nameSpace : Text) (c : Class) : ¬ Holds [] nameSpace c := by
  rintro ⟨g, hg, -⟩
  exact List.not_mem_nil hg

theorem holds_cons (g : Group) (groups : List Group) (nameSpace : Text) (c : Class) :
    Holds (g :: groups) nameSpace c ↔
      (g.nameSpace = nameSpace ∧ c ∈ g.classes) ∨ Holds groups nameSpace c := by
  simp only [Holds, List.mem_cons, exists_eq_or_imp]

theorem holds_insert (groups : List Group) (c : Class) (nameSpace : Text) (d : Class) :
    Holds (insert groups c) nameSpace d ↔
      Holds groups nameSpace d ∨ (d = c ∧ c.nameSpace = nameSpace) := by
  induction groups with
  | nil => simp [insert, holds_cons, holds_nil, and_comm]
  | cons g groups ih =>
      rw [insert]
      by_cases he : c.nameSpace = g.nameSpace
      · rw [if_pos he, holds_cons, holds_cons, he, List.mem_append, List.mem_singleton]
        tauto
      · rw [if_neg he]
        by_cases hl : c.nameSpace < g.nameSpace
        · rw [if_pos hl, holds_cons, List.mem_singleton]
          tauto
        · rw [if_neg hl, holds_cons, holds_cons, ih]
          tauto

theorem holds_ofClasses (classes : List Class) (nameSpace : Text) (d : Class) :
    Holds (ofClasses classes) nameSpace d ↔ d ∈ classes ∧ d.nameSpace = nameSpace := by
  induction classes using List.reverseRecOn with
  | nil => simp [ofClasses, holds_nil]
  | append_singleton classes c ih =>
      rw [ofClasses_concat, holds_insert, ih, List.mem_append, List.mem_singleton, or_and_right]
      refine or_congr_right (and_congr_right ?_)
      rintro rfl
      exact Iff.rfl

/-- Where every group writes its classes one after another, each class is written somewhere. -/
theorem infix_ofClasses {α : Type} {f : Class → List α} {write : Group → List α}
    (h : ∀ g, g.classes.flatMap f <:+: write g) {classes : List Class} {c : Class}
    (hc : c ∈ classes) : f c <:+: (ofClasses classes).flatMap write := by
  obtain ⟨g, hg, -, hmem⟩ := (holds_ofClasses classes c.nameSpace c).2 ⟨hc, rfl⟩
  have hclass : f c <:+: g.classes.flatMap f := List.infix_of_mem_flatten (List.mem_map_of_mem hmem)
  have hgroup : write g <:+: (ofClasses classes).flatMap write :=
    List.infix_of_mem_flatten (List.mem_map_of_mem hg)
  exact (hclass.trans (h g)).trans hgroup

theorem classes_ne_nil_insert (h : ∀ g ∈ groups, g.classes ≠ []) (c : Class) :
    ∀ g ∈ insert groups c, g.classes ≠ [] := by
  induction groups with
  | nil => simp [insert]
  | cons g groups ih =>
      obtain ⟨hg, hgroups⟩ := List.forall_mem_cons.1 h
      rw [insert]
      by_cases he : c.nameSpace = g.nameSpace
      · rw [if_pos he]
        exact List.forall_mem_cons.2 ⟨by simp, hgroups⟩
      · rw [if_neg he]
        by_cases hl : c.nameSpace < g.nameSpace
        · rw [if_pos hl]
          exact List.forall_mem_cons.2 ⟨by simp, h⟩
        · rw [if_neg hl]
          exact List.forall_mem_cons.2 ⟨hg, ih hgroups⟩

theorem classes_ne_nil (classes : List Class) : ∀ g ∈ ofClasses classes, g.classes ≠ [] := by
  induction classes using List.reverseRecOn with
  | nil => exact List.forall_mem_nil _
  | append_singleton classes c ih =>
      rw [ofClasses_concat]
      exact classes_ne_nil_insert ih c

end ApiDocs.Group
