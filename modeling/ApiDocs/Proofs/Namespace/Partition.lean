import ApiDocs.Proofs.Namespace.Names
import ApiDocs.Proofs.Namespace.Order
import Mathlib.Data.List.Sort

namespace ApiDocs

def classesIn (nameSpace : Text) (classes : List Class) : List Class :=
  classes.filter (·.nameSpace = nameSpace)

def nameSpacesOf (classes : List Class) : List Text :=
  (Group.ofClasses classes).map (·.nameSpace)

theorem classesIn_cons (nameSpace : Text) (c : Class) (classes : List Class) :
    classesIn nameSpace (c :: classes) =
      (if c.nameSpace = nameSpace then [c] else []) ++ classesIn nameSpace classes := by
  by_cases he : c.nameSpace = nameSpace
  · rw [classesIn, List.filter_cons_of_pos (by simpa using he), if_pos he]
    rfl
  · rw [classesIn, List.filter_cons_of_neg (by simpa using he), if_neg he]
    rfl

theorem classesIn_append (nameSpace : Text) (front back : List Class) :
    classesIn nameSpace (front ++ back) = classesIn nameSpace front ++ classesIn nameSpace back :=
  List.filter_append _ _

theorem classesIn_of_added {nameSpace : Text} {c : Class} (h : nameSpace ≠ c.nameSpace)
    (front back : List Class) :
    classesIn nameSpace (front ++ c :: back) = classesIn nameSpace (front ++ back) := by
  rw [classesIn_append, classesIn_cons, if_neg h.symm, List.nil_append, ← classesIn_append]

theorem classesIn_ne_nil {nameSpace : Text} {classes : List Class} :
    classesIn nameSpace classes ≠ [] ↔ ∃ c ∈ classes, c.nameSpace = nameSpace := by
  simp [classesIn]

namespace Group

section Held

def held (nameSpace : Text) (groups : List Group) : List Class :=
  (groups.filter (·.nameSpace = nameSpace)).flatMap (·.classes)

variable {groups : List Group} {nameSpace : Text}

theorem held_cons (nameSpace : Text) (g : Group) (groups : List Group) :
    held nameSpace (g :: groups) =
      (if g.nameSpace = nameSpace then g.classes else []) ++ held nameSpace groups := by
  by_cases he : g.nameSpace = nameSpace
  · rw [held, List.filter_cons_of_pos (by simpa using he), if_pos he, List.flatMap_cons]
    rfl
  · rw [held, List.filter_cons_of_neg (by simpa using he), if_neg he]
    rfl

theorem held_of_below (h : ∀ s ∈ groups.map (·.nameSpace), nameSpace < s) :
    held nameSpace groups = [] := by
  rw [held, List.flatMap_eq_nil_iff]
  intro g hg
  obtain ⟨hg, he⟩ := List.mem_filter.1 hg
  have hlt := h g.nameSpace (List.mem_map_of_mem hg)
  rw [of_decide_eq_true he] at hlt
  exact absurd hlt (List.lt_irrefl nameSpace)

theorem Increasing.below {g : Group} (h : Increasing (g :: groups)) :
    ∀ s ∈ groups.map (·.nameSpace), g.nameSpace < s :=
  (List.pairwise_cons.1 h).1

/-- A class goes behind those of its own namespace, and no other namespace gains or loses any. -/
theorem Increasing.held_insert (h : Increasing groups) (nameSpace : Text) (c : Class) :
    held nameSpace (Group.insert groups c) =
      held nameSpace groups ++ if c.nameSpace = nameSpace then [c] else [] := by
  induction groups with
  | nil =>
      rw [Group.insert, held_cons]
      exact List.append_nil _
  | cons g groups ih =>
      have hbelow := h.below
      rw [Group.insert]
      by_cases he : c.nameSpace = g.nameSpace
      · rw [if_pos he, held_cons, held_cons, he]
        by_cases hn : g.nameSpace = nameSpace
        -- The class may only come last because no later group has the namespace.
        · rw [held_of_below (hn ▸ hbelow)]
          simp [hn]
        · simp [hn]
      · rw [if_neg he]
        by_cases hl : c.nameSpace < g.nameSpace
        · rw [if_pos hl, held_cons]
          by_cases hn : c.nameSpace = nameSpace
          · have hnone : held nameSpace (g :: groups) = [] := by
              apply held_of_below
              refine List.forall_mem_cons.2 ⟨hn ▸ hl, fun s hs => ?_⟩
              exact List.lt_trans (hn ▸ hl) (hbelow s hs)
            simp [hn, hnone]
          · simp [hn]
        · rw [if_neg hl, held_cons, held_cons, ih (List.pairwise_cons.1 h).2, List.append_assoc]

theorem held_ofClasses (nameSpace : Text) (classes : List Class) :
    held nameSpace (ofClasses classes) = classesIn nameSpace classes := by
  induction classes using List.reverseRecOn with
  | nil => rfl
  | append_singleton classes c ih =>
      rw [ofClasses_concat, (increasing_ofClasses classes).held_insert, ih, classesIn_append,
        classesIn_cons]
      exact congrArg _ (List.append_nil _).symm

theorem Increasing.held_eq (h : Increasing groups) {g : Group} (hg : g ∈ groups) :
    held g.nameSpace groups = g.classes := by
  induction groups with
  | nil => cases hg
  | cons first groups ih =>
      rw [held_cons]
      rcases List.mem_cons.1 hg with rfl | hg
      · rw [if_pos rfl, held_of_below h.below, List.append_nil]
      · have hne : first.nameSpace ≠ g.nameSpace := by
          intro he
          have hlt := h.below g.nameSpace (List.mem_map_of_mem hg)
          rw [he] at hlt
          exact List.lt_irrefl g.nameSpace hlt
        rw [if_neg hne, ih (List.pairwise_cons.1 h).2 hg]
        rfl

end Held

section Stable

theorem classes_eq {classes : List Class} {g : Group} (hg : g ∈ ofClasses classes) :
    g.classes = classesIn g.nameSpace classes := by
  rw [← held_ofClasses, (increasing_ofClasses classes).held_eq hg]

/-- The groups, told by the namespaces and the classes of each. -/
theorem ofClasses_eq (classes : List Class) :
    ofClasses classes = (nameSpacesOf classes).map fun n => ⟨n, classesIn n classes⟩ := by
  rw [nameSpacesOf, List.map_map]
  refine (List.map_id _).symm.trans (List.map_congr_left fun g hg => ?_)
  exact congrArg (Group.mk g.nameSpace) (classes_eq hg)

end Stable
end Group

variable {classes others : List Class}

theorem mem_nameSpacesOf (classes : List Class) (nameSpace : Text) :
    nameSpace ∈ nameSpacesOf classes ↔ classesIn nameSpace classes ≠ [] := by
  rw [classesIn_ne_nil]
  exact Group.mem_nameSpaces classes nameSpace

theorem increasing_nameSpacesOf (classes : List Class) :
    (nameSpacesOf classes).Pairwise (· < ·) :=
  Group.increasing_ofClasses classes

theorem filter_nameSpacesOf {p : Text → Bool}
    (h : ∀ n, p n = true → classesIn n classes = classesIn n others) :
    (nameSpacesOf classes).filter p = (nameSpacesOf others).filter p := by
  refine List.Pairwise.eq_of_mem_iff ((increasing_nameSpacesOf classes).filter p)
    ((increasing_nameSpacesOf others).filter p) fun n => ?_
  rw [List.mem_filter, List.mem_filter, mem_nameSpacesOf, mem_nameSpacesOf]
  exact and_congr_left fun hp => by rw [h n hp]

theorem Group.ofClasses_congr (h : ∀ n, classesIn n classes = classesIn n others) :
    ofClasses classes = ofClasses others := by
  have hkeys := filter_nameSpacesOf (p := fun _ => true) fun n _ => h n
  rw [List.filter_true, List.filter_true] at hkeys
  rw [ofClasses_eq, ofClasses_eq, hkeys]
  exact List.map_congr_left fun n _ => by rw [h n]

end ApiDocs
