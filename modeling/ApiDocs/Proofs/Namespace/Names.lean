import ApiDocs.Proofs.Namespace.Beginnings
import ApiDocs.Proofs.Namespace.Groups

namespace ApiDocs

/-- A namespace, a class or a member of these classes has this name. -/
inductive Documented (classes : List Class) : Text → Prop
  | nameSpace {c} : c ∈ classes → Documented classes c.nameSpace
  | className {c} : c ∈ classes → Documented classes c.className
  | title {c m} : c ∈ classes → m ∈ c.members → Documented classes (m.title c.nameSpace)

def Class.titles (c : Class) : List Text := c.members.map (·.title c.nameSpace)

namespace Group

def linkedNames (g : Group) : List Text :=
  g.classes.map (·.className) ++ g.classes.flatMap Class.titles

def headingNames (g : Group) : List Text :=
  g.nameSpace :: g.classes.flatMap fun c => c.className :: c.titles

theorem nameSpace_of_mem {classes : List Class} {g : Group} (hg : g ∈ ofClasses classes)
    {c : Class} (hc : c ∈ g.classes) : c ∈ classes ∧ c.nameSpace = g.nameSpace :=
  (holds_ofClasses classes g.nameSpace c).1 ⟨g, hg, rfl, hc⟩

theorem forall_classes_iff {classes : List Class} {p : Class → Prop} :
    (∀ g ∈ ofClasses classes, ∀ c ∈ g.classes, p c) ↔ ∀ c ∈ classes, p c := by
  constructor
  · intro h c hc
    obtain ⟨g, hg, -, hmem⟩ := (holds_ofClasses classes c.nameSpace c).2 ⟨hc, rfl⟩
    exact h g hg c hmem
  · exact fun h g hg c hc => h c (nameSpace_of_mem hg hc).1

theorem documented_of_linked {classes : List Class} {name : Text}
    (h : name ∈ (ofClasses classes).flatMap linkedNames) : Documented classes name := by
  obtain ⟨g, hg, hname⟩ := List.mem_flatMap.1 h
  rcases List.mem_append.1 hname with hname | hname
  · obtain ⟨c, hc, rfl⟩ := List.mem_map.1 hname
    exact .className (nameSpace_of_mem hg hc).1
  · obtain ⟨c, hc, hname⟩ := List.mem_flatMap.1 hname
    obtain ⟨m, hm, rfl⟩ := List.mem_map.1 hname
    exact .title (nameSpace_of_mem hg hc).1 hm

theorem mem_headingNames (classes : List Class) (name : Text) :
    name ∈ (ofClasses classes).flatMap headingNames ↔ Documented classes name := by
  constructor
  · intro h
    obtain ⟨g, hg, hname⟩ := List.mem_flatMap.1 h
    rcases List.mem_cons.1 hname with rfl | hname
    · obtain ⟨c, hc⟩ := List.exists_mem_of_ne_nil _ (classes_ne_nil classes g hg)
      obtain ⟨hm, he⟩ := nameSpace_of_mem hg hc
      exact he ▸ .nameSpace hm
    · obtain ⟨c, hc, hname⟩ := List.mem_flatMap.1 hname
      have hm := (nameSpace_of_mem hg hc).1
      rcases List.mem_cons.1 hname with rfl | hname
      · exact .className hm
      · obtain ⟨m, hmember, rfl⟩ := List.mem_map.1 hname
        exact .title hm hmember
  · intro h
    have hgroup {c : Class} (hc : c ∈ classes) := (holds_ofClasses classes c.nameSpace c).2 ⟨hc, rfl⟩
    cases h with
    | @nameSpace c hc =>
        obtain ⟨g, hg, he, -⟩ := hgroup hc
        exact List.mem_flatMap.2 ⟨g, hg, he ▸ List.mem_cons_self⟩
    | @className c hc =>
        obtain ⟨g, hg, -, hm⟩ := hgroup hc
        refine List.mem_flatMap.2 ⟨g, hg, List.mem_cons_of_mem _ ?_⟩
        exact List.mem_flatMap.2 ⟨c, hm, List.mem_cons_self⟩
    | @title c m hc hmember =>
        obtain ⟨g, hg, -, hm⟩ := hgroup hc
        refine List.mem_flatMap.2 ⟨g, hg, List.mem_cons_of_mem _ ?_⟩
        refine List.mem_flatMap.2 ⟨c, hm, List.mem_cons_of_mem _ ?_⟩
        exact List.mem_map.2 ⟨m, hmember, rfl⟩

theorem mem_nameSpaces (classes : List Class) (nameSpace : Text) :
    nameSpace ∈ (ofClasses classes).map (·.nameSpace) ↔ ∃ c ∈ classes, c.nameSpace = nameSpace := by
  rw [List.mem_map]
  constructor
  · rintro ⟨g, hg, rfl⟩
    obtain ⟨c, hc⟩ := List.exists_mem_of_ne_nil _ (classes_ne_nil classes g hg)
    exact ⟨c, nameSpace_of_mem hg hc⟩
  · rintro ⟨c, hc, rfl⟩
    obtain ⟨g, hg, he, -⟩ := (holds_ofClasses classes c.nameSpace c).2 ⟨hc, rfl⟩
    exact ⟨g, hg, he⟩

theorem mem_fullNames_forest (classes : List Class) (q : Text) :
    q ∈ (forest (ofClasses classes)).fullNames ↔ ∃ c ∈ classes, Forest.Begins q c.nameSpace := by
  rw [forest, Forest.mem_fullNames_ofNamespaces]
  constructor
  · rintro ⟨s, hs, h⟩
    obtain ⟨c, hc, rfl⟩ := (mem_nameSpaces classes s).1 hs
    exact ⟨c, hc, h⟩
  · rintro ⟨c, hc, h⟩
    exact ⟨c.nameSpace, (mem_nameSpaces classes _).2 ⟨c, hc, rfl⟩, h⟩

end Group
end ApiDocs
