import ApiDocs.Proofs.Extract.Titles
import ApiDocs.Proofs.Html.Escape
import ApiDocs.Proofs.Html.Links
import ApiDocs.Proofs.Namespace.Order
import Mathlib.Data.List.Nodup

namespace ApiDocs

section Names

theorem Group.perm_headingNames (classes : List Class) :
    ((ofClasses classes).flatMap headingNames).Perm
      ((ofClasses classes).map (·.nameSpace) ++
        (classes.map (·.className) ++ classes.flatMap Class.titles)) := by
  have hgroups := (List.map_append_flatMap_perm (ofClasses classes) (·.nameSpace)
    fun g => g.classes.flatMap fun c => c.className :: c.titles).symm
  refine hgroups.trans (List.Perm.append_left _ ?_)
  rw [← List.flatMap_assoc]
  refine ((perm_ofClasses classes).flatMap_right _).trans ?_
  exact (List.map_append_flatMap_perm classes (·.className) Class.titles).symm

end Names

namespace Extract

open Identifier Xml

/-- What a section of the page is about. -/
inductive Subject
  | nameSpace (name : Text)
  | type (fullName : Text)
  | member (identifier : Text)
deriving DecidableEq

/-- The subjects of a document with the titles of their sections. A member of several types has a
title in each of them. -/
inductive Titled (root : Element) : Subject → Text → Prop
  | nameSpace {t} : t ∈ namedTypes root → Titled root (.nameSpace (split t.1).1) (split t.1).1
  | type {t} : t ∈ namedTypes root → Titled root (.type t.1) (split t.1).2
  | member {t m} : t ∈ namedTypes root → m ∈ membersOf t.1 (namedMembers root) →
      Titled root (.member m.name) (m.title (split t.1).1)

/-- A section of the page, with the entries it comes from. -/
inductive Section
  | nameSpace (name : Text)
  | type (t : Text × Element)
  | member (t m : Text × Element)

namespace Section

def title : Section → Text
  | nameSpace name => name
  | type t => (split t.1).2
  | member t m => (Extract.member m.1 m.2).title (split t.1).1

def subject : Section → Subject
  | nameSpace name => .nameSpace name
  | type t => .type t.1
  | member _ m => .member m.1

end Section

def namedMembersOf (root : Element) (typeName : Text) : List (Text × Element) :=
  (namedMembers root).filter fun m => (memberStarts typeName).any (Text.isStart · m.1)

def sections (root : Element) : List Section :=
  ((Group.ofClasses (classes root)).map (·.nameSpace)).map .nameSpace ++
    ((namedTypes root).map .type ++
      (namedTypes root).flatMap fun t => (namedMembersOf root t.1).map (.member t))

theorem titles_typeClass (root : Element) (t : Text × Element) :
    (typeClass t.1 t.2 (namedMembers root)).titles =
      (namedMembersOf root t.1).map fun m => (Section.member t m).title := by
  rw [Class.titles, typeClass, membersOf, List.map_map]
  rfl

theorem perm_titles (root : Element) :
    ((Group.ofClasses (classes root)).flatMap Group.headingNames).Perm
      ((sections root).map Section.title) := by
  have hnames : (classes root).map (·.className) =
      ((namedTypes root).map Section.type).map Section.title := by
    rw [classes_eq, List.map_map, List.map_map]
    rfl
  have htitles : (classes root).flatMap Class.titles =
      ((namedTypes root).flatMap fun t =>
        (namedMembersOf root t.1).map (Section.member t)).map Section.title := by
    rw [classes_eq, List.flatMap_map, List.map_flatMap]
    apply List.flatMap_congr
    intro t _
    rw [titles_typeClass, List.map_map]
    rfl
  have hperm := Group.perm_headingNames (classes root)
  rw [hnames, htitles, ← List.map_append] at hperm
  have hspaces (names : List Text) : (names.map Section.nameSpace).map Section.title = names := by
    rw [List.map_map]
    exact List.map_id names
  rw [sections, List.map_append, hspaces]
  exact hperm

variable {root : Element}

theorem typeOf_eq_some {m t : Text × Element} :
    ((typeName? m.1).filter fun typeName => typeName ≠ []).map (·, m.2) = some t ↔
      m = ('T' :: ':' :: t.1, t.2) ∧ t.1 ≠ [] := by
  rw [Option.map_eq_some_iff]
  constructor
  · rintro ⟨typeName, hfilter, rfl⟩
    obtain ⟨hname, hne⟩ := Option.filter_eq_some_iff.1 hfilter
    exact ⟨Prod.ext (typeName?_eq_some.1 hname) rfl, by simpa using hne⟩
  · rintro ⟨rfl, hne⟩
    exact ⟨t.1, Option.filter_eq_some_iff.2 ⟨typeName?_eq_some.2 rfl, by simpa using hne⟩, rfl⟩

theorem mem_namedTypes {t : Text × Element} :
    t ∈ namedTypes root ↔ ('T' :: ':' :: t.1, t.2) ∈ namedMembers root ∧ t.1 ≠ [] := by
  simp only [namedTypes, List.mem_filterMap, typeOf_eq_some]
  constructor
  · rintro ⟨m, hm, rfl, hne⟩
    exact ⟨hm, hne⟩
  · rintro ⟨hm, hne⟩
    exact ⟨_, hm, rfl, hne⟩

theorem mem_namedMembersOf {m : Text × Element} {typeName : Text} :
    m ∈ namedMembersOf root typeName ↔ m ∈ namedMembers root ∧ NamesMemberOf typeName m.1 := by
  rw [namedMembersOf, List.mem_filter, memberStarts_any]

theorem mem_nameSpaces {name : Text} :
    name ∈ (Group.ofClasses (classes root)).map (·.nameSpace) ↔
      ∃ t ∈ namedTypes root, (split t.1).1 = name := by
  rw [Group.mem_nameSpaces, classes_eq]
  simp only [List.mem_map, exists_exists_and_eq_and]
  rfl

theorem mem_sections {s : Section} :
    s ∈ sections root ↔
      match s with
      | .nameSpace name => ∃ t ∈ namedTypes root, (split t.1).1 = name
      | .type t => t ∈ namedTypes root
      | .member t m => t ∈ namedTypes root ∧ m ∈ namedMembersOf root t.1 := by
  rw [sections, List.mem_append, List.mem_append, List.mem_map, List.mem_map,
    List.mem_flatMap]
  cases s with
  | nameSpace name =>
      refine Iff.trans ?_ mem_nameSpaces
      simp
  | type t => simp
  | member t m => simp

theorem titled_iff {x : Subject} {s : Text} :
    Titled root x s ↔ ∃ k ∈ sections root, k.subject = x ∧ k.title = s := by
  constructor
  · intro h
    cases h with
    | @nameSpace t ht => exact ⟨.nameSpace _, mem_sections.2 ⟨t, ht, rfl⟩, rfl, rfl⟩
    | @type t ht => exact ⟨.type t, mem_sections.2 ht, rfl, rfl⟩
    | @member t m ht hm =>
        obtain ⟨p, hp, rfl⟩ := List.mem_map.1 hm
        exact ⟨.member t p, mem_sections.2 ⟨ht, hp⟩, rfl, rfl⟩
  · rintro ⟨k, hk, rfl, rfl⟩
    have hmem := mem_sections.1 hk
    cases k with
    | nameSpace name =>
        obtain ⟨t, ht, rfl⟩ := hmem
        exact .nameSpace ht
    | type t => exact .type hmem
    | member t m => exact .member hmem.1 (List.mem_map.2 ⟨m, hmem.2, rfl⟩)

section Distinct

variable (h : ((namedMembers root).map (·.1)).Nodup)
include h

theorem entry_eq {m m' : Text × Element} (hm : m ∈ namedMembers root) (hm' : m' ∈ namedMembers root)
    (he : m.1 = m'.1) : m = m' :=
  List.inj_on_of_nodup_map h hm hm' he

theorem type_eq {t t' : Text × Element} (ht : t ∈ namedTypes root) (ht' : t' ∈ namedTypes root)
    (he : t.1 = t'.1) : t = t' := by
  have hpair := entry_eq h (mem_namedTypes.1 ht).1 (mem_namedTypes.1 ht').1
    (congrArg (fun name => 'T' :: ':' :: name) he)
  exact Prod.ext he (Prod.ext_iff.1 hpair).2

theorem nodup_namedTypes : (namedTypes root).Nodup := by
  refine List.Nodup.filterMap (fun m m' t hm hm' => ?_) (List.Nodup.of_map _ h)
  rw [(typeOf_eq_some.1 hm).1, (typeOf_eq_some.1 hm').1]

theorem nodup_sections : (sections root).Nodup := by
  have hnames : (((Group.ofClasses (classes root)).map (·.nameSpace)).map Section.nameSpace).Nodup :=
    (Group.nodup_nameSpaces (classes root)).map fun _ _ => Section.nameSpace.inj
  have htypes : ((namedTypes root).map Section.type).Nodup :=
    (nodup_namedTypes h).map fun _ _ => Section.type.inj
  have hmembers : ((namedTypes root).flatMap fun t =>
      (namedMembersOf root t.1).map (Section.member t)).Nodup := by
    rw [List.nodup_flatMap]
    constructor
    · intro t _
      exact ((List.Nodup.of_map _ h).filter _).map fun _ _ hm => (Section.member.inj hm).2
    · refine (nodup_namedTypes h).imp fun hne k hk hk' => hne ?_
      obtain ⟨m, -, rfl⟩ := List.mem_map.1 hk
      obtain ⟨m', -, he⟩ := List.mem_map.1 hk'
      exact (Section.member.inj he).1.symm
  refine hnames.append (htypes.append hmembers fun k hk hk' => ?_) fun k hk hk' => ?_
  · obtain ⟨t, -, rfl⟩ := List.mem_map.1 hk
    simp at hk'
  · obtain ⟨name, -, rfl⟩ := List.mem_map.1 hk
    simp at hk'

/-- Sections of one subject with titles that make the same id are one section. -/
theorem section_eq {k k' : Section} (hk : k ∈ sections root) (hk' : k' ∈ sections root)
    (hs : k.subject = k'.subject) (ht : Anchor.ofId k.title = Anchor.ofId k'.title) : k = k' := by
  have hmem := mem_sections.1 hk
  have hmem' := mem_sections.1 hk'
  cases k with
  | nameSpace name =>
      cases k' with
      | nameSpace name' => exact congrArg Section.nameSpace (Subject.nameSpace.inj hs)
      | type | member => cases hs
  | type t =>
      cases k' with
      | type t' => exact congrArg Section.type (type_eq h hmem hmem' (Subject.type.inj hs))
      | nameSpace | member => cases hs
  | member t m =>
      cases k' with
      | member t' m' =>
          obtain ⟨hn, hname⟩ := mem_namedMembersOf.1 hmem.2
          obtain ⟨hn', hname'⟩ := mem_namedMembersOf.1 hmem'.2
          obtain rfl := entry_eq h hn hn' (Subject.member.inj hs)
          by_cases he : t.1 = t'.1
          · rw [type_eq h hmem.1 hmem'.1 he]
          · have hlength := congrArg List.length ht
            rw [Anchor.ofId, Anchor.ofId, List.length_map, List.length_map] at hlength
            exact absurd hlength (length_title_ne hname hname' (mem_namedTypes.1 hmem.1).2
              (mem_namedTypes.1 hmem'.1).2 he)
      | nameSpace | type => cases hs

end Distinct

theorem map_identifier (root : Element) :
    (memberEntries root).map (·.attribute? "name") =
      ((namedMembers root).map (·.1)).map some := by
  rw [namedMembers_eq, List.map_map, List.map_filterMap, ← List.filterMap_eq_map]
  apply List.filterMap_congr
  intro e he
  obtain ⟨name, hname⟩ := identifier_of_mem he
  rw [Function.comp_apply, hname]
  rfl

/-- Where the entries have different names, the ids of the page are distinct exactly when titles of
different subjects never agree up to dots and hyphens. A member of several types is one subject,
and its titles in these types are different. -/
theorem ids_nodup_iff (root : Element)
    (h : ((memberEntries root).map (·.attribute? "name")).Nodup) :
    (Html.headingIds (Html.render (classes root))).Nodup ↔
      ∀ x y s t, Titled root x s → Titled root y t → x ≠ y → Anchor.ofId s ≠ Anchor.ofId t := by
  rw [map_identifier] at h
  have hnames := List.Nodup.of_map some h
  rw [(Html.shows_render (classes root)).ids, ((perm_titles root).map Html.idOf).nodup_iff,
    List.map_map, List.nodup_map_iff_inj_on (nodup_sections hnames)]
  constructor
  · intro hinj x y s t hx hy hne he
    obtain ⟨k, hk, rfl, rfl⟩ := titled_iff.1 hx
    obtain ⟨k', hk', rfl, rfl⟩ := titled_iff.1 hy
    exact hne (congrArg Section.subject (hinj k hk k' hk' (congrArg Html.escape he)))
  · intro hne k hk k' hk' he
    have hid := Html.escape_inj he
    refine section_eq hnames hk hk' ?_ hid
    by_contra hs
    exact hne _ _ _ _ (titled_iff.2 ⟨k, hk, rfl, rfl⟩) (titled_iff.2 ⟨k', hk', rfl, rfl⟩) hs hid

/-- A member of two types, one inside the other. -/
theorem ids_nodup_nested :
    let root : Element := ⟨"doc", [], .element "member" [⟨"name", "T:A.B"⟩] .nil
      (.element "member" [⟨"name", "T:A.B.C"⟩] .nil
        (.element "member" [⟨"name", "M:A.B.C.run"⟩] .nil .nil))⟩
    ((memberEntries root).map (·.attribute? "name")).Nodup ∧
      (Html.headingIds (Html.render (classes root))).Nodup ∧
      ∀ x y s t, Titled root x s → Titled root y t → x ≠ y → Anchor.ofId s ≠ Anchor.ofId t := by
  intro root
  have h : ((memberEntries root).map (·.attribute? "name")).Nodup := by decide
  have hids : (Html.headingIds (Html.render (classes root))).Nodup := by
    rw [(Html.shows_render (classes root)).ids]
    decide +kernel
  exact ⟨h, hids, (ids_nodup_iff root h).1 hids⟩

/-- Two types of one name in two namespaces have one id, in a document without members. -/
theorem ids_shared_across_namespaces :
    ∃ root, parse "<doc><member name=\"T:A.C\"/><member name=\"T:B.C\"/></doc>" = .ok root ∧
      ((memberEntries root).map (·.attribute? "name")).Nodup ∧
      (∀ c ∈ classes root, c.members = []) ∧
      Html.headingIds (Html.render (classes root)) = ["A", "C", "B", "C"] ∧
      ¬ (Html.headingIds (Html.render (classes root))).Nodup := by
  let root : Element := ⟨"doc", [], .element "member" [⟨"name", "T:A.C"⟩] .nil
    (.element "member" [⟨"name", "T:B.C"⟩] .nil .nil)⟩
  have hids : Html.headingIds (Html.render (classes root)) = ["A", "C", "B", "C"] := by
    rw [(Html.shows_render (classes root)).ids]
    decide +kernel
  refine ⟨root, ?_, ?_, ?_, hids, ?_⟩
  · decide +kernel
  · decide
  · decide
  · rw [hids]
    decide

end Extract
end ApiDocs
