import ApiDocs.Proofs.Extract.Entries

namespace ApiDocs

namespace Identifier

theorem split_cases (fullName : Text) :
    (fullName = (split fullName).1 ++ '.' :: (split fullName).2 ∧ '.' ∉ (split fullName).2) ∨
      ((split fullName).1 = [] ∧ (split fullName).2 = fullName ∧ '.' ∉ fullName) := by
  unfold split
  cases h : Text.cutAtLast? '.' fullName with
  | none => exact .inr ⟨rfl, rfl, Text.cutAtLast?_eq_none.1 h⟩
  | some parts => exact .inl (Text.cutAtLast?_eq_some h)

theorem eq_of_qualified {fullName : Text} (h : (split fullName).1 ≠ []) :
    fullName = (split fullName).1 ++ '.' :: (split fullName).2 := by
  rcases split_cases fullName with ⟨he, -⟩ | ⟨hnil, -⟩
  · exact he
  · exact absurd hnil h

theorem length_of_qualified {fullName : Text} (h : (split fullName).1 ≠ []) :
    fullName.length = (split fullName).1.length + (split fullName).2.length + 1 := by
  have hlength := congrArg List.length (eq_of_qualified h)
  simp only [List.length_append, List.length_cons] at hlength
  omega

theorem withoutKind_marked {letter : Char} (h : isKindMark letter = true) (name : Text) :
    withoutKind (letter :: ':' :: name) = name :=
  if_pos h

end Identifier

namespace Member

theorem title_nil (m : Member) : m.title [] = Identifier.withoutKind m.name := rfl

theorem title_qualified {m : Member} {nameSpace rest : Text} (hne : nameSpace ≠ [])
    (hrest : rest ≠ []) (h : Identifier.withoutKind m.name = nameSpace ++ '.' :: rest) :
    m.title nameSpace = rest := by
  obtain ⟨c, rest, rfl⟩ := List.exists_cons_of_ne_nil hrest
  rw [title, h, if_neg hne, Text.dropStart?_append]
  rfl

/-- The title of a name in a namespace: what follows the namespace and a dot, if anything does, and
else the whole name. -/
inductive Titled (nameSpace name : Text) : Text → Prop
  | relative {rest} : nameSpace ≠ [] → rest ≠ [] → name = nameSpace ++ '.' :: rest →
      Titled nameSpace name rest
  | whole : (nameSpace ≠ [] → ∀ rest ≠ [], name ≠ nameSpace ++ '.' :: rest) →
      Titled nameSpace name name

theorem Titled.unique {nameSpace name title title' : Text} (h : Titled nameSpace name title)
    (h' : Titled nameSpace name title') : title = title' := by
  cases h with
  | relative hne hrest he =>
      cases h' with
      | relative _ _ he' => simpa using he.symm.trans he'
      | whole hnone => exact absurd he (hnone hne _ hrest)
  | whole hnone =>
      cases h' with
      | relative hne hrest he => exact absurd he (hnone hne _ hrest)
      | whole _ => rfl

theorem titled_title (m : Member) (nameSpace : Text) :
    Titled nameSpace (Identifier.withoutKind m.name) (m.title nameSpace) := by
  by_cases h : ∃ rest ≠ [], Identifier.withoutKind m.name = nameSpace ++ '.' :: rest
  · obtain ⟨rest, hrest, he⟩ := h
    by_cases hne : nameSpace = []
    · rw [hne, title_nil]
      exact .whole (absurd rfl)
    · rw [title_qualified hne hrest he]
      exact .relative hne hrest he
  · have hwhole : m.title nameSpace = Identifier.withoutKind m.name := by
      unfold title
      simp only
      split
      · rfl
      · split
        · next c rest hdrop =>
          exact absurd ⟨c :: rest, List.cons_ne_nil _ _, Text.dropStart?_eq_some hdrop⟩ h
        · rfl
    rw [hwhole]
    exact .whole fun _ rest hrest he => h ⟨rest, hrest, he⟩

theorem title_eq_iff (m : Member) (nameSpace title : Text) :
    m.title nameSpace = title ↔ Titled nameSpace (Identifier.withoutKind m.name) title := by
  constructor
  · rintro rfl
    exact m.titled_title nameSpace
  · exact (m.titled_title nameSpace).unique

end Member

namespace Extract

open Identifier

variable {fullName : Text} {m n : Member}

theorem NamesMemberOf.name_eq {name : Text} (h : NamesMemberOf fullName name) :
    ∃ letter ∈ ['M', 'P', 'F'], ∃ rest, name = letter :: ':' :: (fullName ++ '.' :: rest) := by
  obtain ⟨letter, hl, _, rfl, rest, rfl⟩ := h
  exact ⟨letter, hl, rest, by simp⟩

theorem withoutKind_member {letter : Char} (h : letter ∈ ['M', 'P', 'F']) (name : Text) :
    withoutKind (letter :: ':' :: name) = name := by
  apply withoutKind_marked
  simp only [List.mem_cons, List.not_mem_nil, or_false] at h
  rcases h with rfl | rfl | rfl <;> rfl

theorem NamesMemberOf.withoutKind_eq (h : NamesMemberOf fullName m.name) :
    ∃ rest, withoutKind m.name = fullName ++ '.' :: rest := by
  obtain ⟨letter, hl, rest, hname⟩ := h.name_eq
  exact ⟨rest, hname ▸ withoutKind_member hl _⟩

theorem title_of_withoutKind {rest : Text} (h : withoutKind m.name = fullName ++ '.' :: rest) :
    m.title (split fullName).1 =
      if (split fullName).1 = [] then fullName ++ '.' :: rest
      else (split fullName).2 ++ '.' :: rest := by
  by_cases hn : (split fullName).1 = []
  · rw [if_pos hn, hn, Member.title_nil, h]
  · rw [if_neg hn]
    apply Member.title_qualified hn (by simp)
    rw [h]
    nth_rewrite 1 [eq_of_qualified hn]
    simp

/-- Without a namespace the title is the whole name. Otherwise it begins with the name of the
class. -/
theorem title_of_member (h : NamesMemberOf fullName m.name) :
    ∃ rest, withoutKind m.name = fullName ++ '.' :: rest ∧
      m.title (split fullName).1 =
        if (split fullName).1 = [] then fullName ++ '.' :: rest
        else (split fullName).2 ++ '.' :: rest := by
  obtain ⟨rest, hrest⟩ := h.withoutKind_eq
  exact ⟨rest, hrest, title_of_withoutKind hrest⟩

theorem length_le_of_nested {outer inner : Text} (h : outer ++ ['.'] <+: inner) :
    outer.length ≤ (split inner).1.length := by
  obtain ⟨rest, hrest⟩ := h
  rcases split_cases inner with ⟨he, hdot⟩ | ⟨-, -, hdot⟩
  · have hboth : outer ++ '.' :: rest = (split inner).1 ++ '.' :: (split inner).2 := by
      rw [← he, ← hrest]
      simp
    rcases List.append_eq_append_iff.1 hboth with ⟨more, hmore, -⟩ | ⟨more, hmore, hn⟩
    · rw [hmore, List.length_append]
      exact Nat.le_add_right _ _
    · cases more with
      | nil => simp [hmore]
      | cons c more =>
          rw [List.cons_append, List.cons.injEq] at hn
          rw [hn.2] at hdot
          simp at hdot
  · rw [← hrest] at hdot
    simp at hdot

theorem length_title (h : NamesMemberOf fullName m.name) :
    (m.title (split fullName).1).length +
        (if (split fullName).1 = [] then 0 else (split fullName).1.length + 1) =
      (withoutKind m.name).length := by
  obtain ⟨rest, hrest, ht⟩ := title_of_member h
  rw [ht, hrest]
  by_cases hn : (split fullName).1 = []
  · rw [if_pos hn, if_pos hn, Nat.add_zero]
  · rw [if_neg hn, if_neg hn, List.length_append, List.length_append, length_of_qualified hn]
    omega

theorem length_title_lt {outer inner : Text} (ho : NamesMemberOf outer m.name)
    (hi : NamesMemberOf inner m.name) (hne : outer ≠ []) (h : outer ++ ['.'] <+: inner) :
    (m.title (split inner).1).length < (m.title (split outer).1).length := by
  have hnested := length_le_of_nested h
  have hpos : 0 < outer.length := List.length_pos_iff.2 hne
  have hinner : (split inner).1 ≠ [] := List.length_pos_iff.1 (by omega)
  have hto := length_title ho
  have hti := length_title hi
  rw [if_neg hinner] at hti
  by_cases houter : (split outer).1 = []
  · rw [if_pos houter] at hto
    omega
  · have hlength := length_of_qualified houter
    rw [if_neg houter] at hto
    omega

theorem length_title_ne {fullName' : Text} (h : NamesMemberOf fullName m.name)
    (h' : NamesMemberOf fullName' m.name) (hnil : fullName ≠ []) (hnil' : fullName' ≠ [])
    (hne : fullName ≠ fullName') :
    (m.title (split fullName).1).length ≠ (m.title (split fullName').1).length := by
  obtain ⟨rest, hrest⟩ := h.withoutKind_eq
  obtain ⟨rest', hrest'⟩ := h'.withoutKind_eq
  have hp : fullName ++ ['.'] <+: withoutKind m.name := ⟨rest, by rw [hrest]; simp⟩
  have hp' : fullName' ++ ['.'] <+: withoutKind m.name := ⟨rest', by rw [hrest']; simp⟩
  rcases List.prefix_or_prefix_of_prefix hp hp' with hpp | hpp
  · rcases List.prefix_concat_iff.1 hpp with he | hnested
    · exact absurd (List.append_cancel_right he) hne
    · exact Nat.ne_of_gt (length_title_lt h h' hnil hnested)
  · rcases List.prefix_concat_iff.1 hpp with he | hnested
    · exact absurd (List.append_cancel_right he).symm hne
    · exact Nat.ne_of_lt (length_title_lt h' h hnil' hnested)

section Classes

/-- The members of a class are named after its type, and their titles after the class, or after the
type if there is no namespace. -/
structure TitledMembers (fullName : Text) (c : Class) : Prop where
  title_eq : ∀ m ∈ c.members, ∃ letter ∈ ['M', 'P', 'F'], ∃ rest,
    m.name = letter :: ':' :: (fullName ++ '.' :: rest) ∧
      m.title c.nameSpace =
        if c.nameSpace = [] then fullName ++ '.' :: rest else c.className ++ '.' :: rest
  title_inj : ∀ m ∈ c.members, ∀ n ∈ c.members,
    m.title c.nameSpace = n.title c.nameSpace ↔ m.name.drop 2 = n.name.drop 2

theorem ClassOf.namesMemberOf {root e : Xml.Element} {c : Class} (h : ClassOf root fullName e c) :
    ∀ m ∈ c.members, NamesMemberOf fullName m.name := by
  intro m hm
  obtain ⟨i, hi, hmember⟩ := exists_partner h.members m hm
  exact (isEntryOf_iff hmember.name fullName).1 (List.mem_filter.1 hi).2

theorem ClassOf.titledMembers {root e : Xml.Element} {c : Class} (h : ClassOf root fullName e c) :
    TitledMembers fullName c := by
  have htitle (m : Member) (hm : m ∈ c.members) : ∃ letter ∈ ['M', 'P', 'F'], ∃ rest,
      m.name = letter :: ':' :: (fullName ++ '.' :: rest) ∧
        m.title c.nameSpace =
          if c.nameSpace = [] then fullName ++ '.' :: rest else c.className ++ '.' :: rest := by
    obtain ⟨letter, hl, rest, hname⟩ := (h.namesMemberOf m hm).name_eq
    refine ⟨letter, hl, rest, hname, ?_⟩
    rw [h.nameSpace_eq, h.className_eq]
    exact title_of_withoutKind (hname ▸ withoutKind_member hl _)
  refine ⟨htitle, fun m hm n hn => ?_⟩
  obtain ⟨_, -, rest, hm, htm⟩ := htitle m hm
  obtain ⟨_, -, rest', hn, htn⟩ := htitle n hn
  rw [hm, hn, htm, htn]
  -- both titles begin with the same name, and so do both names
  split <;> simp

/-- Whatever the name of the type is, the titles of its members are told by what follows it in their
names, and two members have one title only if they have one name but for the kind. A title is always
the name without its kind or what follows the namespace in it. -/
theorem members_titled (root : Xml.Element) :
    List.Forall₂
      (fun e c => ∃ fullName : Text, fullName ≠ [] ∧ e.attribute? "name" = some ("T:" ++ fullName) ∧
        (c.nameSpace, c.className) = split fullName ∧ TitledMembers fullName c)
      ((memberEntries root).filter isTypeEntry) (classes root) ∧
    ∀ (m : Member) (nameSpace title : Text), m.title nameSpace = title ↔
      Member.Titled nameSpace (withoutKind m.name) title := by
  refine ⟨(classOf_entries root).imp ?_, Member.title_eq_iff⟩
  rintro e c ⟨fullName, hclass⟩
  exact ⟨fullName, hclass.nonempty, hclass.name, hclass.parts, hclass.titledMembers⟩

example :
    (document ("<doc><member name=\"T:A..\"/><member name=\"M:A...b\"/><member name=\"T:.B\"/>" ++
      "<member name=\"P:.B.c\"/></doc>")).map
        (fun cs => cs.map fun c => c.members.map (·.title c.nameSpace)) =
      .ok [[".b".toList], [".B.c".toList]] := by
  decide +kernel

end Classes
end Extract
end ApiDocs
