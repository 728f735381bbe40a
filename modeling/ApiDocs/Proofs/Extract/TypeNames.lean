import ApiDocs.Proofs.Extract.Titles

namespace ApiDocs

namespace Identifier

/-- A dot and a name without dots. -/
def OnlyDotLeads (fullName : Text) : Prop := ∃ name, '.' ∉ name ∧ fullName = '.' :: name

section Join

variable {fullName name : Text}

theorem split_onlyDotLeads (h : '.' ∉ name) : split ('.' :: name) = ([], name) := by
  rcases split_cases ('.' :: name) with ⟨he, hdot⟩ | ⟨-, -, hnone⟩
  · cases hqualifier : (split ('.' :: name)).1 with
    | nil =>
        rw [hqualifier, List.nil_append, List.cons.injEq] at he
        exact Prod.ext hqualifier he.2.symm
    | cons c rest =>
        rw [hqualifier, List.cons_append, List.cons.injEq] at he
        exact absurd (by rw [he.2]; simp) h
  · exact absurd List.mem_cons_self hnone

theorem not_mem_split (fullName : Text) : '.' ∉ (split fullName).2 := by
  rcases split_cases fullName with ⟨-, hdot⟩ | ⟨-, he, hnone⟩
  · exact hdot
  · rw [he]
    exact hnone

theorem split_snd_eq_nil (hne : fullName ≠ []) : (split fullName).2 = [] ↔ ['.'] <:+ fullName := by
  rcases split_cases fullName with ⟨he, hdot⟩ | ⟨-, he, hnone⟩
  · constructor
    · intro hnil
      exact ⟨(split fullName).1, by rw [← hnil]; exact he.symm⟩
    · rintro ⟨start, hstart⟩
      have hlast : fullName.getLast? = some '.' := by rw [← hstart]; simp
      by_contra hlong
      rw [he, List.getLast?_append_cons, List.getLast?_cons_of_ne_nil hlong] at hlast
      exact hdot (List.mem_of_getLast? hlast)
  · rw [he]
    constructor
    · exact fun hnil => absurd hnil hne
    · exact fun hend => absurd (hend.subset List.mem_cons_self) hnone

theorem join_split_iff :
    join (split fullName).1 (split fullName).2 = fullName ↔ ¬ OnlyDotLeads fullName := by
  constructor
  · rintro hjoin ⟨name, hdot, rfl⟩
    rw [split_onlyDotLeads hdot] at hjoin
    exact List.cons_ne_self '.' name hjoin.symm
  · intro h
    rcases split_cases fullName with ⟨he, hdot⟩ | ⟨hnil, hname, -⟩
    · have hqualified : (split fullName).1 ≠ [] := by
        intro hnil
        rw [hnil] at he
        exact h ⟨_, hdot, he⟩
      rw [join, if_neg hqualified, List.append_assoc]
      exact he.symm
    · rw [join, if_pos hnil, hname]

theorem cons_join_split_iff :
    '.' :: join (split fullName).1 (split fullName).2 = fullName ↔ OnlyDotLeads fullName := by
  constructor
  · intro hjoin
    by_contra h
    rw [join_split_iff.2 h] at hjoin
    exact List.cons_ne_self '.' fullName hjoin
  · rintro ⟨name, hdot, rfl⟩
    rw [split_onlyDotLeads hdot]
    rfl

end Join
end Identifier

namespace Extract

open Identifier Xml

/-- The full name of a class is the name of the type it comes from, with one exception: a name
whose only dot is its first character loses this dot. -/
theorem fullName_eq_iff (fullName : Text) (root : Element) :
    '.' ∉ (split fullName).2 ∧
    (join (split fullName).1 (split fullName).2 = fullName ↔ ¬ OnlyDotLeads fullName) ∧
    ('.' :: join (split fullName).1 (split fullName).2 = fullName ↔ OnlyDotLeads fullName) ∧
    List.Forall₂
      (fun e c => ∃ typeName : Text, typeName ≠ [] ∧
        e.attribute? "name" = some ("T:" ++ typeName) ∧ '.' ∉ c.className ∧
        (c.fullName = typeName ↔ ¬ OnlyDotLeads typeName))
      ((memberEntries root).filter isTypeEntry) (classes root) := by
  refine ⟨not_mem_split fullName, join_split_iff, cons_join_split_iff, ?_⟩
  refine (classOf_entries root).imp ?_
  rintro e c ⟨typeName, hclass⟩
  refine ⟨typeName, hclass.nonempty, hclass.name, ?_, ?_⟩
  · rw [hclass.className_eq]
    exact not_mem_split typeName
  · rw [Class.fullName, hclass.nameSpace_eq, hclass.className_eq]
    exact join_split_iff

/-- The type `.B` becomes the class `B` without a namespace. -/
theorem fullName_loses_dot :
    ∃ c, document "<doc><member name=\"T:.B\"/></doc>" = .ok [c] ∧
      (c.nameSpace, c.className) = split ".B" ∧ c.fullName = "B" ∧ c.fullName ≠ ".B" :=
  ⟨⟨"B", [], [], [], []⟩, by decide +kernel⟩

end Extract
end ApiDocs
