import ApiDocs.Proofs.Markdown.Headings
import ApiDocs.Proofs.Namespace.Order
import Mathlib.Algebra.GroupWithZero.Nat
import Mathlib.Data.List.Dedup

namespace ApiDocs.Markdown

/-- The contents have a heading, every namespace has two, every class and every member has one, and
a class with members has one for its table. -/
def headingCount (classes : List Class) : Nat :=
  1 + 2 * (classes.map (·.nameSpace)).dedup.length + classes.length +
    (classes.filter (·.members ≠ [])).length + (classes.map (·.members.length)).sum

theorem length_ofClasses (classes : List Class) :
    (Group.ofClasses classes).length = (classes.map (·.nameSpace)).dedup.length := by
  have hperm : ((Group.ofClasses classes).map (·.nameSpace)).Perm
      (classes.map (·.nameSpace)).dedup := by
    rw [List.perm_ext_iff_of_nodup (Group.nodup_nameSpaces classes) (List.nodup_dedup _)]
    intro nameSpace
    rw [Group.mem_nameSpaces, List.mem_dedup, List.mem_map]
  rw [← hperm.length_eq, List.length_map]

theorem length_classHeadings (classes : List Class) :
    (classes.flatMap classHeadings).length =
      classes.length + (classes.filter (·.members ≠ [])).length +
        (classes.map (·.members.length)).sum := by
  induction classes with
  | nil => rfl
  | cons c classes ih =>
      rw [List.flatMap_cons, List.length_append, ih, classHeadings, tableHeadings, Class.titles,
        List.map_cons, List.sum_cons, List.length_cons]
      cases hm : c.members with
      | nil =>
          rw [List.filter_cons_of_neg (by simp [hm])]
          simp only [List.map_nil, List.append_nil, List.length_cons, List.length_nil]
          omega
      | cons m members =>
          rw [List.filter_cons_of_pos (by simp [hm])]
          simp only [List.cons_append, List.nil_append, List.length_cons, List.length_map]
          omega

theorem length_groupHeadings (groups : List Group) :
    (groups.flatMap groupHeadings).length =
      2 * groups.length + ((groups.flatMap (·.classes)).flatMap classHeadings).length := by
  induction groups with
  | nil => rfl
  | cons g groups ih =>
      rw [List.flatMap_cons, List.length_append, ih, List.flatMap_cons, List.flatMap_append,
        List.length_append, groupHeadings]
      simp only [List.length_cons]
      omega

theorem length_headings (classes : List Class) :
    (headings classes).length = headingCount classes := by
  have hperm := Group.perm_ofClasses classes
  rw [headings, List.length_cons, length_groupHeadings, length_ofClasses, length_classHeadings,
    hperm.length_eq, (hperm.filter _).length_eq, (hperm.map _).sum_nat, headingCount]
  omega

end ApiDocs.Markdown
