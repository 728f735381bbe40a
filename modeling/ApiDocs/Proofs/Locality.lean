import ApiDocs.Html.Page
import ApiDocs.Markdown
import ApiDocs.Proofs.Namespace.Partition

namespace ApiDocs

/-- A document divided by namespace: what stands before the namespaces, the part of each under its
name, and the end. -/
structure Division where
  front : Text
  parts : List (Text × Text)
  back : Text

namespace Division

def write (d : Division) : Text := d.front ++ d.parts.flatMap (·.2) ++ d.back

def without (nameSpace : Text) (d : Division) : List (Text × Text) :=
  d.parts.filter (·.1 ≠ nameSpace)

def ofGroups (front : List Group → Text) (part : Group → Text) (back : Text)
    (groups : List Group) : Division where
  front := front groups
  parts := groups.map fun g => (g.nameSpace, part g)
  back := back

end Division

/-- Every document that `render` writes is divided: each namespace that occurs has one part, in
order, which `part` writes from the classes of that namespace. A further class, wherever it stands,
leaves the parts of all other namespaces as they were. -/
structure Divides (part : Group → Text) (render : List Class → Text)
    (divide : List Class → Division) : Prop where
  write_eq : ∀ classes, (divide classes).write = render classes
  increasing : ∀ classes, ((divide classes).parts.map (·.1)).Pairwise (· < ·)
  mem_iff : ∀ classes n, n ∈ (divide classes).parts.map (·.1) ↔ ∃ c ∈ classes, c.nameSpace = n
  part_eq : ∀ classes, ∀ p ∈ (divide classes).parts, p.2 = part ⟨p.1, classesIn p.1 classes⟩
  unchanged : ∀ front back c,
    (divide (front ++ c :: back)).without c.nameSpace =
      (divide (front ++ back)).without c.nameSpace

section Divided

variable (front : List Group → Text) (part : Group → Text) (back : Text)

theorem parts_ofGroups (classes : List Class) :
    (Division.ofGroups front part back (Group.ofClasses classes)).parts =
      (nameSpacesOf classes).map fun n => (n, part ⟨n, classesIn n classes⟩) := by
  rw [Division.ofGroups, Group.ofClasses_eq, List.map_map]
  rfl

theorem keys_ofGroups (classes : List Class) :
    (Division.ofGroups front part back (Group.ofClasses classes)).parts.map (·.1) =
      nameSpacesOf classes := by
  rw [parts_ofGroups, List.map_map]
  exact List.map_id _

theorem without_ofGroups (classes : List Class) (nameSpace : Text) :
    (Division.ofGroups front part back (Group.ofClasses classes)).without nameSpace =
      ((nameSpacesOf classes).filter (· ≠ nameSpace)).map
        fun n => (n, part ⟨n, classesIn n classes⟩) := by
  rw [Division.without, parts_ofGroups, List.filter_map]
  rfl

theorem divides_ofGroups {render : List Class → Text}
    (h : ∀ classes, (Division.ofGroups front part back (Group.ofClasses classes)).write =
      render classes) :
    Divides part render fun classes =>
      Division.ofGroups front part back (Group.ofClasses classes) := by
  constructor
  case write_eq => exact h
  case increasing =>
    intro classes
    rw [keys_ofGroups]
    exact increasing_nameSpacesOf classes
  case mem_iff =>
    intro classes n
    rw [keys_ofGroups, mem_nameSpacesOf, classesIn_ne_nil]
  case part_eq =>
    intro classes p hp
    rw [parts_ofGroups] at hp
    obtain ⟨n, -, rfl⟩ := List.mem_map.1 hp
    rfl
  case unchanged =>
    intro before after c
    have hother (n : Text) (hn : decide (n ≠ c.nameSpace) = true) :
        classesIn n (before ++ c :: after) = classesIn n (before ++ after) :=
      classesIn_of_added (of_decide_eq_true hn) before after
    rw [without_ofGroups, without_ofGroups, filter_nameSpacesOf hother]
    refine List.map_congr_left fun n hn => ?_
    rw [hother n (List.mem_filter.1 hn).2]

end Divided

namespace Markdown

def division (style : HeadingStyle) (classes : List Class) : Division :=
  .ofGroups (contents style) (groupSection style) [] (Group.ofClasses classes)

theorem write_division (style : HeadingStyle) (classes : List Class) :
    (division style classes).write = render style classes := by
  rw [division, Division.ofGroups, Division.write, List.flatMap_map, List.append_nil]
  rfl

end Markdown

namespace Html

def front (groups : List Group) : Text :=
  head ++ "<body>\n" ++ sidebar (Group.forest groups) ++ "<div class=\"content\">\n"

def back : Text := ("</div>\n" : Text) ++ "</body>\n</html>\n"

def division (classes : List Class) : Division :=
  .ofGroups front groupSection back (Group.ofClasses classes)

theorem write_division (classes : List Class) : (division classes).write = render classes := by
  unfold division Division.ofGroups Division.write front back render pane
  simp only [List.flatMap_map, List.append_assoc]

end Html

/-- A document depends on the order of the classes within each namespace only, and the part of a
namespace on the classes of that namespace only. -/
theorem renderings_local :
    (∀ classes others, (∀ n, classesIn n classes = classesIn n others) →
      (∀ style, Markdown.render style classes = Markdown.render style others) ∧
        Html.render classes = Html.render others) ∧
    (∀ style, Divides (Markdown.groupSection style) (Markdown.render style)
      (Markdown.division style)) ∧
    Divides Html.groupSection Html.render Html.division := by
  refine ⟨fun classes others h => ?_, fun style => ?_, ?_⟩
  · have hgroups := Group.ofClasses_congr h
    constructor
    · intro style
      rw [Markdown.render, Markdown.render, hgroups]
    · rw [Html.render, Html.render, hgroups]
  · exact divides_ofGroups _ _ _ (Markdown.write_division style)
  · exact divides_ofGroups _ _ _ Html.write_division

/-- Two namespaces, with their classes one after another and mixed. -/
theorem renderings_local_mixed :
    let a : Class := ⟨"A", "M", [], [], []⟩
    let b : Class := ⟨"B", "M", [], [], []⟩
    let c : Class := ⟨"C", "N", [], [], []⟩
    (∀ n, classesIn n [a, b, c] = classesIn n [c, a, b]) ∧
      Html.render [a, b, c] = Html.render [c, a, b] := by
  intro a b c
  have h (n : Text) : classesIn n [a, b, c] = classesIn n [c, a, b] := by
    by_cases hm : n = "M"
    · subst hm
      decide
    · have hnot : ¬ ("M" : Text) = n := Ne.symm hm
      simp only [a, b, c, classesIn_cons, if_neg hnot, List.nil_append]
  exact ⟨h, (renderings_local.1 [a, b, c] [c, a, b] h).2⟩

end ApiDocs
