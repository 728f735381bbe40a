import ApiDocs.Proofs.Extract.TypeNames
import ApiDocs.Proofs.Html.Links
import ApiDocs.Proofs.Html.Passages
import ApiDocs.Proofs.Namespace.Order

namespace ApiDocs

def AllNamed (classes : List Class) : Prop := ∀ c ∈ classes, c.className ≠ []

theorem allNamed_iff {classes : List Class} :
    AllNamed classes ↔ [] ∉ classes.map (·.className) := by
  rw [AllNamed, List.mem_map, not_exists]
  exact forall_congr' fun c => not_and.symm

namespace Passage

/-- What a passage shows of classes: the heading of one, or the links to those of a namespace, which
come after the heading of the namespace. -/
def classTexts (spelling : Passage → List Fragment) : Passage → List Text
  | className name => shownTexts (spelling (className name))
  | nameSpace name classNames => (shownTexts (spelling (nameSpace name classNames))).tail
  | _ => []

def classNames : Passage → List Text
  | className name => [name]
  | nameSpace _ names => names
  | _ => []

theorem classTexts_eq {spelling : Passage → List Fragment}
    (h : ∀ p, shownTexts (spelling p) = p.texts) (p : Passage) :
    p.classTexts spelling = p.classNames := by
  cases p with
  | className name => exact h _
  | nameSpace name names => exact congrArg List.tail (h _)
  | _ => rfl

end Passage

section Shown

theorem silent_classNames : Silent Passage.classNames := by
  intro p hp
  cases p with
  | nameSpace | className | table | member => cases hp
  | _ => rfl

theorem Group.classNames_passages (g : Group) :
    g.passages.flatMap (Passage.ifFull Passage.classNames) =
      g.classes.map (·.className) ++ g.classes.map (·.className) := by
  have hclass (c : Class) :
      c.passages.flatMap (Passage.ifFull Passage.classNames) = [c.className] := by
    have htable (rows : List MemberRow) : Passage.ifFull Passage.classNames (.table rows) = [] :=
      ite_self _
    rw [Class.flatMap_passages silent_classNames, htable]
    simp [Passage.classNames]
  rw [Group.flatMap_passages, funext hclass, ← List.map_eq_flatMap]
  rfl

theorem mem_classNames_passages {classes : List Class} {name : Text} :
    (∃ p ∈ passages classes, name ∈ p.classNames) ↔ name ∈ classes.map (·.className) := by
  have hperm := (Group.perm_ofClasses classes).map (·.className)
  rw [← List.mem_flatMap, flatMap_passages, funext Group.classNames_passages, ← hperm.mem_iff,
    List.map_flatMap]
  simp only [List.mem_flatMap, List.mem_append, or_self]

theorem classTexts_full_iff {spelling : Passage → List Fragment}
    (h : ∀ p, shownTexts (spelling p) = p.texts) (classes : List Class) :
    (∀ p ∈ passages classes, [] ∉ p.classTexts spelling) ↔ AllNamed classes := by
  rw [allNamed_iff, ← mem_classNames_passages, not_exists]
  simp only [Passage.classTexts_eq h, not_and]

end Shown

namespace Html

theorem escape_eq_nil {s : Text} : escape s = [] ↔ s = [] := by
  constructor
  · exact fun h => escape_inj h
  · rintro rfl
    rfl

theorem idOf_eq_nil {s : Text} : idOf s = [] ↔ s = [] := by
  rw [idOf, escape_eq_nil, Anchor.ofId, List.map_eq_nil_iff]

theorem classIds_full_iff (classes : List Class) :
    (∀ g ∈ (outline (render classes)).groups, ∀ c ∈ g.classes, c.anchor ≠ some []) ↔
      AllNamed classes := by
  rw [outline_render, AllNamed, ← Group.forall_classes_iff, Layout.outline, List.forall_mem_map]
  refine forall₂_congr fun g _ => ?_
  rw [Layout.groupOutline, List.forall_mem_map]
  refine forall₂_congr fun c _ => not_congr ?_
  rw [Layout.classOutline, Option.some.injEq]
  exact idOf_eq_nil

theorem classTargets_full_iff (classes : List Class) :
    (∀ g ∈ (outline (render classes)).groups, .link [] ∉ g.list) ↔ AllNamed classes := by
  have hlist (g : Group) : layout.classList g =
      g.classes.map fun c => .link (idOf c.className) := by
    rw [Layout.classList, Layout.listChapter, Layout.links, List.map_map]
    rfl
  rw [outline_render, AllNamed, ← Group.forall_classes_iff, Layout.outline, List.forall_mem_map]
  refine forall₂_congr fun g _ => ?_
  rw [Layout.groupOutline, hlist, List.mem_map, not_exists]
  refine forall_congr' fun c => not_and.trans (imp_congr_right fun _ => not_congr ?_)
  rw [Mark.link.injEq]
  exact idOf_eq_nil

end Html

/-- Where documents show their classes. A Markdown document after its contents and a page inside
its content pane are written as passages. Class headings and class links are never empty exactly if all
classes have names, and so it is with the ids of class sections and the targets of class links. -/
structure ShowsClasses (classes : List Class) : Prop where
  markdown_eq : ∀ style, Markdown.render style classes =
    Markdown.contents style (Group.ofClasses classes) ++
      (passages classes).flatMap fun p => written Fragment.markdown (Markdown.spelling style p)
  markdown_iff : ∀ style,
    (∀ p ∈ passages classes, [] ∉ p.classTexts (Markdown.spelling style)) ↔ AllNamed classes
  page_eq : Html.render classes = Html.head ++ "<body>\n" ++
    Html.sidebar (Group.forest (Group.ofClasses classes)) ++ "<div class=\"content\">\n" ++
    (passages classes).flatMap (fun p => written Fragment.html (Html.spelling p)) ++ "</div>\n" ++
    "</body>\n</html>\n"
  page_iff : (∀ p ∈ passages classes, [] ∉ p.classTexts Html.spelling) ↔ AllNamed classes
  ids_iff : (∀ g ∈ (Html.outline (Html.render classes)).groups,
    ∀ c ∈ g.classes, c.anchor ≠ some []) ↔ AllNamed classes
  targets_iff : (∀ g ∈ (Html.outline (Html.render classes)).groups, .link [] ∉ g.list) ↔
    AllNamed classes

theorem showsClasses (classes : List Class) : ShowsClasses classes where
  markdown_eq style := Markdown.render_eq_passages style classes
  markdown_iff style := classTexts_full_iff (Markdown.shown_spelling style) classes
  page_eq := Html.render_eq_passages classes
  page_iff := classTexts_full_iff Html.shown_spelling classes
  ids_iff := Html.classIds_full_iff classes
  targets_iff := Html.classTargets_full_iff classes

namespace Extract

open Identifier Xml

variable {root : Element}

theorem title_ne_nil {c : Class} (hc : c ∈ classes root) {m : Member} (hm : m ∈ c.members) :
    m.title c.nameSpace ≠ [] := by
  obtain ⟨e, -, fullName, hclass⟩ := exists_partner (classOf_entries root) c hc
  obtain ⟨rest, -, htitle⟩ := title_of_member (hclass.namesMemberOf m hm)
  rw [hclass.nameSpace_eq, htitle]
  split <;> simp

theorem headingIds_full_iff (root : Element) :
    [] ∉ Html.headingIds (Html.render (classes root)) ↔
      AllNamed (classes root) ∧ ∀ c ∈ classes root, c.nameSpace ≠ [] := by
  rw [(Html.shows_render (classes root)).ids, List.mem_map]
  simp only [Html.idOf_eq_nil, Group.mem_headingNames]
  constructor
  · intro h
    exact ⟨fun c hc hnil => h ⟨_, .className hc, hnil⟩, fun c hc hnil => h ⟨_, .nameSpace hc, hnil⟩⟩
  · rintro ⟨hnamed, hspaced⟩ ⟨name, hname, hnil⟩
    cases hname with
    | nameSpace hc => exact hspaced _ hc hnil
    | className hc => exact hnamed _ hc hnil
    | title hc hm => exact title_ne_nil hc hm hnil

def NoDotEnds (root : Element) : Prop :=
  ∀ e ∈ memberEntries root, ∀ fullName : Text, fullName ≠ [] →
    e.attribute? "name" = some ("T:" ++ fullName) → ¬ ['.'] <:+ fullName

theorem className_eq_nil {e : Element} {c : Class} {fullName : Text}
    (h : ClassOf root fullName e c) : c.className = [] ↔ ['.'] <:+ fullName := by
  rw [h.className_eq]
  exact split_snd_eq_nil h.nonempty

theorem allNamed_classes_iff (root : Element) : AllNamed (classes root) ↔ NoDotEnds root := by
  have hclasses := classOf_entries root
  constructor
  · intro h e he fullName hne hname hends
    have htype : isTypeEntry e = true := (isTypeEntry_iff hname).2 ⟨fullName, hne, rfl⟩
    obtain ⟨c, hc, typeName, hclass⟩ := exists_partner hclasses.flip e (List.mem_filter.2 ⟨he, htype⟩)
    have hsame : typeName = fullName :=
      List.append_cancel_left (Option.some.inj (hclass.name.symm.trans hname))
    exact h c hc ((className_eq_nil hclass).2 (hsame ▸ hends))
  · intro h c hc hnil
    obtain ⟨e, he, fullName, hclass⟩ := exists_partner hclasses c hc
    exact h e (List.mem_filter.1 he).1 fullName hclass.nonempty hclass.name
      ((className_eq_nil hclass).1 hnil)

/-- A class has no name exactly if the name of its type ends with a dot. Where there is no such
class, all class headings, class links and ids of class sections have a text in them, and only
there. Every id of a page has one exactly if, besides, every class has a namespace. -/
theorem classNames_full_iff (root : Element) :
    List.Forall₂
      (fun e c => ∃ fullName : Text, fullName ≠ [] ∧
        e.attribute? "name" = some ("T:" ++ fullName) ∧ (c.className = [] ↔ ['.'] <:+ fullName))
      ((memberEntries root).filter isTypeEntry) (classes root) ∧
    (AllNamed (classes root) ↔ NoDotEnds root) ∧
    ShowsClasses (classes root) ∧
    ([] ∉ Html.headingIds (Html.render (classes root)) ↔
      AllNamed (classes root) ∧ ∀ c ∈ classes root, c.nameSpace ≠ []) := by
  refine ⟨(classOf_entries root).imp ?_, allNamed_classes_iff root, showsClasses (classes root),
    headingIds_full_iff root⟩
  rintro e c ⟨fullName, hclass⟩
  exact ⟨fullName, hclass.nonempty, hclass.name, className_eq_nil hclass⟩

/-- The type `A.` becomes a class without a name. -/
theorem className_empty_after_dot :
    ∃ c, document "<doc><member name=\"T:A.\"/></doc>" = .ok [c] ∧ c.className = [] ∧
      Html.headingIds (Html.render [c]) = ["A", ""] := by
  refine ⟨⟨[], "A", [], [], []⟩, by decide +kernel, rfl, ?_⟩
  rw [(Html.shows_render _).ids]
  decide +kernel

end Extract
end ApiDocs
