import ApiDocs.Proofs.Namespace.Names
import ApiDocs.Proofs.Passages
import Mathlib.Data.List.Basic

namespace ApiDocs

inductive Mark
  | heading (level : Nat) (anchor : Option Text)
  | link (target : Text)
deriving DecidableEq

namespace Mark

def opens (level : Nat) : Mark → Bool
  | heading l _ => l = level
  | link _ => false

def target? : Mark → Option Text
  | heading _ _ => none
  | link target => some target

def anchor? : Mark → Option Text
  | heading _ anchor => anchor
  | link _ => none

end Mark

/-- A heading and what comes before the next heading of its level. -/
structure Chapter where
  anchor : Option Text
  marks : List Mark

def Chapter.write (level : Nat) (k : Chapter) : List Mark := .heading level k.anchor :: k.marks

def targets (ms : List Mark) : List Text := ms.filterMap Mark.target?

def anchors (ms : List Mark) : List Text := ms.filterMap Mark.anchor?

def before (level : Nat) (ms : List Mark) : List Mark := ms.takeWhile fun m => !m.opens level

def chapters (level : Nat) : List Mark → List Chapter
  | [] => []
  | m :: ms =>
    if m.opens level then ⟨m.anchor?, before level ms⟩ :: chapters level ms else chapters level ms

/-- The marks up to the second heading of a level, which are those of a list with a heading of its
own, and the chapters after it. -/
def listed (level : Nat) (ms : List Mark) : List Mark × List Chapter :=
  match chapters level ms with
  | [] => (before level ms, [])
  | list :: rest => (before level ms ++ list.write level, rest)

structure ClassOutline where
  anchor : Option Text
  table : List Mark
  members : List Chapter

structure GroupOutline where
  anchor : Option Text
  list : List Mark
  classes : List ClassOutline

/-- The marks of a document, grouped. Every mark is in one of the groups. -/
structure Outline where
  contents : List Mark
  groups : List GroupOutline

def readClass (level : Nat) (k : Chapter) : ClassOutline :=
  let (table, members) := listed level k.marks
  ⟨k.anchor, table, members⟩

/-- A class list stands under a heading of its own or directly under the one of its namespace. -/
def readGroup (level : Nat) (titled : Bool) (k : Chapter) : GroupOutline :=
  let (list, classes) :=
    if titled then listed level k.marks else (before level k.marks, chapters level k.marks)
  ⟨k.anchor, list, classes.map (readClass (level + 1))⟩

def readOutline (level : Nat) (titled : Bool) (ms : List Mark) : Outline :=
  let (contents, groups) := listed level ms
  ⟨contents, groups.map (readGroup (level + 1) titled)⟩

def LinkedFrom (ms : List Mark) (anchor : Option Text) : Prop :=
  ∃ target, anchor = some target ∧ .link target ∈ ms

/-- Every namespace is linked from the contents, every class from the list of its namespace and
every member from the table of its class. -/
structure Outline.Linked (o : Outline) : Prop where
  groups : ∀ g ∈ o.groups, LinkedFrom o.contents g.anchor
  classes : ∀ g ∈ o.groups, ∀ c ∈ g.classes, LinkedFrom g.list c.anchor
  members : ∀ g ∈ o.groups, ∀ c ∈ g.classes, ∀ m ∈ c.members, LinkedFrom c.table m.anchor

section Chapters

variable {level : Nat} {ms rest : List Mark}

def Within (level : Nat) (ms : List Mark) : Prop := ∀ m ∈ ms, m.opens level = false

theorem before_append (h : Within level ms) : before level (ms ++ rest) = ms ++ before level rest :=
  List.takeWhile_append_of_pos fun m hm => by rw [h m hm]; rfl

theorem chapters_append (h : Within level ms) :
    chapters level (ms ++ rest) = chapters level rest := by
  induction ms with
  | nil => rfl
  | cons m ms ih =>
      obtain ⟨hm, hms⟩ := List.forall_mem_cons.1 h
      rw [List.cons_append, chapters, hm, if_neg Bool.false_ne_true, ih hms]

theorem before_write (ks : List Chapter) : before level (ks.flatMap (Chapter.write level)) = [] := by
  cases ks with
  | nil => rfl
  | cons k ks =>
      rw [List.flatMap_cons, Chapter.write, List.cons_append, before, List.takeWhile_cons_of_neg]
      simp [Mark.opens]

/-- Chapters are read back as they were written, whatever comes before them. -/
theorem chapters_write (h : Within level ms) (ks : List Chapter)
    (hks : ∀ k ∈ ks, Within level k.marks) :
    chapters level (ms ++ ks.flatMap (Chapter.write level)) = ks ∧
      before level (ms ++ ks.flatMap (Chapter.write level)) = ms := by
  constructor
  · rw [chapters_append h]
    induction ks with
    | nil => rfl
    | cons k ks ih =>
        obtain ⟨hk, hks⟩ := List.forall_mem_cons.1 hks
        have hopens : (Mark.heading level k.anchor).opens level = true := decide_eq_true rfl
        rw [List.flatMap_cons, Chapter.write, List.cons_append, chapters, if_pos hopens,
          chapters_append hk, ih hks, before_append hk, before_write, List.append_nil]
        rfl
  · rw [before_append h, before_write, List.append_nil]

theorem listed_write (list : Chapter) (ks : List Chapter)
    (h : ∀ k ∈ list :: ks, Within level k.marks) :
    listed level (list.write level ++ ks.flatMap (Chapter.write level)) =
      (list.write level, ks) := by
  obtain ⟨hchapters, hbefore⟩ := chapters_write (List.forall_mem_nil _) (list :: ks) h
  rw [List.nil_append, List.flatMap_cons] at hchapters hbefore
  rw [listed, hchapters, hbefore]
  rfl

theorem within_links {α : Type} (level : Nat) (xs : List α) (f : α → Text) :
    Within level (xs.map fun x => .link (f x)) := by
  intro m hm
  obtain ⟨x, -, rfl⟩ := List.mem_map.1 hm
  rfl

theorem within_write {level' : Nat} (h : level' ≠ level) {ks : List Chapter}
    (hks : ∀ k ∈ ks, Within level k.marks) : Within level (ks.flatMap (Chapter.write level')) := by
  intro m hm
  obtain ⟨k, hk, hm⟩ := List.mem_flatMap.1 hm
  rcases List.mem_cons.1 hm with rfl | hm
  · exact decide_eq_false h
  · exact hks k hk m hm

theorem Within.append (h : Within level ms) (hr : Within level rest) : Within level (ms ++ rest) :=
  List.forall_mem_append.2 ⟨h, hr⟩

end Chapters

/-- Where a format has its headings: the level of the namespaces, whether class lists have headings
of their own, the anchors of names, and those of the other headings. -/
structure Layout where
  level : Nat
  titled : Bool
  anchor : Text → Text
  title : Text → Option Text

namespace Layout

variable (l : Layout)

def links (names : List Text) : List Mark := names.map fun name => .link (l.anchor name)

def memberChapter (title : Text) : Chapter := ⟨some (l.anchor title), []⟩

def tableChapters (c : Class) : List Chapter :=
  match c.members with
  | [] => []
  | _ :: _ => [⟨l.title "Members", l.links c.titles⟩]

def classChapter (c : Class) : Chapter :=
  ⟨some (l.anchor c.className),
    (l.tableChapters c ++ c.titles.map l.memberChapter).flatMap (Chapter.write (l.level + 2))⟩

def listChapter (g : Group) : Chapter :=
  ⟨l.title "Table of Contents", l.links (g.classes.map (·.className))⟩

def classList (g : Group) : List Mark :=
  if l.titled then (l.listChapter g).write (l.level + 1) else (l.listChapter g).marks

def groupChapter (g : Group) : Chapter :=
  ⟨some (l.anchor g.nameSpace),
    l.classList g ++ (g.classes.map l.classChapter).flatMap (Chapter.write (l.level + 1))⟩

def contentsChapter (groups : List Group) : Chapter :=
  ⟨l.title "Table of Contents", l.links (Group.forest groups).fullNames⟩

def marks (groups : List Group) : List Mark :=
  (l.contentsChapter groups).write l.level ++
    (groups.map l.groupChapter).flatMap (Chapter.write l.level)

def passageMarks : Passage → List Mark
  | .nameSpace name classNames =>
    .heading l.level (some (l.anchor name)) ::
      if l.titled then
        .heading (l.level + 1) (l.title "Table of Contents") :: l.links classNames
      else l.links classNames
  | .className name => [.heading (l.level + 1) (some (l.anchor name))]
  | .table rows => .heading (l.level + 2) (l.title "Members") :: l.links (rows.map (·.title))
  | .member title => [.heading (l.level + 2) (some (l.anchor title))]
  | _ => []

def classOutline (c : Class) : ClassOutline :=
  ⟨some (l.anchor c.className), (l.tableChapters c).flatMap (Chapter.write (l.level + 2)),
    c.titles.map l.memberChapter⟩

def groupOutline (g : Group) : GroupOutline :=
  ⟨some (l.anchor g.nameSpace), l.classList g, g.classes.map l.classOutline⟩

def outline (groups : List Group) : Outline :=
  ⟨(l.contentsChapter groups).write l.level, groups.map l.groupOutline⟩

section Passages

theorem silent_passageMarks : Silent l.passageMarks := by
  intro p hp
  cases p with
  | nameSpace | className | table | member => cases hp
  | _ => rfl

theorem passageMarks_table (c : Class) :
    Passage.ifFull l.passageMarks (.table (c.members.map (MemberRow.ofMember c.nameSpace))) =
      (l.tableChapters c).flatMap (Chapter.write (l.level + 2)) := by
  have htitles : (c.members.map (MemberRow.ofMember c.nameSpace)).map (·.title) = c.titles := by
    rw [Class.titles, List.map_map]
    rfl
  rw [tableChapters]
  cases hm : c.members with
  | nil => rfl
  | cons m members =>
      rw [hm] at htitles
      rw [Passage.ifFull_of_full rfl, passageMarks, htitles, List.flatMap_singleton]
      rfl

theorem passageMarks_class (c : Class) :
    c.passages.flatMap (Passage.ifFull l.passageMarks) = (l.classChapter c).write (l.level + 1) := by
  rw [Class.flatMap_passages l.silent_passageMarks, passageMarks_table, classChapter, Class.titles,
    List.map_map, Chapter.write, List.flatMap_append, List.flatMap_map]
  rfl

theorem passageMarks_group (g : Group) :
    g.passages.flatMap (Passage.ifFull l.passageMarks) = (l.groupChapter g).write l.level := by
  rw [Group.flatMap_passages, funext l.passageMarks_class, groupChapter, Chapter.write,
    List.flatMap_map, classList, passageMarks]
  rfl

theorem marks_eq_passages (classes : List Class) :
    l.marks (Group.ofClasses classes) =
      (l.contentsChapter (Group.ofClasses classes)).write l.level ++
        (passages classes).flatMap l.passageMarks := by
  rw [marks, flatMap_passages, funext l.passageMarks_group, List.flatMap_map]

end Passages

section Linked

variable {l}

theorem mem_links {name : Text} {names : List Text} (h : name ∈ names) :
    .link (l.anchor name) ∈ l.links names :=
  List.mem_map_of_mem h

theorem mem_fullNames {classes : List Class} {g : Group} (h : g ∈ Group.ofClasses classes) :
    g.nameSpace ∈ (Group.forest (Group.ofClasses classes)).fullNames := by
  obtain ⟨c, hc⟩ := List.exists_mem_of_ne_nil _ (Group.classes_ne_nil classes g h)
  obtain ⟨hm, he⟩ := Group.nameSpace_of_mem h hc
  exact (Group.mem_fullNames_forest classes _).2 ⟨c, hm, he ▸ List.prefix_refl _⟩

theorem linked_class {g : Group} {c : Class} (h : c ∈ g.classes) :
    LinkedFrom (l.classList g) (l.classOutline c).anchor := by
  have hlink := mem_links (l := l) (List.mem_map_of_mem (f := (·.className)) h)
  refine ⟨_, rfl, ?_⟩
  rw [classList]
  split
  · exact List.mem_cons_of_mem _ hlink
  · exact hlink

theorem linked_member {c : Class} {title : Text} (h : title ∈ c.titles) :
    LinkedFrom (l.classOutline c).table (l.memberChapter title).anchor := by
  refine ⟨_, rfl, ?_⟩
  rw [classOutline, tableChapters]
  cases hm : c.members with
  | nil =>
      rw [Class.titles, hm] at h
      cases h
  | cons m members =>
      simp only [List.flatMap_singleton]
      exact List.mem_cons_of_mem _ (mem_links h)

theorem linked_outline (l : Layout) (classes : List Class) :
    (l.outline (Group.ofClasses classes)).Linked := by
  constructor
  · intro g hg
    obtain ⟨group, hgroup, rfl⟩ := List.mem_map.1 hg
    exact ⟨_, rfl, List.mem_cons_of_mem _ (mem_links (mem_fullNames hgroup))⟩
  · intro g hg c hc
    obtain ⟨group, -, rfl⟩ := List.mem_map.1 hg
    obtain ⟨d, hd, rfl⟩ := List.mem_map.1 hc
    exact linked_class hd
  · intro g hg c hc m hm
    obtain ⟨group, -, rfl⟩ := List.mem_map.1 hg
    obtain ⟨d, -, rfl⟩ := List.mem_map.1 hc
    obtain ⟨title, htitle, rfl⟩ := List.mem_map.1 hm
    exact linked_member htitle

end Linked

section Reading

theorem within_sections (level : Nat) (c : Class) :
    ∀ k ∈ l.tableChapters c ++ c.titles.map l.memberChapter, Within level k.marks := by
  intro k hk
  rcases List.mem_append.1 hk with hk | hk
  · rw [tableChapters] at hk
    cases hm : c.members with
    | nil => rw [hm] at hk; cases hk
    | cons m members =>
        rw [hm] at hk
        obtain rfl := List.mem_singleton.1 hk
        exact within_links level _ _
  · obtain ⟨title, -, rfl⟩ := List.mem_map.1 hk
    exact List.forall_mem_nil _

theorem within_class (level : Nat) (h : l.level + 2 ≠ level) (g : Group) :
    ∀ k ∈ g.classes.map l.classChapter, Within level k.marks := by
  intro k hk
  obtain ⟨c, -, rfl⟩ := List.mem_map.1 hk
  exact within_write h (l.within_sections level c)

theorem within_group (g : Group) : Within l.level (l.groupChapter g).marks := by
  have hlist : Within l.level (l.classList g) := by
    rw [classList]
    split
    · exact List.forall_mem_cons.2 ⟨decide_eq_false (Nat.succ_ne_self _), within_links _ _ _⟩
    · exact within_links _ _ _
  exact hlist.append (within_write (Nat.succ_ne_self _) (l.within_class l.level (by omega) g))

theorem read_class (c : Class) : readClass (l.level + 2) (l.classChapter c) = l.classOutline c := by
  have hsections := l.within_sections (l.level + 2) c
  rw [readClass, classChapter, classOutline]
  rw [tableChapters] at hsections ⊢
  cases hm : c.members with
  | nil => rw [Class.titles, hm]; rfl
  | cons m members =>
      rw [hm] at hsections
      simp only [List.singleton_append, List.flatMap_cons, List.flatMap_nil, List.append_nil]
        at hsections ⊢
      rw [listed_write _ _ hsections]

theorem read_group (g : Group) :
    readGroup (l.level + 1) l.titled (l.groupChapter g) = l.groupOutline g := by
  have hlist : Within (l.level + 1) (l.listChapter g).marks := within_links _ _ _
  have hclasses := l.within_class (l.level + 1) (Nat.succ_ne_self _) g
  have hread : (g.classes.map l.classChapter).map (readClass (l.level + 2)) =
      g.classes.map l.classOutline := by
    rw [List.map_map]
    exact List.map_congr_left fun c _ => l.read_class c
  rw [readGroup, groupChapter, groupOutline, classList]
  cases l.titled with
  | false =>
      obtain ⟨hchapters, hbefore⟩ := chapters_write hlist _ hclasses
      simp only [Bool.false_eq_true, if_false, hchapters, hbefore, hread]
  | true =>
      have hall := listed_write _ _ (List.forall_mem_cons.2 ⟨hlist, hclasses⟩)
      simp only [if_true, hall, hread]

/-- Read back from its headings and links, a document has the outline of its groups. -/
theorem read_marks (groups : List Group) :
    readOutline l.level l.titled (l.marks groups) = l.outline groups := by
  have hall : ∀ k ∈ l.contentsChapter groups :: groups.map l.groupChapter, Within l.level k.marks := by
    refine List.forall_mem_cons.2 ⟨within_links _ _ _, fun k hk => ?_⟩
    obtain ⟨g, -, rfl⟩ := List.mem_map.1 hk
    exact l.within_group g
  have hread : (groups.map l.groupChapter).map (readGroup (l.level + 1) l.titled) =
      groups.map l.groupOutline := by
    rw [List.map_map]
    exact List.map_congr_left fun g _ => l.read_group g
  rw [readOutline, marks, listed_write _ _ hall, outline]
  simp only [hread]

end Reading

section Lists

theorem targets_links (names : List Text) : targets (l.links names) = names.map l.anchor := by
  rw [targets, links, List.filterMap_map]
  exact List.filterMap_eq_map ▸ rfl

theorem anchors_links (names : List Text) : anchors (l.links names) = [] := by
  rw [anchors, links, List.filterMap_map]
  exact List.filterMap_eq_nil_iff.2 fun _ _ => rfl

theorem targets_append (ms ns : List Mark) : targets (ms ++ ns) = targets ms ++ targets ns :=
  List.filterMap_append

theorem anchors_append (ms ns : List Mark) : anchors (ms ++ ns) = anchors ms ++ anchors ns :=
  List.filterMap_append

theorem targets_chapters (level : Nat) (ks : List Chapter) :
    targets (ks.flatMap (Chapter.write level)) = ks.flatMap fun k => targets k.marks := by
  rw [targets, List.filterMap_flatMap]
  rfl

theorem anchors_write (level : Nat) (k : Chapter) :
    anchors (k.write level) = k.anchor.toList ++ anchors k.marks := by
  rw [anchors, Chapter.write, List.filterMap_cons, Mark.anchor?]
  cases k.anchor <;> rfl

theorem anchors_chapters (level : Nat) (ks : List Chapter) :
    anchors (ks.flatMap (Chapter.write level)) =
      ks.flatMap fun k => k.anchor.toList ++ anchors k.marks := by
  rw [anchors, List.filterMap_flatMap]
  exact List.flatMap_congr fun k _ => anchors_write level k

theorem targets_class (c : Class) : targets (l.classChapter c).marks = c.titles.map l.anchor := by
  have hmembers : (c.titles.map l.memberChapter).flatMap (fun k => targets k.marks) = [] := by
    rw [List.flatMap_map]
    exact List.flatMap_eq_nil_iff.2 fun _ _ => rfl
  rw [classChapter, targets_chapters, List.flatMap_append, hmembers, List.append_nil, tableChapters,
    Class.titles]
  cases c.members with
  | nil => rfl
  | cons m members =>
      simp only [List.flatMap_singleton]
      exact l.targets_links _

theorem targets_group (g : Group) : targets (l.groupChapter g).marks = g.linkedNames.map l.anchor := by
  have hlist : targets (l.classList g) = (g.classes.map (·.className)).map l.anchor := by
    rw [classList]
    split <;> exact l.targets_links _
  rw [groupChapter, targets_append, hlist, targets_chapters, List.flatMap_map, Group.linkedNames,
    List.map_append, List.map_flatMap]
  exact congrArg _ (List.flatMap_congr fun c _ => l.targets_class c)

theorem targets_marks (groups : List Group) :
    targets (l.marks groups) =
      ((Group.forest groups).fullNames ++ groups.flatMap Group.linkedNames).map l.anchor := by
  have hcontents : targets ((l.contentsChapter groups).write l.level) =
      (Group.forest groups).fullNames.map l.anchor := l.targets_links _
  rw [marks, targets_append, hcontents, targets_chapters, List.flatMap_map, List.map_append,
    List.map_flatMap]
  exact congrArg _ (List.flatMap_congr fun g _ => l.targets_group g)

section Untitled

variable (h : ∀ text, l.title text = none)
include h

theorem anchors_class (c : Class) : anchors (l.classChapter c).marks = c.titles.map l.anchor := by
  have htable : (l.tableChapters c).flatMap (fun k => k.anchor.toList ++ anchors k.marks) = [] := by
    rw [tableChapters]
    cases c.members with
    | nil => rfl
    | cons m members => simp only [List.flatMap_singleton, h, anchors_links]; rfl
  rw [classChapter, anchors_chapters, List.flatMap_append, htable, List.nil_append,
    List.flatMap_map, List.map_eq_flatMap]
  rfl

theorem anchors_group (g : Group) :
    anchors (l.groupChapter g).marks =
      (g.classes.flatMap fun c => c.className :: c.titles).map l.anchor := by
  have hlist : anchors (l.classList g) = [] := by
    rw [classList]
    split
    · rw [anchors_write, listChapter, h, anchors_links]
      rfl
    · exact l.anchors_links _
  rw [groupChapter, anchors_append, hlist, List.nil_append, anchors_chapters, List.flatMap_map,
    List.map_flatMap]
  exact List.flatMap_congr fun c _ => congrArg (l.anchor c.className :: ·) (l.anchors_class h c)

theorem anchors_marks (groups : List Group) :
    anchors (l.marks groups) = (groups.flatMap Group.headingNames).map l.anchor := by
  have hcontents : anchors ((l.contentsChapter groups).write l.level) = [] := by
    rw [anchors_write, contentsChapter, h, anchors_links]
    rfl
  rw [marks, anchors_append, hcontents, List.nil_append, anchors_chapters, List.flatMap_map,
    List.map_flatMap]
  exact List.flatMap_congr fun g _ => congrArg (l.anchor g.nameSpace :: ·) (l.anchors_group h g)

end Untitled
end Lists
end Layout
end ApiDocs
