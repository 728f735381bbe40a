import ApiDocs.Proofs.Html.Elements
import ApiDocs.Proofs.Html.WellFormed
import Mathlib.Data.List.Forall2

namespace ApiDocs

section Relations

/-- The same member with other texts: texts that are there stay there, and lists keep their
lengths. -/
structure Member.Reworded (m m' : Member) : Prop where
  name : m.name = m'.name
  inheritDoc : m.inheritDoc = m'.inheritDoc
  summary : m.summary = [] ↔ m'.summary = []
  remarks : m.remarks = [] ↔ m'.remarks = []
  returns : m.returns = [] ↔ m'.returns = []
  value : m.value = [] ↔ m'.value = []
  permission : m.permission = [] ↔ m'.permission = []
  overloads : m.overloads = [] ↔ m'.overloads = []
  parameters : m.parameters.length = m'.parameters.length
  typeParameters : m.typeParameters.length = m'.typeParameters.length
  exceptions : m.exceptions.length = m'.exceptions.length
  seeAlso : m.seeAlso.length = m'.seeAlso.length
  examples : m.examples.length = m'.examples.length
  lists : m.lists.length = m'.lists.length

structure Class.Reworded (c c' : Class) : Prop where
  className : c.className = c'.className
  nameSpace : c.nameSpace = c'.nameSpace
  summary : c.summary = [] ↔ c'.summary = []
  remarks : c.remarks = [] ↔ c'.remarks = []
  members : List.Forall₂ Member.Reworded c.members c'.members

structure Group.Reworded (g g' : Group) : Prop where
  nameSpace : g.nameSpace = g'.nameSpace
  classes : List.Forall₂ Class.Reworded g.classes g'.classes

theorem Member.Reworded.title {m m' : Member} (h : m.Reworded m') (nameSpace : Text) :
    m.title nameSpace = m'.title nameSpace := by
  rw [Member.title, Member.title, h.name]

theorem Group.reworded_insert {groups groups' : List Group} {c c' : Class}
    (h : List.Forall₂ Group.Reworded groups groups') (hc : c.Reworded c') :
    List.Forall₂ Group.Reworded (insert groups c) (insert groups' c') := by
  have hnew : Group.Reworded ⟨c.nameSpace, [c]⟩ ⟨c'.nameSpace, [c']⟩ :=
    ⟨hc.nameSpace, .cons hc .nil⟩
  induction h with
  | nil => exact .cons hnew .nil
  | @cons g g' groups groups' hg hgroups ih =>
      rw [insert, insert, ← hc.nameSpace, ← hg.nameSpace]
      by_cases he : c.nameSpace = g.nameSpace
      · rw [if_pos he, if_pos he]
        exact .cons ⟨rfl, List.rel_append hg.classes (.cons hc .nil)⟩ hgroups
      · rw [if_neg he, if_neg he]
        by_cases hl : c.nameSpace < g.nameSpace
        · rw [if_pos hl, if_pos hl]
          exact .cons ⟨rfl, .cons hc .nil⟩ (.cons hg hgroups)
        · rw [if_neg hl, if_neg hl]
          exact .cons hg ih

theorem Group.reworded_ofClasses {classes classes' : List Class}
    (h : List.Forall₂ Class.Reworded classes classes') :
    List.Forall₂ Group.Reworded (ofClasses classes) (ofClasses classes') := by
  have hfold (groups groups' : List Group) (hg : List.Forall₂ Group.Reworded groups groups') :
      List.Forall₂ Group.Reworded (classes.foldl insert groups) (classes'.foldl insert groups') := by
    induction h generalizing groups groups' with
    | nil => exact hg
    | cons hc _ ih => exact ih _ _ (reworded_insert hg hc)
  exact hfold [] [] .nil

theorem Group.forest_eq {groups groups' : List Group}
    (h : List.Forall₂ Group.Reworded groups groups') : forest groups = forest groups' := by
  have hnames : groups.map (·.nameSpace) = groups'.map (·.nameSpace) := by
    induction h with
    | nil => rfl
    | cons hg _ ih => rw [List.map_cons, List.map_cons, hg.nameSpace, ih]
  rw [forest, forest, hnames]

inductive Passage.Reworded : Passage → Passage → Prop
  | same (p) : Reworded p p
  | labelled (label) {s s'} : (s = [] ↔ s' = []) → Reworded (.labelled label s) (.labelled label s')
  | table {rows rows'} :
      List.Forall₂ (fun r r' => r.title = r'.title ∧ r.long = r'.long) rows rows' →
        Reworded (.table rows) (.table rows')
  | entries (label) {es es'} : es.length = es'.length →
      Reworded (.entries label es) (.entries label es')
  | seeAlso {ts ts'} : ts.length = ts'.length → Reworded (.seeAlso ts) (.seeAlso ts')
  | examples {es es'} : es.length = es'.length → Reworded (.examples es) (.examples es')
  | lists {ls ls'} : ls.length = ls'.length → Reworded (.lists ls) (.lists ls')

variable {m m' : Member} {c c' : Class} {g g' : Group} {p p' : Passage}

theorem Passage.Reworded.isFull_eq (h : p.Reworded p') : p.isFull = p'.isFull := by
  have hnil {α : Type} {xs ys : List α} (h : xs = [] ↔ ys = []) : (!xs.isEmpty) = !ys.isEmpty := by
    rw [Bool.not_inj_iff, Bool.eq_iff_iff, List.isEmpty_iff, List.isEmpty_iff]
    exact h
  have hlength {α : Type} {xs ys : List α} (h : xs.length = ys.length) :
      (!xs.isEmpty) = !ys.isEmpty := by
    refine hnil ?_
    rw [← List.length_eq_zero_iff, h, List.length_eq_zero_iff]
  cases h with
  | same => rfl
  | labelled _ h => exact hnil h
  | table h => exact hlength h.length_eq
  | entries _ h | seeAlso h | examples h | lists h => exact hlength h

theorem Member.Reworded.passages (h : m.Reworded m') (nameSpace : Text) :
    List.Forall₂ Passage.Reworded (m.passages nameSpace) (m'.passages nameSpace) := by
  unfold Member.passages
  rw [h.title, h.inheritDoc]
  exact .cons (.same _) <| .cons (.labelled _ h.summary) <| .cons (.labelled _ h.remarks) <|
    .cons (.same _) <| .cons (.entries _ h.parameters) <| .cons (.entries _ h.typeParameters) <|
    .cons (.entries _ h.exceptions) <| .cons (.labelled _ h.returns) <| .cons (.labelled _ h.value) <|
    .cons (.labelled _ h.permission) <| .cons (.labelled _ h.overloads) <| .cons (.seeAlso h.seeAlso) <|
    .cons (.examples h.examples) <| .cons (.lists h.lists) .nil

theorem Class.Reworded.passages (h : c.Reworded c') :
    List.Forall₂ Passage.Reworded c.passages c'.passages := by
  have hrows : List.Forall₂ (fun r r' => r.title = r'.title ∧ r.long = r'.long)
      (c.members.map (MemberRow.ofMember c.nameSpace))
      (c'.members.map (MemberRow.ofMember c.nameSpace)) := by
    rw [List.forall₂_map_left_iff, List.forall₂_map_right_iff]
    refine h.members.imp fun m m' hm => ⟨hm.title c.nameSpace, ?_⟩
    rw [MemberRow.ofMember, MemberRow.ofMember, hm.name]
  have hmembers := List.rel_flatMap h.members fun m m' hm => hm.passages c.nameSpace
  unfold Class.passages
  rw [← h.className, ← h.nameSpace]
  exact List.rel_append
    (List.rel_append
      (.cons (.same _) <| .cons (.same _) <| .cons (.labelled _ h.summary) <|
        .cons (.labelled _ h.remarks) <| .cons (.table hrows) .nil) hmembers)
    (.cons (.same _) .nil)

theorem Group.Reworded.passages (h : g.Reworded g') :
    List.Forall₂ Passage.Reworded g.passages g'.passages := by
  have hnames : g.classes.map (·.className) = g'.classes.map (·.className) := by
    rw [← List.forall₂_eq_eq_eq, List.forall₂_map_left_iff, List.forall₂_map_right_iff]
    exact h.classes.imp fun _ _ hc => hc.className
  unfold Group.passages
  rw [h.nameSpace, hnames]
  exact .cons (.same _) (List.rel_flatMap h.classes fun _ _ => Class.Reworded.passages)

theorem reworded_passages {classes classes' : List Class}
    (h : List.Forall₂ Class.Reworded classes classes') :
    List.Forall₂ Passage.Reworded (passages classes) (passages classes') := by
  have hgroups := List.rel_flatMap (Group.reworded_ofClasses h) fun _ _ => Group.Reworded.passages
  exact List.rel_filter (fun _ _ hp => Bool.eq_iff_iff.1 hp.isFull_eq) hgroups

end Relations

namespace Html.Markup

section Tags

theorem tags_all {α : Type} {R : α → α → Prop} {f : α → Markup} {xs ys : List α}
    (h : List.Forall₂ R xs ys) (hf : ∀ {x y}, R x y → (f x).tags = (f y).tags) :
    (all f xs).tags = (all f ys).tags := by
  induction h with
  | nil => rfl
  | cons hx _ ih => rw [all, all, tags_append, tags_append, hf hx, ih]

theorem tags_all_length {α : Type} {f : α → Markup} (hf : ∀ x y, (f x).tags = (f y).tags)
    {xs ys : List α} (h : xs.length = ys.length) : (all f xs).tags = (all f ys).tags := by
  induction xs generalizing ys with
  | nil => rw [List.eq_nil_of_length_eq_zero h.symm]
  | cons x xs ih =>
      cases ys with
      | nil => cases h
      | cons y ys => rw [all, all, tags_append, tags_append, hf x y, ih (Nat.succ.inj h)]

theorem tags_itemList {α : Type} {f : α → Markup} (hf : ∀ x y, (f x).tags = (f y).tags)
    {xs ys : List α} (h : xs.length = ys.length) : (itemList f xs).tags = (itemList f ys).tags := by
  have hitem (x y : α) : (listItem (f x)).tags = (listItem (f y)).tags := by
    rw [listItem, listItem, tags_line, tags_line, tags_within, tags_within, hf x y]
  simp only [itemList, tags_append, listElement, tags_line, tags_within, tags_all_length hitem h]

theorem tags_passage {p p' : Passage} (h : p.Reworded p') :
    (passage p).tags = (passage p').tags := by
  cases h with
  | same => rfl
  | labelled label h => rfl
  | table h =>
      have hrow {r r' : MemberRow} (hr : r.title = r'.title ∧ r.long = r'.long) :
          (tableRow r).tags = (tableRow r').tags := by
        simp only [tableRow, tags_line, tags_within, tags_append, tags_link, tags_plain, hr.1]
      simp only [passage, tags_append, tags_line, tags_within, tags_all h hrow]
  | entries label h =>
      rw [passage, passage, tags_append, tags_append, tags_itemList (fun _ _ => rfl) h]
  | seeAlso h => rw [passage, passage, tags_append, tags_append, tags_itemList (fun _ _ => rfl) h]
  | examples h => rw [passage, passage, tags_append, tags_append, tags_all_length (fun _ _ => rfl) h]
  | lists h => rw [passage, passage, tags_append, tags_append, tags_itemList (fun _ _ => rfl) h]

theorem tags_page {classes classes' : List Class}
    (h : List.Forall₂ Class.Reworded classes classes') :
    (page classes).tags = (page classes').tags := by
  have hpassages := tags_all (reworded_passages h) tags_passage
  simp only [page, body, pane, tags_append, tags_line, tags_within,
    Group.forest_eq (Group.reworded_ofClasses h), hpassages]

end Tags
end Html.Markup

namespace Html

/-- Every page is well-formed, whatever the texts in its classes are, and texts that only fill it
have no influence on its tags. -/
theorem render_wellFormed (classes : List Class) :
    WellFormed (render classes) ∧
      ∀ classes', List.Forall₂ Class.Reworded classes classes' →
        tags (render classes') = tags (render classes) := by
  constructor
  · rw [← Markup.write_page]
    exact (Markup.page classes).wellFormed_write
  · intro classes' h
    rw [← Markup.write_page, ← Markup.write_page, Markup.tags_write, Markup.tags_write,
      Markup.tags_page h]

/-- Markup in the texts of a member changes no tag. -/
theorem tags_render_hostile :
    let m (summary : Text) (parameter : Entry) (seeAlso : Text) : Member :=
      ⟨.method, "M:A.C.run", summary, [], [], [], [], [], false, [parameter], [], [], [seeAlso], [], []⟩
    let plain : Class := ⟨"C", "A", [], [], [m "Runs." ⟨"n", "How often."⟩ "T:A.D"]⟩
    let hostile : Class := ⟨"C", "A", [], [], [m "</p><script>" ⟨"\"><b>", []⟩ "</li>&"]⟩
    List.Forall₂ Class.Reworded [plain] [hostile] ∧ WellFormed (render [hostile]) ∧
      tags (render [hostile]) = tags (render [plain]) := by
  intro m plain hostile
  have hmember : (m "Runs." ⟨"n", "How often."⟩ "T:A.D").Reworded
      (m "</p><script>" ⟨"\"><b>", []⟩ "</li>&") := by
    constructor <;> decide
  have hclass : plain.Reworded hostile :=
    ⟨rfl, rfl, Iff.rfl, Iff.rfl, .cons hmember .nil⟩
  have h : List.Forall₂ Class.Reworded [plain] [hostile] := .cons hclass .nil
  exact ⟨h, (render_wellFormed [hostile]).1, (render_wellFormed [plain]).2 [hostile] h⟩

end Html
end ApiDocs
