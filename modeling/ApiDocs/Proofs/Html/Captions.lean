import ApiDocs.Proofs.Html.Breaks
import ApiDocs.Proofs.Html.Marks
import ApiDocs.Proofs.Html.Sidebar

namespace ApiDocs.Html

structure Caption where
  mark : Mark
  text : Text
deriving DecidableEq

def captions : List Piece → List Caption
  | [] => []
  | p :: ps => (p.mark?.map fun mark => ⟨mark, leadingText ps⟩).toList ++ captions ps

section Expected

def headingCaption (level : Nat) (name : Text) : Caption :=
  ⟨.heading level (some (idOf name)), escape name⟩

def linkCaption (target name : Text) : Caption := ⟨.link (idOf target), escape name⟩

def rowCaption (nameSpace : Text) (m : Member) : Caption :=
  ⟨.link (idOf (m.title nameSpace)), linkText (m.title nameSpace) (Identifier.withoutKind m.name)⟩

def tableCaptions (c : Class) : List Caption :=
  match c.members with
  | [] => []
  | _ :: _ => ⟨.heading 4 none, "Members"⟩ :: c.members.map (rowCaption c.nameSpace)

def passageCaptions : Passage → List Caption
  | .nameSpace name classNames =>
    headingCaption 2 name :: classNames.map fun name => linkCaption name name
  | .className name => [headingCaption 3 name]
  | .table rows =>
    ⟨.heading 4 none, "Members"⟩ :: rows.map fun r => ⟨.link (idOf r.title), shown r.long r.title⟩
  | .member title => [headingCaption 4 title]
  | _ => []

def classCaptions (c : Class) : List Caption :=
  headingCaption 3 c.className :: (tableCaptions c ++ c.titles.map (headingCaption 4))

def groupCaptions (g : Group) : List Caption :=
  headingCaption 2 g.nameSpace ::
    (g.classes.map (fun c => linkCaption c.className c.className) ++
      g.classes.flatMap classCaptions)

def sidebarCaptions (f : Forest) : List Caption :=
  ⟨.heading 2 none, "Table of Contents"⟩ :: f.lines.map fun l => linkCaption l.fullName l.name

end Expected

section Reading

/-- Whatever comes behind the tree, it is read as these captions. -/
def Says (m : Markup) (cs : List Caption) : Prop :=
  ∀ ps, captions (m.pieces ++ ps) = cs ++ captions ps

variable {m n : Markup} {cs ds : List Caption}

theorem captions_append_of_forall {ps : List Piece} (h : ∀ p ∈ ps, p.mark? = none)
    (qs : List Piece) : captions (ps ++ qs) = captions qs := by
  induction ps with
  | nil => rfl
  | cons p ps ih =>
      obtain ⟨hp, hps⟩ := List.forall_mem_cons.1 h
      rw [List.cons_append, captions, hp, ih hps]
      rfl

theorem map_mark_captions (ps : List Piece) :
    (captions ps).map (·.mark) = ps.filterMap Piece.mark? := by
  induction ps with
  | nil => rfl
  | cons p ps ih =>
      rw [captions, List.map_append, ih, List.filterMap_cons]
      cases p.mark? <;> rfl

theorem says_nothing (h : m.marks = []) : Says m [] := by
  rw [← m.marks_write, marks, m.reads_write.pieces_eq, List.filterMap_eq_nil_iff] at h
  exact captions_append_of_forall h

theorem Says.append (hm : Says m cs) (hn : Says n ds) : Says (m ++ n) (cs ++ ds) := by
  intro ps
  rw [Markup.pieces_append, List.append_assoc, hm, hn, List.append_assoc]

theorem Says.append_nothing (hm : Says m cs) (hn : n.marks = []) : Says (m ++ n) cs := by
  have h := hm.append (says_nothing hn)
  rwa [List.append_nil] at h

theorem Says.nothing_append (hm : m.marks = []) (hn : Says n cs) : Says (m ++ n) cs :=
  (says_nothing hm).append hn

theorem Says.line (hm : Says m cs) : Says (Markup.line m) cs := hm.append_nothing rfl

theorem captions_closing (t : Tag) (ps : List Piece) :
    captions (.tag ('/' :: t.name) :: ps) = captions ps := by
  rw [captions, mark?_closing]
  rfl

theorem Says.within {t : Tag} (ht : t.mark? = none) (hm : Says m cs) :
    Says (Markup.within t m) cs := by
  intro ps
  have hopening (qs : List Piece) : captions (.tag t.written :: qs) = captions qs := by
    rw [captions, mark?_written, ht]
    rfl
  rw [pieces_within, List.cons_append, hopening, List.append_assoc, hm, List.singleton_append,
    captions_closing]

theorem says_captioned {t : Tag} {mark : Mark} (ht : t.mark? = some mark) (breaking : Bool)
    (s : Text) : Says (Markup.within t (.text breaking s .nil)) [⟨mark, shown breaking s⟩] := by
  intro ps
  have hinside : (Markup.text breaking s .nil).pieces = (shown breaking s).map .char :=
    List.append_nil _
  have hchars : ∀ p ∈ (shown breaking s).map Piece.char, p.mark? = none := by
    intro p hp
    obtain ⟨c, -, rfl⟩ := List.mem_map.1 hp
    rfl
  rw [pieces_within, hinside, List.cons_append, List.append_assoc, List.singleton_append, captions,
    mark?_written, ht, leadingText_chars, captions_append_of_forall hchars, captions_closing]
  rfl

theorem says_all {α : Type} {f : α → Markup} {g : α → List Caption} (h : ∀ x, Says (f x) (g x))
    (xs : List α) : Says (Markup.all f xs) (xs.flatMap g) := by
  induction xs with
  | nil => exact fun _ => rfl
  | cons x xs ih => exact (h x).append ih

theorem says_each {α : Type} {f : α → Markup} {g : α → Caption} (h : ∀ x, Says (f x) [g x])
    (xs : List α) : Says (Markup.all f xs) (xs.map g) := by
  rw [List.map_eq_flatMap]
  exact says_all h xs

end Reading

section Parts

theorem says_headingElement {rank : Rank} {level : Nat} {name : Text}
    (h : (Tag.heading rank name).mark? = some (.heading level (some (idOf name)))) :
    Says (Markup.headingElement rank name) [headingCaption level name] :=
  (says_captioned h false name).line

theorem says_link (target name : Text) :
    Says (Markup.link target name false) [linkCaption target name] :=
  says_captioned rfl false name

theorem says_listItem {m : Markup} {cs : List Caption} (h : Says m cs) :
    Says (Markup.listItem m) cs :=
  (h.within rfl).line

theorem says_listElement {m : Markup} {cs : List Caption} (h : Says m cs) :
    Says (Markup.listElement m) cs :=
  ((Says.nothing_append rfl h).within rfl).line

theorem says_tableRow (r : MemberRow) :
    Says (Markup.tableRow r) [⟨.link (idOf r.title), shown r.long r.title⟩] := by
  have hlink : Says (Markup.link r.title r.title r.long)
      [⟨.link (idOf r.title), shown r.long r.title⟩] := says_captioned rfl _ _
  exact (((hlink.within rfl).append_nothing rfl).within rfl).line

theorem says_passage (p : Passage) : Says (Markup.passage p) (passageCaptions p) := by
  cases p with
  | nameSpace name classNames =>
      have hheading : Says (Markup.headingElement .nameSpace name) [headingCaption 2 name] :=
        says_headingElement rfl
      have hitem (name : Text) :
          Says (Markup.listItem (Markup.link name name false)) [linkCaption name name] :=
        says_listItem (says_link name name)
      exact hheading.append (says_listElement (says_each hitem classNames))
  | className name => exact says_headingElement rfl
  | table rows =>
      have htitle : Says Markup.tableTitle [⟨.heading 4 none, "Members"⟩] :=
        (says_captioned rfl false "Members").line
      exact htitle.append ((Says.nothing_append rfl (says_each says_tableRow rows)).within rfl).line
  | member title => exact says_headingElement rfl
  | qualifier | labelled | inherited | entries | seeAlso | examples | lists | classEnd =>
      exact says_nothing (Markup.marks_note rfl)

theorem silent_passageCaptions : Silent passageCaptions := by
  intro p hp
  cases p with
  | nameSpace | className | table | member => cases hp
  | _ => rfl

theorem passageCaptions_table (c : Class) :
    Passage.ifFull passageCaptions (.table (c.members.map (MemberRow.ofMember c.nameSpace))) =
      tableCaptions c := by
  have hrow (m : Member) : (⟨.link (idOf (m.title c.nameSpace)),
      shown (longName < (Identifier.withoutKind m.name).length) (m.title c.nameSpace)⟩ : Caption) =
        rowCaption c.nameSpace m := by
    simp [rowCaption, shown, linkText]
  rw [tableCaptions]
  cases c.members with
  | nil => rfl
  | cons m members =>
      rw [Passage.ifFull_of_full rfl, passageCaptions, List.map_map, ← funext hrow]
      rfl

theorem passageCaptions_group (g : Group) :
    g.passages.flatMap (Passage.ifFull passageCaptions) = groupCaptions g := by
  have hclass (c : Class) :
      c.passages.flatMap (Passage.ifFull passageCaptions) = classCaptions c := by
    rw [Class.flatMap_passages silent_passageCaptions, passageCaptions_table, classCaptions,
      Class.titles, List.map_map, List.map_eq_flatMap]
    rfl
  rw [Group.flatMap_passages, funext hclass, passageCaptions, List.map_map]
  rfl

theorem passageCaptions_passages (classes : List Class) :
    (passages classes).flatMap passageCaptions =
      (Group.ofClasses classes).flatMap groupCaptions := by
  rw [flatMap_passages, funext passageCaptions_group]

theorem says_childList {items : Markup} {cs : List Caption} {children : Forest}
    (h : Says items cs) (hnil : children = .nil → cs = []) :
    Says (Markup.childList items children) cs := by
  cases children with
  | nil => rw [hnil rfl]; exact fun _ => rfl
  | node => exact Says.nothing_append rfl (says_listElement h)

theorem says_sidebarItems (f : Forest) (depth : Nat) :
    Says (Markup.sidebarItems f)
      ((f.linesFrom depth).map fun l => linkCaption l.fullName l.name) := by
  induction f generalizing depth with
  | nil => exact fun _ => rfl
  | node name fullName children siblings ihc ihs =>
      have hchildren := @says_childList _ _ children (ihc (depth + 1)) (by rintro rfl; rfl)
      have hall := (says_listItem ((says_link fullName name).append hchildren)).append (ihs depth)
      rw [Forest.linesFrom, List.map_append]
      exact hall

theorem says_sidebar (f : Forest) : Says (Markup.sidebar f) (sidebarCaptions f) := by
  have htitle : Says Markup.sidebarTitle [⟨.heading 2 none, "Table of Contents"⟩] :=
    (says_captioned rfl false "Table of Contents").line
  have hall := (Says.nothing_append (m := Markup.plain "\n") rfl htitle).append
    (says_listElement (says_sidebarItems f 0))
  exact (hall.within rfl).line

theorem says_page (classes : List Class) :
    let groups := Group.ofClasses classes
    Says (Markup.page classes)
      (sidebarCaptions (Group.forest groups) ++ groups.flatMap groupCaptions) := by
  intro groups
  have hpane : Says (Markup.pane (passages classes)) (groups.flatMap groupCaptions) := by
    rw [← passageCaptions_passages]
    exact ((Says.nothing_append rfl (says_all says_passage _)).within rfl).line
  have hbody : Says (Markup.body classes)
      (sidebarCaptions (Group.forest groups) ++ groups.flatMap groupCaptions) :=
    ((((says_nothing rfl).append (says_sidebar _)).append hpane).within rfl).line
  have hhead : (Markup.plain "\n" ++ Markup.head).marks = [] := rfl
  exact Says.nothing_append rfl ((Says.nothing_append hhead hbody).within rfl).line

theorem captions_render (classes : List Class) :
    let groups := Group.ofClasses classes
    captions (pieces (render classes)) =
      sidebarCaptions (Group.forest groups) ++ groups.flatMap groupCaptions := by
  intro groups
  have h := says_page classes []
  rw [List.append_nil, ← (Markup.page classes).reads_write.pieces_eq, Markup.write_page] at h
  rw [h]
  exact List.append_nil _

end Parts

section Members

theorem classCaptions_infix {classes : List Class} {c : Class} (hc : c ∈ classes) :
    classCaptions c <:+: captions (pieces (render classes)) := by
  have hgroup (g : Group) : g.classes.flatMap classCaptions <:+: groupCaptions g :=
    ((List.suffix_append _ _).trans (List.suffix_cons _ _)).isInfix
  rw [captions_render]
  exact (Group.infix_ofClasses hgroup hc).trans (List.suffix_append _ _).isInfix

/-- A class with members has a table that links each of them by its title, and below it a heading for
each. If the identifier is long, a link may break in front of every round or curly bracket, and
nowhere else; whatever the title is, taking the break marks out leaves the title as it is written in
the heading. In no heading, id or link target is there a break mark. -/
theorem memberLinks_breaking :
    (∀ classes, ∀ c ∈ classes, classCaptions c <:+: captions (pieces (render classes))) ∧
    (∀ title name, withoutBreaks (linkText title name) = escape title) ∧
    (∀ title name, 75 < name.length →
      BreaksAtBrackets (linkText title name) ∧
        ¬ zeroWidthSpace ++ zeroWidthSpace <:+: linkText title name) ∧
    (∀ title name, name.length ≤ 75 → ¬ zeroWidthSpace <:+: linkText title name) ∧
    ∀ title, ¬ zeroWidthSpace <:+: escape title ∧ ¬ zeroWidthSpace <:+: idOf title := by
  refine ⟨fun classes c => classCaptions_infix, withoutBreaks_linkText, fun title name h => ?_,
    fun title name h => ?_, fun title => ?_⟩
  · have hbreaks := (noNumber_escape title).breaksAtBrackets
    rw [linkText_long title h]
    exact ⟨hbreaks, hbreaks.single⟩
  · rw [linkText_short title h]
    exact (noNumber_escape title).unmarked
  · exact ⟨(noNumber_escape _).unmarked, (noNumber_escape _).unmarked⟩

/-- A short title under a long namespace, with the spelling of a break mark and two brackets, and a
member without namespace whose link does not break. -/
theorem memberLinks_breaking_literal :
    let nameSpace : Text := List.replicate 75 'N'
    let title : Text := "f&#8203;(a{b})"
    let m : Member := ⟨.method, "M:" ++ nameSpace ++ "." ++ title, [], [], [], [], [], [], false, [],
      [], [], [], [], []⟩
    let c : Class := ⟨"C", nameSpace, [], [], [m]⟩
    let text := linkText (m.title nameSpace) (Identifier.withoutKind m.name)
    classCaptions c <:+: captions (pieces (render [c])) ∧
      rowCaption nameSpace m = ⟨.link "f&amp;#8203;(a{b})", text⟩ ∧
      text = "f&amp;#8203;&#8203;(a&#8203;{b})" ∧ withoutBreaks text = "f&amp;#8203;(a{b})" ∧
      75 < (Identifier.withoutKind m.name).length ∧ BreaksAtBrackets text ∧
      title.length ≤ 75 ∧ ¬ zeroWidthSpace <:+: linkText title title := by
  intro nameSpace title m c text
  have hcaptions := memberLinks_breaking.1 [c] c (List.mem_singleton_self c)
  have hrow : rowCaption nameSpace m = ⟨.link "f&amp;#8203;(a{b})", text⟩ := by decide +kernel
  have htext : text = "f&amp;#8203;&#8203;(a&#8203;{b})" := by decide +kernel
  have hdeleted : escape (m.title nameSpace) = "f&amp;#8203;(a{b})" := by decide +kernel
  have hlong : 75 < (Identifier.withoutKind m.name).length := by decide +kernel
  have hshort : title.length ≤ 75 := by decide +kernel
  exact ⟨hcaptions, hrow, htext, (memberLinks_breaking.2.1 _ _).trans hdeleted, hlong,
    (memberLinks_breaking.2.2.1 _ _ hlong).1, hshort, memberLinks_breaking.2.2.2.1 _ _ hshort⟩

end Members
end ApiDocs.Html
