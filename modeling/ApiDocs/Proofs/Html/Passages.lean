import ApiDocs.Proofs.Markdown.Passages

namespace ApiDocs
namespace Html

open Fragment

def headingFragments (tag name : Text) : List Fragment :=
  [markup ("<" ++ tag ++ " id=\""), anchor name, markup "\">", text .line name,
    markup ("</" ++ tag ++ ">\n")]

def labelFragments (label : Label) : List Fragment :=
  [markup "<p><strong>", text .line label.text, markup ":</strong></p>\n"]

def listFragments {α : Type} (items : List α) (write : α → List Fragment) : List Fragment :=
  [markup "<ul>\n"] ++ items.flatMap (fun x => [markup "<li>"] ++ write x ++ [markup "</li>\n"]) ++
    [markup "</ul>\n"]

def linkFragments (long : Bool) (name : Text) : List Fragment :=
  [markup "<a href=\"#", anchor name, markup "\">", text (.link long) name, markup "</a>"]

def tableHeadFragments : List Fragment :=
  [markup "<h4>", text .line "Members", markup "</h4>\n<table>\n<tr><th>", text .line "Name",
    markup "</th><th>", text .line "Summary", markup "</th></tr>\n"]

def rowFragments (r : MemberRow) : List Fragment :=
  [markup "<tr><td>"] ++ linkFragments r.long r.title ++
    [markup "</td><td>", text .cell r.summary, markup "</td></tr>\n"]

def entryFragments (e : Entry) : List Fragment :=
  [markup "<strong>", text .line e.name, markup ":</strong> ", text .line e.description]

def exampleFragments (s : Text) : List Fragment :=
  [markup "<pre><code>", text .line s, markup "</code></pre>\n"]

def spelling : Passage → List Fragment
  | .nameSpace name classNames =>
    headingFragments "h2" name ++ listFragments classNames (linkFragments false)
  | .className name => headingFragments "h3" name
  | .qualifier name =>
    [markup "<p><strong>", text .line "Namespace", markup ":</strong> ", text .line name,
      markup "</p>\n"]
  | .labelled label s =>
    [markup "<p><strong>", text .line label.text, markup ":</strong> ", text .line s, markup "</p>\n"]
  | .table rows =>
    tableHeadFragments ++ rows.flatMap rowFragments ++ [markup "</table>\n"]
  | .member title => headingFragments "h4" title
  | .inherited _ => [markup "<p><em>", text .line Passage.inheritedText, markup "</em></p>\n"]
  | .entries label es => labelFragments label ++ listFragments es entryFragments
  | .seeAlso targets =>
    labelFragments .seeAlso ++ listFragments targets fun target =>
      [text .line (Identifier.withoutKind target)]
  | .examples es => labelFragments .examples ++ es.flatMap exampleFragments
  | .lists ls => labelFragments .lists ++ listFragments ls fun s => [text .line s]
  | .classEnd => [markup "<hr>\n"]

def fixedMarkups : List Text :=
  ["<h2 id=\"", "</h2>\n", "<h3 id=\"", "</h3>\n", "<h4 id=\"", "</h4>\n", "\">", "<ul>\n", "</ul>\n",
    "<li>", "</li>\n", "<a href=\"#", "</a>", "<p><strong>", ":</strong> ", ":</strong></p>\n",
    "</p>\n", "<h4>", "</h4>\n<table>\n<tr><th>", "</th><th>", "</th></tr>\n", "<tr><td>",
    "</td><td>", "</td></tr>\n", "</table>\n", "<p><em>", "</em></p>\n", "<strong>",
    "<pre><code>", "</code></pre>\n", "<hr>\n"]

/-- What is written for a passage that may have nothing to say. -/
def passageText : Passage → Text := Passage.write html spelling

section Written

variable {α : Type}

theorem escape_label (label : Label) : escape label.text = label.text := by
  cases label <;> rfl

theorem written_headingFragments (tag name : Text) :
    written html (headingFragments tag name) = headingElement tag name := by
  unfold headingElement
  simp [headingFragments, html]

theorem written_labelFragments (label : Label) :
    written html (labelFragments label) = labelParagraph label.text := by
  unfold labelParagraph
  simp [labelFragments, html, escape_label]

theorem written_listFragments (items : List α) {f : α → List Fragment} {write : α → Text}
    (hf : ∀ x, written html (f x) = write x) :
    written html (listFragments items f) =
      listElement (items.flatMap fun x => listItem (write x)) := by
  unfold listElement listItem
  simp [listFragments, html, written_flatMap, hf]

theorem written_linkFragments (long : Bool) (name : Text) :
    written html (linkFragments long name) =
      link name (if long then withBreaks (escape name) else escape name) := by
  unfold link
  cases long <;> simp [linkFragments, html]

theorem written_rowFragments (r : MemberRow) :
    written html (rowFragments r) =
      "<tr><td>" ++ link r.title (if r.long then withBreaks (escape r.title) else escape r.title) ++
        "</td><td>" ++ escape r.summary ++ "</td></tr>\n" := by
  simp only [rowFragments, written_append, written_linkFragments, written_cons, written_nil, html,
    List.append_assoc, List.append_nil]

theorem written_qualifier (name : Text) :
    written html (spelling (.qualifier name)) = labelledParagraph "Namespace" name := by
  have hlabel : escape "Namespace" = "Namespace" := rfl
  unfold labelledParagraph
  simp only [spelling, written_cons, written_nil, html, hlabel, List.append_assoc, List.append_nil]

theorem written_labelled (label : Label) (s : Text) :
    written html (spelling (.labelled label s)) = labelledParagraph label.text s := by
  unfold labelledParagraph
  simp [spelling, html, escape_label]

theorem written_entries (label : Label) (es : List Entry) :
    written html (spelling (.entries label es)) =
      labelParagraph label.text ++ listElement (es.flatMap fun e => listItem (entryText e)) := by
  have hentry (e : Entry) : written html (entryFragments e) = entryText e := by
    unfold entryText
    simp [entryFragments, html]
  rw [spelling, written_append, written_labelFragments, written_listFragments _ hentry]

theorem written_seeAlso (targets : List Text) :
    written html (spelling (.seeAlso targets)) =
      labelParagraph "See Also" ++ listElement (targets.flatMap fun t => listItem (seeAlsoText t)) := by
  have htarget (t : Text) :
      written html [text .line (Identifier.withoutKind t)] = seeAlsoText t := by
    simp [seeAlsoText, html]
  rw [spelling, written_append, written_labelFragments, written_listFragments _ htarget]
  rfl

theorem written_lists (ls : List Text) :
    written html (spelling (.lists ls)) =
      labelParagraph "Lists" ++ listElement (ls.flatMap fun s => listItem (escape s)) := by
  have hline (s : Text) : written html [text .line s] = escape s := by simp [html]
  rw [spelling, written_append, written_labelFragments, written_listFragments _ hline]
  rfl

theorem written_examples (es : List Text) :
    written html (spelling (.examples es)) =
      labelParagraph "Examples" ++ es.flatMap exampleBlock := by
  have hexample (s : Text) : written html (exampleFragments s) = exampleBlock s := by
    unfold exampleBlock
    simp [exampleFragments, html]
  rw [spelling, written_append, written_labelFragments, written_flatMap, funext hexample]
  rfl

theorem written_table (rows : List MemberRow) :
    written html (spelling (.table rows)) =
      "<h4>Members</h4>\n<table>\n<tr><th>Name</th><th>Summary</th></tr>\n" ++
        rows.flatMap (fun r => written html (rowFragments r)) ++ "</table>\n" := by
  simp only [spelling, written_append, written_flatMap]
  rfl

theorem written_nameSpace (name : Text) (classNames : List Text) :
    written html (spelling (.nameSpace name classNames)) =
      headingElement "h2" name ++
        listElement (classNames.flatMap fun name => listItem (link name (escape name))) := by
  rw [spelling, written_append, written_headingFragments,
    written_listFragments _ (written_linkFragments false)]
  rfl

end Written

section Sections

theorem passageText_labelled (label : Label) (s : Text) :
    passageText (.labelled label s) = labelled label.text s := by
  rw [passageText, Passage.write_eq_ifAny s rfl, written_labelled, labelled]

theorem passageText_entries (label : Label) (es : List Entry) :
    passageText (.entries label es) = labelledList label.text es entryText := by
  rw [passageText, Passage.write_eq_ifAny es rfl, written_entries, labelledList]

theorem passageText_seeAlso (targets : List Text) :
    passageText (.seeAlso targets) = labelledList "See Also" targets seeAlsoText := by
  rw [passageText, Passage.write_eq_ifAny targets rfl, written_seeAlso, labelledList]

theorem passageText_lists (ls : List Text) :
    passageText (.lists ls) = labelledList "Lists" ls escape := by
  rw [passageText, Passage.write_eq_ifAny ls rfl, written_lists, labelledList]

theorem passageText_examples (es : List Text) :
    passageText (.examples es) = exampleBlocks es := by
  rw [passageText, Passage.write_eq_ifAny es rfl, written_examples, exampleBlocks]

theorem passageText_inherited (m : Member) :
    passageText (.inherited m.inheritDoc) = inheritedNote m := by
  cases h : m.inheritDoc with
  | false =>
      rw [passageText, Passage.write_of_not_full rfl, inheritedNote, h]
      rfl
  | true =>
      rw [passageText, Passage.write_of_full rfl, inheritedNote, h]
      rfl

theorem passageText_table (c : Class) :
    passageText (.table (c.members.map (MemberRow.ofMember c.nameSpace))) = memberTable c := by
  have hrow (m : Member) :
      written html (rowFragments (MemberRow.ofMember c.nameSpace m)) = tableRow c.nameSpace m := by
    rw [written_rowFragments]
    unfold tableRow linkText
    simp only [MemberRow.ofMember, decide_eq_true_eq]
  rw [passageText, Passage.write_eq_ifAny c.members (by simp [Passage.isFull]), written_table,
    List.flatMap_map, funext hrow, memberTable]

theorem write_member (nameSpace : Text) (m : Member) :
    (m.passages nameSpace).flatMap passageText = memberSection nameSpace m := by
  have htitle : passageText (.member (m.title nameSpace)) =
      headingElement "h4" (m.title nameSpace) :=
    written_headingFragments _ _
  unfold memberSection
  simp only [Member.passages, List.flatMap_cons, List.flatMap_nil, htitle,
    passageText_labelled, passageText_inherited, passageText_entries, passageText_seeAlso,
    passageText_examples, passageText_lists, List.append_assoc, List.append_nil]
  rfl

theorem write_class (c : Class) : c.passages.flatMap passageText = classSection c := by
  have hname : passageText (.className c.className) = headingElement "h3" c.className :=
    written_headingFragments _ _
  have hqualifier : passageText (.qualifier c.nameSpace) =
      labelledParagraph "Namespace" c.nameSpace :=
    written_qualifier c.nameSpace
  have hend : passageText .classEnd = "<hr>\n" := rfl
  unfold classSection
  simp only [Class.passages, List.flatMap_append, List.flatMap_cons, List.flatMap_nil,
    List.flatMap_assoc, hname, hqualifier, hend, passageText_labelled, passageText_table,
    write_member, List.append_assoc, List.append_nil]
  rfl

theorem write_group (g : Group) : g.passages.flatMap passageText = groupSection g := by
  have hname : passageText (.nameSpace g.nameSpace (g.classes.map (·.className))) =
      headingElement "h2" g.nameSpace ++ listElement (g.classes.flatMap classItem) := by
    rw [passageText, Passage.write_of_full rfl, written_nameSpace, List.flatMap_map]
    rfl
  rw [Group.passages, List.flatMap_cons, List.flatMap_assoc, funext write_class, hname]
  rfl

theorem pane_eq_passages (classes : List Class) :
    pane (Group.ofClasses classes) = "<div class=\"content\">\n" ++
      (passages classes).flatMap (fun p => written html (spelling p)) ++ "</div>\n" := by
  rw [flatMap_passages]
  unfold pane
  exact congrArg (fun write => _ ++ List.flatMap write _ ++ _) (funext write_group).symm

theorem render_eq_passages (classes : List Class) :
    render classes = head ++ "<body>\n" ++ sidebar (Group.forest (Group.ofClasses classes)) ++
      "<div class=\"content\">\n" ++
      (passages classes).flatMap (fun p => written html (spelling p)) ++ "</div>\n" ++
      "</body>\n</html>\n" := by
  unfold render
  simp only [pane_eq_passages, List.append_assoc]

end Sections

section Texts

variable {α : Type}

theorem shown_listFragments (items : List α) (f : α → List Fragment) :
    shownTexts (listFragments items f) = items.flatMap fun x => shownTexts (f x) := by
  have hitem (x : α) :
      shownTexts ([markup "<li>"] ++ f x ++ [markup "</li>\n"]) = shownTexts (f x) := by
    rw [shown_append, shown_append]
    exact List.append_nil _
  rw [listFragments, shown_append, shown_append, shown_flatMap, funext hitem]
  exact List.append_nil _

theorem shown_spelling (p : Passage) : shownTexts (spelling p) = p.texts := by
  cases p with
  | nameSpace name classNames =>
      rw [spelling, shown_append, shown_listFragments]
      exact congrArg (name :: ·) (List.flatMap_singleton' classNames)
  | className name => rfl
  | qualifier name => rfl
  | labelled label s => rfl
  | table rows =>
      rw [spelling, shown_append, shown_append, shown_flatMap]
      exact List.append_nil _
  | member title => rfl
  | inherited noted => rfl
  | entries label es =>
      rw [spelling, shown_append, shown_listFragments]
      rfl
  | seeAlso targets =>
      rw [spelling, shown_append, shown_listFragments]
      exact congrArg (_ :: ·) (List.map_eq_flatMap ..).symm
  | examples es =>
      rw [spelling, shown_append, shown_flatMap]
      exact congrArg (_ :: ·) (List.flatMap_singleton' es)
  | lists ls =>
      rw [spelling, shown_append, shown_listFragments]
      exact congrArg (_ :: ·) (List.flatMap_singleton' ls)
  | classEnd => rfl

theorem hasMarkups_labelFragments (label : Label) :
    HasMarkups fixedMarkups (labelFragments label) := by
  simp [labelFragments, fixedMarkups]

theorem hasMarkups_listFragments (items : List α) {f : α → List Fragment}
    (h : ∀ x, HasMarkups fixedMarkups (f x)) : HasMarkups fixedMarkups (listFragments items f) := by
  have hlist : HasMarkups fixedMarkups [markup "<ul>\n"] ∧
      HasMarkups fixedMarkups [markup "</ul>\n"] := by
    simp [fixedMarkups]
  have hitem : HasMarkups fixedMarkups [markup "<li>"] ∧
      HasMarkups fixedMarkups [markup "</li>\n"] := by
    simp [fixedMarkups]
  simp only [listFragments, hasMarkups_append]
  refine ⟨⟨hlist.1, hasMarkups_flatMap items fun x => ?_⟩, hlist.2⟩
  simp only [hasMarkups_append]
  exact ⟨⟨hitem.1, h x⟩, hitem.2⟩

theorem hasMarkups_linkFragments (long : Bool) (name : Text) :
    HasMarkups fixedMarkups (linkFragments long name) := by
  simp [linkFragments, fixedMarkups]

theorem hasMarkups_spelling (p : Passage) : HasMarkups fixedMarkups (spelling p) := by
  have hlabel := hasMarkups_labelFragments
  cases p with
  | nameSpace name classNames =>
      have hname : HasMarkups fixedMarkups (headingFragments "h2" name) := by
        simp [headingFragments, fixedMarkups]
      exact hasMarkups_append.2
        ⟨hname, hasMarkups_listFragments classNames (hasMarkups_linkFragments false)⟩
  | className name => simp [spelling, headingFragments, fixedMarkups]
  | qualifier name => simp [spelling, fixedMarkups]
  | labelled label s => simp [spelling, fixedMarkups]
  | table rows =>
      have hhead : HasMarkups fixedMarkups tableHeadFragments := by
        simp [tableHeadFragments, fixedMarkups]
      have hrow (r : MemberRow) : HasMarkups fixedMarkups (rowFragments r) := by
        simp [rowFragments, linkFragments, fixedMarkups]
      have hend : HasMarkups fixedMarkups [markup "</table>\n"] := by simp [fixedMarkups]
      simp only [spelling, hasMarkups_append]
      exact ⟨⟨hhead, hasMarkups_flatMap rows hrow⟩, hend⟩
  | member title => simp [spelling, headingFragments, fixedMarkups]
  | inherited noted => simp [spelling, fixedMarkups]
  | entries label es =>
      have hentry (e : Entry) : HasMarkups fixedMarkups (entryFragments e) := by
        simp [entryFragments, fixedMarkups]
      exact hasMarkups_append.2 ⟨hlabel label, hasMarkups_listFragments es hentry⟩
  | seeAlso targets =>
      exact hasMarkups_append.2 ⟨hlabel _, hasMarkups_listFragments targets fun _ => hasMarkups_nil⟩
  | examples es =>
      have hexample (s : Text) : HasMarkups fixedMarkups (exampleFragments s) := by
        simp [exampleFragments, fixedMarkups]
      exact hasMarkups_append.2 ⟨hlabel _, hasMarkups_flatMap es hexample⟩
  | lists ls =>
      exact hasMarkups_append.2 ⟨hlabel _, hasMarkups_listFragments ls fun _ => hasMarkups_nil⟩
  | classEnd => simp [spelling, fixedMarkups]

end Texts
end Html

/-- A Markdown document after its table of contents and a page inside its content pane are the same
passages, one after another, and both leave out those with nothing to say. Both formats show the
texts of each passage, in the same order, and otherwise write only anchors and fixed markup. -/
theorem renderings_share_passages (classes : List Class) :
    let groups := Group.ofClasses classes
    (∀ style, Markdown.render style classes = Markdown.contents style groups ++
      (passages classes).flatMap fun p => written Fragment.markdown (Markdown.spelling style p)) ∧
    Html.render classes = Html.head ++ "<body>\n" ++ Html.sidebar (Group.forest groups) ++
      "<div class=\"content\">\n" ++
      (passages classes).flatMap (fun p => written Fragment.html (Html.spelling p)) ++ "</div>\n" ++
      "</body>\n</html>\n" ∧
    (∀ p ∈ groups.flatMap Group.passages, p ∈ passages classes ↔ p.isFull) ∧
    ∀ p ∈ passages classes,
      (∀ style, shownTexts (Markdown.spelling style p) = p.texts ∧
        ∀ s ∈ markups (Markdown.spelling style p), s ∈ Markdown.fixedMarkups style) ∧
      shownTexts (Html.spelling p) = p.texts ∧
      ∀ s ∈ markups (Html.spelling p), s ∈ Html.fixedMarkups := by
  intro groups
  refine ⟨fun style => Markdown.render_eq_passages style classes, Html.render_eq_passages classes,
    fun p hp => ?_, fun p _ => ⟨fun style => ?_, ?_⟩⟩
  · rw [passages, List.mem_filter]
    exact and_iff_right hp
  · exact ⟨Markdown.shown_spelling style p, Markdown.hasMarkups_spelling style p⟩
  · exact ⟨Html.shown_spelling p, Html.hasMarkups_spelling p⟩

end ApiDocs
