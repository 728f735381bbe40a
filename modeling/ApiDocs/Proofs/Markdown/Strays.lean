import ApiDocs.Proofs.Extract.Clean
import ApiDocs.Proofs.Markdown.HeadingRows
import Mathlib.Data.List.TakeWhile

namespace ApiDocs

/-- What stands at the start of a line. -/
def Member.openings (m : Member) : List Text :=
  m.summary :: m.remarks :: m.returns :: m.value :: m.permission :: m.overloads :: m.examples

def Class.openings (c : Class) : List Text :=
  c.summary :: c.remarks :: c.members.flatMap Member.openings

def Member.entryNames (m : Member) : List Text :=
  (m.parameters ++ m.typeParameters ++ m.exceptions).map (·.name)

def Class.entryNames (c : Class) : List Text := c.members.flatMap Member.entryNames

namespace Markdown

section Texts

theorem signs_labelled {label : Text} (h : '\n' ∉ label) (text : Text) :
    Text.signs true (labelled label text) = Text.signs true text := by
  cases text with
  | nil => rfl
  | cons c text =>
      unfold labelled
      simp [Text.ifAny, Text.signs_append_cons, Text.signs_cons_of_ne,
        Text.signs_inside_of_not_mem h, Text.signs]

theorem signs_block {α : Type} {label : Text} (h : '\n' ∉ label) (items : List α) (write : α → Text)
    (hclosed : Text.Closed (items.flatMap write)) :
    Text.signs true (block label items write) = Text.signs true (items.flatMap write) := by
  unfold block
  cases items with
  | nil => rfl
  | cons x xs =>
      generalize (x :: xs).flatMap write = body at hclosed
      simp [Text.ifAny, Text.signs_append_cons, Text.signs_cons_of_ne,
        Text.signs_inside_of_not_mem h, hclosed.signs_append, Text.signs]

theorem signs_entryLine (e : Entry) :
    Text.signs true (entryLine e) = Text.signs false e.name + Text.signs false e.description := by
  unfold entryLine
  simp [Text.signs_append_cons, Text.signs_cons_of_ne, Text.signs]

theorem signs_bullet (s : Text) : Text.signs true (bullet s) = Text.signs false s := by
  unfold bullet
  simp [Text.signs_append_cons, Text.signs_cons_of_ne, Text.signs]

theorem signs_exampleBlock (s : Text) : Text.signs true (exampleBlock s) = Text.signs true s := by
  unfold exampleBlock
  simp [Text.signs_append_cons, Text.signs_cons_of_ne, Text.signs]

theorem signs_inheritedNote (m : Member) : Text.signs true (inheritedNote m) = 0 := by
  unfold inheritedNote
  cases m.inheritDoc <;> rfl

theorem signs_escapeCell (fresh : Bool) (s : Text) :
    Text.signs fresh (escapeCell s) = Text.signs fresh s := by
  induction s generalizing fresh with
  | nil => rfl
  | cons c s ih =>
      rw [escapeCell_cons, Text.signs_append, ih, Text.signs]
      by_cases hc : c = '|'
      · subst hc
        simp [Text.signs, Text.endsFresh]
      · rw [if_neg hc, Text.signs]
        rfl

theorem signs_ofHeading (s : Text) : Text.signs false (Anchor.ofHeading s) = 0 :=
  Text.signs_inside_of_not_mem (lineFeed_not_mem_ofHeading s)

theorem signs_nameSpaceLine (nameSpace : Text) :
    Text.signs true ("**Namespace:** " ++ nameSpace ++ "\n\n") = Text.signs false nameSpace := by
  simp [Text.signs_append_cons, Text.signs_cons_of_ne, Text.signs]

theorem lineFeed_not_mem_label (label : Label) : '\n' ∉ label.text := by
  cases label <;> decide

end Texts

section Blocks

theorem quiet_cons (b : Block) (bs : List Block) : Quiet (b :: bs) ↔ b.strays = 0 ∧ Quiet bs :=
  List.forall_mem_cons

theorem quiet_append (bs bs' : List Block) : Quiet (bs ++ bs') ↔ Quiet bs ∧ Quiet bs' :=
  List.forall_mem_append

theorem quiet_nil : Quiet [] := List.forall_mem_nil _

theorem quiet_flatMap {α : Type} (xs : List α) (f : α → List Block) :
    Quiet (xs.flatMap f) ↔ ∀ x ∈ xs, Quiet (f x) := by
  simp only [Quiet, List.mem_flatMap, forall_exists_index, and_imp]
  exact ⟨fun h x hx b hb => h b x hx hb, fun h b x hx hb => h x hx b hb⟩

theorem quiet_map {α : Type} (xs : List α) (f : α → Block) :
    Quiet (xs.map f) ↔ ∀ x ∈ xs, (f x).strays = 0 := List.forall_mem_map

theorem strays_heading (text : Text) (level : Nat) (h : 0 < level) :
    (Block.heading text level h).strays = Text.signs false text := rfl

theorem strays_lines (s : Text) (h : Text.Closed s) :
    (Block.lines s h).strays = Text.signs true s := rfl

theorem strays_emptyLine : emptyLine.strays = 0 := by decide

theorem strays_itemBlock (n : Nat) (name : Text) :
    (itemBlock (List.replicate n ' ') name).strays = Text.signs false name := by
  have hspaces : Text.signs true (List.replicate n ' ') = 0 := by
    rw [Text.signs_line (by simp)]
    intro h
    have hmem : '#' ∈ List.replicate n ' ' := h.subset (by decide)
    exact absurd (List.eq_of_mem_replicate hmem) (by decide)
  have hwrite : (itemBlock (List.replicate n ' ') name).write =
      List.replicate n ' ' ++ Anchor.listItem name ++ "\n" :=
    styled_itemBlock .plain _ name
  have hstrays : (itemBlock (List.replicate n ' ') name).strays =
      Text.signs true (itemBlock (List.replicate n ' ') name).write := rfl
  rw [hstrays, hwrite]
  unfold Anchor.listItem
  simp [Text.signs_append_cons, signs_ofHeading, hspaces, Text.signs]

theorem strays_rowBlock (r : MemberRow) :
    (rowBlock r).strays = Text.signs false r.title + Text.signs false r.summary := by
  have hstrays : (rowBlock r).strays = Text.signs true (rowBlock r).write := rfl
  rw [hstrays, rowBlock, Block.write]
  simp [Text.signs_append_cons, Text.signs_cons_of_ne, signs_escapeCell, signs_ofHeading, Text.signs]

end Blocks

section Passages

theorem quiet_note {p : Passage} (h : p.isNote = true) :
    Quiet (passageBlocks p) ↔ Text.signs true (passageText .plain p) = 0 := by
  cases p with
  | nameSpace | className | table | member => cases h
  | _ => exact List.forall_mem_singleton

theorem quiet_labelled (label : Label) (s : Text) :
    Quiet (passageBlocks (.labelled label s)) ↔ Text.signs true s = 0 := by
  rw [quiet_note rfl, passageText_labelled, signs_labelled (lineFeed_not_mem_label label)]

theorem signs_block_eq_zero {α : Type} (label : Label) (items : List α) {write : α → Text}
    (hwrite : ∀ x, Text.Closed (write x)) :
    Text.signs true (block label.text items write) = 0 ↔
      ∀ x ∈ items, Text.signs true (write x) = 0 := by
  rw [signs_block (lineFeed_not_mem_label label) items write (Text.closed_flatMap fun x _ => hwrite x),
    Text.signs_flatMap fun x _ => hwrite x, List.sum_eq_zero_iff_forall_eq_nat, List.forall_mem_map]

theorem quiet_entries (label : Label) {entries : List Entry}
    (hclean : ∀ e ∈ entries, e.description.Clean) :
    Quiet (passageBlocks (.entries label entries)) ↔
      ∀ name ∈ entries.map (·.name), Text.signs false name = 0 := by
  rw [quiet_note rfl, passageText_entries, signs_block_eq_zero label entries closed_entryLine,
    List.forall_mem_map]
  refine forall₂_congr fun e he => ?_
  rw [signs_entryLine, Text.signs_inside_of_not_mem (hclean e he).lineBreaks_not_mem.1, Nat.add_zero]

theorem quiet_lists {items : List Text} (hclean : ∀ s ∈ items, s.Clean) :
    Quiet (passageBlocks (.lists items)) := by
  rw [quiet_note rfl, passageText_lists]
  refine (signs_block_eq_zero .lists items closed_bullet).2 fun s hs => ?_
  rw [signs_bullet, Text.signs_inside_of_not_mem (hclean s hs).lineBreaks_not_mem.1]

theorem quiet_seeAlso {targets : List Text} (hclean : ∀ s ∈ targets, s.Clean) :
    Quiet (passageBlocks (.seeAlso targets)) := by
  rw [quiet_note rfl, passageText_seeAlso]
  refine (signs_block_eq_zero .seeAlso targets closed_seeAlsoLine).2 fun s hs => ?_
  have hname : '\n' ∉ Identifier.withoutKind s := fun hmem =>
    (hclean s hs).lineBreaks_not_mem.1 (Identifier.withoutKind_subset s hmem)
  rw [seeAlsoLine, signs_bullet, Text.signs_inside_of_not_mem hname]

theorem quiet_examples (examples : List Text) :
    Quiet (passageBlocks (.examples examples)) ↔ ∀ s ∈ examples, Text.signs true s = 0 := by
  have hblock := signs_block_eq_zero .examples examples closed_exampleBlock
  simp only [signs_exampleBlock] at hblock
  rw [quiet_note rfl, passageText_examples]
  exact hblock

theorem quiet_inherited (m : Member) : Quiet (passageBlocks (.inherited m.inheritDoc)) := by
  rw [quiet_note rfl, passageText_inherited]
  exact signs_inheritedNote m

theorem quiet_qualifier (name : Text) :
    Quiet (passageBlocks (.qualifier name)) ↔ Text.signs false name = 0 := by
  rw [quiet_note rfl, passageText_qualifier, signs_nameSpaceLine]

theorem quiet_classEnd : Quiet (passageBlocks .classEnd) := (quiet_note rfl).2 rfl

theorem quiet_className (name : Text) :
    Quiet (passageBlocks (.className name)) ↔ Text.signs false name = 0 :=
  List.forall_mem_singleton

theorem quiet_member (title : Text) :
    Quiet (passageBlocks (.member title)) ↔ Text.signs false title = 0 :=
  List.forall_mem_singleton

theorem quiet_table {rows : List MemberRow} (h : ∀ r ∈ rows, '\n' ∉ r.summary) :
    Quiet (passageBlocks (.table rows)) ↔ ∀ r ∈ rows, Text.signs false r.title = 0 := by
  have hheading : Text.signs false "Members" = 0 := by decide
  have hhead : Text.signs true tableHead = 0 := by decide
  have hrows : (∀ r ∈ rows, (rowBlock r).strays = 0) ↔ ∀ r ∈ rows, Text.signs false r.title = 0 := by
    refine forall₂_congr fun r hr => ?_
    rw [strays_rowBlock, Text.signs_inside_of_not_mem (h r hr), Nat.add_zero]
  simp only [passageBlocks, List.cons_append, quiet_cons, quiet_append, quiet_map, quiet_nil,
    strays_heading, strays_lines, strays_emptyLine, hheading, hhead, hrows, true_and, and_true]

theorem quiet_nameSpace (name : Text) (classNames : List Text) :
    Quiet (passageBlocks (.nameSpace name classNames)) ↔
      Text.signs false name = 0 ∧ ∀ className ∈ classNames, Text.signs false className = 0 := by
  have hheading : Text.signs false "Table of Contents" = 0 := by decide
  have hitem (className : Text) : (itemBlock [] className).strays = Text.signs false className :=
    strays_itemBlock 0 className
  simp only [passageBlocks, List.cons_append, quiet_cons, quiet_append, quiet_map, quiet_nil,
    strays_heading, strays_emptyLine, hheading, hitem, true_and, and_true]

theorem quiet_of_not_full {p : Passage} (h : p.isFull = false) : Quiet (passageBlocks p) := by
  have hnote (hp : p.isNote = true) : Quiet (passageBlocks p) := by
    rw [quiet_note hp, passageText, Passage.write_of_not_full h]
    rfl
  cases p with
  | nameSpace | className | member => cases h
  | table rows =>
      obtain rfl : rows = [] := by simpa [Passage.isFull] using h
      exact (quiet_table (List.forall_mem_nil _)).2 (List.forall_mem_nil _)
  | _ => exact hnote rfl

end Passages

section Classes

def QuietClass (c : Class) : Prop := ∀ p ∈ c.passages, Quiet (passageBlocks p)

theorem quiet_memberPassages {m : Member} (hm : m.Clean) (nameSpace : Text) :
    (∀ p ∈ m.passages nameSpace, Quiet (passageBlocks p)) ↔
      Text.signs false (m.title nameSpace) = 0 ∧
        (∀ text ∈ m.openings, Text.signs true text = 0) ∧
        ∀ name ∈ m.entryNames, Text.signs false name = 0 := by
  unfold Member.passages Member.openings Member.entryNames
  simp only [List.forall_mem_cons, List.map_append, List.forall_mem_append, quiet_member,
    quiet_labelled, quiet_inherited, quiet_entries _ hm.parameters, quiet_entries _ hm.typeParameters,
    quiet_entries _ hm.exceptions, quiet_seeAlso hm.seeAlso, quiet_examples, quiet_lists hm.lists]
  tauto

theorem quietClass_iff {c : Class} (hc : c.Clean) :
    QuietClass c ↔
      (∀ name ∈ c.nameSpace :: c.className :: c.titles, Text.signs false name = 0) ∧
        (∀ text ∈ c.openings, Text.signs true text = 0) ∧
        ∀ name ∈ c.entryNames, Text.signs false name = 0 := by
  have htable : Quiet (passageBlocks (.table (c.members.map (MemberRow.ofMember c.nameSpace)))) ↔
      ∀ title ∈ c.titles, Text.signs false title = 0 := by
    rw [quiet_table, List.forall_mem_map, Class.titles, List.forall_mem_map]
    · rfl
    · rw [List.forall_mem_map]
      exact fun m hm => (hc.members m hm).summary.lineBreaks_not_mem.1
  have hmembers : (∀ m ∈ c.members, ∀ p ∈ m.passages c.nameSpace, Quiet (passageBlocks p)) ↔
      (∀ name ∈ c.titles, Text.signs false name = 0) ∧
        (∀ text ∈ c.members.flatMap Member.openings, Text.signs true text = 0) ∧
        ∀ name ∈ c.entryNames, Text.signs false name = 0 := by
    rw [Class.titles, List.forall_mem_map, Class.entryNames, List.forall_mem_flatMap,
      List.forall_mem_flatMap, ← forall₂_and, ← forall₂_and]
    exact forall₂_congr fun m hm => quiet_memberPassages (hc.members m hm) c.nameSpace
  unfold QuietClass Class.passages Class.openings
  simp only [List.forall_mem_append, List.forall_mem_cons, List.forall_mem_flatMap, quiet_className,
    quiet_qualifier, quiet_labelled, quiet_classEnd, htable, hmembers]
  tauto

theorem quiet_groupPassages {g : Group} (hg : ∀ c ∈ g.classes, c.Clean) :
    (∀ p ∈ g.passages, Quiet (passageBlocks p)) ↔
      Text.signs false g.nameSpace = 0 ∧ ∀ c ∈ g.classes, QuietClass c := by
  have hitems (h : ∀ c ∈ g.classes, QuietClass c) :
      ∀ c ∈ g.classes, Text.signs false c.className = 0 := fun c hc =>
    ((quietClass_iff (hg c hc)).1 (h c hc)).1 c.className (by simp)
  rw [Group.passages, List.forall_mem_cons, quiet_nameSpace, List.forall_mem_map,
    List.forall_mem_flatMap, and_assoc]
  exact and_congr_right fun _ => and_iff_right_of_imp hitems

theorem signs_of_begins {q s : Text} (h : Forest.Begins q s) (hs : Text.signs false s = 0) :
    Text.signs false q = 0 := by
  have hdotted : Text.signs false (s ++ ['.']) = 0 := by
    rw [Text.signs_append_cons (by decide), hs]
    rfl
  rw [Text.signs_inside_eq_zero] at hdotted ⊢
  exact fun hq => hdotted ((hq.trans (List.prefix_append q ['.']).isInfix).trans h.isInfix)

theorem quiet_contentsBlocks (groups : List Group) :
    Quiet (contentsBlocks groups) ↔
      ∀ name ∈ (Group.forest groups).fullNames, Text.signs false name = 0 := by
  have hheading : Text.signs false "Table of Contents" = 0 := by decide
  rw [← Forest.map_fullName_lines, List.forall_mem_map]
  simp only [contentsBlocks, List.cons_append, quiet_cons, quiet_append, quiet_map, quiet_nil,
    strays_heading, strays_emptyLine, strays_itemBlock, hheading, true_and, and_true]

theorem quiet_passages (classes : List Class) :
    Quiet ((passages classes).flatMap passageBlocks) ↔
      ∀ g ∈ Group.ofClasses classes, ∀ p ∈ g.passages, Quiet (passageBlocks p) := by
  rw [quiet_flatMap, passages, ← List.forall_mem_flatMap]
  constructor
  · intro h p hp
    cases hfull : p.isFull with
    | false => exact quiet_of_not_full hfull
    | true => exact h p (List.mem_filter.2 ⟨hp, hfull⟩)
  · exact fun h p hp => h p (List.mem_filter.1 hp).1

theorem quiet_blocks {classes : List Class} (hclean : ∀ c ∈ classes, c.Clean) :
    Quiet (blocks classes) ↔ ∀ c ∈ classes, QuietClass c := by
  have hgroup {g : Group} (hg : g ∈ Group.ofClasses classes) : ∀ c ∈ g.classes, c.Clean :=
    fun c hc => hclean c (Group.nameSpace_of_mem hg hc).1
  rw [blocks, quiet_append, quiet_contentsBlocks, quiet_passages]
  constructor
  · intro h c hc
    obtain ⟨g, hg, -, hmem⟩ := (Group.holds_ofClasses classes c.nameSpace c).2 ⟨hc, rfl⟩
    exact ((quiet_groupPassages (hgroup hg)).1 (h.2 g hg)).2 c hmem
  · intro h
    have hnameSpace (c : Class) (hc : c ∈ classes) : Text.signs false c.nameSpace = 0 :=
      ((quietClass_iff (hclean c hc)).1 (h c hc)).1 c.nameSpace List.mem_cons_self
    refine ⟨fun name hname => ?_, fun g hg => ?_⟩
    -- the contents name prefixes of namespaces, which have no more line breaks than these
    · obtain ⟨c, hc, hbegins⟩ := (Group.mem_fullNames_forest classes name).1 hname
      exact signs_of_begins hbegins (hnameSpace c hc)
    · obtain ⟨c, hc⟩ := List.exists_mem_of_ne_nil _ (Group.classes_ne_nil classes g hg)
      obtain ⟨hmem, he⟩ := Group.nameSpace_of_mem hg hc
      rw [quiet_groupPassages (hgroup hg), ← he]
      exact ⟨hnameSpace c hmem, fun d hd => h d (Group.nameSpace_of_mem hg hd).1⟩

end Classes

section Documents

theorem keepsAnchor_of_not_mem {text : Text} (h : '\n' ∉ text) : KeepsAnchor text := by
  have hline : firstLine text = text := by
    rw [firstLine, List.takeWhile_eq_self_iff]
    intro c hc
    have hne : c ≠ '\n' := fun he => h (he ▸ hc)
    simpa using hne
  rw [KeepsAnchor, hline]

theorem keepsAnchor_headings (classes : List Class) :
    (∀ text ∈ headings classes, KeepsAnchor text) ↔
      ∀ name, Documented classes name → KeepsAnchor name := by
  simp only [mem_headings]
  constructor
  · exact fun h name hname => h name (.documented hname)
  · intro h text htext
    cases htext with
    | documented hname => exact h text hname
    | contents => exact keepsAnchor_of_not_mem (by decide)
    | members => exact keepsAnchor_of_not_mem (by decide)

theorem forall_documented {classes : List Class} {P : Text → Prop} :
    (∀ name, Documented classes name → P name) ↔
      ∀ c ∈ classes, ∀ name ∈ c.nameSpace :: c.className :: c.titles, P name := by
  constructor
  · intro h c hc name hname
    rw [List.mem_cons, List.mem_cons, Class.titles, List.mem_map] at hname
    rcases hname with rfl | rfl | ⟨m, hm, rfl⟩
    · exact h _ (.nameSpace hc)
    · exact h _ (.className hc)
    · exact h _ (.title hc hm)
  · intro h name hname
    cases hname with
    | nameSpace hc => exact h _ hc _ List.mem_cons_self
    | className hc => exact h _ hc _ (List.mem_cons_of_mem _ List.mem_cons_self)
    | title hc hm =>
        exact h _ hc _ (List.mem_cons_of_mem _ (List.mem_cons_of_mem _ (List.mem_map_of_mem hm)))

theorem clean_openings {c : Class} (hc : c.Clean) : ∀ text ∈ c.openings, text.Clean := by
  have hmember {m : Member} (hm : m.Clean) : ∀ text ∈ m.openings, text.Clean := by
    simp only [Member.openings, List.forall_mem_cons]
    exact ⟨hm.summary, hm.remarks, hm.returns, hm.value, hm.permission, hm.overloads, hm.examples⟩
  simp only [Class.openings, List.forall_mem_cons, List.forall_mem_flatMap]
  exact ⟨hc.summary, hc.remarks, fun m hm => hmember (hc.members m hm)⟩

/-- In a document with anchors, the lines that begin with a number sign are its headings, each right
behind the anchor of its own text, exactly when no description or example begins with a number sign,
no name has one behind a line break, and the anchor of every name is that of its first line. -/
theorem headingsOnly_iff {s : Text} {classes : List Class} (h : Extract.document s = .ok classes) :
    HeadingsOnly (render .anchorTag classes) (headingCount classes) ↔
      (∀ c ∈ classes, ∀ text ∈ c.openings, ¬ "#" <+: text) ∧
        (∀ c ∈ classes, ∀ name ∈ c.entryNames, ¬ "\n#" <:+: name) ∧
        ∀ name, Documented classes name → ¬ "\n#" <:+: name ∧ KeepsAnchor name := by
  have hclean := Extract.clean_document h
  have hopenings : (∀ c ∈ classes, ∀ text ∈ c.openings, Text.signs true text = 0) ↔
      ∀ c ∈ classes, ∀ text ∈ c.openings, ¬ "#" <+: text :=
    forall₂_congr fun c hc => forall₂_congr fun text htext =>
      Text.signs_line (clean_openings (hclean c hc) text htext).lineBreaks_not_mem.1
  have hquiet : Quiet (blocks classes) ↔ _ :=
    (quiet_blocks hclean).trans (forall₂_congr fun c hc => quietClass_iff (hclean c hc))
  rw [headingsOnly_iff_quiet, hquiet, keepsAnchor_headings, forall₂_and, forall₂_and,
    ← forall_documented, hopenings, forall₂_and]
  simp only [Text.signs_inside_eq_zero]
  tauto

/-- A parameter name with a harmless line break. -/
theorem headingsOnly_with_line_break :
    let classes : List Class := [⟨"B", "A", "First.", [],
      [⟨.method, "M:A.B.run", "Runs # times.", [], [], [], [], [], false, [⟨"a\nb", "Number."⟩],
        [], [], [], [], []⟩]⟩]
    Extract.document ("<doc><member name=\"T:A.B\"><summary>First.</summary></member>" ++
        "<member name=\"M:A.B.run\"><summary>Runs # times.</summary>" ++
        "<param name=\"a&#10;b\">Number.</param></member></doc>") = .ok classes ∧
      HeadingsOnly (render .anchorTag classes) (headingCount classes) := by
  intro classes
  have h : Extract.document ("<doc><member name=\"T:A.B\"><summary>First.</summary></member>" ++
      "<member name=\"M:A.B.run\"><summary>Runs # times.</summary>" ++
      "<param name=\"a&#10;b\">Number.</param></member></doc>") = .ok classes := by decide +kernel
  have hnames : ∀ c ∈ classes, ∀ name ∈ c.nameSpace :: c.className :: c.titles, '\n' ∉ name := by
    decide
  refine ⟨h, (headingsOnly_iff h).2 ⟨by decide, by decide, forall_documented.2 ?_⟩⟩
  intro c hc name hname
  have hline := hnames c hc name hname
  have hsigns := Text.signs_inside_of_not_mem hline
  exact ⟨Text.signs_inside_eq_zero.1 hsigns, keepsAnchor_of_not_mem hline⟩

/-- A summary that begins with a number sign is one more line that looks like a heading. -/
theorem summary_looks_like_heading :
    ∃ classes, Extract.document
        "<doc><member name=\"T:A.B\"><summary># x</summary></member></doc>" = .ok classes ∧
      (Text.splitAt '\n' (render .anchorTag classes)).countP Text.isSigned =
        headingCount classes + 1 ∧
      ¬ HeadingsOnly (render .anchorTag classes) (headingCount classes) := by
  let classes : List Class := [⟨"B", "A", "# x", [], []⟩]
  have hcount : (Text.splitAt '\n' (render .anchorTag classes)).countP Text.isSigned =
      headingCount classes + 1 := by decide +kernel
  refine ⟨classes, by decide +kernel, hcount, fun h => ?_⟩
  have hne := h.count
  omega

end Documents
end Markdown
end ApiDocs
