import ApiDocs.Proofs.Passages

namespace ApiDocs.Markdown

open Fragment

def headingFragments (style : HeadingStyle) (name : Text) (level : Nat) : List Fragment :=
  (match style with
    | .plain => []
    | .anchorTag => [markup "<a name=\"", anchor name, markup "\"></a>\n"]) ++
  [markup (List.replicate level '#' ++ " "), text .line name, markup "\n\n"]

def labelFragments (label : Label) : List Fragment :=
  [markup "**", text .line label.text, markup ":**\n"]

def blockFragments {α : Type} (label : Label) (items : List α) (write : α → List Fragment) :
    List Fragment :=
  labelFragments label ++ items.flatMap write ++ [markup "\n"]

def bulletFragments (s : Text) : List Fragment := [markup "- ", text .line s, markup "\n"]

def nameLine (name : Text) : Text := Anchor.listItem name ++ "\n"

def lineFragments (name : Text) : List Fragment :=
  [markup "- [", text .line name, markup "](#", anchor name, markup ")\n"]

def tableHeadFragments : List Fragment :=
  [markup "| ", text .line "Name", markup " | ", text .line "Summary",
    markup " |\n| --- | --- |\n"]

def rowFragments (r : MemberRow) : List Fragment :=
  [markup "| [", text (.link r.long) r.title, markup "](#", anchor r.title, markup ") | ",
    text .cell r.summary, markup " |\n"]

def spelling (style : HeadingStyle) : Passage → List Fragment
  | .nameSpace name classNames =>
    headingFragments style name 1 ++ [markup (heading style "Table of Contents" 2)] ++
      classNames.flatMap lineFragments ++ [markup "\n"]
  | .className name => headingFragments style name 2
  | .qualifier name =>
    [markup "**", text .line "Namespace", markup ":** ", text .line name, markup "\n\n"]
  | .labelled label s => labelFragments label ++ [text .line s, markup "\n\n"]
  | .table rows =>
    headingFragments style "Members" 3 ++ tableHeadFragments ++ rows.flatMap rowFragments ++
      [markup "\n"]
  | .member title => headingFragments style title 3
  | .inherited _ => [markup "_", text .line Passage.inheritedText, markup "_\n\n"]
  | .entries label es =>
    blockFragments label es fun e =>
      [markup "- **", text .line e.name, markup ":** ", text .line e.description, markup "\n"]
  | .seeAlso targets =>
    blockFragments .seeAlso targets fun target => bulletFragments (Identifier.withoutKind target)
  | .examples es =>
    blockFragments .examples es fun s => [markup "```\n", text .line s, markup "\n```\n"]
  | .lists ls => blockFragments .lists ls bulletFragments
  | .classEnd => [markup "---\n\n"]

def fixedMarkups (style : HeadingStyle) : List Text :=
  ["<a name=\"", "\"></a>\n", "# ", "## ", "### ", "\n\n", "**", ":**\n", ":** ", "- ", "- **", "\n",
    heading style "Table of Contents" 2, "- [", "](#", ")\n", "| ", " | ", " |\n| --- | --- |\n", "| [",
    ") | ", " |\n", "_", "_\n\n", "```\n", "\n```\n", "---\n\n"]

/-- What is written for a passage that may have nothing to say. -/
def passageText (style : HeadingStyle) : Passage → Text := Passage.write markdown (spelling style)

section Written

variable {α : Type}

theorem written_headingFragments (style : HeadingStyle) (name : Text) (level : Nat) :
    written markdown (headingFragments style name level) = heading style name level := by
  have hline : written markdown
      [markup (List.replicate level '#' ++ " "), text .line name, markup "\n\n"] =
      headingLine name level ++ "\n" := by
    simp [headingLine, markdown]
  have hanchor : written markdown [markup "<a name=\"", anchor name, markup "\"></a>\n"] =
      anchorLine name := by
    unfold anchorLine
    simp [markdown]
  cases style with
  | plain => exact hline
  | anchorTag =>
      have hheading : heading .anchorTag name level =
          anchorLine name ++ headingLine name level ++ "\n" := rfl
      rw [headingFragments, written_append, hanchor, hline, hheading, List.append_assoc]

theorem passageText_labelled (style : HeadingStyle) (label : Label) (s : Text) :
    passageText style (.labelled label s) = labelled label.text s := by
  rw [passageText, Passage.write_eq_ifAny s rfl]
  simp [spelling, labelFragments, labelled, markdown]

theorem written_blockFragments (label : Label) (items : List α) {f : α → List Fragment}
    {write : α → Text} (hf : ∀ x, written markdown (f x) = write x) :
    written markdown (blockFragments label items f) =
      "**" ++ label.text ++ ":**\n" ++ items.flatMap write ++ "\n" := by
  simp [blockFragments, labelFragments, markdown, written_flatMap, hf]

theorem passageText_block {style : HeadingStyle} {p : Passage} (label : Label) {items : List α}
    {f : α → List Fragment} {write : α → Text} (hfull : p.isFull = !items.isEmpty)
    (hspelling : spelling style p = blockFragments label items f)
    (hf : ∀ x, written markdown (f x) = write x) :
    passageText style p = block label.text items write := by
  rw [passageText, Passage.write_eq_ifAny items hfull, hspelling, written_blockFragments _ _ hf,
    block]

theorem passageText_entries (style : HeadingStyle) (label : Label) (es : List Entry) :
    passageText style (.entries label es) = block label.text es entryLine := by
  refine passageText_block label rfl rfl fun e => ?_
  unfold entryLine
  simp [markdown]

theorem passageText_seeAlso (style : HeadingStyle) (targets : List Text) :
    passageText style (.seeAlso targets) = block "See Also" targets seeAlsoLine := by
  refine passageText_block .seeAlso rfl rfl fun t => ?_
  simp [bulletFragments, seeAlsoLine, bullet, markdown]

theorem passageText_examples (style : HeadingStyle) (es : List Text) :
    passageText style (.examples es) = block "Examples" es exampleBlock := by
  refine passageText_block .examples rfl rfl fun s => ?_
  unfold exampleBlock
  simp [markdown]

theorem passageText_lists (style : HeadingStyle) (ls : List Text) :
    passageText style (.lists ls) = block "Lists" ls bullet := by
  refine passageText_block .lists rfl rfl fun s => ?_
  simp [bulletFragments, bullet, markdown]

theorem passageText_inherited (style : HeadingStyle) (m : Member) :
    passageText style (.inherited m.inheritDoc) = inheritedNote m := by
  cases h : m.inheritDoc with
  | false =>
      rw [passageText, Passage.write_of_not_full rfl, inheritedNote, h]
      rfl
  | true =>
      rw [passageText, Passage.write_of_full rfl, inheritedNote, h]
      rfl

theorem written_table (style : HeadingStyle) (rows : List MemberRow) :
    written markdown (spelling style (.table rows)) =
      heading style "Members" 3 ++ tableHead ++
        rows.flatMap (fun r => written markdown (rowFragments r)) ++ "\n" := by
  simp only [spelling, written_append, written_headingFragments, written_flatMap]
  rfl

theorem written_rowFragments (nameSpace : Text) (m : Member) :
    written markdown (rowFragments (MemberRow.ofMember nameSpace m)) = tableRow nameSpace m := by
  unfold tableRow
  simp [rowFragments, MemberRow.ofMember, markdown]

theorem passageText_table (style : HeadingStyle) (c : Class) :
    passageText style (.table (c.members.map (MemberRow.ofMember c.nameSpace))) =
      memberTable style c := by
  rw [passageText, Passage.write_eq_ifAny c.members (by simp [Passage.isFull]), written_table,
    List.flatMap_map, funext (written_rowFragments c.nameSpace), memberTable]

theorem written_lineFragments (name : Text) :
    written markdown (lineFragments name) = nameLine name := by
  unfold nameLine Anchor.listItem
  simp [lineFragments, markdown]

theorem written_nameSpace (style : HeadingStyle) (name : Text) (classNames : List Text) :
    written markdown (spelling style (.nameSpace name classNames)) =
      heading style name 1 ++ heading style "Table of Contents" 2 ++
        classNames.flatMap nameLine ++ "\n" := by
  simp only [spelling, written_append, written_headingFragments, written_flatMap,
    written_lineFragments, written_cons, written_nil, markdown, List.append_nil]

theorem passageText_qualifier (style : HeadingStyle) (name : Text) :
    passageText style (.qualifier name) = "**Namespace:** " ++ name ++ "\n\n" := by
  rw [passageText, Passage.write_of_full rfl]
  simp [spelling, markdown]

theorem write_member (style : HeadingStyle) (nameSpace : Text) (m : Member) :
    (m.passages nameSpace).flatMap (passageText style) = memberSection style nameSpace m := by
  have htitle : passageText style (.member (m.title nameSpace)) =
      heading style (m.title nameSpace) 3 :=
    written_headingFragments style _ 3
  simp only [Member.passages, memberSection, List.flatMap_cons, List.flatMap_nil, htitle,
    passageText_labelled, passageText_inherited, passageText_entries, passageText_seeAlso,
    passageText_examples, passageText_lists, List.append_assoc, List.append_nil]
  rfl

theorem write_class (style : HeadingStyle) (c : Class) :
    c.passages.flatMap (passageText style) = classSection style c := by
  have hname : passageText style (.className c.className) = heading style c.className 2 :=
    written_headingFragments style _ 2
  have hend : passageText style .classEnd = "---\n\n" := rfl
  simp only [Class.passages, classSection, List.flatMap_append, List.flatMap_cons, List.flatMap_nil,
    List.flatMap_assoc, hname, hend, passageText_qualifier, passageText_labelled, passageText_table,
    write_member, List.append_assoc, List.append_nil]
  rfl

theorem write_group (style : HeadingStyle) (g : Group) :
    g.passages.flatMap (passageText style) = groupSection style g := by
  have hname : passageText style (.nameSpace g.nameSpace (g.classes.map (·.className))) =
      heading style g.nameSpace 1 ++ heading style "Table of Contents" 2 ++
        g.classes.flatMap classLine ++ "\n" := by
    rw [passageText, Passage.write_of_full rfl, written_nameSpace, List.flatMap_map]
    rfl
  rw [Group.passages, List.flatMap_cons, List.flatMap_assoc, funext (write_class style), hname]
  rfl

theorem render_eq_passages (style : HeadingStyle) (classes : List Class) :
    render style classes = contents style (Group.ofClasses classes) ++
      (passages classes).flatMap fun p => written markdown (spelling style p) := by
  rw [flatMap_passages]
  exact congrArg (fun write => _ ++ List.flatMap write _) (funext (write_group style)).symm

end Written

section Texts

theorem shown_headingFragments (style : HeadingStyle) (name : Text) (level : Nat) :
    shownTexts (headingFragments style name level) = [name] := by
  cases style <;> rfl

theorem shown_blockFragments {α : Type} (label : Label) (items : List α) (f : α → List Fragment) :
    shownTexts (blockFragments label items f) =
      label.text :: items.flatMap fun x => shownTexts (f x) := by
  rw [blockFragments, shown_append, shown_append, shown_flatMap]
  exact List.append_nil _

theorem shown_spelling (style : HeadingStyle) (p : Passage) :
    shownTexts (spelling style p) = p.texts := by
  cases p with
  | nameSpace name classNames =>
      rw [spelling, shown_append, shown_append, shown_append, shown_headingFragments, shown_flatMap]
      exact (List.append_nil _).trans (congrArg (name :: ·) (List.flatMap_singleton' classNames))
  | className name => exact shown_headingFragments ..
  | qualifier name => rfl
  | labelled label s => rfl
  | table rows =>
      rw [spelling, shown_append, shown_append, shown_append, shown_headingFragments, shown_flatMap]
      exact List.append_nil _
  | member title => exact shown_headingFragments ..
  | inherited noted => rfl
  | entries label es => exact shown_blockFragments ..
  | seeAlso targets =>
      rw [spelling, shown_blockFragments]
      exact congrArg (_ :: ·) (List.map_eq_flatMap ..).symm
  | examples es =>
      rw [spelling, shown_blockFragments]
      exact congrArg (_ :: ·) (List.flatMap_singleton' es)
  | lists ls =>
      rw [spelling, shown_blockFragments]
      exact congrArg (_ :: ·) (List.flatMap_singleton' ls)
  | classEnd => rfl

theorem hasMarkups_headingFragments (style : HeadingStyle) (name : Text) {level : Nat}
    (h : List.replicate level '#' ++ " " ∈ fixedMarkups style) :
    HasMarkups (fixedMarkups style) (headingFragments style name level) := by
  cases style <;> simpa [headingFragments, fixedMarkups] using h

theorem hasMarkups_blockFragments {α : Type} (style : HeadingStyle) (label : Label) (items : List α)
    {f : α → List Fragment} (h : ∀ x, HasMarkups (fixedMarkups style) (f x)) :
    HasMarkups (fixedMarkups style) (blockFragments label items f) := by
  have hlabel : HasMarkups (fixedMarkups style) (labelFragments label) := by
    simp [labelFragments, fixedMarkups]
  have hend : HasMarkups (fixedMarkups style) [markup "\n"] := by simp [fixedMarkups]
  exact hasMarkups_append.2 ⟨hasMarkups_append.2 ⟨hlabel, hasMarkups_flatMap items h⟩, hend⟩

theorem hasMarkups_spelling (style : HeadingStyle) (p : Passage) :
    HasMarkups (fixedMarkups style) (spelling style p) := by
  have hbullet (s : Text) : HasMarkups (fixedMarkups style) (bulletFragments s) := by
    simp [bulletFragments, fixedMarkups]
  have hend : HasMarkups (fixedMarkups style) [markup "\n"] := by simp [fixedMarkups]
  cases p with
  | nameSpace name classNames =>
      have hname : HasMarkups (fixedMarkups style) (headingFragments style name 1) :=
        hasMarkups_headingFragments style name (by simp [fixedMarkups])
      have htitle :
          HasMarkups (fixedMarkups style) [markup (heading style "Table of Contents" 2)] := by
        simp [fixedMarkups]
      have hline (name : Text) : HasMarkups (fixedMarkups style) (lineFragments name) := by
        simp [lineFragments, fixedMarkups]
      simp only [spelling, hasMarkups_append]
      exact ⟨⟨⟨hname, htitle⟩, hasMarkups_flatMap classNames hline⟩, hend⟩
  | className name => exact hasMarkups_headingFragments style name (by simp [fixedMarkups])
  | qualifier name => simp [spelling, fixedMarkups]
  | labelled label s => simp [spelling, labelFragments, fixedMarkups]
  | table rows =>
      have hmembers : HasMarkups (fixedMarkups style) (headingFragments style "Members" 3) :=
        hasMarkups_headingFragments style _ (by simp [fixedMarkups])
      have hhead : HasMarkups (fixedMarkups style) tableHeadFragments := by
        simp [tableHeadFragments, fixedMarkups]
      have hrow (r : MemberRow) : HasMarkups (fixedMarkups style) (rowFragments r) := by
        simp [rowFragments, fixedMarkups]
      simp only [spelling, hasMarkups_append]
      exact ⟨⟨⟨hmembers, hhead⟩, hasMarkups_flatMap rows hrow⟩, hend⟩
  | member title => exact hasMarkups_headingFragments style title (by simp [fixedMarkups])
  | inherited noted => simp [spelling, fixedMarkups]
  | entries label es =>
      exact hasMarkups_blockFragments style label es fun e => by simp [fixedMarkups]
  | seeAlso targets => exact hasMarkups_blockFragments style _ targets fun _ => hbullet _
  | examples es =>
      exact hasMarkups_blockFragments style _ es fun s => by simp [fixedMarkups]
  | lists ls => exact hasMarkups_blockFragments style _ ls hbullet
  | classEnd => simp [spelling, fixedMarkups]

end Texts
end ApiDocs.Markdown
