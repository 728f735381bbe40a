import ApiDocs.Proofs.Markdown.Parts
import ApiDocs.Proofs.Namespace.Names

namespace ApiDocs.Markdown

def tableHeadings (c : Class) : List Text :=
  match c.members with
  | [] => []
  | _ :: _ => ["Members"]

def classHeadings (c : Class) : List Text := c.className :: tableHeadings c ++ c.titles

def groupHeadings (g : Group) : List Text :=
  g.nameSpace :: "Table of Contents" :: g.classes.flatMap classHeadings

def headings (classes : List Class) : List Text :=
  "Table of Contents" :: (Group.ofClasses classes).flatMap groupHeadings

section Passages

def passageHeadings : Passage → List Text
  | .nameSpace name _ => [name, "Table of Contents"]
  | .className name => [name]
  | .table _ => ["Members"]
  | .member title => [title]
  | _ => []

theorem silent_passageHeadings : Silent passageHeadings := by
  intro p hp
  cases p with
  | nameSpace | className | table | member => cases hp
  | _ => rfl

theorem passageHeadings_class (c : Class) :
    c.passages.flatMap (Passage.ifFull passageHeadings) = classHeadings c := by
  have htable : Passage.ifFull passageHeadings
      (.table (c.members.map (MemberRow.ofMember c.nameSpace))) = tableHeadings c := by
    rw [tableHeadings]
    cases c.members <;> rfl
  rw [Class.flatMap_passages silent_passageHeadings, htable, classHeadings, Class.titles,
    List.map_eq_flatMap]
  rfl

theorem headings_eq_passages (classes : List Class) :
    headings classes =
      ("Table of Contents" : Text) :: (passages classes).flatMap passageHeadings := by
  have hgroup (g : Group) :
      g.passages.flatMap (Passage.ifFull passageHeadings) = groupHeadings g := by
    rw [Group.flatMap_passages, funext passageHeadings_class]
    rfl
  rw [flatMap_passages, funext hgroup, headings]

theorem headingTexts_lines {α : Type} (xs : List α) {f : α → Block}
    (h : ∀ x, (f x).headingText? = none) :
    (xs.map f ++ [emptyLine]).filterMap Block.headingText? = [] := by
  have hnone : xs.filterMap (Block.headingText? ∘ f) = [] :=
    List.filterMap_eq_nil_iff.2 fun x _ => h x
  rw [List.filterMap_append, List.filterMap_map, hnone]
  rfl

theorem headingTexts_passageBlocks (p : Passage) :
    (passageBlocks p).filterMap Block.headingText? = passageHeadings p := by
  cases p with
  | nameSpace name classNames =>
      exact congrArg (name :: ("Table of Contents" : Text) :: ·)
        (headingTexts_lines classNames (f := itemBlock []) fun _ => rfl)
  | table rows =>
      exact congrArg (("Members" : Text) :: ·)
        (headingTexts_lines rows (f := rowBlock) fun _ => rfl)
  | className | member => rfl
  | qualifier | labelled | inherited | entries | seeAlso | examples | lists | classEnd => rfl

theorem headingTexts_blocks (classes : List Class) :
    (blocks classes).filterMap Block.headingText? = headings classes := by
  have hlines := headingTexts_lines (Group.forest (Group.ofClasses classes)).lines
    (f := fun l => itemBlock (List.replicate (2 * l.depth) ' ') l.fullName) fun _ => rfl
  have hcontents : (contentsBlocks (Group.ofClasses classes)).filterMap Block.headingText? =
      [("Table of Contents" : Text)] :=
    congrArg (("Table of Contents" : Text) :: ·) hlines
  rw [blocks, List.filterMap_append, hcontents, List.filterMap_flatMap,
    funext headingTexts_passageBlocks, headings_eq_passages]
  rfl

end Passages

section Headings

/-- The headings of a document: what it documents, and the headings that are always the same. -/
inductive Headed (classes : List Class) : Text → Prop
  | documented {name} : Documented classes name → Headed classes name
  | contents : Headed classes "Table of Contents"
  | members {c} : c ∈ classes → c.members ≠ [] → Headed classes "Members"

theorem mem_tableHeadings (c : Class) (text : Text) :
    text ∈ tableHeadings c ↔ text = "Members" ∧ c.members ≠ [] := by
  rw [tableHeadings]
  cases c.members with
  | nil => simp
  | cons m members => simp

theorem mem_groupHeadings (g : Group) (text : Text) :
    text ∈ groupHeadings g ↔ text ∈ g.headingNames ∨ text = "Table of Contents" ∨
      (text = "Members" ∧ ∃ c ∈ g.classes, c.members ≠ []) := by
  simp only [groupHeadings, Group.headingNames, classHeadings, List.cons_append, List.mem_cons,
    List.mem_flatMap, List.mem_append, mem_tableHeadings]
  constructor
  · rintro (h | h | ⟨c, hc, h | ⟨h, hm⟩ | h⟩)
    · exact .inl (.inl h)
    · exact .inr (.inl h)
    · exact .inl (.inr ⟨c, hc, .inl h⟩)
    · exact .inr (.inr ⟨h, c, hc, hm⟩)
    · exact .inl (.inr ⟨c, hc, .inr h⟩)
  · rintro ((h | ⟨c, hc, h | h⟩) | h | ⟨h, c, hc, hm⟩)
    · exact .inl h
    · exact .inr (.inr ⟨c, hc, .inl h⟩)
    · exact .inr (.inr ⟨c, hc, .inr (.inr h)⟩)
    · exact .inr (.inl h)
    · exact .inr (.inr ⟨c, hc, .inr (.inl ⟨h, hm⟩)⟩)

theorem mem_headings (classes : List Class) (text : Text) :
    text ∈ headings classes ↔ Headed classes text := by
  simp only [headings, List.mem_cons, List.mem_flatMap, mem_groupHeadings]
  constructor
  · rintro (rfl | ⟨g, hg, h | rfl | ⟨rfl, c, hc, hm⟩⟩)
    · exact .contents
    · apply Headed.documented
      exact (Group.mem_headingNames classes text).1 (List.mem_flatMap.2 ⟨g, hg, h⟩)
    · exact .contents
    · exact .members (Group.nameSpace_of_mem hg hc).1 hm
  · intro h
    cases h with
    | documented h =>
        obtain ⟨g, hg, h⟩ := List.mem_flatMap.1 ((Group.mem_headingNames classes text).2 h)
        exact .inr ⟨g, hg, .inl h⟩
    | contents => exact .inl rfl
    | @members c hc hm =>
        obtain ⟨g, hg, -, hc⟩ := (Group.holds_ofClasses classes c.nameSpace c).2 ⟨hc, rfl⟩
        exact .inr ⟨g, hg, .inr (.inr ⟨rfl, c, hc, hm⟩)⟩

end Headings
end ApiDocs.Markdown
