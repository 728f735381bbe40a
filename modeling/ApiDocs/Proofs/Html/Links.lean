import ApiDocs.Proofs.Html.Outline

namespace ApiDocs.Html

section Marks

theorem target?_eq (p : Piece) : p.target? = p.mark?.bind Mark.target? := by
  cases p with
  | char c => rfl
  | tag content =>
      rw [Piece.mark?]
      cases hlevel : headingLevel? (tagName content) with
      | none => cases Piece.target? (.tag content) <;> rfl
      | some level =>
          apply attribute?_other
          rintro ⟨s, rfl⟩
          have hname : headingLevel? (tagName ("a href=\"#" ++ s)) = none := rfl
          rw [hname] at hlevel
          cases hlevel

theorem id?_eq (p : Piece) : p.id? = p.mark?.bind Mark.anchor? := by
  cases p with
  | char c => rfl
  | tag content =>
      rw [Piece.mark?]
      cases hlevel : headingLevel? (tagName content) with
      | some level => rfl
      | none =>
          have hnone {start : Text} (h : ∀ s, headingLevel? (tagName (start ++ s)) ≠ none) :
              Piece.attribute? start (.tag content) = none := by
            apply attribute?_other
            rintro ⟨s, rfl⟩
            exact h s hlevel
          have hid : Piece.id? (.tag content) = none := by
            rw [Piece.id?, hnone, hnone, hnone]
            · rfl
            · exact fun _ => Option.some_ne_none 4
            · exact fun _ => Option.some_ne_none 3
            · exact fun _ => Option.some_ne_none 2
          rw [hid]
          cases Piece.target? (.tag content) <;> rfl

theorem linkTargets_eq (s : Text) : linkTargets s = targets (marks s) := by
  rw [linkTargets, targets, marks, List.filterMap_filterMap]
  exact List.filterMap_congr fun p _ => target?_eq p

theorem headingIds_eq (s : Text) : headingIds s = anchors (marks s) := by
  rw [headingIds, anchors, marks, List.filterMap_filterMap]
  exact List.filterMap_congr fun p _ => id?_eq p

end Marks

/-- All links and all headings of a page, in order. -/
theorem shows_render (classes : List Class) :
    let groups := Group.ofClasses classes
    Shows (render classes)
      (((Group.forest groups).fullNames ++ groups.flatMap Group.linkedNames).map idOf)
      ((groups.flatMap Group.headingNames).map idOf) := by
  intro groups
  constructor
  · rw [← Markup.write_page]
    exact (Markup.page classes).reads_write.closed
  · rw [linkTargets_eq, marks_render]
    exact layout.targets_marks groups
  · rw [headingIds_eq, marks_render]
    exact layout.anchors_marks (fun _ => rfl) groups

end ApiDocs.Html
