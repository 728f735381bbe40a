import ApiDocs.Proofs.Html.Captions

namespace ApiDocs.Html

def outline (s : Text) : Outline := readOutline 2 false (marks s)

def layout : Layout where
  level := 2
  titled := false
  anchor := idOf
  title _ := none

section Captions

theorem map_mark_passageCaptions (p : Passage) :
    (passageCaptions p).map (·.mark) = layout.passageMarks p := by
  have hlinks {α : Type} (xs : List α) {f : α → Caption} {g : α → Text}
      (h : ∀ x, (f x).mark = .link (layout.anchor (g x))) :
      (xs.map f).map (·.mark) = layout.links (xs.map g) := by
    rw [List.map_map, Layout.links, List.map_map]
    exact List.map_congr_left fun x _ => h x
  cases p with
  | nameSpace name classNames =>
      have hnames := hlinks classNames (f := fun name => linkCaption name name) (g := id) fun _ => rfl
      rw [List.map_id] at hnames
      exact congrArg (_ :: ·) hnames
  | table rows => exact congrArg (_ :: ·) (hlinks rows (g := (·.title)) fun _ => rfl)
  | className | member => rfl
  | qualifier | labelled | inherited | entries | seeAlso | examples | lists | classEnd => rfl

theorem map_mark_sidebarCaptions (f : Forest) :
    (sidebarCaptions f).map (·.mark) = .heading 2 none :: layout.links f.fullNames := by
  rw [sidebarCaptions, List.map_cons, List.map_map, Layout.links, ← f.map_fullName_lines,
    List.map_map]
  rfl

theorem marks_render (classes : List Class) :
    marks (render classes) = layout.marks (Group.ofClasses classes) := by
  rw [marks, ← map_mark_captions, captions_render, ← passageCaptions_passages, List.map_append,
    map_mark_sidebarCaptions, List.map_flatMap, funext map_mark_passageCaptions,
    layout.marks_eq_passages]
  rfl

end Captions

/-- A page has the outline of its groups. -/
theorem outline_render (classes : List Class) :
    outline (render classes) = layout.outline (Group.ofClasses classes) := by
  rw [outline, marks_render]
  exact layout.read_marks (Group.ofClasses classes)

end ApiDocs.Html
