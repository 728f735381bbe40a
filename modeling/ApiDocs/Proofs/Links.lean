import ApiDocs.Proofs.Html.Links
import ApiDocs.Proofs.Markdown.Headings
import ApiDocs.Proofs.Markdown.Outline

namespace ApiDocs

namespace Markdown

/-- Every link goes to the anchor of a heading, which is written out if the style has anchors. -/
def LinksResolve (style : HeadingStyle) (classes : List Class) : Prop :=
  ∀ target ∈ linkTargets (parts style classes),
    target ∈ (headingTexts (parts style classes)).map Anchor.ofHeading ∧
      (style = .anchorTag → target ∈ anchorNames (parts style classes))

instance (style : HeadingStyle) (classes : List Class) : Decidable (LinksResolve style classes) :=
  inferInstanceAs (Decidable (∀ target ∈ linkTargets (parts style classes),
    target ∈ (headingTexts (parts style classes)).map Anchor.ofHeading ∧
      (style = .anchorTag → target ∈ anchorNames (parts style classes))))

end Markdown

namespace Html

def LinksResolve (classes : List Class) : Prop :=
  ∀ target ∈ linkTargets (render classes), target ∈ headingIds (render classes)

instance (classes : List Class) : Decidable (LinksResolve classes) :=
  inferInstanceAs (Decidable (∀ target ∈ linkTargets (render classes),
    target ∈ headingIds (render classes)))

end Html

section Resolve

variable {classes : List Class}

/-- Whatever makes anchors of names, the links to dotted beginnings are the only ones that can miss
a heading. -/
theorem linked_iff (anchor : Text → Text) {names : List Text}
    (h : ∀ name, Documented classes name → name ∈ names) :
    (∀ target ∈ ((Group.forest (Group.ofClasses classes)).fullNames ++
        (Group.ofClasses classes).flatMap Group.linkedNames).map anchor,
          target ∈ names.map anchor) ↔
      ∀ c ∈ classes, ∀ q, Forest.Begins q c.nameSpace → ∃ name ∈ names, anchor q = anchor name := by
  constructor
  · intro hall c hc q hq
    have hmem := (Group.mem_fullNames_forest classes q).2 ⟨c, hc, hq⟩
    have hlink := hall (anchor q) (List.mem_map.2 ⟨q, List.mem_append_left _ hmem, rfl⟩)
    obtain ⟨name, hname, he⟩ := List.mem_map.1 hlink
    exact ⟨name, hname, he.symm⟩
  · intro hall target ht
    obtain ⟨q, hq, rfl⟩ := List.mem_map.1 ht
    rcases List.mem_append.1 hq with hq | hq
    · obtain ⟨c, hc, hb⟩ := (Group.mem_fullNames_forest classes q).1 hq
      obtain ⟨name, hname, he⟩ := hall c hc q hb
      exact List.mem_map.2 ⟨name, hname, he.symm⟩
    · exact List.mem_map.2 ⟨q, h q (Group.documented_of_linked hq), rfl⟩

theorem Markdown.linksResolve_iff (style : HeadingStyle) (classes : List Class) :
    LinksResolve style classes ↔ ∀ c ∈ classes, ∀ q, Forest.Begins q c.nameSpace →
      ∃ name, Headed classes name ∧ Anchor.ofHeading q = Anchor.ofHeading name := by
  have hheadings := (headingTexts_parts style (blocks classes)).trans (headingTexts_blocks classes)
  have hanchors := anchorNames_parts style (blocks classes)
  have hnames (name : Text) (h : Documented classes name) : name ∈ headings classes :=
    (mem_headings classes name).2 (.documented h)
  have hiff := linked_iff Anchor.ofHeading hnames
  simp only [mem_headings] at hiff
  rw [headingTexts_blocks] at hanchors
  rw [← hiff, LinksResolve, linkTargets_parts, parts, hheadings, hanchors]
  constructor
  · exact fun h target ht => (h target ht).1
  · refine fun h target ht => ⟨h target ht, ?_⟩
    rintro rfl
    exact h target ht

theorem Html.linksResolve_iff (classes : List Class) :
    LinksResolve classes ↔ ∀ c ∈ classes, ∀ q, Forest.Begins q c.nameSpace →
      ∃ name, Documented classes name ∧ idOf q = idOf name := by
  have hshows := shows_render classes
  have hnames (name : Text) (h : Documented classes name) :
      name ∈ (Group.ofClasses classes).flatMap Group.headingNames :=
    (Group.mem_headingNames classes name).2 h
  have hiff := linked_iff idOf hnames
  simp only [Group.mem_headingNames] at hiff
  rw [← hiff, LinksResolve, hshows.targets, hshows.ids]

/-- Exactly when the links of a document find their headings, in each format: every dotted
beginning of every namespace must share its anchor with a heading. -/
theorem links_resolve_iff (classes : List Class) :
    (∀ style, Markdown.writeAll (Markdown.parts style classes) = Markdown.render style classes ∧
      (Markdown.LinksResolve style classes ↔ ∀ c ∈ classes, ∀ q, Forest.Begins q c.nameSpace →
        ∃ name, Markdown.Headed classes name ∧ Anchor.ofHeading q = Anchor.ofHeading name)) ∧
    (Html.LinksResolve classes ↔ ∀ c ∈ classes, ∀ q, Forest.Begins q c.nameSpace →
      ∃ name, Documented classes name ∧ Html.idOf q = Html.idOf name) := by
  constructor
  · intro style
    exact ⟨Markdown.writeAll_parts style classes, Markdown.linksResolve_iff style classes⟩
  · exact Html.linksResolve_iff classes

/-- The namespace `App` has no heading where only `App.B` has a class. -/
theorem links_dangle_above_namespace :
    let classes : List Class := [⟨"C", "App.B", [], [], []⟩]
    ¬ Markdown.LinksResolve .plain classes ∧ ¬ Markdown.LinksResolve .anchorTag classes ∧
      ¬ Html.LinksResolve classes := by
  decide +kernel

end Resolve
end ApiDocs
