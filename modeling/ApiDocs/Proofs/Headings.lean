import ApiDocs.Proofs.Html.Outline
import ApiDocs.Proofs.Markdown.Outline

namespace ApiDocs

/-- The outline of a document, in which no heading and no link is left out, has a heading for each
namespace, class and member with the anchor of its name, and the contents, the class list or the
table of members links exactly this anchor. -/
theorem headings_linked (classes : List Class) :
    let groups := Group.ofClasses classes
    (∀ style, Markdown.writeAll (Markdown.parts style classes) = Markdown.render style classes ∧
      Markdown.outline style (Markdown.parts style classes) = Markdown.layout.outline groups ∧
      (Markdown.outline style (Markdown.parts style classes)).Linked) ∧
    Html.outline (Html.render classes) = Html.layout.outline groups ∧
      (Html.outline (Html.render classes)).Linked := by
  intro groups
  constructor
  · intro style
    have houtline := Markdown.outline_parts style classes
    refine ⟨Markdown.writeAll_parts style classes, houtline, ?_⟩
    rw [houtline]
    exact Markdown.layout.linked_outline classes
  · have houtline := Html.outline_render classes
    refine ⟨houtline, ?_⟩
    rw [houtline]
    exact Html.layout.linked_outline classes

end ApiDocs
