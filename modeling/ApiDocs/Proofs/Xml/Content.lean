import ApiDocs.Xml.Tree

namespace ApiDocs.Xml.Content

def append : Content → Content → Content
  | nil, d => d
  | text s rest, d => text s (rest.append d)
  | element name attributes children rest, d =>
      element name attributes children (rest.append d)

def startsWithText : Content → Bool
  | text _ _ => true
  | _ => false

def endsWithText : Content → Bool
  | nil => false
  | text _ nil => true
  | text _ rest => rest.endsWithText
  | element _ _ _ rest => rest.endsWithText

/-- No text follows another text, at any depth. -/
def Separated : Content → Prop
  | nil => True
  | text _ rest => rest.startsWithText = false ∧ rest.Separated
  | element _ _ children rest => children.Separated ∧ rest.Separated

theorem append_assoc (c d e : Content) : (c.append d).append e = c.append (d.append e) := by
  induction c with
  | nil => rfl
  | text s rest ih => exact congrArg (text s) ih
  | element name attributes children rest _ ih =>
      exact congrArg (element name attributes children) ih

theorem append_nil (c : Content) : c.append nil = c := by
  induction c with
  | nil => rfl
  | text s rest ih => exact congrArg (text s) ih
  | element name attributes children rest _ ih =>
      exact congrArg (element name attributes children) ih

theorem addElement_eq_append (c : Content) (e : Element) :
    c.addElement e = c.append (element e.name e.attributes e.content nil) := by
  induction c with
  | nil => rfl
  | text s rest ih => exact congrArg (text s) ih
  | element name attributes children rest _ ih =>
      exact congrArg (element name attributes children) ih

theorem addText_eq_append {c : Content} (h : c.endsWithText = false) (t : Text) :
    c.addText t = c.append (text t nil) := by
  induction c with
  | nil => rfl
  | text s rest ih =>
      cases rest with
      | nil => cases h
      | text _ _ | element _ _ _ _ => exact congrArg (text s) (ih h)
  | element name attributes children rest _ ih =>
      exact congrArg (element name attributes children) (ih h)

theorem addText_addText (c : Content) (s t : Text) : (c.addText s).addText t = c.addText (s ++ t) := by
  induction c with
  | nil => rfl
  | text u rest ih =>
      cases rest with
      | nil => simp only [addText, List.append_assoc]
      | text v rest =>
          cases rest <;> exact congrArg (text u) ih
      | element name attributes children rest => exact congrArg (text u) ih
  | element name attributes children rest _ ih =>
      exact congrArg (element name attributes children) ih

theorem endsWithText_append_element (c : Content) (name : Text) (attributes : List Attribute)
    (children : Content) :
    (c.append (element name attributes children nil)).endsWithText = false := by
  induction c with
  | nil => rfl
  | text s rest ih => cases rest <;> exact ih
  | element _ _ _ rest _ ih => exact ih

theorem Separated.addText {c : Content} (h : c.Separated) (t : Text) : (c.addText t).Separated := by
  induction c with
  | nil => exact ⟨rfl, trivial⟩
  | text s rest ih =>
      cases rest with
      | nil => exact ⟨rfl, trivial⟩
      | text _ _ => cases h.1
      | element name attributes children rest => exact ⟨rfl, ih h.2⟩
  | element name attributes children rest _ ih => exact ⟨h.1, ih h.2⟩

theorem Separated.addElement {c : Content} {e : Element} (h : c.Separated)
    (he : e.content.Separated) : (c.addElement e).Separated := by
  induction c with
  | nil => exact ⟨he, trivial⟩
  | text s rest ih =>
      refine ⟨?_, ih h.2⟩
      cases rest with
      | nil | element _ _ _ _ => rfl
      | text _ _ => cases h.1
  | element name attributes children rest _ ih => exact ⟨h.1, ih h.2⟩

end ApiDocs.Xml.Content
