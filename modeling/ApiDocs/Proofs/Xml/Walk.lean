import ApiDocs.Proofs.Xml.Content
import Mathlib.Data.List.Forall2

namespace ApiDocs.Xml

namespace Token

def isTag : Token → Bool
  | text _ => false
  | aside => false
  | _ => true

/-- A token as texts and pairs of tags. -/
def events : Token → List Token
  | aside => []
  | empty name attributes => [opened name attributes, closed name]
  | t => [t]

def textValue : Token → Text
  | text t => t
  | _ => []

def begun? : Token → Option (Text × List Attribute)
  | opened name attributes => some (name, attributes)
  | empty name attributes => some (name, attributes)
  | _ => none

def begins (name : Text) (t : Token) : Bool := t.begun?.any (·.1 = name)

def joinTexts : List Token → List Token
  | [] => []
  | text s :: ts =>
    match joinTexts ts with
    | text t :: us => text (s ++ t) :: us
    | us => text s :: us
  | t :: ts => t :: joinTexts ts

/-- The ends of a token list that begin with the start of an element of this name. -/
def tailsFrom (name : Text) : List Token → List (List Token)
  | [] => []
  | t :: ts => if t.begins name then (t :: ts) :: tailsFrom name ts else tailsFrom name ts

theorem joinTexts_tag {t : Token} (h : t.isTag = true) (ts : List Token) :
    joinTexts (t :: ts) = t :: joinTexts ts := by
  cases t with
  | text s => cases h
  | aside | opened _ _ | empty _ _ | closed _ => rfl

theorem joinTexts_append_tag {t : Token} (h : t.isTag = true) (ts us : List Token) :
    joinTexts (ts ++ t :: us) = joinTexts ts ++ t :: joinTexts us := by
  induction ts with
  | nil => exact joinTexts_tag h us
  | cons u ts ih =>
      cases u with
      | text s =>
          simp only [List.cons_append, joinTexts, ih]
          cases joinTexts ts with
          | nil => cases t <;> first | rfl | cases h
          | cons v vs => cases v <;> rfl
      | aside | opened _ _ | empty _ _ | closed _ => exact congrArg (_ :: ·) ih

theorem joinTexts_joinTexts_append (ts us : List Token) :
    joinTexts (joinTexts ts ++ us) = joinTexts (ts ++ us) := by
  induction ts with
  | nil => rfl
  | cons t ts ih =>
      cases t with
      | text s =>
          simp only [List.cons_append, joinTexts, ← ih]
          cases joinTexts ts with
          | nil => rfl
          | cons v vs =>
              cases v with
              | text t =>
                  simp only [List.cons_append, joinTexts]
                  cases joinTexts (vs ++ us) with
                  | nil => rfl
                  | cons w ws => cases w <;> simp [List.append_assoc]
              | aside | opened _ _ | empty _ _ | closed _ => rfl
      | aside | opened _ _ | empty _ _ | closed _ => exact congrArg (_ :: ·) ih

theorem textValue_joinTexts (ts : List Token) :
    (joinTexts ts).flatMap textValue = ts.flatMap textValue := by
  induction ts with
  | nil => rfl
  | cons t ts ih =>
      cases t with
      | text s =>
          simp only [joinTexts, List.flatMap_cons, ← ih]
          cases joinTexts ts with
          | nil => rfl
          | cons v vs => cases v <;> simp [textValue]
      | aside | opened _ _ | empty _ _ | closed _ =>
          simp only [joinTexts, List.flatMap_cons, ih]

theorem begun?_joinTexts (ts : List Token) :
    (joinTexts ts).filterMap begun? = ts.filterMap begun? := by
  induction ts with
  | nil => rfl
  | cons t ts ih =>
      cases t with
      | text s =>
          simp only [joinTexts, List.filterMap_cons, begun?, ← ih]
          cases joinTexts ts with
          | nil => rfl
          | cons v vs => cases v <;> rfl
      | aside | opened _ _ | empty _ _ | closed _ =>
          simp only [joinTexts, List.filterMap_cons, begun?, ih]

theorem tailsFrom_append (name : Text) (ts us : List Token) :
    tailsFrom name (ts ++ us) = (tailsFrom name ts).map (· ++ us) ++ tailsFrom name us := by
  induction ts with
  | nil => rfl
  | cons t ts ih =>
      simp only [List.cons_append, tailsFrom, ih]
      split <;> rfl

end Token

open Token

def Content.walk : Content → List Token
  | .nil => []
  | .text s rest => .text s :: rest.walk
  | .element name attributes children rest =>
      .opened name attributes :: (children.walk ++ .closed name :: rest.walk)

def Element.walk (e : Element) : List Token :=
  .opened e.name e.attributes :: (e.content.walk ++ [.closed e.name])

def Element.StartsAt (e : Element) (ts : List Token) : Prop := e.walk <+: ts

/-- The walk of open elements up to where they are still growing. -/
def openWalk : (stack : List Element) → List Token
  | [] => []
  | e :: outer => openWalk outer ++ .opened e.name e.attributes :: e.content.walk

namespace Content

theorem walk_append (c d : Content) : (c.append d).walk = c.walk ++ d.walk := by
  induction c with
  | nil => rfl
  | text s rest ih => exact congrArg (_ :: ·) ih
  | element name attributes children rest _ ih =>
      simp only [append, walk, ih, List.append_assoc, List.cons_append]

theorem walk_addElement (c : Content) (e : Element) : (c.addElement e).walk = c.walk ++ e.walk := by
  rw [addElement_eq_append, walk_append]
  rfl

theorem joinTexts_element (name : Text) (attributes : List Attribute) (ts us : List Token) :
    joinTexts (.opened name attributes :: (ts ++ .closed name :: us)) =
      .opened name attributes :: (joinTexts ts ++ .closed name :: joinTexts us) := by
  rw [joinTexts_tag rfl, joinTexts_append_tag rfl]

theorem Separated.joinTexts_walk {c : Content} (h : c.Separated) : joinTexts c.walk = c.walk := by
  induction c with
  | nil => rfl
  | text s rest ih =>
      have ih := ih h.2
      cases rest with
      | nil => rfl
      | text _ _ => cases h.1
      | element name attributes children rest => rw [walk, joinTexts, ih]; rfl
  | element name attributes children rest ihc ih =>
      rw [walk, joinTexts_element, ihc h.1, ih h.2]

/-- A text at the end of separated content joins what is there as it joins a walk. -/
theorem Separated.walk_addText {c : Content} (h : c.Separated) (t : Text) :
    joinTexts (c.walk ++ [.text t]) = (c.addText t).walk := by
  induction c with
  | nil => rfl
  | text s rest ih =>
      have ih := ih h.2
      cases rest with
      | nil => rfl
      | text _ _ => cases h.1
      | element name attributes children rest => rw [walk, List.cons_append, joinTexts, ih]; rfl
  | element name attributes children rest _ ih =>
      rw [walk, List.cons_append, List.append_assoc, List.cons_append, joinTexts_element,
        h.1.joinTexts_walk, ih h.2]
      rfl

theorem flatText_eq (c : Content) : c.flatText = c.walk.flatMap textValue := by
  induction c with
  | nil => rfl
  | text s rest ih => simp only [flatText, walk, List.flatMap_cons, textValue, ih]
  | element name attributes children rest ihc ih =>
      simp [flatText, walk, textValue, ihc, ih]

theorem named_starts (name : Text) (c : Content) :
    List.Forall₂ Element.StartsAt (c.named name) (tailsFrom name c.walk) := by
  have extend {es : List Element} {tails : List (List Token)} (us : List Token)
      (h : List.Forall₂ Element.StartsAt es tails) :
      List.Forall₂ Element.StartsAt es (tails.map (· ++ us)) := by
    induction h with
    | nil => exact .nil
    | cons hp _ ih => exact .cons (hp.trans (List.prefix_append _ _)) ih
  induction c with
  | nil => exact .nil
  | text s rest ih => exact ih
  | element n attributes children rest ihc ih =>
      have hs := List.rel_append (extend (.closed n :: rest.walk) ihc) ih
      by_cases hn : n = name
      · have hstart : Element.StartsAt ⟨n, attributes, children⟩
            (element n attributes children rest).walk :=
          ⟨rest.walk, by simp [walk, Element.walk]⟩
        simpa [walk, named, tailsFrom, tailsFrom_append, begins, begun?, hn] using
          List.Forall₂.cons hstart hs
      · simpa [walk, named, tailsFrom, tailsFrom_append, begins, begun?, hn] using hs

theorem begun?_named (name : Text) (c : Content) :
    (c.named name).map (fun e => (e.name, e.attributes)) =
      (c.walk.filterMap begun?).filter (·.1 = name) := by
  induction c with
  | nil => rfl
  | text s rest ih => exact ih
  | element n attributes children rest ihc ih =>
      simp only [named, walk, List.map_append, ihc, ih]
      by_cases hn : n = name <;> simp [hn, begun?, List.filterMap_cons]

end Content

namespace Element

def alone (e : Element) : Content := .element e.name e.attributes e.content .nil

theorem walk_alone (e : Element) : e.alone.walk = e.walk := rfl

theorem named_alone (e : Element) (name : Text) : e.alone.named name = e.named name := by
  rw [alone, Content.named, Content.named, List.append_nil]
  rfl

theorem text_alone (e : Element) : e.alone.flatText = e.text := List.append_nil _

end Element
end ApiDocs.Xml
