import ApiDocs.Html.Page
import ApiDocs.Proofs.Html.Escape
import ApiDocs.Proofs.Text.Cut

namespace ApiDocs.Html

inductive Piece
  | tag (content : Text)
  | char (c : Char)
deriving DecidableEq

/-- The pieces of a text, where `some content` is a tag that is still open. -/
def scan : (opened : Option Text) → Text → List Piece
  | _, [] => []
  | none, c :: s => if c = '<' then scan (some []) s else .char c :: scan none s
  | some content, c :: s =>
      if c = '>' then .tag content :: scan none s else scan (some (content ++ [c])) s

def leftOpen : (opened : Option Text) → Text → Option Text
  | opened, [] => opened
  | none, c :: s => if c = '<' then leftOpen (some []) s else leftOpen none s
  | some content, c :: s =>
      if c = '>' then leftOpen none s else leftOpen (some (content ++ [c])) s

def pieces (s : Text) : List Piece := scan none s

theorem scan_append (opened : Option Text) (s t : Text) :
    scan opened (s ++ t) = scan opened s ++ scan (leftOpen opened s) t := by
  induction s generalizing opened with
  | nil => cases opened <;> rfl
  | cons c s ih =>
      cases opened with
      | none =>
          by_cases hc : c = '<'
          · simp only [List.cons_append, scan, leftOpen, if_pos hc, ih]
          · simp only [List.cons_append, scan, leftOpen, if_neg hc, ih]
      | some content =>
          by_cases hc : c = '>'
          · simp only [List.cons_append, scan, leftOpen, if_pos hc, ih]
          · simp only [List.cons_append, scan, leftOpen, if_neg hc, ih]

theorem leftOpen_append (opened : Option Text) (s t : Text) :
    leftOpen opened (s ++ t) = leftOpen (leftOpen opened s) t := by
  induction s generalizing opened with
  | nil => cases opened <;> rfl
  | cons c s ih =>
      cases opened with
      | none =>
          by_cases hc : c = '<'
          · simp only [List.cons_append, leftOpen, if_pos hc, ih]
          · simp only [List.cons_append, leftOpen, if_neg hc, ih]
      | some content =>
          by_cases hc : c = '>'
          · simp only [List.cons_append, leftOpen, if_pos hc, ih]
          · simp only [List.cons_append, leftOpen, if_neg hc, ih]

theorem scan_chars {s : Text} (h : '<' ∉ s) :
    scan none s = s.map .char ∧ leftOpen none s = none := by
  induction s with
  | nil => exact ⟨rfl, rfl⟩
  | cons c s ih =>
      obtain ⟨hc, hs⟩ := not_or.1 (mt List.mem_cons.2 h)
      obtain ⟨hscan, hopen⟩ := ih hs
      simp only [scan, leftOpen, if_neg (Ne.symm hc), hscan, hopen, List.map_cons, and_self]

theorem scan_tag {s : Text} (h : '>' ∉ s) (content : Text) :
    scan (some content) (s ++ ">") = [.tag (content ++ s)] ∧
      leftOpen (some content) (s ++ ">") = none := by
  induction s generalizing content with
  | nil => simp [scan, leftOpen]
  | cons c s ih =>
      obtain ⟨hc, hs⟩ := not_or.1 (mt List.mem_cons.2 h)
      obtain ⟨hscan, hopen⟩ := ih hs (content ++ [c])
      simp only [List.cons_append, scan, leftOpen, if_neg (Ne.symm hc), hscan, hopen]
      simp

namespace Piece

def attribute? (start : Text) : Piece → Option Text
  | .tag content => ((Text.dropStart? start content).bind (Text.cutAt? ['"'])).map (·.1)
  | .char _ => none

def target? (p : Piece) : Option Text := p.attribute? "a href=\"#"

def id? (p : Piece) : Option Text :=
  (p.attribute? "h2 id=\"" <|> p.attribute? "h3 id=\"") <|> p.attribute? "h4 id=\""

end Piece

def linkTargets (s : Text) : List Text := (pieces s).filterMap Piece.target?

def headingIds (s : Text) : List Text := (pieces s).filterMap Piece.id?

/-- A text without an open tag at its end, and the links and headings in it. -/
structure Shows (s : Text) (targets ids : List Text) : Prop where
  closed : leftOpen none s = none
  targets : linkTargets s = targets
  ids : headingIds s = ids

section Attributes

theorem attribute?_written (start name : Text) :
    Piece.attribute? start (.tag (start ++ (idOf name ++ ['"']))) = some (idOf name) := by
  have hq : '"' ∉ idOf name := fun h => (escape_clean _ h).2.2 rfl
  rw [Piece.attribute?, Text.dropStart?_append, Option.bind_some, Text.cutAt?_char hq]
  rfl

theorem attribute?_other {start content : Text} (h : ¬ start <+: content) :
    Piece.attribute? start (.tag content) = none := by
  rw [Piece.attribute?, Text.dropStart?_eq_none h]
  rfl

end Attributes
end ApiDocs.Html
