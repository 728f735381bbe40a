import ApiDocs.Proofs.Html.Pieces

namespace ApiDocs.Html

/-- The headings that carry an id. -/
inductive Rank
  | nameSpace
  | type
  | member
deriving DecidableEq

def Rank.name : Rank → Text
  | nameSpace => "h2"
  | type => "h3"
  | member => "h4"

inductive Tag
  | html | head | title | body | sidebar | content
  | h2 | h4 | p | strong | em | ul | li | table | tr | th | td | pre | code
  | link (target : Text)
  | heading (rank : Rank) (name : Text)

def Tag.name : Tag → Text
  | html => "html"
  | head => "head"
  | title => "title"
  | body => "body"
  | sidebar | content => "div"
  | h2 => "h2"
  | h4 => "h4"
  | p => "p"
  | strong => "strong"
  | em => "em"
  | ul => "ul"
  | li => "li"
  | table => "table"
  | tr => "tr"
  | th => "th"
  | td => "td"
  | pre => "pre"
  | code => "code"
  | link _ => "a"
  | heading rank _ => rank.name

def Tag.written : Tag → Text
  | html => "html lang=\"en\""
  | sidebar => "div class=\"sidebar\""
  | content => "div class=\"content\""
  | link target => "a href=\"#" ++ (idOf target ++ ['"'])
  | heading rank name => rank.name ++ (" id=\"" ++ (idOf name ++ ['"']))
  | t => t.name

theorem Tag.written_link (target : Text) :
    (link target).written = "a href=\"#" ++ (idOf target ++ ['"']) := rfl

theorem Tag.written_heading (rank : Rank) (name : Text) :
    (heading rank name).written = rank.name ++ (" id=\"" ++ (idOf name ++ ['"'])) := rfl

inductive VoidTag
  | doctype
  | charset
  | viewport
  | stylesheet
  | rule

def VoidTag.written : VoidTag → Text
  | doctype => "!DOCTYPE html"
  | charset => "meta charset=\"UTF-8\""
  | viewport => "meta name=\"viewport\" content=\"width=device-width, initial-scale=1.0\""
  | stylesheet => "link rel=\"stylesheet\" href=\"styles.css\""
  | rule => "hr"

def shown (breaking : Bool) (s : Text) : Text :=
  if breaking then withBreaks (escape s) else escape s

inductive Markup
  | nil
  | text (breaking : Bool) (s : Text) (rest : Markup)
  | void (t : VoidTag) (rest : Markup)
  | element (t : Tag) (inside rest : Markup)

namespace Markup

def append : Markup → Markup → Markup
  | nil, m => m
  | text breaking s rest, m => text breaking s (rest.append m)
  | void t rest, m => void t (rest.append m)
  | element t inside rest, m => element t inside (rest.append m)

instance : Append Markup := ⟨append⟩

def all {α : Type} (f : α → Markup) : List α → Markup
  | [] => nil
  | x :: xs => f x ++ all f xs

def write : Markup → Text
  | nil => []
  | text breaking s rest => shown breaking s ++ rest.write
  | void t rest => "<" ++ t.written ++ ">" ++ rest.write
  | element t inside rest =>
      "<" ++ t.written ++ ">" ++ inside.write ++ ("<" ++ ('/' :: t.name) ++ ">") ++ rest.write

def pieces : Markup → List Piece
  | nil => []
  | text breaking s rest => (shown breaking s).map .char ++ rest.pieces
  | void t rest => .tag t.written :: rest.pieces
  | element t inside rest =>
      .tag t.written :: (inside.pieces ++ .tag ('/' :: t.name) :: rest.pieces)

section Append

variable (m n : Markup)

@[simp] theorem nil_append : nil ++ m = m := rfl

@[simp] theorem text_append (breaking : Bool) (s : Text) :
    text breaking s m ++ n = text breaking s (m ++ n) := rfl

@[simp] theorem void_append (t : VoidTag) : void t m ++ n = void t (m ++ n) := rfl

@[simp] theorem element_append (t : Tag) (inside : Markup) :
    element t inside m ++ n = element t inside (m ++ n) := rfl

theorem write_append : (m ++ n).write = m.write ++ n.write := by
  induction m with
  | nil => rfl
  | text breaking s rest ih => simp only [text_append, write, ih, List.append_assoc]
  | void t rest ih => simp only [void_append, write, ih, List.append_assoc]
  | element t inside rest _ ih => simp only [element_append, write, ih, List.append_assoc]

theorem pieces_append : (m ++ n).pieces = m.pieces ++ n.pieces := by
  induction m with
  | nil => rfl
  | text breaking s rest ih => simp only [text_append, pieces, ih, List.append_assoc]
  | void t rest ih => simp only [void_append, pieces, ih, List.cons_append]
  | element t inside rest _ ih =>
      simp only [element_append, pieces, ih, List.cons_append, List.append_assoc]

theorem write_all {α : Type} (f : α → Markup) (xs : List α) :
    (all f xs).write = xs.flatMap fun x => (f x).write := by
  induction xs with
  | nil => rfl
  | cons x xs ih => rw [all, write_append, ih, List.flatMap_cons]

end Append
end Markup

section Reading

/-- A text without an open tag at its end, and its pieces. -/
structure Reads (s : Text) (ps : List Piece) : Prop where
  closed : leftOpen none s = none
  pieces_eq : pieces s = ps

variable {s t : Text} {ps qs : List Piece}

theorem Reads.pieces_append (hs : Reads s ps) (t : Text) : pieces (s ++ t) = ps ++ pieces t := by
  rw [pieces, scan_append, hs.closed, ← hs.pieces_eq]
  rfl

theorem Reads.append (hs : Reads s ps) (ht : Reads t qs) : Reads (s ++ t) (ps ++ qs) := by
  constructor
  · rw [leftOpen_append, hs.closed, ht.closed]
  · rw [hs.pieces_append, ht.pieces_eq]

theorem reads_chars (h : '<' ∉ s) : Reads s (s.map .char) :=
  ⟨(scan_chars h).2, (scan_chars h).1⟩

theorem reads_tag (h : '>' ∉ s) : Reads ("<" ++ s ++ ">") [.tag s] :=
  ⟨(scan_tag h []).2, (scan_tag h []).1⟩

theorem closed_idOf {start : Text} (h : '>' ∉ start) (name : Text) :
    '>' ∉ start ++ (idOf name ++ ['"']) := by
  have hname : '>' ∉ idOf name := fun hm => (escape_clean _ hm).2.1 rfl
  simp [h, hname]

theorem Tag.closed_written (t : Tag) : '>' ∉ t.written := by
  cases t with
  | link target => exact closed_idOf (by decide) target
  | heading rank name =>
      have hstart : '>' ∉ rank.name ++ (" id=\"" : Text) := by
        cases rank <;> decide
      have h := closed_idOf hstart name
      rwa [List.append_assoc] at h
  | _ => decide

theorem Tag.closed_name (t : Tag) : '>' ∉ '/' :: t.name := by
  cases t with
  | heading rank =>
      have h : '>' ∉ '/' :: rank.name := by
        cases rank <;> decide
      exact h
  | link target =>
      have h : '>' ∉ ("/a" : Text) := by decide
      exact h
  | _ => decide

theorem VoidTag.closed_written (t : VoidTag) : '>' ∉ t.written := by
  cases t <;> decide

theorem mem_withBreaks {s : Text} {d : Char} (h : d ∈ withBreaks s) :
    d ∈ zeroWidthSpace ∨ d ∈ s := by
  obtain ⟨c, hc, hd⟩ := List.mem_flatMap.1 h
  split at hd
  · rcases List.mem_append.1 hd with hd | hd
    · exact .inl hd
    · exact .inr (List.mem_singleton.1 hd ▸ hc)
  · exact .inr (List.mem_singleton.1 hd ▸ hc)

theorem not_mem_shown (breaking : Bool) (s : Text) : '<' ∉ shown breaking s := by
  have hescape : '<' ∉ escape s := fun h => (escape_clean s h).1 rfl
  cases breaking with
  | false => exact hescape
  | true =>
      have hspace : '<' ∉ zeroWidthSpace := by decide
      exact fun h => (mem_withBreaks h).elim hspace hescape

/-- What a tree writes is read as the tags and characters of the tree. -/
theorem Markup.reads_write (m : Markup) : Reads m.write m.pieces := by
  induction m with
  | nil => exact ⟨rfl, rfl⟩
  | text breaking s rest ih => exact (reads_chars (not_mem_shown breaking s)).append ih
  | void t rest ih => exact (reads_tag t.closed_written).append ih
  | element t inside rest ihi ih =>
      have h := ((reads_tag t.closed_written).append ihi).append (reads_tag t.closed_name)
      have hall := h.append ih
      simpa only [write, pieces, List.append_assoc, List.cons_append, List.nil_append] using hall

end Reading

section Tags

def Piece.tag? : Piece → Option Text
  | .tag content => some content
  | .char _ => none

def tags (s : Text) : List Text := (pieces s).filterMap Piece.tag?

def tagName (content : Text) : Text := content.takeWhile (· ≠ ' ')

def Markup.tags : Markup → List Text
  | nil => []
  | text _ _ rest => rest.tags
  | void t rest => t.written :: rest.tags
  | element t inside rest => t.written :: (inside.tags ++ ('/' :: t.name) :: rest.tags)

theorem Markup.filterMap_pieces (m : Markup) : m.pieces.filterMap Piece.tag? = m.tags := by
  induction m with
  | nil => rfl
  | text breaking s rest ih =>
      rw [pieces, List.filterMap_append, List.filterMap_map, ih]
      exact congrArg (· ++ rest.tags) (List.filterMap_eq_nil_iff.2 fun _ _ => rfl)
  | void t rest ih => exact congrArg (t.written :: ·) ih
  | element t inside rest ihi ih =>
      have hinside : (inside.pieces ++ .tag ('/' :: t.name) :: rest.pieces).filterMap Piece.tag? =
          inside.tags ++ ('/' :: t.name) :: rest.tags := by
        rw [List.filterMap_append, ihi, ← ih]
        rfl
      exact congrArg (t.written :: ·) hinside

theorem Markup.tags_write (m : Markup) : Html.tags m.write = m.tags := by
  rw [Html.tags, m.reads_write.pieces_eq, m.filterMap_pieces]

theorem Markup.tags_append (m n : Markup) : (m ++ n).tags = m.tags ++ n.tags := by
  induction m with
  | nil => rfl
  | text breaking s rest ih => exact ih
  | void t rest ih => exact congrArg (t.written :: ·) ih
  | element t inside rest _ ih =>
      simp only [element_append, tags, ih, List.cons_append, List.append_assoc]

end Tags
end ApiDocs.Html
