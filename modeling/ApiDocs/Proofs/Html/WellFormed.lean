import ApiDocs.Proofs.Html.Markup

namespace ApiDocs.Html

section Tags

def standAlone : List Text := ["!DOCTYPE", "meta", "link", "hr"]

def nest (opened : List Text) (content : Text) : Option (List Text) :=
  match content with
  | '/' :: name =>
      match opened with
      | [] => none
      | top :: outer => if name = top then some outer else none
  | _ =>
      if standAlone.contains (tagName content) then some opened
      else some (tagName content :: opened)

def ownTags : List Text :=
  ["!DOCTYPE html", "html lang=\"en\"", "head", "meta charset=\"UTF-8\"",
    "meta name=\"viewport\" content=\"width=device-width, initial-scale=1.0\"", "title",
    "link rel=\"stylesheet\" href=\"styles.css\"", "body", "div class=\"sidebar\"",
    "div class=\"content\"", "h2", "h4", "p", "strong", "em", "ul", "li", "table", "tr", "th", "td",
    "pre", "code", "hr"]

def elementNames : List Text :=
  ["html", "head", "title", "body", "div", "h2", "h3", "h4", "p", "strong", "em", "ul", "li", "a",
    "table", "tr", "th", "td", "pre", "code"]

def Quotable (value : Text) : Prop := ∀ c ∈ value, c ≠ '<' ∧ c ≠ '>' ∧ c ≠ '"'

/-- The tags of a page. Only links and headings have values that are not fixed. -/
inductive OwnTag : Text → Prop
  | fixed {content} : content ∈ ownTags → OwnTag content
  | closing {name} : name ∈ elementNames → OwnTag ('/' :: name)
  | link {value} : Quotable value → OwnTag ("a href=\"#" ++ (value ++ ['"']))
  | heading {name value} : name ∈ (["h2", "h3", "h4"] : List Text) → Quotable value →
      OwnTag (name ++ (" id=\"" ++ (value ++ ['"'])))

end Tags

section Texts

def runs : List Piece → List Text
  | [] => [[]]
  | .tag _ :: ps => [] :: runs ps
  | .char c :: ps => (runs ps).modifyHead (c :: ·)

def texts (s : Text) : List Text := runs (pieces s)

/-- A text without brackets, in which every ampersand begins a reference. -/
structure Harmless (s : Text) : Prop where
  no_open : '<' ∉ s
  no_close : '>' ∉ s
  ampersand : ∀ t, '&' :: t <:+ s → ∃ r ∈ references, r <+: '&' :: t

end Texts

/-- Every tag is closed and its own element ends before the elements around it. -/
structure WellFormed (s : Text) : Prop where
  closed : leftOpen none s = none
  nested : (tags s).foldlM nest [] = some []
  own : ∀ content ∈ tags s, OwnTag content
  harmless : ∀ t ∈ texts s, Harmless t

section Nesting

theorem nest_written (opened : List Text) (t : Tag) :
    nest opened t.written = some (t.name :: opened) := by
  cases t with
  | heading rank name => cases rank <;> rfl
  | _ => rfl

theorem nest_void (opened : List Text) (t : VoidTag) : nest opened t.written = some opened := by
  cases t <;> rfl

theorem nest_closing (opened : List Text) (name : Text) :
    nest (name :: opened) ('/' :: name) = some opened :=
  if_pos rfl

theorem Markup.nest_tags (m : Markup) (opened : List Text) :
    m.tags.foldlM nest opened = some opened := by
  induction m generalizing opened with
  | nil => rfl
  | text breaking s rest ih => exact ih opened
  | void t rest ih =>
      rw [tags, List.foldlM_cons, nest_void]
      exact ih opened
  | element t inside rest ihi ih =>
      rw [tags, List.foldlM_cons, nest_written, Option.bind_eq_bind, Option.bind_some,
        List.foldlM_append, ihi, Option.bind_eq_bind, Option.bind_some, List.foldlM_cons, nest_closing]
      exact ih opened

theorem quotable_idOf (name : Text) : Quotable (idOf name) := fun _ h => escape_clean _ h

theorem ownTag_written (t : Tag) : OwnTag t.written := by
  cases t with
  | link target => exact .link (quotable_idOf target)
  | heading rank name =>
      refine .heading ?_ (quotable_idOf name)
      cases rank <;> decide
  | _ => exact .fixed (by decide)

theorem ownTag_void (t : VoidTag) : OwnTag t.written := by
  cases t <;> exact .fixed (by decide)

theorem ownTag_closing (t : Tag) : OwnTag ('/' :: t.name) := by
  apply OwnTag.closing
  cases t with
  | heading rank =>
      have h : rank.name ∈ elementNames := by
        cases rank <;> decide
      exact h
  | link =>
      have h : ("a" : Text) ∈ elementNames := by decide
      exact h
  | _ => decide

theorem Markup.ownTag_of_mem (m : Markup) : ∀ content ∈ m.tags, OwnTag content := by
  induction m with
  | nil => exact List.forall_mem_nil _
  | text breaking s rest ih => exact ih
  | void t rest ih => exact List.forall_mem_cons.2 ⟨ownTag_void t, ih⟩
  | element t inside rest ihi ih =>
      refine List.forall_mem_cons.2 ⟨ownTag_written t, List.forall_mem_append.2 ⟨ihi, ?_⟩⟩
      exact List.forall_mem_cons.2 ⟨ownTag_closing t, ih⟩

end Nesting

section Harmless

variable {s t : Text}

theorem harmless_nil : Harmless [] where
  no_open := List.not_mem_nil
  no_close := List.not_mem_nil
  ampersand t h := absurd (List.suffix_nil.1 h) (List.cons_ne_nil '&' t)

theorem Harmless.append (hs : Harmless s) (ht : Harmless t) : Harmless (s ++ t) where
  no_open := by
    simp [hs.no_open, ht.no_open]
  no_close := by
    simp [hs.no_close, ht.no_close]
  ampersand := by
    rintro u ⟨before, hu⟩
    rcases List.append_eq_append_iff.1 hu.symm with ⟨before', rfl, h⟩ | ⟨after, rfl, h⟩
    · exact ht.ampersand u ⟨before', h.symm⟩
    · cases after with
      | nil => exact ht.ampersand u ⟨[], h⟩
      | cons d after =>
          obtain ⟨rfl, rfl⟩ := List.cons_eq_cons.1 h
          obtain ⟨r, hr, hprefix⟩ := hs.ampersand after ⟨before, rfl⟩
          exact ⟨r, hr, hprefix.trans (List.prefix_append _ t)⟩

theorem harmless_flatMap {f : Char → Text} (h : ∀ c ∈ s, Harmless (f c)) : Harmless (s.flatMap f) := by
  induction s with
  | nil => exact harmless_nil
  | cons c s ih =>
      obtain ⟨hc, hs⟩ := List.forall_mem_cons.1 h
      exact hc.append (ih hs)

theorem harmless_reference {r : Text} (h : r ∈ references) : Harmless r := by
  have hall : ∀ r ∈ references,
      '<' ∉ r ∧ '>' ∉ r ∧ r = '&' :: r.tail ∧ '&' ∉ r.tail := by decide
  obtain ⟨hopen, hclose, hr, htail⟩ := hall r h
  refine ⟨hopen, hclose, fun t ht => ?_⟩
  rw [hr] at ht
  rcases List.suffix_cons_iff.1 ht with ht | ht
  · exact ⟨r, h, [], (List.append_nil r).trans (hr.trans ht.symm)⟩
  · exact absurd (ht.subset List.mem_cons_self) htail

theorem Escapes.harmless {c : Char} (h : Escapes c s) : Harmless s := by
  obtain ⟨hopen, hclose, -⟩ := h.clean
  rcases h.reference_or_plain with hr | ⟨rfl, hamp⟩
  · exact harmless_reference hr
  · refine ⟨hopen, hclose, fun t ht => ?_⟩
    exact absurd (List.mem_singleton.1 (ht.subset List.mem_cons_self)).symm hamp

theorem Escapes.harmless_withBreaks {c : Char} (h : Escapes c s) : Harmless (withBreaks s) := by
  have hs := h.harmless
  rcases h.reference_or_plain with hr | ⟨rfl, -⟩
  · have hwhole : ∀ r ∈ references, withBreaks r = r := by decide
    rwa [hwhole _ hr]
  · have hspace : Harmless zeroWidthSpace := harmless_reference (by decide)
    rw [withBreaks, List.flatMap_singleton]
    split
    · exact hspace.append hs
    · exact hs

theorem harmless_shown (breaking : Bool) (s : Text) : Harmless (shown breaking s) := by
  cases breaking with
  | false => exact harmless_flatMap fun c _ => (escapes_escapeChar c).harmless
  | true =>
      have h : shown true s = s.flatMap fun c => withBreaks (escapeChar c) := List.flatMap_assoc
      rw [h]
      exact harmless_flatMap fun c _ => (escapes_escapeChar c).harmless_withBreaks

theorem runs_chars (s : Text) (ps : List Piece) :
    runs (s.map .char ++ ps) = (runs ps).modifyHead (s ++ ·) := by
  induction s with
  | nil => exact (congrFun List.modifyHead_id (runs ps)).symm
  | cons c s ih =>
      rw [List.map_cons, List.cons_append, runs, ih, List.modifyHead_modifyHead]
      rfl

theorem forall_mem_modifyHead {ts : List Text} (hs : Harmless s) (h : ∀ t ∈ ts, Harmless t) :
    ∀ t ∈ ts.modifyHead (s ++ ·), Harmless t := by
  cases ts with
  | nil => exact h
  | cons t ts =>
      obtain ⟨ht, hts⟩ := List.forall_mem_cons.1 h
      exact List.forall_mem_cons.2 ⟨hs.append ht, hts⟩

/-- The texts of a tree in front of other pieces. The first of the other texts may grow. -/
theorem Markup.harmless_runs (m : Markup) (ps : List Piece) (h : ∀ t ∈ runs ps, Harmless t) :
    ∀ t ∈ runs (m.pieces ++ ps), Harmless t := by
  induction m generalizing ps with
  | nil => exact h
  | text breaking s rest ih =>
      rw [pieces, List.append_assoc, runs_chars]
      exact forall_mem_modifyHead (harmless_shown breaking s) (ih ps h)
  | void t rest ih => exact List.forall_mem_cons.2 ⟨harmless_nil, ih ps h⟩
  | element t inside rest ihi ih =>
      rw [pieces, List.cons_append, List.append_assoc]
      refine List.forall_mem_cons.2 ⟨harmless_nil, ihi _ ?_⟩
      exact List.forall_mem_cons.2 ⟨harmless_nil, ih ps h⟩

end Harmless

theorem Markup.wellFormed_write (m : Markup) : WellFormed m.write := by
  constructor
  · exact m.reads_write.closed
  · rw [m.tags_write]
    exact m.nest_tags []
  · rw [m.tags_write]
    exact m.ownTag_of_mem
  · have hend : ∀ t ∈ runs [], Harmless t := List.forall_mem_singleton.2 harmless_nil
    have h := m.harmless_runs [] hend
    rw [List.append_nil] at h
    rw [texts, m.reads_write.pieces_eq]
    exact h

end ApiDocs.Html
