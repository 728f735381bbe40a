import ApiDocs.Proofs.Xml.Continuation
import Mathlib.Data.List.TakeWhile

namespace ApiDocs.Xml

section Elements

theorem Content.elements_addText (c : Content) (t : Text) :
    (c.addText t).elements = c.elements := by
  induction c with
  | nil => rfl
  | text s rest ih => cases rest <;> exact ih
  | element name attributes children rest _ ih => exact congrArg (_ :: ·) ih

theorem Content.elements_addElement (c : Content) (e : Element) :
    (c.addElement e).elements = c.elements ++ [e] := by
  induction c with
  | nil => rfl
  | text s rest ih => exact ih
  | element name attributes children rest _ ih => exact congrArg (_ :: ·) ih

end Elements

namespace Progress

/-- The progress of a document, and that of the same document inside the element `e`, which has
other elements around it. The root of the one is a further child of `e` in the other. -/
inductive Inside (e : Element) (outer : List Element) (last : Option Element) :
    Progress → Progress → Prop
  | mk {stack root content} : content.elements = e.content.elements ++ root.toList →
      Inside e outer last ⟨stack, root⟩ ⟨stack ++ { e with content := content } :: outer, last⟩

section Steps

variable {e : Element} {outer : List Element} {last : Option Element} {p p' q : Progress}

theorem inside_addText (h : Inside e outer last p p') (t : Text) :
    Inside e outer last (p.addText t) (p'.addText t) := by
  obtain @⟨stack, root, content, hc⟩ := h
  cases stack with
  | nil => exact .mk ((content.elements_addText t).trans hc)
  | cons parent above => exact .mk hc

theorem inside_push (h : Inside e outer last p p') (d : Element) :
    Inside e outer last (p.push d) (p'.push d) := by
  obtain ⟨hc⟩ := h
  exact .mk hc

theorem inside_attach (h : Inside e outer last p p') {d : Element} (hq : p.attach d = .ok q) :
    ∃ q', p'.attach d = .ok q' ∧ Inside e outer last q q' := by
  obtain @⟨stack, root, content, hc⟩ := h
  cases stack with
  | nil =>
      cases root with
      | some first => cases hq
      | none =>
          cases hq
          refine ⟨_, rfl, .mk ?_⟩
          rw [Content.elements_addElement, hc]
          simp
  | cons parent above =>
      cases hq
      exact ⟨_, rfl, .mk hc⟩

theorem inside_close (h : Inside e outer last p p') {name : Text} (hq : p.close name = .ok q) :
    ∃ q', p'.close name = .ok q' ∧ Inside e outer last q q' := by
  obtain @⟨stack, root, content, hc⟩ := h
  cases stack with
  | nil => cases hq
  | cons d above =>
      by_cases hn : d.name = name
      · simp only [close, if_pos hn, List.cons_append] at hq ⊢
        exact inside_attach (.mk hc) hq
      · simp only [close, if_neg hn] at hq
        cases hq

/-- A token that is taken outside is taken inside. -/
theorem inside_step (h : Inside e outer last p p') {t : Token} (hq : p.step t = .ok q) :
    ∃ q', p'.step t = .ok q' ∧ Inside e outer last q q' := by
  cases t with
  | text t =>
      cases hq
      exact ⟨_, rfl, inside_addText h t⟩
  | aside =>
      cases hq
      exact ⟨_, rfl, h⟩
  | opened name attributes =>
      cases hq
      exact ⟨_, rfl, inside_push h _⟩
  | empty name attributes => exact inside_attach h hq
  | closed name => exact inside_close h hq

theorem inside_run (h : Inside e outer last p p') {ts : List Token} (hq : p.run ts = .ok q) :
    ∃ q', p'.run ts = .ok q' ∧ Inside e outer last q q' := by
  induction ts generalizing p p' with
  | nil =>
      cases hq
      exact ⟨_, rfl, h⟩
  | cons t ts ih =>
      rw [run] at hq
      cases hs : p.step t with
      | error e => rw [hs] at hq; cases hq
      | ok r =>
          rw [hs] at hq
          obtain ⟨r', hr', hin⟩ := inside_step h hs
          obtain ⟨q', hq', hin'⟩ := ih hin hq
          exact ⟨q', by rw [run, hr']; exact hq', hin'⟩

end Steps

section Reading

theorem read_chars {s : Text} (hs : ∀ c ∈ s, Token.isTextChar c = true) (p : Progress)
    (u rest : Text) :
    (p.addText u).read (s ++ rest) = (p.addText (u ++ s)).read rest := by
  induction s generalizing u with
  | nil => rw [List.append_nil, List.nil_append]
  | cons c s ih =>
      obtain ⟨hc, hs⟩ := List.forall_mem_cons.1 hs
      rw [List.cons_append, read_char hc, addText_addText, ih hs, List.append_assoc]
      rfl

/-- A text whose tokens are all taken is read to its end, whatever follows it. -/
theorem read_continued {s : Text} {p q : Progress} (hfault : (tokens s).2 = none)
    (hq : p.run (tokens s).1 = .ok q) (more : Text) : p.read (s ++ more) = q.read more := by
  induction s using tokens.induct generalizing p with
  | case1 =>
      rw [tokens] at hq
      cases hq
      rfl
  | case2 c s fault h =>
      rw [tokens] at hfault
      split at hfault
      · cases hfault
      · next h' => rw [h] at h'; cases h'
  | case3 c s t rest h _ _ _ ih =>
      rw [tokens_cons h] at hfault hq
      rw [run] at hq
      cases hs : p.step t with
      | error e => rw [hs] at hq; cases hq
      | ok r =>
          rw [hs] at hq
          rw [List.cons_append, ← ih hfault hq]
          -- only a text may go on in what follows, so its characters are read one at a time
          by_cases hc : Token.isTextChar c = true
          · rw [next_text hc] at h
            cases h
            cases hs
            rw [read_char hc]
            conv_lhs => rw [← s.takeWhile_append_dropWhile (p := Token.isTextChar)]
            rw [List.append_assoc, read_chars fun d hd => List.mem_takeWhile_imp hd]
            rfl
          · exact read_next (Token.next_continued (Bool.eq_false_iff.2 hc) h more) hs

theorem run_of_read {s : Text} {p : Progress} {t : Element} (h : p.read s = .ok t) :
    (tokens s).2 = none ∧ p.run (tokens s).1 = .ok ⟨[], some t⟩ := by
  unfold read at h
  split at h
  · cases h
  · cases h
  · next q hrun hfault =>
    refine ⟨hfault, ?_⟩
    obtain ⟨stack, root⟩ := q
    cases stack with
    | cons e outer => cases h
    | nil =>
        cases root with
        | none => cases h
        | some root =>
            cases h
            exact hrun

theorem read_document {s : Text} {t : Element} (h : parse s = .ok t) (e : Element)
    (outer : List Element) (last : Option Element) :
    ∃ content, content.elements = e.content.elements ++ [t] ∧ ∀ more,
      read ⟨e :: outer, last⟩ (s ++ more) =
        read ⟨{ e with content := content } :: outer, last⟩ more := by
  obtain ⟨hfault, hrun⟩ := run_of_read h
  have hinside {p' : Progress} (hin : Inside e outer last start p') :
      ∃ content, content.elements = e.content.elements ++ [t] ∧ ∀ more,
        p'.read (withoutByteOrderMark s ++ more) =
          read ⟨{ e with content := content } :: outer, last⟩ more := by
    obtain ⟨q', hq', hc⟩ := inside_run hin hrun
    cases hc with
    | mk hc => exact ⟨_, hc, read_continued hfault hq'⟩
  have hstart : Inside e outer last start ⟨e :: outer, last⟩ := .mk (List.append_nil _).symm
  cases s with
  | nil => exact hinside hstart
  | cons c s =>
      by_cases hc : c = '\uFEFF'
      · -- a mark that stands inside an element is one of its characters
        obtain ⟨content, helements, hread⟩ := hinside (inside_addText hstart [c])
        rw [withoutByteOrderMark, if_pos hc] at hread
        refine ⟨content, helements, fun more => ?_⟩
        rw [List.cons_append, read_char (by rw [hc]; decide)]
        exact hread more
      · have h := hinside hstart
        rwa [withoutByteOrderMark, if_neg hc] at h

theorem read_documents {ss : List Text} {ts : List Element}
    (h : List.Forall₂ (fun s t => parse s = .ok t) ss ts) (e : Element) (outer : List Element)
    (last : Option Element) :
    ∃ content, content.elements = e.content.elements ++ ts ∧ ∀ more,
      read ⟨e :: outer, last⟩ (ss.flatten ++ more) =
        read ⟨{ e with content := content } :: outer, last⟩ more := by
  induction h generalizing e with
  | nil => exact ⟨e.content, (List.append_nil _).symm, fun _ => rfl⟩
  | @cons s t ss ts hs _ ih =>
      obtain ⟨c, hc, hfirst⟩ := read_document hs e outer last
      obtain ⟨content, helements, hrest⟩ := ih { e with content := c }
      refine ⟨content, ?_, fun more => ?_⟩
      · rw [helements, hc, List.append_assoc]
        rfl
      · rw [List.flatten_cons, List.append_assoc, hfirst, hrest]

end Reading
end Progress

section Wrapped

open Progress Token

theorem isName_of_letters {name : Text} (hne : name ≠ []) (h : ∀ c ∈ name, c.isAlpha = true) :
    IsName name := by
  refine ⟨hne, fun c hc => ?_⟩
  by_contra hnot
  have hmark : c ∈ (" \t\r\n<>/&='\"!?" : Text) := by
    simp only [isNameChar, isSpace, Bool.and_eq_true, Bool.not_eq_true', not_and_or, Bool.not_eq_false,
      Bool.or_eq_true, decide_eq_true_eq, List.contains_eq_mem, String.reduceToList, List.mem_cons,
      List.not_mem_nil, or_false] at hnot ⊢
    tauto
  have hmarks : (" \t\r\n<>/&='\"!?" : Text).all (fun c => !c.isAlpha) = true := by decide
  simpa [h c hc] using List.all_eq_true.1 hmarks c hmark

variable {name : Text}

theorem next_start (h : ∀ c ∈ name, c.isAlpha = true) (more : Text) :
    next '<' (name ++ '>' :: more) = .ok (.opened name [], more) := by
  cases name with
  | nil => simp [next, nextTag, cutTag, ofTag, nameAndAttributes, Attribute.readFrom, Except.map]
  | cons c name =>
      have hn := isName_of_letters (List.cons_ne_nil c name) h
      have hnext := next_opened hn .nil (List.forall_mem_nil _) (List.forall_mem_nil _) .nil more
      rwa [List.append_nil, List.append_nil] at hnext

theorem next_end (h : ∀ c ∈ name, c.isAlpha = true) (more : Text) :
    next '<' ('/' :: name ++ '>' :: more) = .ok (.closed name, more) := by
  cases name with
  | nil => rfl
  | cons c name =>
      have hn := isName_of_letters (List.cons_ne_nil c name) h
      have hnext := next_closed hn (List.forall_mem_nil _) more
      rwa [List.append_nil] at hnext

/-- Documents between a pair of tags are the children of one element, each with the tree that it has
on its own. What else the element holds is text. -/
theorem parse_wrapped (hname : ∀ c ∈ name, c.isAlpha = true) {ss : List Text} {ts : List Element}
    (h : List.Forall₂ (fun s t => parse s = .ok t) ss ts) :
    ∃ content, parse ("<" ++ name ++ ">" ++ ss.flatten ++ "</" ++ name ++ ">") =
      .ok ⟨name, [], content⟩ ∧ content.elements = ts := by
  obtain ⟨content, helements, hread⟩ := read_documents h ⟨name, [], .nil⟩ [] none
  refine ⟨content, ?_, helements⟩
  have hs : "<" ++ name ++ ">" ++ ss.flatten ++ "</" ++ name ++ ">" =
      '<' :: (name ++ '>' :: (ss.flatten ++ '<' :: ('/' :: name ++ '>' :: []))) := by simp
  have hclose : step ⟨[⟨name, [], content⟩], none⟩ (.closed name) =
      .ok ⟨[], some ⟨name, [], content⟩⟩ := if_pos rfl
  rw [parse_eq_read, hs, withoutByteOrderMark, if_neg (by decide),
    read_next (next_start hname _) rfl]
  calc
    read ⟨[⟨name, [], .nil⟩], none⟩ (ss.flatten ++ '<' :: ('/' :: name ++ '>' :: []))
        = read ⟨[⟨name, [], content⟩], none⟩ ('<' :: ('/' :: name ++ '>' :: [])) := hread _
    _ = read ⟨[], some ⟨name, [], content⟩⟩ [] := read_next (next_end hname []) hclose
    _ = .ok ⟨name, [], content⟩ := read_nil _

/-- Documents with texts, references, a byte order mark and a declaration around their roots. -/
theorem parse_wrapped_edges :
    let name : Text := "doc"
    let first : Text := "\uFEFF<!DOCTYPE a [<!ENTITY x '>'>]><a>x</a>&lt;"
    let second : Text := "y<?p?><b k='1'/><!-- c -->\n"
    let ts : List Element := [⟨"a", [], .text "x" .nil⟩, ⟨"b", [⟨"k", "1"⟩], .nil⟩]
    (∀ c ∈ name, c.isAlpha = true) ∧ List.Forall₂ (fun s t => parse s = .ok t) [first, second] ts ∧
      ∃ content, parse ("<" ++ name ++ ">" ++ [first, second].flatten ++ "</" ++ name ++ ">") =
        .ok ⟨name, [], content⟩ ∧ content.elements = ts := by
  intro name first second ts
  have hfirst : parse first = .ok ⟨"a", [], .text "x" .nil⟩ := by decide +kernel
  have hsecond : parse second = .ok ⟨"b", [⟨"k", "1"⟩], .nil⟩ := by decide +kernel
  have h : List.Forall₂ (fun s t => parse s = .ok t) [first, second] ts :=
    .cons hfirst (.cons hsecond .nil)
  have hname : ∀ c ∈ name, c.isAlpha = true := List.all_eq_true.1 (by decide)
  exact ⟨hname, h, parse_wrapped hname h⟩

end Wrapped
end ApiDocs.Xml
