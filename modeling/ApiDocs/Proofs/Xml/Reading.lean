import ApiDocs.Proofs.Text.Cut
import ApiDocs.Proofs.Xml.Content

namespace ApiDocs.Xml

theorem tokens_cons {c : Char} {s rest : Text} {t : Token} (h : Token.next c s = .ok (t, rest)) :
    tokens (c :: s) = (t :: (tokens rest).1, (tokens rest).2) := by
  rw [tokens]
  split
  · next he => rw [h] at he; cases he
  · next he =>
      rw [h] at he
      cases he
      rfl

namespace Progress

/-- What becomes of a text that is read from here to its end. -/
def read (p : Progress) (s : Text) : Except Error Element :=
  match p.run (tokens s).1, (tokens s).2 with
  | .error e, _ => .error e
  | .ok _, some fault => .error (.unreadable fault)
  | .ok q, none => q.finish

theorem parse_eq_read (s : Text) : parse s = start.read (withoutByteOrderMark s) := rfl

theorem read_nil (p : Progress) : p.read [] = p.finish := by
  simp only [read, tokens, run]

theorem read_next {p q : Progress} {c : Char} {s rest : Text} {t : Token}
    (hn : Token.next c s = .ok (t, rest)) (hs : p.step t = .ok q) :
    p.read (c :: s) = q.read rest := by
  simp only [read, tokens_cons hn, run, hs]

theorem read_aside {c : Char} {s rest : Text} (h : Token.next c s = .ok (.aside, rest))
    (p : Progress) : p.read (c :: s) = p.read rest :=
  read_next h rfl

theorem addText_addText (p : Progress) (s t : Text) :
    (p.addText s).addText t = p.addText (s ++ t) := by
  obtain ⟨stack, root⟩ := p
  cases stack with
  | nil => rfl
  | cons e outer => simp only [addText, Content.addText_addText]

end Progress

section Markup

open Token Progress

theorem next_text {c : Char} (h : isTextChar c = true) (s : Text) :
    next c s = .ok (.text (c :: s.takeWhile isTextChar), s.dropWhile isTextChar) := by
  simp only [isTextChar, Bool.and_eq_true, ne_eq, decide_eq_true_eq] at h
  unfold next
  rw [if_neg h.2, if_neg h.1]

theorem next_declaration (s : Text) : next '<' ('!' :: s) = nextDeclaration s := rfl

theorem next_instruction (s : Text) : next '<' ('?' :: s) = nextInstruction s := rfl

theorem read_char {c : Char} (h : isTextChar c = true) (p : Progress) (s : Text) :
    p.read (c :: s) = (p.addText [c]).read s := by
  rw [read_next (next_text h s) rfl]
  cases s with
  | nil => rfl
  | cons d s =>
      by_cases hd : isTextChar d = true
      · rw [read_next (next_text hd s) rfl, addText_addText, List.takeWhile_cons_of_pos hd,
          List.dropWhile_cons_of_pos hd]
        rfl
      · rw [List.takeWhile_cons_of_neg hd, List.dropWhile_cons_of_neg hd]

theorem read_reference {name : Text} (h : ∀ c ∈ name, isReferenceChar c = true) (p : Progress)
    (s : Text) :
    p.read ('&' :: (name ++ ';' :: s)) = (p.addText (Reference.inContent name)).read s := by
  have hn : next '&' (name ++ ';' :: s) = .ok (.text (Reference.inContent name), s) := by
    unfold next
    rw [if_pos rfl, nextReference, List.dropWhile_append_of_pos h,
      List.takeWhile_append_of_pos h]
    simp [isReferenceChar]
  exact read_next hn rfl

theorem read_section {body : Text} (h : ¬ "]]>".toList <:+: body) (p : Progress) (s : Text) :
    p.read ("<![CDATA[" ++ (body ++ ("]]>" ++ s))) = (p.addText body).read s := by
  have hd := Text.dropStart?_append "CDATA[" (body ++ ("]]>" ++ s))
  have hc := Text.cutAt?_append (by decide) h s
  have hn : next '<' ('!' :: '[' :: ("CDATA[" ++ (body ++ ("]]>" ++ s)))) =
      .ok (.text body, s) := by
    simp only [next_declaration, nextDeclaration, hd, Option.bind_some, hc]
  exact read_next hn rfl

theorem read_comment {body : Text} (h : ¬ "-->".toList <:+: body) (p : Progress) (s : Text) :
    p.read ("<!--" ++ (body ++ ("-->" ++ s))) = p.read s := by
  have hd := Text.dropStart?_append "-" (body ++ ("-->" ++ s))
  have hc := Text.cutAt?_append (by decide) h s
  have hn : next '<' ('!' :: '-' :: ("-" ++ (body ++ ("-->" ++ s)))) = .ok (.aside, s) := by
    simp only [next_declaration, nextDeclaration, hd, Option.bind_some, hc]
  exact read_aside hn p

theorem read_instruction {body : Text} (hb : body.head? ≠ some '>') (h : ¬ "?>".toList <:+: body)
    (p : Progress) (s : Text) : p.read ("<?" ++ (body ++ ("?>" ++ s))) = p.read s := by
  have hc := Text.cutAt?_append (by decide) h s
  have hhead : (body ++ ("?>" ++ s)).head? ≠ some '>' := by
    cases body with
    | nil => simp
    | cons c body => exact hb
  have hn : next '<' ('?' :: (body ++ ("?>" ++ s))) = .ok (.aside, s) := by
    simp only [next_instruction, nextInstruction, if_neg hhead, hc]
  exact read_aside hn p

theorem pastOuter?_plain {body : Text} (h : ∀ c ∈ body, c ≠ '>' ∧ c ≠ '[' ∧ isQuote c = false)
    (s : Text) : Doctype.pastOuter? (body ++ '>' :: s) = some s := by
  induction body with
  | nil => rw [List.nil_append, Doctype.pastOuter?, if_pos rfl]
  | cons c body ih =>
      obtain ⟨⟨hend, hsubset, hquote⟩, hbody⟩ := List.forall_mem_cons.1 h
      rw [List.cons_append, Doctype.pastOuter?, if_neg hend, if_neg hsubset,
        if_neg (by rw [hquote]; decide), ih hbody]

theorem read_doctype {body : Text} (hname : ∃ c ∈ body, isSpace c = false)
    (h : ∀ c ∈ body, c ≠ '>' ∧ c ≠ '[' ∧ isQuote c = false) (p : Progress) (s : Text) :
    p.read ("<!DOCTYPE" ++ (body ++ '>' :: s)) = p.read s := by
  have hhead : ((body ++ '>' :: s).dropWhile isSpace).head? ≠ some '>' := by
    clear p
    induction body with
    | nil => simp at hname
    | cons c body ih =>
        obtain ⟨hc, hbody⟩ := List.forall_mem_cons.1 h
        by_cases hs : isSpace c = true
        · rw [List.cons_append, List.dropWhile_cons_of_pos hs]
          obtain ⟨d, hd, hds⟩ := hname
          rcases List.mem_cons.1 hd with rfl | hd
          · rw [hs] at hds; cases hds
          · exact ih ⟨d, hd, hds⟩ hbody
        · rw [List.cons_append, List.dropWhile_cons_of_neg hs]
          simpa using hc.1
  have hn : next '<' ('!' :: 'D' :: ("OCTYPE" ++ (body ++ '>' :: s))) = .ok (.aside, s) := by
    have htake : ((("OCTYPE" ++ (body ++ '>' :: s) : Text)).take 6).map Char.toUpper =
        ("OCTYPE" : Text) := rfl
    have hdrop : (("OCTYPE" ++ (body ++ '>' :: s) : Text)).drop 6 = body ++ '>' :: s := rfl
    simp only [next_declaration, nextDeclaration, Doctype.read, htake, hdrop, if_true,
      pastOuter?_plain h s, if_neg hhead, Except.map]
  exact read_aside hn p

end Markup
end ApiDocs.Xml
