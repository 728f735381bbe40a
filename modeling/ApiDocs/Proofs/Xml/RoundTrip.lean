import ApiDocs.Proofs.Xml.Written

namespace ApiDocs.Xml

def Element.extend (e : Element) (c : Content) : Element :=
  { e with content := e.content.append c }

theorem Element.extend_nil (e : Element) : e.extend .nil = e := by
  obtain ⟨name, attributes, content⟩ := e
  rw [extend, Content.append_nil]

theorem Element.extend_extend (e : Element) (c d : Content) :
    (e.extend c).extend d = e.extend (c.append d) := by
  rw [extend, extend, extend, Content.append_assoc]

section Traceless

open Token Progress

theorem isTextChar_of_space {c : Char} (h : isSpace c = true) : isTextChar c = true := by
  simp only [isSpace, Bool.or_eq_true, decide_eq_true_eq] at h
  rcases h with ((rfl | rfl) | rfl) | rfl <;> decide

theorem read_traceless {a : Text} (h : Aside a) (p : Progress) (s : Text) :
    p.read (a ++ s) = p.read s := by
  cases h with
  | comment hb =>
      rw [List.append_assoc, List.append_assoc]
      exact read_comment hb p s
  | instruction hb hmark =>
      rw [List.append_assoc, List.append_assoc]
      exact read_instruction hb hmark p s
  | doctype hname hb =>
      rw [List.append_assoc, List.append_assoc]
      exact read_doctype hname hb p s

theorem read_margin {a : Text} (h : Margin a) (root : Option Element) (s : Text) :
    Progress.read ⟨[], root⟩ (a ++ s) = Progress.read ⟨[], root⟩ s := by
  induction h with
  | nil => rfl
  | space hc _ ih =>
      rw [List.cons_append, read_char (isTextChar_of_space hc)]
      exact ih
  | aside ha _ ih => rw [List.append_assoc, read_traceless ha, ih]

end Traceless

section Texts

open Progress

theorem read_written {c : Char} {r : Text} (h : SpellsChar "xX" c r) (p : Progress) (s : Text) :
    p.read (r ++ s) = (p.addText [c]).read s := by
  obtain ⟨name, rfl, hinert, hc⟩ := inContent_written h
  have hname : ∀ d ∈ name, Token.isReferenceChar d = true := fun d hd =>
    (Bool.and_eq_true_iff.1 (hinert d hd)).1
  rw [← hc, ← read_reference hname, List.cons_append, List.append_assoc, List.singleton_append]

theorem read_more {t a : Text} (h : SpellsText t a) (p : Progress) (u s : Text) :
    (p.addText u).read (a ++ s) = (p.addText (u ++ t)).read s := by
  induction h generalizing u with
  | nil => rw [List.append_nil, List.nil_append]
  | @raw c t a hc _ ih =>
      rw [List.cons_append, read_char hc, addText_addText, ih, List.append_assoc]
      rfl
  | @reference c r t a hr _ ih =>
      rw [List.append_assoc, read_written hr, addText_addText, ih, List.append_assoc]
      rfl
  | @cdata body t a hb _ ih =>
      simp only [List.append_assoc]
      rw [read_section hb, addText_addText, ih, List.append_assoc]
  | aside ha _ ih => rw [List.append_assoc, read_traceless ha, ih]

theorem read_text {t a : Text} (h : SpellsText t a) (ht : t ≠ []) (p : Progress) (s : Text) :
    p.read (a ++ s) = (p.addText t).read s := by
  induction h with
  | nil => exact absurd rfl ht
  | raw hc h _ =>
      rw [List.cons_append, read_char hc, read_more h]
      rfl
  | reference hr h _ =>
      rw [List.append_assoc, read_written hr, read_more h]
      rfl
  | cdata hb h _ =>
      simp only [List.append_assoc]
      rw [read_section hb, read_more h]
  | aside ha _ ih => rw [List.append_assoc, read_traceless ha, ih ht]

end Texts

section Elements

open Progress

theorem attach_open (name : Text) (attributes : List Attribute) (children : Content) (e : Element)
    (outer : List Element) (root : Option Element) :
    attach ⟨e :: outer, root⟩ ⟨name, attributes, children⟩ =
      .ok ⟨e.extend (.element name attributes children .nil) :: outer, root⟩ := by
  rw [Element.extend, ← Content.addElement_eq_append _ ⟨name, attributes, children⟩]
  rfl

variable {name a gap : Text} {attributes : List Attribute} {children : Content} {p q : Progress}

theorem read_empty (hname : IsName name) (h : SpellsAttributes attributes a) (hgap : Spaces gap)
    (hkeys : ∀ b ∈ attributes, IsName b.key) (hnodup : (attributes.map (·.key)).Nodup)
    (hq : p.attach ⟨name, attributes, .nil⟩ = .ok q) (s : Text) :
    p.read ("<" ++ name ++ a ++ gap ++ "/>" ++ s) = q.read s := by
  have hs : "<" ++ name ++ a ++ gap ++ "/>" ++ s =
      '<' :: (name ++ (a ++ gap) ++ '/' :: '>' :: s) := by simp
  rw [hs, read_next (next_empty hname h hgap hkeys hnodup s) hq]

theorem read_pair {body gap' : Text} (hname : IsName name) (h : SpellsAttributes attributes a)
    (hgap : Spaces gap) (hkeys : ∀ b ∈ attributes, IsName b.key)
    (hnodup : (attributes.map (·.key)).Nodup) (hgap' : Spaces gap')
    (hbody : ∀ s, (p.push ⟨name, attributes, .nil⟩).read (body ++ s) =
      (p.push ⟨name, attributes, children⟩).read s)
    (hq : p.attach ⟨name, attributes, children⟩ = .ok q) (s : Text) :
    p.read ("<" ++ name ++ a ++ gap ++ ">" ++ body ++ "</" ++ name ++ gap' ++ ">" ++ s) =
      q.read s := by
  have hs : "<" ++ name ++ a ++ gap ++ ">" ++ body ++ "</" ++ name ++ gap' ++ ">" ++ s =
      '<' :: (name ++ (a ++ gap) ++ '>' ::
        (body ++ '<' :: ('/' :: (name ++ gap') ++ '>' :: s))) := by simp
  have hclose : (p.push ⟨name, attributes, children⟩).step (.closed name) = .ok q := by
    simp only [step, close, push, if_true]
    exact hq
  rw [hs, read_next (next_opened hname h hgap hkeys hnodup _) rfl, hbody,
    read_next (next_closed hname hgap' s) hclose]

/-- Content is added to the innermost open element. A text at its start must not join another. -/
theorem read_content {c : Content} {a : Text} (h : SpellsContent c a) (hc : c.Spellable)
    (e : Element) (outer : List Element) (root : Option Element)
    (hjoin : c.startsWithText = true → e.content.endsWithText = false) (s : Text) :
    Progress.read ⟨e :: outer, root⟩ (a ++ s) = Progress.read ⟨e.extend c :: outer, root⟩ s := by
  induction h generalizing e outer s with
  | nil => rw [List.nil_append, Element.extend_nil]
  | aside ha _ ih => rw [List.append_assoc, read_traceless ha, ih hc e outer hjoin]
  | @text t a rest b ht _ ih =>
      obtain ⟨hne, hfirst, hrest⟩ := hc
      have hadd : addText ⟨e :: outer, root⟩ t = ⟨e.extend (.text t .nil) :: outer, root⟩ := by
        rw [Element.extend, ← Content.addText_eq_append (hjoin rfl)]
        rfl
      rw [List.append_assoc, read_text ht hne, hadd, ih hrest, Element.extend_extend]
      · rfl
      · intro hstart
        rw [hfirst] at hstart
        cases hstart
  | @pair name attributes children rest a gap body gap' b ha hgap _ hgap' _ ihbody ih =>
      obtain ⟨hname, hkeys, hnodup, hchildren, hrest⟩ := hc
      have hbody (s : Text) : (push ⟨e :: outer, root⟩ ⟨name, attributes, .nil⟩).read (body ++ s) =
          (push ⟨e :: outer, root⟩ ⟨name, attributes, children⟩).read s :=
        ihbody hchildren ⟨name, attributes, .nil⟩ (e :: outer) (fun _ => rfl) s
      rw [List.append_assoc, read_pair hname ha hgap hkeys hnodup hgap' hbody (attach_open ..),
        ih hrest, Element.extend_extend]
      · rfl
      · exact fun _ => Content.endsWithText_append_element _ _ _ _
  | @empty name attributes rest a gap b ha hgap _ ih =>
      obtain ⟨hname, hkeys, hnodup, -, hrest⟩ := hc
      rw [List.append_assoc, read_empty hname ha hgap hkeys hnodup (attach_open ..), ih hrest,
        Element.extend_extend]
      · rfl
      · exact fun _ => Content.endsWithText_append_element _ _ _ _

end Elements

section Documents

open Progress

theorem SpellsContent.margin {c : Content} {a : Text} (h : SpellsContent c a) (hc : c = .nil) :
    Margin a := by
  induction h with
  | nil => exact .nil
  | aside ha _ ih => exact .aside ha (ih hc)
  | text _ _ | pair _ _ _ _ _ | empty _ _ _ => cases hc

theorem read_root {e : Element} {c : Content} {a : Text} (he : e.Spellable)
    (h : SpellsContent c a) (hc : c = e.alone) (s : Text) :
    start.read (a ++ s) = Progress.read ⟨[], some e⟩ s := by
  induction h with
  | nil | text _ _ => cases hc
  | aside ha _ ih => rw [List.append_assoc, read_traceless ha, ih hc]
  | @pair name attributes children rest a gap body gap' b ha hgap hbody hgap' hrest =>
      obtain ⟨rfl, rfl, rfl, rfl⟩ := Content.element.inj hc
      obtain ⟨hname, hkeys, hnodup, hchildren, -⟩ := he
      have hbody (s : Text) : (start.push ⟨e.name, e.attributes, .nil⟩).read (body ++ s) =
          (start.push ⟨e.name, e.attributes, e.content⟩).read s :=
        read_content hbody hchildren ⟨e.name, e.attributes, .nil⟩ [] none (fun _ => rfl) s
      rw [List.append_assoc, read_pair hname ha hgap hkeys hnodup hgap' hbody rfl]
      exact read_margin (hrest.margin rfl) (some e) s
  | @empty name attributes rest a gap b ha hgap hrest =>
      obtain ⟨rfl, rfl, hnil, rfl⟩ := Content.element.inj hc
      obtain ⟨hname, hkeys, hnodup, -, -⟩ := he
      obtain ⟨name, attributes, content⟩ := e
      obtain rfl := hnil
      rw [List.append_assoc, read_empty hname ha hgap hkeys hnodup rfl]
      exact read_margin (hrest.margin rfl) _ s

theorem Aside.head? {a : Text} (h : Aside a) (s : Text) : (a ++ s).head? = some '<' := by
  cases h <;> rfl

theorem Margin.head? {a s : Text} (h : Margin a) (hs : s.head? ≠ some '\uFEFF') :
    (a ++ s).head? ≠ some '\uFEFF' := by
  cases h with
  | nil => exact hs
  | space hc _ =>
      rintro he
      cases Option.some.inj he
      cases hc
  | aside ha _ =>
      rw [List.append_assoc, ha.head?]
      decide

theorem SpellsContent.head? {e : Element} {a : Text} (h : SpellsContent e.alone a) (s : Text) :
    (a ++ s).head? = some '<' := by
  obtain ⟨name, attributes, content⟩ := e
  unfold Element.alone at h
  cases h with
  | aside ha _ => rw [List.append_assoc, ha.head?]
  | pair | empty => rfl

theorem withoutByteOrderMark_unmarked {s : Text} (h : s.head? ≠ some '\uFEFF') :
    withoutByteOrderMark s = s := by
  cases s with
  | nil => rfl
  | cons c s => exact if_neg fun hc => h (congrArg some hc)

/-- Whatever spelling is chosen for a tree, the parser returns the tree. -/
theorem parse_spelling {e : Element} {s : Text} (he : e.Spellable) (h : SpellsDocument e s) :
    parse s = .ok e := by
  cases h with
  | @mk mark before a after hmark hbefore ha hafter =>
      have hread : start.read (before ++ (a ++ after)) = .ok e := by
        calc
          start.read (before ++ (a ++ after)) = start.read (a ++ after) :=
            read_margin hbefore none _
          _ = Progress.read ⟨[], some e⟩ after := read_root he ha rfl after
          _ = Progress.read ⟨[], some e⟩ [] := by
            simpa using read_margin hafter (some e) []
          _ = .ok e := read_nil _
      rw [parse_eq_read, List.append_assoc, List.append_assoc]
      rcases hmark with rfl | rfl
      · rw [List.nil_append, withoutByteOrderMark_unmarked, hread]
        apply hbefore.head?
        rw [ha.head?]
        decide
      · exact hread

/-- One tree with a value, a text from four pieces, and an element in one tag. -/
theorem parse_spelling_pieces :
    let s : Text := "<a k='&lt;'>x&#38;<!-- c --><![CDATA[<]]><b /></a>\n"
    let e : Element := ⟨"a", [⟨"k", "<"⟩], .text "x&<" (.element "b" [] .nil .nil)⟩
    e.Spellable ∧ SpellsDocument e s ∧ parse s = .ok e := by
  intro s e
  have ha : IsName "a" := ⟨by decide, List.all_eq_true.1 (by decide)⟩
  have hb : IsName "b" := ⟨by decide, List.all_eq_true.1 (by decide)⟩
  have hk : IsName "k" := ⟨by decide, List.all_eq_true.1 (by decide)⟩
  have he : e.Spellable :=
    ⟨ha, by simpa [e] using hk, by simp [e], ⟨by decide, rfl, hb, by simp, by simp, trivial, trivial⟩,
      trivial⟩
  have hgap : Spaces " " := List.all_eq_true.1 (by decide)
  have hlt : SpellsChar "x" '<' "&lt;" :=
    .named (by decide : Reference.predefined? "lt" = some '<')
  have hvalue : SpellsValue '\'' "<" "&lt;" := .reference (by decide) hlt .nil
  have hattributes : SpellsAttributes [⟨"k", "<"⟩] " k='&lt;'" :=
    .cons (by decide) hgap (by decide : isQuote '\'' = true) hvalue .nil
  have hdigits : Numeral.Denotes 10 "38" ('&').toNat := by
    have h := Numeral.Denotes.append (.digit (by decide : Numeral.digit? 10 '3' = some 3))
      (by decide : Numeral.digit? 10 '8' = some 8)
    exact h
  have hamp : SpellsChar "xX" '&' "&#38;" := .decimal hdigits
  have hcomment : Aside "<!-- c -->" := .comment (by decide : ¬ "-->".toList <:+: " c ".toList)
  have hcdata : SpellsText "<" "<![CDATA[<]]>" :=
    .cdata (by decide : ¬ "]]>".toList <:+: "<".toList) .nil
  have htext := SpellsText.raw (by decide : Token.isTextChar 'x' = true)
    (.reference hamp (.aside hcomment hcdata))
  have hinner : SpellsContent (.element "b" [] .nil .nil) "<b />" := .empty .nil hgap .nil
  have hnone : Spaces [] := List.forall_mem_nil _
  have hs := SpellsDocument.mk (.inl rfl) .nil
    (.pair hattributes hnone (.text htext hinner) hnone .nil : SpellsContent e.alone _)
    (.space (by decide : isSpace '\n' = true) .nil)
  simp only [String.reduceToList, List.nil_append, List.cons_append] at hs
  have hs' : SpellsDocument e s := by
    simp only [s, String.reduceToList]
    exact hs
  exact ⟨he, hs', parse_spelling he hs'⟩

end Documents
end ApiDocs.Xml
