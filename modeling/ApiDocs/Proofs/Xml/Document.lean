import ApiDocs.Proofs.Xml.Walk

namespace ApiDocs.Xml

open Token

/-- What a tree tells of the tokens of its document. Outside the root there are no tags. -/
structure Mirrors (root : Element) (ts : List Token) : Prop where
  walk : ∃ before inside after, ts = before ++ inside ++ after ∧
    (∀ t ∈ before ++ after, t.isTag = false) ∧
    root.walk = joinTexts (inside.flatMap events) ∧
    root.text = inside.flatMap textValue
  separated : root.content.Separated
  named : ∀ name, (root.named name).map (fun e => (e.name, e.attributes)) =
    (ts.filterMap begun?).filter (·.1 = name)
  starts : ∀ name, List.Forall₂ Element.StartsAt (root.named name) (tailsFrom name root.walk)

/-- What a run has made of the tokens so far. The last case has no way to an end: a second root
will be refused when it is complete. -/
inductive Covers : List Token → Progress → Prop
  | before {ts} : (∀ t ∈ ts, t.isTag = false) → Covers ts ⟨[], none⟩
  | inside {before inside e outer} : (∀ t ∈ before, t.isTag = false) →
      joinTexts (inside.flatMap events) = openWalk (e :: outer) →
      (∀ d ∈ e :: outer, d.content.Separated) →
      Covers (before ++ inside) ⟨e :: outer, none⟩
  | after {before inside after root} : (∀ t ∈ before ++ after, t.isTag = false) →
      joinTexts (inside.flatMap events) = root.walk → root.content.Separated →
      Covers (before ++ inside ++ after) ⟨[], some root⟩
  | second (ts : List Token) (e : Element) (outer : List Element) (root : Element) :
      Covers ts ⟨e :: outer, some root⟩

namespace Progress

theorem joinTexts_openWalk {stack : List Element} (h : ∀ e ∈ stack, e.content.Separated) :
    joinTexts (openWalk stack) = openWalk stack := by
  induction stack with
  | nil => rfl
  | cons e outer ih =>
      rw [openWalk, joinTexts_append_tag rfl, ih fun d hd => h d (List.mem_cons_of_mem _ hd),
        (h e List.mem_cons_self).joinTexts_walk]

theorem joinTexts_read_tag {ts walk : List Token} {t : Token}
    (h : joinTexts (ts.flatMap events) = walk) (ht : t.isTag = true) :
    joinTexts ((ts ++ [t]).flatMap events) = walk ++ t.events := by
  rw [List.flatMap_append, List.flatMap_singleton]
  cases t with
  | text s | aside => cases ht
  | opened name attributes | empty name attributes | closed name =>
      exact (joinTexts_append_tag rfl _ _).trans (congrArg (· ++ _) h)

theorem openWalk_addText {e : Element} {outer : List Element}
    (h : ∀ d ∈ e :: outer, d.content.Separated) (t : Text) :
    joinTexts (openWalk (e :: outer) ++ [.text t]) =
      openWalk ({ e with content := e.content.addText t } :: outer) := by
  rw [openWalk, List.append_assoc, List.cons_append, joinTexts_append_tag rfl,
    (h e List.mem_cons_self).walk_addText,
    joinTexts_openWalk fun d hd => h d (List.mem_cons_of_mem _ hd)]
  rfl

theorem openWalk_addElement (parent : Element) (outer : List Element) (e : Element) :
    openWalk ({ parent with content := parent.content.addElement e } :: outer) =
      openWalk (parent :: outer) ++ e.walk := by
  simp only [openWalk, Content.walk_addElement, List.append_assoc, List.cons_append]

theorem openWalk_closed (e : Element) (outer : List Element) :
    openWalk (e :: outer) ++ [.closed e.name] = openWalk outer ++ e.walk := by
  simp only [openWalk, Element.walk, List.append_assoc, List.cons_append]

theorem covers_growing {ts : List Token} {stack : List Element} (h : Covers ts ⟨stack, none⟩) :
    ∃ before inside, ts = before ++ inside ∧ (∀ t ∈ before, t.isTag = false) ∧
      joinTexts (inside.flatMap events) = openWalk stack ∧
      ∀ e ∈ stack, e.content.Separated := by
  cases h with
  | before hb => exact ⟨ts, [], (List.append_nil ts).symm, hb, rfl, List.forall_mem_nil _⟩
  | inside hb hj hsep => exact ⟨_, _, rfl, hb, hj, hsep⟩

theorem covers_attach {before inside : List Token} {stack : List Element} {e : Element}
    {q : Progress} (hb : ∀ t ∈ before, t.isTag = false)
    (hj : joinTexts (inside.flatMap events) = openWalk stack ++ e.walk)
    (hsep : ∀ d ∈ stack, d.content.Separated) (he : e.content.Separated)
    (hq : attach ⟨stack, none⟩ e = .ok q) : Covers (before ++ inside) q := by
  cases stack with
  | nil =>
      obtain rfl := Except.ok.inj hq
      have h : Covers (before ++ inside ++ []) ⟨[], some e⟩ :=
        .after (by rwa [List.append_nil]) hj he
      rwa [List.append_nil] at h
  | cons parent outer =>
      obtain rfl := Except.ok.inj hq
      refine .inside hb (hj.trans (openWalk_addElement parent outer e).symm) ?_
      intro d hd
      rcases List.mem_cons.1 hd with rfl | hd
      · exact (hsep parent List.mem_cons_self).addElement he
      · exact hsep d (List.mem_cons_of_mem _ hd)

theorem covers_attach_second {ts : List Token} {stack : List Element} {e root : Element}
    {q : Progress} (hq : attach ⟨stack, some root⟩ e = .ok q) : Covers ts q := by
  cases stack with
  | nil => cases hq
  | cons parent outer =>
      obtain rfl := Except.ok.inj hq
      exact .second _ _ _ _

theorem forall_mem_snoc {ts : List Token} {t : Token} (h : ∀ u ∈ ts, u.isTag = false)
    (ht : t.isTag = false) : ∀ u ∈ ts ++ [t], u.isTag = false := by
  intro u hu
  rcases List.mem_append.1 hu with hu | hu
  · exact h u hu
  · rwa [List.mem_singleton.1 hu]

theorem covers_text {ts : List Token} {p : Progress} (h : Covers ts p) (t : Text) :
    Covers (ts ++ [.text t]) (p.addText t) := by
  cases h with
  | before hb => exact .before (forall_mem_snoc hb rfl)
  | inside hb hj hsep =>
      rw [List.append_assoc]
      refine .inside hb ?_ ?_
      · rw [List.flatMap_append, ← joinTexts_joinTexts_append, hj]
        exact openWalk_addText hsep t
      · intro d hd
        rcases List.mem_cons.1 hd with rfl | hd
        · exact (hsep _ List.mem_cons_self).addText t
        · exact hsep d (List.mem_cons_of_mem _ hd)
  | after hb hj hsep =>
      rw [List.append_assoc]
      refine .after ?_ hj hsep
      rw [← List.append_assoc]
      exact forall_mem_snoc hb rfl
  | second => exact .second _ _ _ _

theorem covers_aside {ts : List Token} {p : Progress} (h : Covers ts p) :
    Covers (ts ++ [.aside]) p := by
  cases h with
  | before hb => exact .before (forall_mem_snoc hb rfl)
  | inside hb hj hsep =>
      rw [List.append_assoc]
      refine .inside hb ?_ hsep
      rwa [List.flatMap_append, List.flatMap_singleton, events, List.append_nil]
  | after hb hj hsep =>
      rw [List.append_assoc]
      refine .after ?_ hj hsep
      rw [← List.append_assoc]
      exact forall_mem_snoc hb rfl
  | second => exact .second _ _ _ _

theorem covers_opened {ts : List Token} {p : Progress} (h : Covers ts p) (name : Text)
    (attributes : List Attribute) :
    Covers (ts ++ [.opened name attributes]) (p.push ⟨name, attributes, .nil⟩) := by
  obtain ⟨stack, root⟩ := p
  cases root with
  | some root => exact .second _ _ _ _
  | none =>
      obtain ⟨before, inside, rfl, hb, hj, hsep⟩ := covers_growing h
      rw [List.append_assoc]
      refine .inside hb ?_ ?_
      · exact joinTexts_read_tag hj rfl
      · exact List.forall_mem_cons.2 ⟨trivial, hsep⟩

theorem covers_empty {ts : List Token} {p q : Progress} (h : Covers ts p) {name : Text}
    {attributes : List Attribute} (hq : p.attach ⟨name, attributes, .nil⟩ = .ok q) :
    Covers (ts ++ [.empty name attributes]) q := by
  obtain ⟨stack, root⟩ := p
  cases root with
  | some root => exact covers_attach_second hq
  | none =>
      obtain ⟨before, inside, rfl, hb, hj, hsep⟩ := covers_growing h
      rw [List.append_assoc]
      refine covers_attach hb ?_ hsep ?_ hq
      · exact joinTexts_read_tag hj rfl
      · exact trivial

theorem covers_closed {ts : List Token} {p q : Progress} (h : Covers ts p) {name : Text}
    (hq : p.close name = .ok q) : Covers (ts ++ [.closed name]) q := by
  obtain ⟨stack, root⟩ := p
  cases stack with
  | nil => cases hq
  | cons e outer =>
      by_cases hn : e.name = name
      · subst hn
        simp only [close, if_pos] at hq
        cases root with
        | some root => exact covers_attach_second hq
        | none =>
            obtain ⟨before, inside, rfl, hb, hj, hsep⟩ := covers_growing h
            obtain ⟨he, hsep⟩ := List.forall_mem_cons.1 hsep
            rw [List.append_assoc]
            refine covers_attach hb ?_ hsep he hq
            rw [← openWalk_closed]
            exact joinTexts_read_tag hj rfl
      · simp only [close, if_neg hn] at hq
        cases hq

theorem covers_step {ts : List Token} {p q : Progress} {t : Token} (h : Covers ts p)
    (hs : p.step t = .ok q) : Covers (ts ++ [t]) q := by
  cases t with
  | text t =>
      obtain rfl := Except.ok.inj hs
      exact covers_text h t
  | aside =>
      obtain rfl := Except.ok.inj hs
      exact covers_aside h
  | opened name attributes =>
      obtain rfl := Except.ok.inj hs
      exact covers_opened h name attributes
  | empty name attributes => exact covers_empty h hs
  | closed name => exact covers_closed h hs

theorem covers_run {before : List Token} {p q : Progress} (h : Covers before p) (ts : List Token)
    (hr : p.run ts = .ok q) : Covers (before ++ ts) q := by
  induction ts generalizing before p with
  | nil =>
      obtain rfl := Except.ok.inj hr
      rwa [List.append_nil]
  | cons t ts ih =>
      rw [run] at hr
      cases hs : p.step t with
      | error e => rw [hs] at hr; cases hr
      | ok r =>
          rw [hs] at hr
          have hc := ih (covers_step h hs) hr
          rwa [List.append_assoc] at hc

end Progress

section Parse

open Progress

theorem begun?_events (ts : List Token) :
    (ts.flatMap events).filterMap begun? = ts.filterMap begun? := by
  induction ts with
  | nil => rfl
  | cons t ts ih =>
      rw [List.flatMap_cons, List.filterMap_append, ih]
      cases t <;> rfl

theorem textValue_events (ts : List Token) :
    (ts.flatMap events).flatMap textValue = ts.flatMap textValue := by
  induction ts with
  | nil => rfl
  | cons t ts ih =>
      rw [List.flatMap_cons, List.flatMap_append, ih]
      cases t <;> simp [events, textValue]

theorem begun?_of_no_tag {ts : List Token} (h : ∀ t ∈ ts, t.isTag = false) :
    ts.filterMap begun? = [] := by
  refine List.filterMap_eq_nil_iff.2 fun t ht => ?_
  have := h t ht
  cases t with
  | text _ | aside | closed _ => rfl
  | opened _ _ | empty _ _ => cases this

theorem mirrors_of_covers {ts : List Token} {root : Element} (h : Covers ts ⟨[], some root⟩) :
    Mirrors root ts := by
  cases h with
  | @after before inside after root hb hj hsep =>
      have htags : (before ++ inside ++ after).filterMap begun? = root.walk.filterMap begun? := by
        have hbefore := begun?_of_no_tag fun t ht => hb t (List.mem_append_left _ ht)
        have hafter := begun?_of_no_tag fun t ht => hb t (List.mem_append_right _ ht)
        rw [List.filterMap_append, List.filterMap_append, hbefore, hafter, ← hj,
          begun?_joinTexts, begun?_events, List.nil_append, List.append_nil]
      refine ⟨⟨before, inside, after, rfl, hb, hj.symm, ?_⟩, hsep, ?_, ?_⟩
      · rw [← root.text_alone, Content.flatText_eq, Element.walk_alone, ← hj,
          textValue_joinTexts, textValue_events]
      · intro name
        rw [← root.named_alone, Content.begun?_named, Element.walk_alone, htags]
      · intro name
        have h := root.alone.named_starts name
        rwa [root.named_alone] at h

theorem parse_mirrors {s : Text} {root : Element} (h : parse s = .ok root) :
    Mirrors root (tokens (withoutByteOrderMark s)).1 := by
  simp only [parse, build] at h
  split at h
  · cases h
  · cases h
  · next p hr _ =>
      have hc := covers_run (.before (List.forall_mem_nil _)) _ hr
      obtain ⟨stack, last⟩ := p
      cases stack with
      | cons e outer => cases h
      | nil =>
          cases last with
          | none => cases h
          | some last =>
              obtain rfl := Except.ok.inj h
              exact mirrors_of_covers hc

/-- Text pieces around a comment and a nested element of the same name. -/
theorem parse_mirrors_mixed_content :
    let s : Text := " <a k='1'>x&lt;<!-- - --><![CDATA[y]]><a/>z</a>\n"
    let root : Element :=
      ⟨"a", [⟨"k", "1"⟩], .text "x<y" (.element "a" [] .nil (.text "z" .nil))⟩
    parse s = .ok root ∧ Mirrors root (tokens (withoutByteOrderMark s)).1 := by
  intro s root
  have h : parse s = .ok root := by decide +kernel
  exact ⟨h, parse_mirrors h⟩

end Parse
end ApiDocs.Xml
