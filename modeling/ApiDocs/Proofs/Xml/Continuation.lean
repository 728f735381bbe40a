import ApiDocs.Proofs.Xml.Written

namespace ApiDocs

namespace Text

theorem dropStart?_continued {mark s rest : Text} (h : dropStart? mark s = some rest)
    (more : Text) :
    dropStart? mark (s ++ more) = some (rest ++ more) := by
  rw [dropStart?_eq_some h, List.append_assoc]
  exact dropStart?_append mark (rest ++ more)

/-- The first occurrence of a mark stays the first one. -/
theorem cutAt?_continued {mark s body rest : Text} (h : cutAt? mark s = some (body, rest))
    (more : Text) : cutAt? mark (s ++ more) = some (body, rest ++ more) := by
  induction s generalizing body with
  | nil =>
      have hmark : mark = [] := by
        have := cutAt?_eq_some h
        simp only [List.nil_eq, List.append_eq_nil_iff] at this
        exact this.1.2
      subst hmark
      obtain ⟨rfl, rfl⟩ : body = [] ∧ rest = [] := by simpa [cutAt?, dropStart?, eq_comm] using h
      cases more <;> rfl
  | cons c s ih =>
      rw [cutAt?] at h
      cases hd : dropStart? mark (c :: s) with
      | some r =>
          rw [hd] at h
          cases h
          have hmore := dropStart?_continued hd more
          rw [List.cons_append] at hmore ⊢
          rw [cutAt?, hmore]
      | none =>
          rw [hd] at h
          obtain ⟨⟨b, r⟩, hr, he⟩ := Option.map_eq_some_iff.1 h
          cases he
          -- a mark that begins here ends within `s`, because it occurs further on in `s`
          have hnone : dropStart? mark (c :: (s ++ more)) = none := by
            refine dropStart?_eq_none fun hp => ?_
            have hlength : mark.length ≤ (c :: s).length := by
              rw [cutAt?_eq_some hr]
              simp only [List.length_cons, List.length_append]
              omega
            obtain ⟨t, ht⟩ := List.prefix_of_prefix_length_le hp
              (List.prefix_append (c :: s) more) hlength
            rw [← ht, dropStart?_append] at hd
            cases hd
          rw [List.cons_append, cutAt?, hnone, ih hr]
          rfl

end Text

theorem dropWhile_continued {p : Char → Bool} {s rest : Text} {c : Char}
    (h : s.dropWhile p = c :: rest) (more : Text) :
    (s ++ more).dropWhile p = c :: rest ++ more ∧ (s ++ more).takeWhile p = s.takeWhile p := by
  induction s with
  | nil => cases h
  | cons d s ih =>
      rw [List.cons_append]
      by_cases hd : p d = true
      · rw [List.dropWhile_cons_of_pos hd] at h
        simp only [List.dropWhile_cons_of_pos hd, List.takeWhile_cons_of_pos hd, ih h, and_self]
      · rw [List.dropWhile_cons_of_neg hd] at h
        simp only [List.dropWhile_cons_of_neg hd, List.takeWhile_cons_of_neg hd, ← h,
          List.cons_append, and_self]

namespace Xml

variable {s rest : Text}

theorem cutTag_cons {quote : Option Char} {c : Char} {content : Text}
    (h : cutTag quote (c :: s) = .ok (content, rest)) :
    (quote = none ∧ c = '>' ∧ content = [] ∧ s = rest) ∨
    ∃ q body, content = c :: body ∧ cutTag q s = .ok (body, rest) ∧
      ∀ t, cutTag quote (c :: t) = (cutTag q t).map fun (body, rest) => (c :: body, rest) := by
  have hmap {q : Option Char}
      (hq : (cutTag q s).map (fun (body, rest) => (c :: body, rest)) = .ok (content, rest)) :
      ∃ body, content = c :: body ∧ cutTag q s = .ok (body, rest) := by
    cases hs : cutTag q s with
    | error e => rw [hs] at hq; cases hq
    | ok parts =>
        rw [hs] at hq
        cases hq
        exact ⟨_, rfl, rfl⟩
  cases quote with
  | some q =>
      obtain ⟨body, rfl, hs⟩ := hmap h
      exact .inr ⟨_, body, rfl, hs, fun _ => rfl⟩
  | none =>
      by_cases hc : c = '>'
      · rw [cutTag, if_pos hc] at h
        cases h
        exact .inl ⟨rfl, hc, rfl, rfl⟩
      · rw [cutTag, if_neg hc] at h
        obtain ⟨body, rfl, hs⟩ := hmap h
        exact .inr ⟨_, body, rfl, hs, fun _ => if_neg hc⟩

theorem cutTag_continued {quote : Option Char} {content : Text}
    (h : cutTag quote s = .ok (content, rest)) (more : Text) :
    cutTag quote (s ++ more) = .ok (content, rest ++ more) := by
  induction s generalizing quote content with
  | nil => cases h
  | cons c s ih =>
      rcases cutTag_cons h with ⟨rfl, rfl, rfl, rfl⟩ | ⟨q, body, rfl, hs, hq⟩
      · rfl
      · rw [List.cons_append, hq, ih hs]
        rfl

theorem mem_of_cutTag {quote : Option Char} {content : Text}
    (h : cutTag quote s = .ok (content, rest)) : '>' ∈ s := by
  induction s generalizing quote content with
  | nil => cases h
  | cons c s ih =>
      rcases cutTag_cons h with ⟨-, rfl, -, -⟩ | ⟨q, body, -, hs, -⟩
      · exact List.mem_cons_self
      · exact List.mem_cons_of_mem _ (ih hs)

namespace Doctype

theorem past?_continued {mark : Text} (h : past? mark s = some rest) (more : Text) :
    past? mark (s ++ more) = some (rest ++ more) := by
  obtain ⟨⟨body, r⟩, hr, rfl⟩ := Option.map_eq_some_iff.1 h
  rw [past?, Text.cutAt?_continued hr more]
  rfl

theorem mem_of_past? {mark : Text} (h : past? mark s = some rest) {c : Char} (hc : c ∈ mark) :
    c ∈ s := by
  obtain ⟨⟨body, r⟩, hr, -⟩ := Option.map_eq_some_iff.1 h
  rw [Text.cutAt?_eq_some hr]
  exact List.mem_append_left _ (List.mem_append_right _ hc)

theorem isStart_continued {mark : Text} {c : Char} (hs : c ∈ s) (hmark : c ∉ mark) (more : Text) :
    Text.isStart mark (s ++ more) = Text.isStart mark s := by
  cases hd : Text.dropStart? mark s with
  | some r => rw [Text.isStart, Text.isStart, hd, Text.dropStart?_continued hd more]; rfl
  | none =>
      have hnone : Text.dropStart? mark (s ++ more) = none := by
        refine Text.dropStart?_eq_none fun hp => ?_
        rcases List.prefix_or_prefix_of_prefix hp (List.prefix_append s more) with h | h
        · obtain ⟨t, rfl⟩ := h
          rw [Text.dropStart?_append] at hd
          cases hd
        · exact hmark (h.subset hs)
      rw [Text.isStart, Text.isStart, hd, hnone]

theorem mem_of_pastMarkup? (h : pastMarkup? s = some rest) : '>' ∈ s := by
  unfold pastMarkup? at h
  split_ifs at h
  · exact List.mem_of_mem_drop (mem_of_past? h (by decide))
  · exact List.mem_of_mem_drop (mem_of_past? h (by decide))
  · cases hc : cutTag none s with
    | error e => rw [hc] at h; cases h
    | ok parts => exact mem_of_cutTag hc
  · exact mem_of_past? h (by decide)

theorem drop_continued {mark : Text} (h : Text.isStart mark s = true) (more : Text) :
    (s ++ more).drop mark.length = s.drop mark.length ++ more := by
  obtain ⟨r, hr⟩ := Option.isSome_iff_exists.1 h
  rw [Text.dropStart?_eq_some hr, List.append_assoc, List.drop_left, List.drop_left]

theorem pastMarkup?_continued (h : pastMarkup? s = some rest) (more : Text) :
    pastMarkup? (s ++ more) = some (rest ++ more) := by
  have hmem := mem_of_pastMarkup? h
  have hstart {mark : Text} (hmark : '>' ∉ mark) := isStart_continued hmem hmark more
  have hquoted : quotedDeclarations.any (Text.isStart · (s ++ more)) =
      quotedDeclarations.any (Text.isStart · s) := by
    simp only [quotedDeclarations, List.any_cons, List.any_nil]
    rw [hstart (by decide), hstart (by decide), hstart (by decide)]
  unfold pastMarkup? at h ⊢
  rw [hstart (by decide), hstart (by decide), hquoted]
  split_ifs at h ⊢ with hask hcomment hdeclared
  · rw [show 1 = ("?" : Text).length from rfl] at h ⊢
    rw [drop_continued hask]
    exact past?_continued h more
  · rw [show 3 = ("!--" : Text).length from rfl] at h ⊢
    rw [drop_continued hcomment]
    exact past?_continued h more
  · cases hc : cutTag none s with
    | error e => rw [hc] at h; cases h
    | ok parts =>
        rw [hc] at h
        cases h
        rw [cutTag_continued hc more]
        rfl
  · exact past?_continued h more

theorem pastSubset?_continued (h : pastSubset? s = some rest) (more : Text) :
    pastSubset? (s ++ more) = some (rest ++ more) := by
  fun_induction pastSubset? s with
  | case1 => cases h
  | case2 s =>
      rw [List.cons_append, pastSubset?, if_pos rfl]
      exact past?_continued h more
  | case3 s r hr hne ih =>
      rw [List.cons_append, pastSubset?, if_neg (by decide), if_pos rfl]
      have hmore := pastMarkup?_continued hr more
      split
      · next r' hr' =>
        rw [hmore] at hr'
        cases hr'
        exact ih h
      · next hnone => rw [hmore] at hnone; cases hnone
  | case4 => cases h
  | case5 c s hend hopen ih =>
      rw [List.cons_append, pastSubset?, if_neg hend, if_neg hopen]
      exact ih h

theorem pastOuter?_continued (h : pastOuter? s = some rest) (more : Text) :
    pastOuter? (s ++ more) = some (rest ++ more) := by
  fun_induction pastOuter? s with
  | case1 => cases h
  | case2 s =>
      cases h
      rw [List.cons_append, pastOuter?, if_pos rfl]
  | case3 s =>
      rw [List.cons_append, pastOuter?, if_neg (by decide), if_pos rfl]
      exact pastSubset?_continued h more
  | case4 c s hend hopen hquote r hr ih =>
      rw [List.cons_append, pastOuter?, if_neg hend, if_neg hopen, if_pos hquote]
      have hmore := past?_continued hr more
      split
      · next r' hr' =>
        rw [hmore] at hr'
        cases hr'
        exact ih h
      · next hnone => rw [hmore] at hnone; cases hnone
  | case5 => cases h
  | case6 c s hend hopen hquote ih =>
      rw [List.cons_append, pastOuter?, if_neg hend, if_neg hopen, if_neg hquote]
      exact ih h

theorem exists_of_pastOuter? (h : pastOuter? s = some rest) :
    ∃ c r, s.dropWhile isSpace = c :: r := by
  induction s with
  | nil => rw [pastOuter?] at h; cases h
  | cons c s ih =>
      by_cases hc : isSpace c = true
      · have hplain : c ≠ '>' ∧ c ≠ '[' ∧ isQuote c = false := by
          simp only [isSpace, Bool.or_eq_true, decide_eq_true_eq] at hc
          rcases hc with ((rfl | rfl) | rfl) | rfl <;> decide
        rw [pastOuter?, if_neg hplain.1, if_neg hplain.2.1, if_neg (by simp [hplain.2.2])] at h
        rw [List.dropWhile_cons_of_pos hc]
        exact ih h
      · exact ⟨c, s, List.dropWhile_cons_of_neg hc⟩

theorem read_continued (h : read s = .ok rest) (more : Text) :
    read (s ++ more) = .ok (rest ++ more) := by
  unfold read at h
  split at h
  · next hname =>
    have hlength : 6 ≤ s.length := by
      have := congrArg List.length hname
      simp only [List.length_map, List.length_take] at this
      have hname : ("OCTYPE" : Text).length = 6 := rfl
      omega
    have htake : (s ++ more).take 6 = s.take 6 := List.take_append_of_le_length hlength
    have hdrop : (s ++ more).drop 6 = s.drop 6 ++ more := List.drop_append_of_le_length hlength
    simp only at h
    split at h
    · cases h
    · next r hr =>
      obtain ⟨c, r', hfirst⟩ := exists_of_pastOuter? hr
      have hmore := (dropWhile_continued hfirst more).1
      simp only [hfirst, List.head?_cons] at h
      simp only [read, htake, if_pos hname, hdrop, pastOuter?_continued hr more, hmore,
        List.cons_append, List.head?_cons]
      split_ifs at h ⊢
      cases h
      rfl
  · cases h

end Doctype

namespace Token

variable {t : Token}

theorem nextReference_continued (h : nextReference s = .ok (t, rest)) (more : Text) :
    nextReference (s ++ more) = .ok (t, rest ++ more) := by
  unfold nextReference at h
  split at h
  · next r hr =>
    obtain ⟨hdrop, htake⟩ := dropWhile_continued hr more
    cases h
    rw [nextReference, hdrop, htake]
    rfl
  · cases h

theorem nextTag_continued (h : nextTag s = .ok (t, rest)) (more : Text) :
    nextTag (s ++ more) = .ok (t, rest ++ more) := by
  unfold nextTag at h
  split at h
  · cases h
  · cases h
  · next content r hc =>
    rw [nextTag, cutTag_continued hc more]
    cases htag : ofTag content with
    | error e => rw [htag] at h; cases h
    | ok t' => rw [htag] at h; cases h; simp only [htag]; rfl

theorem cutAfter_continued {start mark body : Text}
    (h : (Text.dropStart? start s).bind (Text.cutAt? mark) = some (body, rest)) (more : Text) :
    (Text.dropStart? start (s ++ more)).bind (Text.cutAt? mark) = some (body, rest ++ more) := by
  obtain ⟨r, hr, hc⟩ := Option.bind_eq_some_iff.1 h
  rw [Text.dropStart?_continued hr more, Option.bind_some, Text.cutAt?_continued hc more]

theorem doctype_continued (h : (Doctype.read s).map (aside, ·) = .ok (t, rest)) (more : Text) :
    (Doctype.read (s ++ more)).map (aside, ·) = .ok (t, rest ++ more) := by
  cases hd : Doctype.read s with
  | error e => rw [hd] at h; cases h
  | ok r =>
      rw [hd] at h
      cases h
      rw [Doctype.read_continued hd more]
      rfl

theorem nextDeclaration_continued (h : nextDeclaration s = .ok (t, rest)) (more : Text) :
    nextDeclaration (s ++ more) = .ok (t, rest ++ more) := by
  unfold nextDeclaration at h
  split at h
  · split at h
    · next hc =>
      cases h
      simp only [List.cons_append, nextDeclaration, cutAfter_continued hc more]
    · cases h
  · split at h
    · next hc =>
      cases h
      simp only [List.cons_append, nextDeclaration, cutAfter_continued hc more]
    · cases h
  · exact doctype_continued h more
  · exact doctype_continued h more
  · cases h

theorem nextInstruction_continued (h : nextInstruction s = .ok (t, rest)) (more : Text) :
    nextInstruction (s ++ more) = .ok (t, rest ++ more) := by
  unfold nextInstruction at h
  split at h
  · cases h
  · next hhead =>
    cases hc : Text.cutAt? "?>" s with
    | none => rw [hc] at h; cases h
    | some parts =>
        rw [hc] at h
        cases h
        have hs : (s ++ more).head? = s.head? := by
          cases s with
          | nil => cases hc
          | cons c s => rfl
        rw [nextInstruction, hs, if_neg hhead, Text.cutAt?_continued hc more]

/-- A token that is no text stays the same, whatever follows it. -/
theorem next_continued {c : Char} (hc : isTextChar c = false) (h : next c s = .ok (t, rest))
    (more : Text) : next c (s ++ more) = .ok (t, rest ++ more) := by
  by_cases href : c = '&'
  · unfold next at h ⊢
    rw [if_pos href] at h ⊢
    exact nextReference_continued h more
  by_cases htag : c = '<'
  · subst htag
    cases s with
    | nil => cases h
    | cons d s =>
        by_cases hmark : d = '!'
        · subst hmark
          exact nextDeclaration_continued h more
        by_cases hask : d = '?'
        · subst hask
          exact nextInstruction_continued h more
        rw [next_tag hmark hask] at h
        rw [List.cons_append, next_tag hmark hask]
        exact nextTag_continued h more
  · simp [isTextChar, href, htag] at hc

end Token
end Xml
end ApiDocs
