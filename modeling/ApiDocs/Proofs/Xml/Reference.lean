import ApiDocs.Proofs.Text.Digits
import ApiDocs.Proofs.Xml.Reading

namespace ApiDocs.Xml.Reference

section Grammar

inductive Predefined : Text → Char → Prop
  | lt : Predefined "lt" '<'
  | gt : Predefined "gt" '>'
  | amp : Predefined "amp" '&'
  | apos : Predefined "apos" '\''
  | quot : Predefined "quot" '"'

/-- The number of a character in decimal digits, or behind an `x` in hexadecimal ones, with `sign` in
front of the digits. -/
inductive Numbered (sign : Text) : Text → Char → Prop
  | decimal {c digits} : Numeral.Denotes 10 digits c.toNat →
      Numbered sign ('#' :: (sign ++ digits)) c
  | hexadecimal {c mark digits} : mark = 'x' ∨ mark = 'X' → Numeral.Denotes 16 digits c.toNat →
      Numbered sign ('#' :: mark :: (sign ++ digits)) c

def Names (name : Text) (c : Char) : Prop := Predefined name c ∨ Numbered [] name c

def FollowsGrammar (name : Text) : Prop :=
  (∀ c, inContent name = [c] ↔ Names name c) ∧
    ((∀ c, ¬ Names name c) → inContent name = "&" ++ name ++ ";")

end Grammar

section Numbers

variable {base n : Nat} {c d : Char} {s name sign : Text}

theorem digit_not_mark (h : Numeral.digit? base c ≠ none) : c ∉ (";&<\"'xX+-" : Text) := by
  intro hc
  simp only [String.reduceToList, List.mem_cons, List.not_mem_nil, or_false] at hc
  rcases hc with rfl | rfl | rfl | rfl | rfl | rfl | rfl | rfl | rfl <;> exact h rfl

theorem not_denotes_cons (h : d ∈ (";&<\"'xX+-" : Text)) : ¬ Numeral.Denotes base (d :: s) n :=
  fun hs => digit_not_mark (hs.digits d List.mem_cons_self) h

theorem unsigned_of_ne (h : ∀ t, s ≠ '+' :: t) : unsigned base s = Numeral.read base s := by
  unfold unsigned
  split
  · next t => exact absurd rfl (h t)
  · rfl

theorem toNat_lt_bound (c : Char) : c.toNat < Numeral.bound := c.val.toNat_lt

theorem read_toNat_iff : Numeral.read base s = .ok c.toNat ↔ Numeral.Denotes base s c.toNat := by
  rw [Numeral.read_eq_ok_iff, and_iff_left (toNat_lt_bound c)]

theorem unsigned_toNat_iff : unsigned base s = .ok c.toNat ↔
    ∃ sign digits, (sign = [] ∨ sign = ['+']) ∧ s = sign ++ digits ∧
      Numeral.Denotes base digits c.toNat := by
  constructor
  · intro h
    by_cases hplus : ∃ t, s = '+' :: t
    · obtain ⟨t, rfl⟩ := hplus
      exact ⟨['+'], t, .inr rfl, rfl, read_toNat_iff.1 h⟩
    · rw [unsigned_of_ne (not_exists.1 hplus), read_toNat_iff] at h
      exact ⟨[], s, .inl rfl, rfl, h⟩
  · rintro ⟨sign, digits, rfl | rfl, rfl, h⟩
    · refine (unsigned_of_ne ?_).trans (read_toNat_iff.2 h)
      rintro t rfl
      exact not_denotes_cons (by decide) h
    · exact read_toNat_iff.2 h

theorem contentNumber_of_unsigned (h : unsigned 10 s = .ok n) : contentNumber s = .ok n := by
  unfold contentNumber
  split
  · next t =>
      have hx : unsigned 10 ('x' :: t) = .error .badDigit := rfl
      rw [hx] at h
      cases h
  · next t =>
      have hX : unsigned 10 ('X' :: t) = .error .badDigit := rfl
      rw [hX] at h
      cases h
  · exact h

theorem contentNumber_toNat_iff : contentNumber s = .ok c.toNat ↔
    ∃ sign, (sign = [] ∨ sign = ['+']) ∧ Numbered sign ('#' :: s) c := by
  constructor
  · intro h
    unfold contentNumber at h
    split at h
    · obtain ⟨sign, digits, hsign, rfl, hd⟩ := unsigned_toNat_iff.1 h
      exact ⟨sign, hsign, .hexadecimal (.inl rfl) hd⟩
    · obtain ⟨sign, digits, hsign, rfl, hd⟩ := unsigned_toNat_iff.1 h
      exact ⟨sign, hsign, .hexadecimal (.inr rfl) hd⟩
    · obtain ⟨sign, digits, hsign, rfl, hd⟩ := unsigned_toNat_iff.1 h
      exact ⟨sign, hsign, .decimal hd⟩
  · rintro ⟨sign, hsign, h⟩
    cases h with
    | decimal hd =>
        exact contentNumber_of_unsigned (unsigned_toNat_iff.2 ⟨sign, _, hsign, rfl, hd⟩)
    | hexadecimal hmark hd =>
        rcases hmark with rfl | rfl <;> exact unsigned_toNat_iff.2 ⟨sign, _, hsign, rfl, hd⟩

end Numbers

section Names

variable {c d : Char} {s name sign : Text}

theorem predefined?_eq_some_iff : predefined? name = some c ↔ Predefined name c := by
  constructor
  · intro h
    unfold predefined? at h
    split_ifs at h with hlt hgt hamp hapos hquot <;> cases h <;> subst_vars <;> constructor
  · rintro ⟨⟩ <;> rfl

theorem predefined?_number (s : Text) : predefined? ('#' :: s) = none := by simp [predefined?]

theorem names_number_iff : Names ('#' :: s) c ↔ Numbered [] ('#' :: s) c := or_iff_right nofun

theorem Numbered.exists_cons (h : Numbered sign name c) : ∃ s, name = '#' :: s := by
  cases h <;> exact ⟨_, rfl⟩

theorem contentChar?_number_iff :
    contentChar? ('#' :: s) = some c ↔ contentNumber s = .ok c.toNat := by
  rw [contentChar?, predefined?_number]
  cases contentNumber s with
  | error fault => exact iff_of_false nofun nofun
  | ok n =>
      rw [Except.ok.injEq]
      exact CodePoint.toChar?_eq_some_iff

theorem contentChar?_of_ne (h : ∀ s, name ≠ '#' :: s) : contentChar? name = predefined? name := by
  unfold contentChar?
  split
  · next hc => exact hc.symm
  · next hnone =>
      split
      · next s => exact absurd rfl (h s)
      · exact hnone.symm

/-- What a reference stands for in content: a plus sign is all that goes beyond the grammar. -/
theorem contentChar?_eq_some_iff :
    contentChar? name = some c ↔ Names name c ∨ Numbered ['+'] name c := by
  by_cases hnumber : ∃ s, name = '#' :: s
  · obtain ⟨s, rfl⟩ := hnumber
    rw [contentChar?_number_iff, contentNumber_toNat_iff, names_number_iff]
    simp only [or_and_right, exists_or, exists_eq_left]
  · have hsigned (sign : Text) : ¬ Numbered sign name c := fun h => hnumber h.exists_cons
    rw [contentChar?_of_ne (not_exists.1 hnumber), predefined?_eq_some_iff, Names,
      or_iff_left (hsigned _), or_iff_left (hsigned _)]

end Names

section Content

variable {c : Char} {name : Text}

theorem written_ne_char (name : Text) (c : Char) : ("&" ++ name ++ ";" : Text) ≠ [c] := by
  intro h
  have hlength := congrArg List.length h
  simp at hlength

theorem inContent_of_some (h : contentChar? name = some c) : inContent name = [c] := by
  rw [inContent, h]

theorem inContent_of_none (h : contentChar? name = none) : inContent name = "&" ++ name ++ ";" := by
  rw [inContent, h]

theorem inContent_eq_char_iff : inContent name = [c] ↔ contentChar? name = some c := by
  cases h : contentChar? name with
  | some d => rw [inContent_of_some h, List.cons.injEq, and_iff_left rfl, Option.some.injEq]
  | none =>
      rw [inContent_of_none h]
      exact iff_of_false (written_ne_char name c) nofun

theorem Names.inContent_eq (h : Names name c) : inContent name = [c] :=
  inContent_of_some (contentChar?_eq_some_iff.2 (.inl h))

theorem inContent_eq_written_iff :
    inContent name = "&" ++ name ++ ";" ↔ ∀ c, contentChar? name ≠ some c := by
  cases h : contentChar? name with
  | some d =>
      rw [inContent_of_some h]
      exact iff_of_false (written_ne_char name d).symm fun hnone => hnone d rfl
  | none =>
      rw [inContent_of_none h]
      exact iff_of_true rfl nofun

/-- A sign is no digit and announces none, so at most one of both readings fits. -/
theorem not_names_of_plus (h : Numbered ['+'] name c) (d : Char) : ¬ Names name d := by
  cases h with
  | decimal _ =>
      rw [names_number_iff]
      rintro (hd | ⟨hmark, -⟩)
      · exact not_denotes_cons (by decide) hd
      · exact absurd hmark (by decide)
  | hexadecimal hmark _ =>
      rw [names_number_iff]
      rintro (hd | ⟨-, hd⟩)
      · rcases hmark with rfl | rfl <;> exact not_denotes_cons (by decide) hd
      · exact not_denotes_cons (by decide) hd

theorem followsGrammar_iff : FollowsGrammar name ↔ ∀ c, ¬ Numbered ['+'] name c := by
  constructor
  · intro h c hplus
    have hc : inContent name = [c] :=
      inContent_eq_char_iff.2 (contentChar?_eq_some_iff.2 (.inr hplus))
    exact not_names_of_plus hplus c ((h.1 c).1 hc)
  · intro h
    have hchar (c : Char) : contentChar? name = some c ↔ Names name c := by
      rw [contentChar?_eq_some_iff, or_iff_left (h c)]
    refine ⟨fun c => inContent_eq_char_iff.trans (hchar c), fun hnone => ?_⟩
    exact inContent_eq_written_iff.2 fun c hc => hnone c ((hchar c).1 hc)

/-- A reference in content is decoded as the grammar says, unless a plus sign stands in front of its
digits. Such a reference is decoded as well, as if the sign were not there, and all that is neither
stays as written. -/
theorem decoded_iff (name : Text) :
    (FollowsGrammar name ↔ ∀ c, ¬ Numbered ['+'] name c) ∧
    (∀ c, inContent name = [c] ↔ Names name c ∨ Numbered ['+'] name c) ∧
    (inContent name = "&" ++ name ++ ";" ↔ ∀ c, ¬ (Names name c ∨ Numbered ['+'] name c)) ∧
    (∀ c d, Numeral.digit? 10 c = some d ↔ d < 10 ∧ c = d.digitChar) ∧
    (∀ c d, Numeral.digit? 16 c = some d ↔
      d < 16 ∧ (c = d.digitChar ∨ c = d.digitChar.toUpper)) ∧
    ((∀ c ∈ name, Token.isReferenceChar c = true) → ∀ (p : Progress) (rest : Text),
      p.read ('&' :: (name ++ ';' :: rest)) = (p.addText (inContent name)).read rest) := by
  refine ⟨followsGrammar_iff, fun c => ?_, ?_, fun c d => Numeral.digit?_decimal_iff,
    fun c d => Numeral.digit?_eq_some_iff (by decide), fun h p rest => read_reference h p rest⟩
  · rw [inContent_eq_char_iff, contentChar?_eq_some_iff]
  · rw [inContent_eq_written_iff]
    exact forall_congr' fun c => not_congr contentChar?_eq_some_iff

/-- Leading zeros and the case of digits do not matter. -/
theorem decoded_iff_long_numeral :
    let name : Text := "#x0000000001f60A"
    let p : Progress := ⟨[⟨"s", [], .text "a" .nil⟩], none⟩
    (∀ c ∈ name, Token.isReferenceChar c = true) ∧ Names name '😊' ∧ inContent name = ['😊'] ∧
      FollowsGrammar name ∧
      p.read ('&' :: (name ++ ';' :: "</s>")) = .ok ⟨"s", [], .text "a😊" .nil⟩ := by
  intro name p
  have hchars : ∀ c ∈ name, Token.isReferenceChar c = true := List.all_eq_true.1 (by decide)
  have hdigits : Numeral.Denotes 16 "0000000001f60A" '😊'.toNat :=
    read_toNat_iff.1 (by decide)
  have hnames : Names name '😊' := .inr (.hexadecimal (.inl rfl) hdigits)
  have hcontent := ((decoded_iff name).2.1 '😊').2 (.inl hnames)
  have hfollows : FollowsGrammar name :=
    (decoded_iff name).1.2 fun c hplus => not_names_of_plus hplus _ hnames
  have hread := (decoded_iff name).2.2.2.2.2 hchars p "</s>"
  refine ⟨hchars, hnames, hcontent, hfollows, hread.trans ?_⟩
  rw [hcontent]
  decide +kernel

/-- The grammar has no sign in front of digits. Content gives the letter all the same, where an
attribute value refuses the sign. -/
theorem decoded_behind_plus :
    ¬ FollowsGrammar "#+65" ∧ (∀ c, ¬ Names "#+65" c) ∧
      parse "<s>&#+65;</s>" = .ok ⟨"s", [], .text "A" .nil⟩ ∧
      value "&#+65;" = .error (.number .sign) := by
  have hplus : Numbered ['+'] "#+65" 'A' := .decimal (read_toNat_iff.1 (by decide))
  refine ⟨fun h => followsGrammar_iff.1 h 'A' hplus, not_names_of_plus hplus, ?_, ?_⟩
  · decide +kernel
  · decide +kernel

end Content
end ApiDocs.Xml.Reference
