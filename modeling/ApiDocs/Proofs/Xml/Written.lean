import ApiDocs.Proofs.Xml.Reference
import ApiDocs.Proofs.Xml.Spelling

namespace ApiDocs.Xml

section References

open Reference Token

def isInert (c : Char) : Bool := isReferenceChar c && !isQuote c

theorem isInert_of_digit {base : Nat} {c : Char} (h : Numeral.digit? base c ≠ none) :
    isInert c = true := by
  have hc := digit_not_mark h
  simp only [String.reduceToList, List.mem_cons, List.not_mem_nil, or_false, not_or] at hc
  simp [isInert, isReferenceChar, isQuote, hc]

theorem valueNumeral_denotes {base : Nat} {c : Char} {s : Text}
    (h : Numeral.Denotes base s c.toNat) : valueNumeral base s = .ok c.toNat := by
  unfold valueNumeral
  split
  · exact absurd h (not_denotes_cons (by decide))
  · exact absurd h (not_denotes_cons (by decide))
  · rw [read_toNat_iff.2 h]

theorem valueNumber_decimal {c : Char} {s : Text} (h : Numeral.Denotes 10 s c.toNat) :
    valueNumber s = .ok c.toNat := by
  unfold valueNumber
  split
  · exact absurd h (not_denotes_cons (by decide))
  · exact valueNumeral_denotes h

theorem inValue_number {c : Char} {s : Text} (h : valueNumber s = .ok c.toNat) (hc : c ≠ '\x00')
    (start : Nat) : inValue start ('#' :: s) = .ok c := by
  have h0 : c.toNat ≠ 0 := fun h => hc (Char.toNat_inj.1 h)
  simp [inValue, valueScalar, h, h0, CodePoint.toChar?_toNat]

theorem inert_digits {base n : Nat} {s : Text} (h : Numeral.Denotes base s n) :
    ∀ d ∈ s, isInert d = true :=
  fun d hd => isInert_of_digit (h.digits d hd)

/-- Nothing in the name of a character ends a reference, a value or a tag. -/
theorem Reference.Names.inert {name : Text} {c : Char} (h : Names name c) :
    ∀ d ∈ name, isInert d = true := by
  rcases h with hname | hnumber
  · cases hname <;> exact List.all_eq_true.1 (by decide)
  · cases hnumber with
    | decimal hd => exact List.forall_mem_cons.2 ⟨by decide, inert_digits hd⟩
    | hexadecimal hmark hd =>
        refine List.forall_mem_cons.2 ⟨by decide, List.forall_mem_cons.2 ⟨?_, inert_digits hd⟩⟩
        rcases hmark with rfl | rfl <;> decide

theorem inContent_written {c : Char} {r : Text} (h : SpellsChar "xX" c r) :
    ∃ name, r = '&' :: (name ++ [';']) ∧ (∀ d ∈ name, isInert d = true) ∧
      inContent name = [c] := by
  have hnames : ∃ name, r = '&' :: (name ++ [';']) ∧ Names name c := by
    cases h with
    | @named name hn => exact ⟨name, rfl, .inl (predefined?_eq_some_iff.1 hn)⟩
    | @decimal digits hd => exact ⟨'#' :: digits, rfl, .inr (.decimal hd)⟩
    | @hexadecimal mark digits hm hd =>
        exact ⟨'#' :: mark :: digits, rfl, .inr (.hexadecimal (by simpa using hm) hd)⟩
  obtain ⟨name, rfl, hn⟩ := hnames
  exact ⟨name, rfl, hn.inert, hn.inContent_eq⟩

theorem inValue_written {c : Char} {r : Text} (h : SpellsChar "x" c r) (hc : c ≠ '\x00') :
    ∃ name, r = '&' :: (name ++ [';']) ∧ (∀ d ∈ name, isInert d = true) ∧
      ∀ start, inValue start name = .ok c := by
  cases h with
  | @named name hn =>
      refine ⟨name, rfl, Names.inert (.inl (predefined?_eq_some_iff.1 hn)), fun start => ?_⟩
      unfold inValue
      split
      · simp [predefined?_number] at hn
      · rw [hn]
  | @decimal digits hd =>
      refine ⟨'#' :: digits, rfl, Names.inert (.inr (.decimal hd)), ?_⟩
      exact inValue_number (valueNumber_decimal hd) hc
  | @hexadecimal mark digits hm hd =>
      obtain rfl : mark = 'x' := by simpa using hm
      refine ⟨'#' :: 'x' :: digits, rfl, Names.inert (.inr (.hexadecimal (.inl rfl) hd)), ?_⟩
      exact inValue_number (valueNumeral_denotes hd) hc

theorem decodeValue_raw {c : Char} (h : c ≠ '&') (size : Nat) (s : Text) :
    decodeValue size (c :: s) = (decodeValue size s).map (c :: ·) := by
  rw [decodeValue, if_neg h]

theorem decodeValue_reference {name : Text} {c : Char} (h : ∀ d ∈ name, isInert d = true)
    (hc : ∀ start, inValue start name = .ok c) (size : Nat) (s : Text) :
    decodeValue size ('&' :: (name ++ ';' :: s)) = (decodeValue size s).map (c :: ·) := by
  have hname : ∀ d ∈ name, (fun d => decide (d ≠ ';') && decide (d ≠ '&')) d = true := by
    intro d hd
    have := h d hd
    simp only [isInert, isReferenceChar, Bool.and_eq_true] at this
    simpa using this.1.1
  have hdrop : (name ++ ';' :: s).dropWhile (fun d => d ≠ ';' && d ≠ '&') = ';' :: s := by
    rw [List.dropWhile_append_of_pos hname]
    rfl
  have htake : (name ++ ';' :: s).takeWhile (fun d => d ≠ ';' && d ≠ '&') = name := by
    rw [List.takeWhile_append_of_pos hname]
    simp
  rw [decodeValue, if_pos rfl]
  split
  · next he =>
      rw [hdrop] at he
      obtain rfl := (List.cons.inj he).2
      rw [htake, hc]
  · next hno => exact absurd hdrop (hno s)

theorem value_written {quote : Char} (hq : isQuote quote = true) {value v : Text}
    (h : SpellsValue quote value v) : Reference.value v = .ok value ∧ quote ∉ v := by
  have hd : ∀ size, decodeValue size v = .ok value ∧ quote ∉ v := by
    intro size
    induction h with
    | nil => exact ⟨by rw [decodeValue], List.not_mem_nil⟩
    | @raw c value s hamp hne _ ih =>
        refine ⟨by rw [decodeValue_raw hamp, ih.1]; rfl, ?_⟩
        simp [hne.symm, ih.2]
    | @reference c r value s hc hr _ ih =>
        obtain ⟨name, rfl, hinert, hin⟩ := inValue_written hr hc
        constructor
        · have h := decodeValue_reference hinert hin size s
          rw [ih.1] at h
          simpa [Except.map] using h
        · have hname : quote ∉ name := by
            intro hm
            have := hinert quote hm
            simp [isInert, hq] at this
          have hamp : quote ≠ '&' := by rintro rfl; cases hq
          have hsemi : quote ≠ ';' := by rintro rfl; cases hq
          simp [hname, hamp, hsemi, ih.2]
  exact hd _

end References

section Attributes

open Attribute

theorem readFrom_spaces {s : Text} (h : Spaces s) (size : Nat) (earlier : List (Text × Nat)) :
    readFrom size earlier s = .ok [] := by
  have hs : s.dropWhile isSpace = [] := by
    rw [← List.append_nil s, List.dropWhile_append_of_pos h]
    rfl
  rw [readFrom]
  split
  · rfl
  · next he => rw [hs] at he; cases he

theorem readFrom_readOne {size : Nat} {earlier : List (Text × Nat)} {s r rest : Text} {c : Char}
    {a : Attribute} (hs : s.dropWhile isSpace = c :: r)
    (hr : readOne size earlier c r = .ok (a, rest)) :
    readFrom size earlier s =
      (readFrom size ((a.key, position size (c :: r)) :: earlier) rest).map (a :: ·) := by
  rw [readFrom]
  split
  · next he => rw [hs] at he; cases he
  · next he =>
      rw [hs] at he
      cases he
      split
      · next he => rw [hr] at he; cases he
      · next he =>
          rw [hr] at he
          cases he
          rfl

theorem isNameChar_not {c : Char} (h : isNameChar c = true) :
    isSpace c = false ∧ isQuote c = false ∧ c ∉ ("<>/&=!?" : Text) := by
  simp only [isNameChar, Bool.and_eq_true, Bool.not_eq_true', String.reduceToList] at h
  simp_all [isQuote]

theorem isKeyChar_of_name {c : Char} (h : isNameChar c = true) : isKeyChar c = true := by
  have := isNameChar_not h
  simp_all [isKeyChar]

theorem isSpace_of_quote {c : Char} (h : isQuote c = true) : isSpace c = false := by
  simp only [isQuote, Bool.or_eq_true, decide_eq_true_eq] at h
  rcases h with rfl | rfl <;> decide

theorem readValue_written {quote : Char} {value v : Text} (hq : isQuote quote = true)
    (hv : SpellsValue quote value v) (size : Nat) (s : Text) :
    readValue size (quote :: (v ++ quote :: s)) = .ok (value, s) := by
  obtain ⟨hvalue, hquote⟩ := value_written hq hv
  rw [readValue, List.dropWhile_cons_of_neg (by simp [isSpace_of_quote hq])]
  simp only [hq, if_true, Text.cutAt?_char hquote, hvalue]

theorem readOne_written {size : Nat} {earlier : List (Text × Nat)} {quote c : Char}
    {key value v : Text} (hkey : IsName (c :: key)) (hnew : c :: key ∉ earlier.map (·.1))
    (hq : isQuote quote = true) (hv : SpellsValue quote value v) (s : Text) :
    readOne size earlier c (key ++ '=' :: quote :: (v ++ quote :: s)) =
      .ok (⟨c :: key, value⟩, s) := by
  have hchars : ∀ d ∈ key, isKeyChar d = true := fun d hd =>
    isKeyChar_of_name (hkey.chars d (List.mem_cons_of_mem _ hd))
  have hfind : earlier.find? (·.1 = c :: key) = none := by
    rw [List.find?_eq_none]
    rintro ⟨k, p⟩ hp he
    exact hnew (List.mem_map.2 ⟨_, hp, by simpa using he⟩)
  have htake (r : Text) : ('=' :: r).takeWhile isKeyChar = [] := rfl
  have hdrop (r : Text) : (('=' :: r).dropWhile isKeyChar).dropWhile isSpace = '=' :: r := rfl
  simp only [readOne, List.takeWhile_append_of_pos hchars, List.dropWhile_append_of_pos hchars,
    htake, hdrop, List.append_nil, hfind, readValue_written hq hv, if_true]

/-- Written attributes are read back if their keys differ from each other and from those before. -/
theorem readFrom_written {attributes : List Attribute} {a gap : Text}
    (h : SpellsAttributes attributes a) (hgap : Spaces gap)
    (hkeys : ∀ b ∈ attributes, IsName b.key) (hnodup : (attributes.map (·.key)).Nodup)
    (size : Nat) (earlier : List (Text × Nat))
    (hnew : ∀ b ∈ attributes, b.key ∉ earlier.map (·.1)) :
    readFrom size earlier (a ++ gap) = .ok attributes := by
  induction h generalizing earlier with
  | nil => exact readFrom_spaces hgap size earlier
  | @cons gap' quote key value v attributes s _ hspaces hq hv _ ih =>
      obtain ⟨hkey, hothers⟩ := List.forall_mem_cons.1 hkeys
      obtain ⟨hfresh, hdistinct⟩ := List.nodup_cons.1 hnodup
      obtain ⟨hfirst, hrest⟩ := List.forall_mem_cons.1 hnew
      obtain ⟨c, key, rfl⟩ := List.exists_cons_of_ne_nil hkey.ne_nil
      have hc : isSpace c = false := (isNameChar_not (hkey.chars c List.mem_cons_self)).1
      have hs : (gap' ++ (c :: key) ++ "=" ++ quote :: v ++ quote :: s ++ gap).dropWhile isSpace =
          c :: (key ++ '=' :: quote :: (v ++ quote :: (s ++ gap))) := by
        simp only [List.append_assoc, List.dropWhile_append_of_pos hspaces]
        rw [List.cons_append, List.dropWhile_cons_of_neg (by simp [hc])]
        simp
      rw [readFrom_readOne hs (readOne_written hkey hfirst hq hv (s ++ gap)), ih hothers hdistinct]
      · rfl
      · intro b hb
        rw [List.map_cons, List.mem_cons, not_or]
        exact ⟨fun he => hfresh (List.mem_map.2 ⟨b, hb, he⟩), hrest b hb⟩

end Attributes

section Tags

open Token Progress

/-- No tag ends in this text, and none of its quotes is left open. -/
def Sealed (s : Text) : Prop :=
  ∀ rest, cutTag none (s ++ rest) = (cutTag none rest).map fun (content, r) => (s ++ content, r)

theorem Sealed.append {s t : Text} (hs : Sealed s) (ht : Sealed t) : Sealed (s ++ t) := by
  intro rest
  rw [List.append_assoc, hs, ht]
  cases cutTag none rest with
  | error e => rfl
  | ok p => simp [Except.map]

theorem Sealed.cutTag {s : Text} (h : Sealed s) (rest : Text) :
    cutTag none (s ++ '>' :: rest) = .ok (s, rest) := by
  rw [h, Xml.cutTag, if_pos rfl]
  simp [Except.map]

theorem sealed_plain {s : Text} (h : ∀ c ∈ s, c ≠ '>' ∧ isQuote c = false) : Sealed s := by
  intro rest
  induction s with
  | nil =>
      rw [List.nil_append]
      cases cutTag none rest <;> rfl
  | cons c s ih =>
      obtain ⟨⟨hend, hquote⟩, hs⟩ := List.forall_mem_cons.1 h
      rw [List.cons_append, Xml.cutTag, if_neg hend, if_neg (by simp [hquote]), ih hs]
      cases cutTag none rest <;> rfl

theorem sealed_char {c : Char} (hend : c ≠ '>') (hquote : isQuote c = false) : Sealed [c] := by
  refine sealed_plain fun d hd => ?_
  obtain rfl := List.mem_singleton.1 hd
  exact ⟨hend, hquote⟩

theorem cutTag_quoted {quote : Char} {v : Text} (h : quote ∉ v) (rest : Text) :
    cutTag (some quote) (v ++ quote :: rest) =
      (cutTag none rest).map fun (content, r) => (v ++ quote :: content, r) := by
  induction v with
  | nil => rw [List.nil_append, Xml.cutTag, if_pos rfl]; rfl
  | cons c v ih =>
      obtain ⟨hc, hv⟩ := not_or.1 (mt List.mem_cons.2 h)
      rw [List.cons_append, Xml.cutTag, if_neg (Ne.symm hc), ih hv]
      cases cutTag none rest <;> rfl

theorem sealed_quoted {quote : Char} (hq : isQuote quote = true) {v : Text} (h : quote ∉ v) :
    Sealed (quote :: (v ++ [quote])) := by
  intro rest
  have hend : quote ≠ '>' := by rintro rfl; cases hq
  rw [List.cons_append, Xml.cutTag, if_neg hend, if_pos hq, List.append_assoc]
  rw [List.singleton_append, cutTag_quoted h]
  cases cutTag none rest with
  | error e => rfl
  | ok p => simp [Except.map]

theorem sealed_spaces {s : Text} (h : Spaces s) : Sealed s := by
  refine sealed_plain fun c hc => ?_
  have := h c hc
  constructor
  · rintro rfl; cases this
  · cases hq : isQuote c with
    | false => rfl
    | true => rw [isSpace_of_quote hq] at this; cases this

theorem sealed_name {s : Text} (h : IsName s) : Sealed s := by
  refine sealed_plain fun c hc => ?_
  obtain ⟨-, hq, hmarks⟩ := isNameChar_not (h.chars c hc)
  exact ⟨by rintro rfl; exact hmarks (by decide), hq⟩

theorem sealed_attributes {attributes : List Attribute} {a : Text}
    (h : SpellsAttributes attributes a) (hkeys : ∀ b ∈ attributes, IsName b.key) : Sealed a := by
  induction h with
  | nil => exact sealed_plain (List.forall_mem_nil _)
  | @cons gap quote key value v attributes s _ hspaces hq hv _ ih =>
      obtain ⟨hkey, hothers⟩ := List.forall_mem_cons.1 hkeys
      have heq : Sealed ("=" : Text) := sealed_char (by decide) rfl
      have hquoted := sealed_quoted hq (value_written hq hv).2
      have h := (((sealed_spaces hspaces).append (sealed_name hkey)).append heq).append
        (hquoted.append (ih hothers))
      simpa [List.append_assoc] using h

theorem getLast?_append_ne {s t : Text} (hs : s.getLast? ≠ some '/') (ht : t.getLast? ≠ some '/') :
    (s ++ t).getLast? ≠ some '/' := by
  rw [List.getLast?_append]
  cases h : t.getLast? with
  | none => exact hs
  | some c => rw [← h]; simpa [h] using ht

theorem getLast?_spaces {s : Text} (h : Spaces s) : s.getLast? ≠ some '/' := by
  intro hl
  have := h _ (List.mem_of_getLast? hl)
  cases this

theorem getLast?_name {s : Text} (h : IsName s) : s.getLast? ≠ some '/' := by
  intro hl
  have := h.chars _ (List.mem_of_getLast? hl)
  cases this

theorem getLast?_attributes {attributes : List Attribute} {a : Text}
    (h : SpellsAttributes attributes a) : a.getLast? ≠ some '/' := by
  induction h with
  | nil => exact nofun
  | @cons gap quote key value v attributes s _ hspaces hq _ _ ih =>
      have hquote : [quote].getLast? ≠ some '/' := by
        rw [List.getLast?_singleton]
        rintro h
        cases Option.some.inj h
        cases hq
      rw [List.append_cons]
      exact getLast?_append_ne (by rw [List.getLast?_append]; simpa using hquote) ih

theorem attributes_first {attributes : List Attribute} {a gap : Text}
    (h : SpellsAttributes attributes a) (hgap : Spaces gap) {c : Char} {s : Text}
    (hs : a ++ gap = c :: s) : isSpace c = true := by
  cases h with
  | nil =>
      rw [List.nil_append] at hs
      exact hgap c (hs ▸ List.mem_cons_self)
  | @cons gap' quote key value v attributes s' hne hspaces _ _ _ =>
      obtain ⟨d, gap', rfl⟩ := List.exists_cons_of_ne_nil hne
      simp only [List.append_assoc, List.cons_append] at hs
      rw [← (List.cons.inj hs).1]
      exact hspaces d List.mem_cons_self

theorem nameAndAttributes_written {name a gap : Text} {attributes : List Attribute}
    (hname : IsName name) (h : SpellsAttributes attributes a) (hgap : Spaces gap)
    (hkeys : ∀ b ∈ attributes, IsName b.key) (hnodup : (attributes.map (·.key)).Nodup) :
    nameAndAttributes (name ++ (a ++ gap)) = .ok (name, attributes) := by
  have hchars : ∀ c ∈ name, (!isSpace c) = true := fun c hc => by
    rw [(isNameChar_not (hname.chars c hc)).1]
    rfl
  have hstop : (a ++ gap).takeWhile (!isSpace ·) = [] ∧
      (a ++ gap).dropWhile (!isSpace ·) = a ++ gap := by
    cases hs : a ++ gap with
    | nil => exact ⟨rfl, rfl⟩
    | cons c s =>
        have := attributes_first h hgap hs
        exact ⟨List.takeWhile_cons_of_neg (by simp [this]),
          List.dropWhile_cons_of_neg (by simp [this])⟩
  rw [nameAndAttributes, List.takeWhile_append_of_pos hchars, List.dropWhile_append_of_pos hchars,
    hstop.1, hstop.2, readFrom_written h hgap hkeys hnodup _ [] fun _ _ => List.not_mem_nil]
  simp [Except.map]

theorem next_tag {c : Char} {s : Text} (hmark : c ≠ '!') (hask : c ≠ '?') :
    next '<' (c :: s) = nextTag (c :: s) := by
  unfold next
  rw [if_neg (by decide), if_pos rfl]
  split
  · next he => exact absurd (List.cons.inj he).1 hmark
  · next he => exact absurd (List.cons.inj he).1 hask
  · rfl

theorem nextTag_sealed {content : Text} (h : Sealed content) (rest : Text) :
    nextTag (content ++ '>' :: rest) = (ofTag content).map (·, rest) := by
  rw [nextTag, h.cutTag]

theorem IsName.first {name : Text} (h : IsName name) :
    ∃ c s, name = c :: s ∧ c ≠ '!' ∧ c ≠ '?' ∧ c ≠ '/' := by
  obtain ⟨c, s, rfl⟩ := List.exists_cons_of_ne_nil h.ne_nil
  have hc := (isNameChar_not (h.chars c List.mem_cons_self)).2.2
  simp only [String.reduceToList, List.mem_cons, List.not_mem_nil, or_false, not_or] at hc
  exact ⟨c, s, rfl, by tauto⟩

variable {name a gap : Text} {attributes : List Attribute}

theorem next_opened (hname : IsName name) (h : SpellsAttributes attributes a) (hgap : Spaces gap)
    (hkeys : ∀ b ∈ attributes, IsName b.key) (hnodup : (attributes.map (·.key)).Nodup)
    (rest : Text) :
    next '<' (name ++ (a ++ gap) ++ '>' :: rest) = .ok (.opened name attributes, rest) := by
  have hsealed : Sealed (name ++ (a ++ gap)) :=
    (sealed_name hname).append ((sealed_attributes h hkeys).append (sealed_spaces hgap))
  have hlast : (name ++ (a ++ gap)).getLast? ≠ some '/' :=
    getLast?_append_ne (getLast?_name hname)
      (getLast?_append_ne (getLast?_attributes h) (getLast?_spaces hgap))
  have hread := nameAndAttributes_written hname h hgap hkeys hnodup
  obtain ⟨c, s, rfl, hmark, hask, hslash⟩ := hname.first
  have hhead : (c :: s ++ (a ++ gap)).head? ≠ some '/' := by simpa using hslash
  have hnext := nextTag_sealed hsealed rest
  rw [ofTag, if_neg hhead, if_neg hlast, hread] at hnext
  exact (next_tag hmark hask).trans hnext

theorem next_empty (hname : IsName name) (h : SpellsAttributes attributes a) (hgap : Spaces gap)
    (hkeys : ∀ b ∈ attributes, IsName b.key) (hnodup : (attributes.map (·.key)).Nodup)
    (rest : Text) :
    next '<' (name ++ (a ++ gap) ++ '/' :: '>' :: rest) = .ok (.empty name attributes, rest) := by
  have hsealed : Sealed (name ++ (a ++ gap) ++ ['/']) :=
    ((sealed_name hname).append ((sealed_attributes h hkeys).append (sealed_spaces hgap))).append
      (sealed_char (by decide) rfl)
  have hread := nameAndAttributes_written hname h hgap hkeys hnodup
  obtain ⟨c, s, rfl, hmark, hask, hslash⟩ := hname.first
  have hhead : (c :: s ++ (a ++ gap) ++ ['/']).head? ≠ some '/' := by simpa using hslash
  have hnext := nextTag_sealed hsealed rest
  rw [ofTag, if_neg hhead, if_pos List.getLast?_concat, List.dropLast_concat, hread] at hnext
  rw [← List.append_cons] at hnext
  exact (next_tag hmark hask).trans hnext

theorem endName_written (hname : IsName name) (hgap : Spaces gap) : endName (name ++ gap) = name := by
  have hreverse : ∀ c ∈ gap.reverse, isSpace c = true := fun c hc => hgap c (List.mem_reverse.1 hc)
  have hkept : Text.dropEndWhile isSpace (name ++ gap) = name := by
    rw [Text.dropEndWhile, List.reverse_append, List.dropWhile_append_of_pos hreverse]
    cases hr : name.reverse with
    | nil => rw [List.reverse_eq_nil_iff.1 hr]; rfl
    | cons c s =>
        have hc := isNameChar_not (hname.chars c (List.mem_reverse.1 (hr ▸ List.mem_cons_self)))
        rw [List.dropWhile_cons_of_neg (by simp [hc.1]), ← hr, List.reverse_reverse]
  rw [endName, hkept, if_neg hname.ne_nil]

theorem next_closed (hname : IsName name) (hgap : Spaces gap) (rest : Text) :
    next '<' ('/' :: (name ++ gap) ++ '>' :: rest) = .ok (.closed name, rest) := by
  have hsealed : Sealed ('/' :: (name ++ gap)) :=
    (sealed_char (by decide) rfl).append ((sealed_name hname).append (sealed_spaces hgap))
  have htag : ofTag ('/' :: (name ++ gap)) = .ok (.closed name) := by
    rw [ofTag, if_pos List.head?_cons, List.tail_cons, endName_written hname hgap]
  have hnext := nextTag_sealed hsealed rest
  rw [htag] at hnext
  exact (next_tag (by decide) (by decide)).trans hnext

end Tags
end ApiDocs.Xml
