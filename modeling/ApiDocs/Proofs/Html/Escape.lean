import ApiDocs.Html.Escape

namespace ApiDocs.Html

def references : List Text := ["&amp;", "&lt;", "&gt;", "&quot;", "&#8203;"]

/-- How a character is written: the four that mean something as references, the others as they
are. -/
inductive Escapes : Char → Text → Prop
  | ampersand : Escapes '&' "&amp;"
  | opening : Escapes '<' "&lt;"
  | closing : Escapes '>' "&gt;"
  | quote : Escapes '"' "&quot;"
  | plain {c} : c ≠ '&' → c ≠ '<' → c ≠ '>' → c ≠ '"' → Escapes c [c]

theorem escapes_escapeChar (c : Char) : Escapes c (escapeChar c) := by
  unfold escapeChar
  by_cases hamp : c = '&'
  · rw [if_pos hamp, hamp]
    exact .ampersand
  · by_cases hopen : c = '<'
    · rw [if_neg hamp, if_pos hopen, hopen]
      exact .opening
    · by_cases hclose : c = '>'
      · rw [if_neg hamp, if_neg hopen, if_pos hclose, hclose]
        exact .closing
      · by_cases hquote : c = '"'
        · rw [if_neg hamp, if_neg hopen, if_neg hclose, if_pos hquote, hquote]
          exact .quote
        · rw [if_neg hamp, if_neg hopen, if_neg hclose, if_neg hquote]
          exact .plain hamp hopen hclose hquote

theorem Escapes.clean {c : Char} {s : Text} (h : Escapes c s) : '<' ∉ s ∧ '>' ∉ s ∧ '"' ∉ s := by
  cases h with
  | plain hamp hopen hclose hquote =>
      simp only [List.mem_singleton]
      exact ⟨hopen.symm, hclose.symm, hquote.symm⟩
  | _ => decide

theorem Escapes.reference_or_plain {c : Char} {s : Text} (h : Escapes c s) :
    s ∈ references ∨ s = [c] ∧ c ≠ '&' := by
  cases h with
  | plain hamp => exact .inr ⟨rfl, hamp⟩
  | _ => exact .inl (by decide)

theorem escape_clean (s : Text) {d : Char} (h : d ∈ escape s) : d ≠ '<' ∧ d ≠ '>' ∧ d ≠ '"' := by
  obtain ⟨c, -, hd⟩ := List.mem_flatMap.1 h
  obtain ⟨hopen, hclose, hquote⟩ := (escapes_escapeChar c).clean
  exact ⟨fun he => hopen (he ▸ hd), fun he => hclose (he ▸ hd), fun he => hquote (he ▸ hd)⟩

/-- Read from the left, each reference stands for its character. -/
def unescape : Text → Text
  | '&' :: 'a' :: 'm' :: 'p' :: ';' :: s => '&' :: unescape s
  | '&' :: 'l' :: 't' :: ';' :: s => '<' :: unescape s
  | '&' :: 'g' :: 't' :: ';' :: s => '>' :: unescape s
  | '&' :: 'q' :: 'u' :: 'o' :: 't' :: ';' :: s => '"' :: unescape s
  | c :: s => c :: unescape s
  | [] => []

theorem unescape_cons {c : Char} (h : c ≠ '&') (s : Text) : unescape (c :: s) = c :: unescape s := by
  rw [unescape]
  all_goals simp [h]

theorem Escapes.unescape_append {c : Char} {s : Text} (h : Escapes c s) (t : Text) :
    unescape (s ++ t) = c :: unescape t := by
  cases h with
  | plain hamp => exact unescape_cons hamp t
  | _ => rfl

theorem escape_append (s t : Text) : escape (s ++ t) = escape s ++ escape t := List.flatMap_append

theorem unescape_append (s t : Text) : unescape (escape s ++ t) = s ++ unescape t := by
  induction s with
  | nil => rfl
  | cons c s ih =>
      rw [escape, List.flatMap_cons, List.append_assoc, (escapes_escapeChar c).unescape_append,
        ← escape, ih, List.cons_append]

theorem unescape_escape (s : Text) : unescape (escape s) = s := by
  have h := unescape_append s []
  rwa [List.append_nil, unescape, List.append_nil] at h

theorem escape_inj {s t : Text} (h : escape s = escape t) : s = t := by
  rw [← unescape_escape s, h, unescape_escape]

end ApiDocs.Html
