import ApiDocs.Proofs.Text.Clean
import ApiDocs.Proofs.Text.Pieces
import Mathlib.Data.List.DropRight

namespace ApiDocs.Text

/-- The longest runs without a blank, in order: a run ends at a blank or with the text. -/
inductive Runs : Text → List Text → Prop
  | blank {s} : (∀ c ∈ s, isBlank c = true) → Runs s []
  | word {before w rest ws} : (∀ c ∈ before, isBlank c = true) → w ≠ [] →
      (∀ c ∈ w, isBlank c = false) → (∀ c ∈ rest.head?, isBlank c = true) → Runs rest ws →
      Runs (before ++ w ++ rest) (w :: ws)

variable {c : Char} {s t : Text} {ws : List Text}

section Words

theorem words_append_blank (h : isBlank c = true) (s t : Text) :
    words (s ++ c :: t) = words s ++ words t := by
  rw [words, pieces_append_cons h, List.filter_append]
  rfl

theorem words_blanks_append {before : Text} (h : ∀ c ∈ before, isBlank c = true) (s : Text) :
    words (before ++ s) = words s := by
  induction before with
  | nil => rfl
  | cons c before ih =>
      obtain ⟨hc, hbefore⟩ := List.forall_mem_cons.1 h
      rw [List.cons_append, words_blank_cons hc, ih hbefore]

theorem words_of_word {w : Text} (hne : w ≠ []) (h : ∀ c ∈ w, isBlank c = false) :
    words w = [w] := by
  rw [words, pieces_of_forall h]
  simp [hne]

def startsWord (s : Text) : Bool := s.head?.any fun c => !isBlank c

/-- A further character in front begins a word of its own, or else the first word grows. -/
theorem words_cons (hc : isBlank c = false) (s : Text) :
    words (c :: s) = if startsWord s then (words s).modifyHead (c :: ·) else [c] :: words s := by
  cases s with
  | nil => exact words_of_word (List.cons_ne_nil c []) (List.forall_mem_singleton.2 hc)
  | cons d s =>
      cases hd : isBlank d with
      | true =>
          have happend := words_append_blank hd [c] s
          rw [words_of_word (List.cons_ne_nil c []) (List.forall_mem_singleton.2 hc)] at happend
          simpa [startsWord, hd, words_blank_cons hd] using happend
      | false =>
          obtain ⟨part, parts, -, hcons⟩ := pieces_cons_of_neg hd s
          obtain ⟨part', parts', hds, hcons'⟩ := pieces_cons_of_neg hc (d :: s)
          rw [hcons, List.cons.injEq] at hds
          obtain ⟨rfl, rfl⟩ := hds
          simp [words, startsWord, hd, hcons, hcons']

end Words

section Runs

theorem Runs.words_eq (h : Runs s ws) : words s = ws := by
  induction h with
  | blank h => exact words_of_forall_blank h
  | @word before w rest ws hbefore hne hw hrest _ ih =>
      rw [List.append_assoc, words_blanks_append hbefore]
      cases rest with
      | nil => rw [List.append_nil, words_of_word hne hw, ← ih]; rfl
      | cons c rest =>
          have hc := hrest c rfl
          rw [words_append_blank hc, words_of_word hne hw, ← ih, words_blank_cons hc]
          rfl

theorem Runs.first {w rest : Text} (hne : w ≠ []) (hw : ∀ c ∈ w, isBlank c = false)
    (hrest : ∀ c ∈ rest.head?, isBlank c = true) (h : Runs rest ws) : Runs (w ++ rest) (w :: ws) :=
  @Runs.word [] w rest ws (List.forall_mem_nil _) hne hw hrest h

theorem Runs.cons (h : Runs s ws) (c : Char) : ∃ vs, Runs (c :: s) vs := by
  cases hc : isBlank c with
  | true =>
      cases h with
      | blank h => exact ⟨[], .blank (List.forall_mem_cons.2 ⟨hc, h⟩)⟩
      | @word before w rest ws hbefore hne hw hrest h =>
          have hblanks : ∀ d ∈ c :: before, isBlank d = true := List.forall_mem_cons.2 ⟨hc, hbefore⟩
          exact ⟨_, @Runs.word (c :: before) w rest ws hblanks hne hw hrest h⟩
  | false =>
      have halone (hfirst : ∀ d ∈ s.head?, isBlank d = true) : Runs (c :: s) ([c] :: ws) :=
        .first (List.cons_ne_nil c []) (List.forall_mem_singleton.2 hc) hfirst h
      cases h with
      | blank h => exact ⟨_, halone fun d hd => h d (List.mem_of_mem_head? hd)⟩
      | @word before w rest ws hbefore hne hw hrest h =>
          cases before with
          | nil =>
              have hword : ∀ d ∈ c :: w, isBlank d = false := List.forall_mem_cons.2 ⟨hc, hw⟩
              exact ⟨_, .first (List.cons_ne_nil c w) hword hrest h⟩
          | cons d before =>
              refine ⟨_, halone fun d' hd' => ?_⟩
              obtain rfl : d = d' := Option.some.inj hd'
              exact hbefore d List.mem_cons_self

theorem exists_runs (s : Text) : ∃ ws, Runs s ws := by
  induction s with
  | nil => exact ⟨[], .blank (List.forall_mem_nil _)⟩
  | cons c s ih =>
      obtain ⟨ws, h⟩ := ih
      exact h.cons c

theorem runs_iff : Runs s ws ↔ words s = ws := by
  refine ⟨Runs.words_eq, ?_⟩
  rintro rfl
  obtain ⟨ws, h⟩ := exists_runs s
  exact h.words_eq ▸ h

theorem Runs.flatten_eq (h : Runs s ws) : ws.flatten = s.filter fun c => !isBlank c := by
  have hblank {s : Text} (h : ∀ c ∈ s, isBlank c = true) :
      s.filter (fun c => !isBlank c) = [] := by
    refine List.filter_eq_nil_iff.2 fun c hc => ?_
    simp [h c hc]
  induction h with
  | blank h => exact (hblank h).symm
  | @word before w rest ws hbefore _ hw _ _ ih =>
      have hkept : w.filter (fun c => !isBlank c) = w := by
        refine List.filter_eq_self.2 fun c hc => ?_
        simp [hw c hc]
      rw [List.filter_append, List.filter_append, hblank hbefore, hkept, ← ih]
      rfl

theorem flatten_words (s : Text) : (words s).flatten = s.filter fun c => !isBlank c :=
  (runs_iff.2 rfl).flatten_eq

end Runs

section Cleaning

theorem startsWord_squeezeFrom (s : Text) : startsWord (squeezeFrom false s) = startsWord s := by
  cases s with
  | nil => rfl
  | cons c s =>
      cases hc : isBlank c with
      | true => simp [squeezeFrom, startsWord, hc, isBlank_space]
      | false => simp [squeezeFrom, startsWord, hc]

theorem words_squeezeFrom (inRun : Bool) (s : Text) : words (squeezeFrom inRun s) = words s := by
  induction s generalizing inRun with
  | nil => rfl
  | cons c s ih =>
      rw [squeezeFrom]
      cases hc : isBlank c with
      | true =>
          rw [if_pos rfl, words_blank_cons hc]
          cases inRun with
          | true => exact ih true
          | false => exact (words_blank_cons isBlank_space _).trans (ih true)
      | false =>
          rw [if_neg Bool.false_ne_true, words_cons hc, words_cons hc, startsWord_squeezeFrom, ih]

theorem words_dropEndWhile (s : Text) : words (dropEndWhile isBlank s) = words s := by
  induction s using List.reverseRecOn with
  | nil => rfl
  | append_singleton s c ih =>
      have hconcat : dropEndWhile isBlank (s ++ [c]) =
          if isBlank c = true then dropEndWhile isBlank s else s ++ [c] :=
        List.rdropWhile_concat isBlank s c
      rw [hconcat]
      split
      · next hc => rw [ih, words_append_blank hc, words_of_forall_blank (List.forall_mem_nil _),
          List.append_nil]
      · rfl

theorem words_dropWhile (s : Text) : words (s.dropWhile isBlank) = words s := by
  have hall : ∀ c ∈ s.takeWhile isBlank, isBlank c = true := fun _ => List.mem_takeWhile_imp
  rw [← words_blanks_append hall, List.takeWhile_append_dropWhile]

theorem words_clean (s : Text) : words (clean s) = words s := by
  rw [clean, trim, words_dropEndWhile, words_dropWhile, squeeze, words_squeezeFrom]

end Cleaning

section Joining

theorem Clean.ne_nil_of_mem_splitAt (h : Clean s) (hs : s ≠ []) :
    ∀ part ∈ splitAt ' ' s, part ≠ [] := by
  rintro _ hpart rfl
  obtain ⟨front, back, hsplit⟩ := List.append_of_mem hpart
  have hjoin := joinWith_splitAt ' ' s
  rw [hsplit] at hjoin
  cases front with
  | nil =>
      cases back with
      | nil => exact hs hjoin.symm
      | cons second back => exact h.first (hjoin ▸ rfl)
  | cons first front =>
      rw [joinWith_append _ (List.cons_ne_nil first front) (List.cons_ne_nil [] back)] at hjoin
      cases back with
      | nil =>
          apply h.last
          rw [← hjoin, joinWith, List.append_nil, List.getLast?_concat]
      | cons second back =>
          have hdouble : [' ', ' '] <:+: s := by
            rw [← hjoin, joinWith, List.nil_append, List.append_assoc]
            exact ⟨_, joinWith [' '] (second :: back), List.append_assoc _ _ _⟩
          have hchain := h.single.infix hdouble
          simp at hchain

theorem Clean.joinWith_words (h : Clean s) : joinWith [' '] (words s) = s := by
  by_cases hs : s = []
  · rw [hs]
    rfl
  · have hpieces : pieces isBlank s = splitAt ' ' s := by
      refine pieces_congr fun c hc => ?_
      cases hblank : isBlank c with
      | true => rw [h.flat c hc hblank, beq_self_eq_true]
      | false =>
          refine (beq_false_of_ne ?_).symm
          rintro rfl
          exact absurd isBlank_space (Bool.eq_false_iff.1 hblank)
    have hall : words s = splitAt ' ' s := by
      rw [words, hpieces]
      exact List.filter_eq_self.2 fun part hpart =>
        decide_eq_true (h.ne_nil_of_mem_splitAt hs part hpart)
    rw [hall, joinWith_splitAt]

theorem clean_eq_joinWith (s : Text) : clean s = joinWith [' '] (words s) := by
  rw [← words_clean, (clean_clean s).joinWith_words]

theorem words_eq_nil_iff : words s = [] ↔ ∀ c ∈ s, isBlank c = true := by
  refine ⟨fun h => ?_, words_of_forall_blank⟩
  have hnone := flatten_words s
  rw [h] at hnone
  have hall := List.filter_eq_nil_iff.1 hnone.symm
  exact fun c hc => by simpa using hall c hc

theorem clean_eq_nil_iff : clean s = [] ↔ words s = [] := by
  refine ⟨fun h => ?_, fun h => ?_⟩
  · rw [← words_clean, h]
    rfl
  · rw [clean_eq_joinWith, h]
    rfl

theorem words_append_blanks {gap : Text} (hne : gap ≠ []) (h : ∀ c ∈ gap, isBlank c = true)
    (s t : Text) : words (s ++ gap ++ t) = words s ++ words t := by
  obtain ⟨c, gap, rfl⟩ := List.exists_cons_of_ne_nil hne
  obtain ⟨hc, hgap⟩ := List.forall_mem_cons.1 h
  rw [List.append_assoc, List.cons_append, words_append_blank hc, words_blanks_append hgap]

/-- A gap between two texts becomes a space, unless there is nothing on one of its sides. -/
theorem clean_append_blanks {gap : Text} (hne : gap ≠ []) (h : ∀ c ∈ gap, isBlank c = true)
    (s t : Text) :
    clean (s ++ gap ++ t) =
      if clean s ≠ [] ∧ clean t ≠ [] then clean s ++ [' '] ++ clean t else clean s ++ clean t := by
  have hwords := words_append_blanks hne h s t
  rw [clean_eq_joinWith, hwords]
  by_cases hs : clean s = []
  · rw [if_neg fun h => h.1 hs, clean_eq_nil_iff.1 hs, hs, List.nil_append, List.nil_append,
      ← clean_eq_joinWith]
  · by_cases ht : clean t = []
    · rw [if_neg fun h => h.2 ht, clean_eq_nil_iff.1 ht, ht, List.append_nil, List.append_nil,
        ← clean_eq_joinWith]
    · have hs' := mt clean_eq_nil_iff.2 hs
      have ht' := mt clean_eq_nil_iff.2 ht
      rw [if_pos ⟨hs, ht⟩, joinWith_append _ hs' ht', ← clean_eq_joinWith, ← clean_eq_joinWith]

/-- Cleaning takes a text apart into its words, the longest runs without a blank, and joins them with
single spaces. So a clean text stays as it is, no other character than a blank is lost or moved, and
what stands on the two sides of a gap is cleaned by itself. -/
theorem clean_words :
    (∀ s ws, Runs s ws ↔ words s = ws) ∧
    (∀ s, clean s = joinWith [' '] (words s)) ∧
    (∀ s, clean (clean s) = clean s) ∧
    (∀ s, (clean s).filter (fun c => !isBlank c) = s.filter fun c => !isBlank c) ∧
    (∀ s, clean s = [] ↔ ∀ c ∈ s, isBlank c = true) ∧
    ∀ s gap t, gap ≠ [] → (∀ c ∈ gap, isBlank c = true) →
      clean (s ++ gap ++ t) =
        if clean s ≠ [] ∧ clean t ≠ [] then clean s ++ [' '] ++ clean t
        else clean s ++ clean t := by
  refine ⟨fun s ws => runs_iff, clean_eq_joinWith, fun s => ?_, fun s => ?_, fun s => ?_,
    fun s gap t hne h => clean_append_blanks hne h s t⟩
  · rw [clean_eq_joinWith, words_clean, ← clean_eq_joinWith]
  · rw [← flatten_words, ← flatten_words, words_clean]
  · rw [clean_eq_nil_iff, words_eq_nil_iff]

/-- A gap of a line feed and an em space, with further blanks on both sides of it. -/
theorem clean_words_gap :
    (∀ c ∈ (['\n', '\u2003'] : Text), isBlank c = true) ∧
      clean ("\u00A0one\ttwo " ++ ['\n', '\u2003'] ++ "  three ") = "one two three" := by
  have hgap : ∀ c ∈ (['\n', '\u2003'] : Text), isBlank c = true :=
    List.forall_mem_cons.2 ⟨by decide, List.forall_mem_singleton.2 (by decide)⟩
  refine ⟨hgap, ?_⟩
  rw [clean_words.2.2.2.2.2 _ _ _ (List.cons_ne_nil _ _) hgap]
  decide +kernel

end Joining
end ApiDocs.Text
