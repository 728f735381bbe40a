import ApiDocs.Proofs.Namespace.Beginnings
import Mathlib.Data.List.Basic
import Mathlib.Tactic.Tauto

namespace ApiDocs.Forest

def paths (above : List Text) : Forest → List (List Text)
  | nil => []
  | node name _ children siblings =>
      (above ++ [name]) :: children.paths (above ++ [name]) ++ siblings.paths above

def names : Forest → List Text
  | nil => []
  | node name _ _ siblings => name :: siblings.names

/-- The ways that go to the nodes of a single branch. -/
def ways (above : List Text) : List Text → List (List Text)
  | [] => []
  | part :: parts => (above ++ [part]) :: ways (above ++ [part]) parts

/-- Of two nodes side by side the first one has the lower rank. -/
def Ranked (rank : List Text → Nat) (above : List Text) : Forest → Prop
  | nil => True
  | node name _ children siblings =>
      (∀ n ∈ siblings.names, rank (above ++ [name]) < rank (above ++ [n])) ∧
        children.Ranked rank (above ++ [name]) ∧ siblings.Ranked rank above

variable {f children siblings : Forest} {above p parts : List Text} {name part : Text}

section Paths

theorem paths_top (h : p ∈ f.paths above) : ∃ n ∈ f.names, above ++ [n] <+: p := by
  induction f generalizing above with
  | nil => cases h
  | node name fullName children siblings ihc ihs =>
      rcases List.mem_append.1 h with h | h
      · refine ⟨name, List.mem_cons_self, ?_⟩
        rcases List.mem_cons.1 h with rfl | h
        · exact List.prefix_refl _
        · obtain ⟨n, -, hn⟩ := ihc h
          exact (List.prefix_append _ [n]).trans hn
      · obtain ⟨n, hn, hp⟩ := ihs h
        exact ⟨n, List.mem_cons_of_mem _ hn, hp⟩

theorem length_of_mem_paths (h : p ∈ f.paths above) : above.length < p.length := by
  obtain ⟨n, -, hp⟩ := paths_top h
  have hlength := hp.length_le
  rw [List.length_append, List.length_singleton] at hlength
  exact hlength

theorem prefix_of_mem_paths (h : p ∈ f.paths above) : above <+: p := by
  obtain ⟨n, -, hp⟩ := paths_top h
  exact (List.prefix_append above [n]).trans hp

theorem eq_of_prefixes {m n : Text} (hm : above ++ [m] <+: p) (hn : above ++ [n] <+: p) :
    m = n := by
  have hp := List.prefix_of_prefix_length_le hm hn (by simp)
  have he := hp.eq_of_length (by simp)
  exact List.singleton_inj.1 (List.append_cancel_left he)

theorem mem_names_of_beginning (h : p ∈ f.paths above) (hn : above ++ [name] <+: p) :
    name ∈ f.names := by
  obtain ⟨m, hm, hp⟩ := paths_top h
  exact eq_of_prefixes hp hn ▸ hm

theorem paths_branch (full : Option Text) (above parts : List Text) :
    (branch full parts).paths above = ways above parts := by
  induction parts generalizing full above with
  | nil => rfl
  | cons part parts ih => simp [branch, paths, ways, ih]

theorem mem_paths_insert (f : Forest) (full : Option Text) (above parts p : List Text) :
    p ∈ (f.insert full parts).paths above ↔ p ∈ f.paths above ∨ p ∈ ways above parts := by
  induction f generalizing full above parts with
  | nil =>
      rw [Forest.insert, paths_branch]
      simp [paths]
  | node name fullName children siblings ihc ihs =>
      cases parts with
      | nil => simp [Forest.insert, ways]
      | cons part parts =>
          by_cases hn : name = part
          · subst hn
            rw [Forest.insert, if_pos rfl]
            simp only [paths, ways, List.cons_append, List.mem_cons, List.mem_append, ihc]
            tauto
          · rw [Forest.insert, if_neg hn]
            simp only [paths, List.cons_append, List.mem_cons, List.mem_append, ihs]
            tauto

theorem mem_ways : p ∈ ways above parts ↔ ∃ q ≠ [], q <+: parts ∧ p = above ++ q := by
  induction parts generalizing above with
  | nil =>
      simp only [ways, List.not_mem_nil, List.prefix_nil, false_iff]
      rintro ⟨q, hne, rfl, -⟩
      exact hne rfl
  | cons part parts ih =>
      rw [ways, List.mem_cons, ih]
      constructor
      · rintro (rfl | ⟨q, -, hq, rfl⟩)
        · exact ⟨[part], List.cons_ne_nil _ _, by simp, rfl⟩
        · exact ⟨part :: q, List.cons_ne_nil _ _, List.cons_prefix_cons.2 ⟨rfl, hq⟩, by simp⟩
      · rintro ⟨q, hne, hq, rfl⟩
        obtain ⟨d, q, rfl⟩ := List.exists_cons_of_ne_nil hne
        obtain ⟨rfl, htail⟩ := List.cons_prefix_cons.1 hq
        by_cases hnil : q = []
        · exact .inl (by rw [hnil])
        · exact .inr ⟨q, hnil, htail, by simp⟩

theorem mem_ways_nil : p ∈ ways [] parts ↔ p ≠ [] ∧ p <+: parts := by
  rw [mem_ways]
  simp

end Paths

section Ranked

variable {rank : List Text → Nat}

theorem Ranked.not_mem_names {fullName : Text}
    (h : (node name fullName children siblings).Ranked rank above) : name ∉ siblings.names :=
  fun hn => Nat.lt_irrefl _ (h.1 name hn)

theorem ranked_branch (full : Option Text) (above parts : List Text) :
    (branch full parts).Ranked rank above := by
  induction parts generalizing full above with
  | nil => exact trivial
  | cons part parts ih => exact ⟨by simp [names], ih _ _, trivial⟩

theorem mem_names_insert (f : Forest) (full : Option Text) (part : Text) (parts : List Text)
    (n : Text) : n ∈ (f.insert full (part :: parts)).names ↔ n ∈ f.names ∨ n = part := by
  induction f with
  | nil => simp [Forest.insert, branch, names]
  | node name fullName children siblings _ ihs =>
      by_cases hn : name = part
      · subst hn
        rw [Forest.insert, if_pos rfl]
        simp only [names, List.mem_cons]
        tauto
      · rw [Forest.insert, if_neg hn]
        simp only [names, List.mem_cons, ihs]
        tauto

theorem not_prefix_of_mem_ways {part : Text} (hn : name ≠ part) {p : List Text}
    (hp : p ∈ ways above (part :: parts)) : ¬ above ++ [name] <+: p := by
  intro hpre
  obtain ⟨q, hne, hq, rfl⟩ := mem_ways.1 hp
  obtain ⟨first, q, rfl⟩ := List.exists_cons_of_ne_nil hne
  obtain ⟨rfl, -⟩ := List.cons_prefix_cons.1 hq
  exact hn (eq_of_prefixes hpre (by simp))

theorem Ranked.insert (h : f.Ranked rank above) (full : Option Text) (bound : Nat)
    (hold : ∀ p ∈ f.paths above, rank p < bound)
    (hnew : ∀ p ∈ ways above parts, p ∉ f.paths above → bound ≤ rank p) :
    (f.insert full parts).Ranked rank above := by
  induction f generalizing full above parts with
  | nil => exact ranked_branch full above parts
  | node name fullName children siblings ihc ihs =>
      cases parts with
      | nil => exact h
      | cons part parts =>
          have hname := h.not_mem_names
          obtain ⟨hfirst, hchildren, hsiblings⟩ := h
          simp only [paths, List.cons_append, List.mem_cons, List.mem_append, not_or] at hold hnew
          by_cases hn : name = part
          · subst hn
            rw [Forest.insert, if_pos rfl]
            -- what is missing below this node is missing among its children
            refine ⟨hfirst, ihc hchildren _ (fun p hp => hold p (.inr (.inl hp))) ?_, hsiblings⟩
            intro p hp hmissing
            obtain ⟨q, hq, -, rfl⟩ := mem_ways.1 hp
            refine hnew _ (List.mem_cons_of_mem _ hp) ⟨?_, hmissing, ?_⟩
            · simpa using hq
            · intro hsibling
              exact hname (mem_names_of_beginning hsibling (List.prefix_append _ q))
          · rw [Forest.insert, if_neg hn]
            have hmissing (p) (hp : p ∈ ways above (part :: parts)) (hs : p ∉ siblings.paths above) :
                bound ≤ rank p := by
              refine hnew p hp ⟨?_, ?_, hs⟩
              · rintro rfl
                exact not_prefix_of_mem_ways hn hp (List.prefix_refl _)
              · exact fun hc => not_prefix_of_mem_ways hn hp (prefix_of_mem_paths hc)
            refine ⟨?_, hchildren, ihs hsiblings full (fun p hp => hold p (.inr (.inr hp))) hmissing⟩
            intro n hmem
            -- a sibling that was not there is the end of a missing way
            by_cases hs : n ∈ siblings.names
            · exact hfirst n hs
            · obtain rfl := ((mem_names_insert _ _ _ _ _).1 hmem).resolve_left hs
              have hnode := hold (above ++ [name]) (.inl rfl)
              have hway : above ++ [n] ∈ ways above (n :: parts) := List.mem_cons_self
              have habsent : above ++ [n] ∉ siblings.paths above :=
                fun hp => hs (mem_names_of_beginning hp (List.prefix_refl _))
              exact Nat.lt_of_lt_of_le hnode (hmissing _ hway habsent)

end Ranked

section Order

variable {rank : List Text → Nat}

/-- No way occurs twice, and of two that end side by side the first one has the lower rank. -/
theorem Ranked.pairwise_paths (h : f.Ranked rank above) :
    (f.paths above).Pairwise fun p q =>
      p ≠ q ∧ ∀ r m n, p = r ++ [m] → q = r ++ [n] → rank p < rank q := by
  induction f generalizing above with
  | nil => exact .nil
  | node name fullName children siblings ihc ihs =>
      have hname := h.not_mem_names
      obtain ⟨hfirst, hchildren, hsiblings⟩ := h
      have hbelow (p) (hp : p ∈ (above ++ [name]) :: children.paths (above ++ [name])) :
          above ++ [name] <+: p := by
        rcases List.mem_cons.1 hp with rfl | hp
        · exact List.prefix_refl _
        · exact prefix_of_mem_paths hp
      refine List.pairwise_append.2 ⟨List.pairwise_cons.2 ⟨?_, ihc hchildren⟩, ihs hsiblings, ?_⟩
      · intro q hq
        have hlength := length_of_mem_paths hq
        refine ⟨fun he => by simp [he] at hlength, ?_⟩
        rintro r m n hp rfl
        obtain ⟨rfl, -⟩ := List.append_inj' hp rfl
        simp at hlength
      -- ways through this node and ways through its siblings part at this place
      · intro p hp q hq
        obtain ⟨n, hn, hnq⟩ := paths_top hq
        have hne : n ≠ name := fun he => hname (he ▸ hn)
        refine ⟨?_, ?_⟩
        · rintro rfl
          exact hne (eq_of_prefixes hnq (hbelow p hp))
        · rintro r m k rfl rfl
          rcases List.prefix_concat_iff.1 (hbelow _ hp) with he | hr
          · obtain ⟨rfl, hm⟩ := List.append_inj' he rfl
            obtain rfl := List.singleton_inj.1 hm
            obtain rfl := eq_of_prefixes hnq (List.prefix_refl _)
            exact hfirst n hn
          · exact absurd (eq_of_prefixes hnq (hr.trans (List.prefix_append r [k]))) hne

theorem Ranked.nodup_paths (h : f.Ranked rank above) : (f.paths above).Nodup :=
  h.pairwise_paths.imp fun h => h.1

theorem top_paths {q : List Text} {earlier later : List (List Text)}
    (h : f.paths above = earlier ++ (q ++ [name]) :: later) (hq : q.length = above.length) :
    q = above ∧ earlier.filter (·.length = q.length) = [] := by
  have hpre : above <+: q ++ [name] := by
    apply prefix_of_mem_paths (f := f)
    rw [h]
    simp
  have habove : above <+: q :=
    List.prefix_of_prefix_length_le hpre (List.prefix_append q _) (Nat.le_of_eq hq.symm)
  refine ⟨(habove.eq_of_length hq.symm).symm, ?_⟩
  apply List.filter_eq_nil_iff.2
  intro p hp
  have hmem : p ∈ f.paths above := by
    rw [h]
    exact List.mem_append_left _ hp
  have hlt := length_of_mem_paths hmem
  rw [← hq] at hlt
  simpa using Nat.ne_of_gt hlt

/-- The nearest earlier way that is one part shorter leads to the node above. -/
theorem parent_paths {q : List Text} {earlier later : List (List Text)}
    (h : f.paths above = earlier ++ (q ++ [name]) :: later) (hq : above.length < q.length) :
    (earlier.filter (·.length = q.length)).getLast? = some q := by
  induction f generalizing above earlier later with
  | nil => simp [paths] at h
  | node top fullName children siblings ihc ihs =>
      cases earlier with
      | nil =>
          rw [paths, List.cons_append, List.nil_append, List.cons.injEq] at h
          obtain ⟨rfl, -⟩ := List.append_inj' h.1 rfl
          exact absurd hq (Nat.lt_irrefl _)
      | cons first earlier =>
          rw [paths, List.cons_append, List.cons_append, List.cons.injEq] at h
          obtain ⟨rfl, h⟩ := h
          -- the way ends among the siblings of the first node or below it
          rcases List.append_eq_append_iff.1 h with ⟨more, rfl, hs⟩ | ⟨more, hc, hs⟩
          · rw [← List.cons_append, List.filter_append, List.getLast?_append, ihs hs hq]
            rfl
          · cases more with
            | nil =>
                have hnone := @ihs above [] later hs.symm hq
                cases hnone
            | cons p more =>
                rw [List.cons_append, List.cons.injEq] at hs
                obtain ⟨rfl, -⟩ := hs
                rw [← List.singleton_append, List.filter_append, List.getLast?_append]
                by_cases hdeep : (above ++ [top]).length < q.length
                · rw [ihc hc hdeep]
                  rfl
                · have hlength : q.length = (above ++ [top]).length := by
                    rw [List.length_append, List.length_singleton] at hdeep ⊢
                    omega
                  obtain ⟨rfl, hnone⟩ := top_paths hc hlength
                  rw [hnone]
                  simp

theorem Ranked.insert_of_mem (h : f.Ranked rank above) (full : Option Text)
    (hmem : above ++ parts ∈ f.paths above) : f.insert full parts = f := by
  induction f generalizing full above parts with
  | nil => cases hmem
  | node name fullName children siblings ihc ihs =>
      have hname := h.not_mem_names
      obtain ⟨-, hchildren, hsiblings⟩ := h
      cases parts with
      | nil => rfl
      | cons part parts =>
          simp only [paths, List.cons_append, List.mem_cons, List.mem_append] at hmem
          by_cases hn : name = part
          · subst hn
            rw [Forest.insert, if_pos rfl]
            rcases hmem with he | hc | hs
            · obtain rfl : parts = [] := by simpa using he
              cases children <;> rfl
            · rw [ihc hchildren _ (by simpa using hc)]
            · exact absurd (mem_names_of_beginning hs (by simp)) hname
          · rw [Forest.insert, if_neg hn]
            rcases hmem with he | hc | hs
            · have he : part = name ∧ parts = [] := by simpa using he
              exact absurd he.1.symm hn
            · exact absurd (eq_of_prefixes (prefix_of_mem_paths hc) (by simp)) hn
            · rw [ihs hsiblings full hs]

end Order

section Build

def firstThrough (nameSpaces : List Text) (p : List Text) : Nat :=
  nameSpaces.findIdx fun s => p <+: Text.splitAt '.' s

variable {nameSpaces earlier : List Text}

theorem firstThrough_lt (h : ∃ s ∈ earlier, p <+: Text.splitAt '.' s) :
    firstThrough (earlier ++ nameSpaces) p < earlier.length := by
  obtain ⟨s, hs, hp⟩ := h
  have hlt : earlier.findIdx (fun s => p <+: Text.splitAt '.' s) < earlier.length :=
    List.findIdx_lt_length_of_exists ⟨s, hs, by simpa using hp⟩
  rw [firstThrough, List.findIdx_append, if_pos hlt]
  exact hlt

theorem le_firstThrough (h : ¬ ∃ s ∈ earlier, p <+: Text.splitAt '.' s) :
    earlier.length ≤ firstThrough (earlier ++ nameSpaces) p := by
  have hlength : earlier.findIdx (fun s => p <+: Text.splitAt '.' s) = earlier.length := by
    apply List.findIdx_eq_length.2
    intro s hs
    simpa using fun hp => h ⟨s, hs, hp⟩
  rw [firstThrough, List.findIdx_append, if_neg (by omega)]
  exact Nat.le_add_left _ _

theorem ranked_foldl (h : f.Ranked (firstThrough (earlier ++ nameSpaces)) [])
    (hpaths : ∀ p, p ∈ f.paths [] ↔ p ≠ [] ∧ ∃ s ∈ earlier, p <+: Text.splitAt '.' s) :
    (nameSpaces.foldl add f).Ranked (firstThrough (earlier ++ nameSpaces)) [] ∧
      ∀ p, p ∈ (nameSpaces.foldl add f).paths [] ↔
        p ≠ [] ∧ ∃ s ∈ earlier ++ nameSpaces, p <+: Text.splitAt '.' s := by
  induction nameSpaces generalizing earlier f with
  | nil => simpa [hpaths] using h
  | cons s nameSpaces ih =>
      rw [List.foldl_cons, show earlier ++ s :: nameSpaces = (earlier ++ [s]) ++ nameSpaces by simp]
        at *
      apply ih
      · refine h.insert none earlier.length (fun p hp => ?_) (fun p hp hmissing => ?_)
        · rw [List.append_assoc]
          exact firstThrough_lt ((hpaths p).1 hp).2
        · rw [List.append_assoc]
          refine le_firstThrough fun hs => hmissing ((hpaths p).2 ⟨?_, hs⟩)
          exact (mem_ways_nil.1 hp).1
      · intro p
        rw [add, mem_paths_insert, hpaths, mem_ways_nil]
        simp only [List.mem_append, List.mem_singleton, or_and_right, exists_or, exists_eq_left]
        exact and_or_left.symm

theorem ranked_ofNamespaces (nameSpaces : List Text) :
    (ofNamespaces nameSpaces).Ranked (firstThrough nameSpaces) [] := by
  have h : Forest.nil.Ranked (firstThrough ([] ++ nameSpaces)) [] := trivial
  exact (ranked_foldl h (by simp [paths])).1

theorem mem_paths_ofNamespaces (nameSpaces : List Text) (p : List Text) :
    p ∈ (ofNamespaces nameSpaces).paths [] ↔
      p ≠ [] ∧ ∃ s ∈ nameSpaces, p <+: Text.splitAt '.' s := by
  have h : Forest.nil.Ranked (firstThrough ([] ++ nameSpaces)) [] := trivial
  exact (ranked_foldl h (by simp [paths])).2 p

end Build
end ApiDocs.Forest
