import ApiDocs.Command.Run
import ApiDocs.Proofs.Text.Pieces
import Mathlib.Tactic.SplitIfs

namespace ApiDocs.Command

open Files

section Stems

theorem slash_not_mem_fileName {path name : Text} (h : Path.fileName? path = some name) :
    '/' ∉ name := by
  unfold Path.fileName? at h
  split at h
  · next s hlast =>
    cases h
    rcases List.mem_append.1 (List.mem_of_getLast? hlast) with hlead | hpiece
    · split_ifs at hlead <;> simp at hlead
    · obtain ⟨piece, hpiece, hname⟩ := List.mem_filterMap.1 hpiece
      have hsame : piece = name := by
        unfold Path.ofPiece at hname
        split_ifs at hname
        · cases hname
        · exact Path.Component.name.inj (Option.some.inj hname)
      exact hsame ▸ Text.not_mem_of_mem_splitAt piece hpiece
  · cases h

theorem cutName_subset (name : Text) : (Path.cutName name).1 ⊆ name := by
  unfold Path.cutName
  split
  · exact List.Subset.refl _
  · exact List.Subset.refl _
  · next stem rest _ h =>
    rw [(Text.cutAtLast?_eq_some h).1]
    exact List.subset_append_left _ _

theorem slash_not_mem_outputStem (path : Text) : '/' ∉ outputStem path := by
  unfold outputStem Path.stem?
  cases h : Path.fileName? path with
  | none => exact (by decide : '/' ∉ ("documentation" : Text))
  | some name => exact fun hmem => slash_not_mem_fileName h (cutName_subset name hmem)

theorem outputStem_congr {path other : Text} (h : Path.components path = Path.components other) :
    outputStem path = outputStem other := by
  rw [outputStem, outputStem, Path.stem?, Path.stem?, Path.fileName?, Path.fileName?, h]

end Stems

section Selecting

variable {d : Disk} {pattern : Text} {paths : List Text} {log : List Log.Record}

theorem isFile_of_filesOf (h : filesOf d pattern = .ok (paths, log)) :
    ∀ p ∈ paths, d.isFile p = true := by
  unfold filesOf at h
  split_ifs at h with hfile hdirectory
  · cases h
    exact List.forall_mem_singleton.2 hfile
  · cases h
    intro p hp
    exact (Bool.and_eq_true_iff.1 (List.mem_filter.1 hp).2).1
  · split at h
    · cases h
    · next parsed _ =>
      have hmatches : ∀ p ∈ matchesOf d parsed, d.isFile p = true := by
        intro p hp
        unfold matchesOf at hp
        by_cases hdirectories : parsed.directories
        · rw [if_pos hdirectories] at hp
          cases hp
        · rw [if_neg hdirectories] at hp
          exact (List.mem_filter.1 hp).2
      split at h
      · cases h
        exact List.forall_mem_nil _
      · cases h
        exact hmatches

theorem filesOfAll_cons {patterns : List Text} :
    filesOfAll d (pattern :: patterns) = (paths, log, none) ↔
      ∃ files note rest notes, filesOf d pattern = .ok (files, note) ∧
        filesOfAll d patterns = (rest, notes, none) ∧ paths = files ++ rest ∧
        log = note ++ notes := by
  rw [filesOfAll]
  cases hfiles : filesOf d pattern with
  | error failure => simp
  | ok result =>
      obtain ⟨files, note⟩ := result
      rcases hrest : filesOfAll d patterns with ⟨rest, notes, failure⟩
      simp only [Prod.mk.injEq, Except.ok.injEq]
      constructor
      · rintro ⟨rfl, rfl, rfl⟩
        exact ⟨files, note, rest, notes, ⟨rfl, rfl⟩, ⟨rfl, rfl, rfl⟩, rfl, rfl⟩
      · rintro ⟨_, _, _, _, ⟨rfl, rfl⟩, ⟨rfl, rfl, rfl⟩, rfl, rfl⟩
        exact ⟨rfl, rfl, rfl⟩

theorem filesOfAll_append {patterns more : List Text} :
    filesOfAll d (patterns ++ more) = (paths, log, none) ↔
      ∃ files notes rest notes', filesOfAll d patterns = (files, notes, none) ∧
        filesOfAll d more = (rest, notes', none) ∧ paths = files ++ rest ∧
        log = notes ++ notes' := by
  induction patterns generalizing paths log with
  | nil => simp [filesOfAll, and_assoc]
  | cons pattern patterns ih =>
      simp only [List.cons_append, filesOfAll_cons, ih]
      constructor
      · rintro ⟨first, note, _, _, hfirst, ⟨files, notes, rest, notes', hfiles, hrest, rfl, rfl⟩,
          rfl, rfl⟩
        exact ⟨_, _, rest, notes', ⟨first, note, files, notes, hfirst, hfiles, rfl, rfl⟩, hrest,
          (List.append_assoc ..).symm, (List.append_assoc ..).symm⟩
      · rintro ⟨_, _, rest, notes', ⟨first, note, files, notes, hfirst, hfiles, rfl, rfl⟩, hrest,
          rfl, rfl⟩
        exact ⟨first, note, _, _, hfirst, ⟨files, notes, rest, notes', hfiles, hrest, rfl, rfl⟩,
          List.append_assoc .., List.append_assoc ..⟩

theorem mem_filesOfAll {patterns : List Text} (h : filesOfAll d patterns = (paths, log, none)) :
    ∀ p ∈ paths, ∃ pattern ∈ patterns, ∃ files note,
      filesOf d pattern = .ok (files, note) ∧ p ∈ files := by
  induction patterns generalizing paths log with
  | nil =>
      cases h
      exact List.forall_mem_nil _
  | cons pattern patterns ih =>
      obtain ⟨files, note, rest, notes, hfiles, hrest, rfl, rfl⟩ := filesOfAll_cons.1 h
      intro p hp
      rcases List.mem_append.1 hp with hp | hp
      · exact ⟨pattern, List.mem_cons_self, files, note, hfiles, hp⟩
      · obtain ⟨other, hother, hfound⟩ := ih hrest p hp
        exact ⟨other, List.mem_cons_of_mem _ hother, hfound⟩

theorem isFile_of_filesOfAll {patterns : List Text}
    (h : filesOfAll d patterns = (paths, log, none)) : ∀ p ∈ paths, d.isFile p = true := by
  intro p hp
  obtain ⟨pattern, -, files, note, hfiles, hmem⟩ := mem_filesOfAll h p hp
  exact isFile_of_filesOf hfiles p hmem

end Selecting

section Arguments

theorem Reading.output_of_set {r e : Reading} {setting : Setting} {value : Text}
    (h : r.set setting value = some e) (hr : r.output ≠ some []) : e.output ≠ some [] := by
  cases setting with
  | output =>
      unfold Reading.set at h
      simp only at h
      split_ifs at h with hset
      cases h
      exact fun hempty => hset (.inr (Option.some.inj hempty))
  | format =>
      unfold Reading.set at h
      simp only at h
      split_ifs at h
      cases h
      exact hr

theorem Reading.output_of_raise {r e : Reading} {flag : Flag} (h : r.raise flag = some e) :
    e.output = r.output := by
  cases flag <;> unfold Reading.raise at h <;> simp only at h <;> split_ifs at h <;> cases h <;> rfl

theorem Reading.output_of_run {r : Reading} {arguments : List Text} {o : Options}
    (h : r.run arguments = some (.convert o)) (hr : r.output ≠ some []) : o.output ≠ some [] := by
  fun_induction Reading.run r arguments with
  | case1 | case3 => cases h; exact hr
  | case2 r s rest s' hread ih => exact ih h hr
  | case4 | case5 | case6 | case9 | case11 => cases h
  | case7 r s rest flag hread ih =>
      obtain ⟨e, he, h⟩ := Option.bind_eq_some_iff.1 h
      exact ih e h (Reading.output_of_raise he ▸ hr)
  | case8 r s rest setting value hread ih =>
      obtain ⟨e, he, h⟩ := Option.bind_eq_some_iff.1 h
      exact ih e h (Reading.output_of_set he hr)
  | case10 r s setting hread value rest hvalue ih =>
      obtain ⟨e, he, h⟩ := Option.bind_eq_some_iff.1 h
      exact ih e h (Reading.output_of_set he hr)

end Arguments

end ApiDocs.Command
