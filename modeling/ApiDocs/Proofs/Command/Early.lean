import ApiDocs.Proofs.Command.Started
import ApiDocs.Proofs.Files.Opened

namespace ApiDocs.Command

open Files

/-- The pattern names neither a file nor a directory, and it is no glob pattern. -/
structure Unreadable (d : Disk) (pattern : Text) : Prop where
  noFile : d.isFile pattern = false
  noDirectory : d.isDirectory pattern = false
  invalid : ∃ fault, Glob.read pattern = .error fault

section Patterns

variable {d : Disk} {pattern : Text}

theorem filesOf_error_iff : (∃ failure, filesOf d pattern = .error failure) ↔
    Unreadable d pattern := by
  unfold filesOf
  constructor
  · rintro ⟨failure, h⟩
    split_ifs at h with hfile hdirectory
    split at h
    · next fault hread =>
      exact ⟨Bool.eq_false_iff.2 hfile, Bool.eq_false_iff.2 hdirectory, fault, hread⟩
    · split at h <;> cases h
  · rintro ⟨hfile, hdirectory, fault, hread⟩
    refine ⟨.pattern pattern fault, ?_⟩
    simp only [hfile, hdirectory, hread, Bool.false_eq_true, if_false]

theorem filesOfAll_failed_iff (d : Disk) (patterns : List Text) :
    (filesOfAll d patterns).2.2 ≠ none ↔ ∃ pattern ∈ patterns, Unreadable d pattern := by
  induction patterns with
  | nil => simp [filesOfAll]
  | cons pattern patterns ih =>
      rw [List.exists_mem_cons_iff, ← ih, ← filesOf_error_iff, filesOfAll]
      cases filesOf d pattern with
      | error failure => simp
      | ok found => simp

end Patterns

section Failing

variable {o : Options} {d : Disk} {directory : Text}

theorem convertFiles_of_unsettled (h : o.output = none ∨ Format.ofName? o.format = none) :
    (convertFiles o d).failure ≠ none ∧ (convertFiles o d).disk = d := by
  unfold convertFiles
  cases houtput : o.output with
  | none => exact ⟨Option.some_ne_none _, rfl⟩
  | some directory =>
      have hunknown := h.resolve_left (by rw [houtput]; exact Option.some_ne_none directory)
      simp [hunknown]

theorem convertFiles_of_unopened (houtput : o.output = some directory)
    (h : (d.ensureAll directory).2 ≠ none ∨
      ∃ pattern ∈ o.inputs, Unreadable (d.ensureAll directory).1 pattern) :
    (convertFiles o d).failure ≠ none ∧ Disk.Opens directory d (convertFiles o d).disk := by
  have hopens := Disk.opens_ensureAll directory d
  rw [← filesOfAll_failed_iff] at h
  cases hknown : Format.ofName? o.format with
  | none =>
      obtain ⟨hfailure, hdisk⟩ := convertFiles_of_unsettled (d := d) (.inr hknown)
      rw [hdisk]
      exact ⟨hfailure, Disk.Opens.refl directory d⟩
  | some format =>
      unfold convertFiles
      rcases hensured : d.ensureAll directory with ⟨made, _ | fault⟩
      · rw [hensured] at hopens h
        rcases hselected : filesOfAll made o.inputs with ⟨paths, log, _ | failure⟩
        · rw [hselected] at h
          exact absurd rfl (h.resolve_left fun hne => hne rfl)
        · simp only [houtput, hknown, hensured, hselected]
          exact ⟨Option.some_ne_none _, hopens⟩
      · rw [hensured] at hopens
        simp only [houtput, hknown, hensured]
        exact ⟨Option.some_ne_none _, hopens⟩

end Failing

section Runs

variable {s : Surroundings} {o : Options}

theorem exitCode_of_failure (log : List Log.Record) (output : Text) {failure : Option Failure}
    (h : failure ≠ none) (d : Disk) : (outcome s log output failure d).exitCode = 1 := by
  cases failure with
  | none => exact absurd rfl h
  | some failure => rfl

theorem run_input (hrequest : request? s.arguments = some (.convert o)) (hinputs : o.inputs = []) :
    (run s).disk = s.disk ∧ ((run s).exitCode = 1 → (run s).output = []) ∧
      (Format.ofName? o.format = none → (run s).exitCode = 1) := by
  rw [run]
  simp only [hrequest, if_pos hinputs]
  rcases hconverted : convertInput o s.input with ⟨log, failure | output⟩
  · exact ⟨rfl, fun _ => rfl, fun _ => rfl⟩
  · refine ⟨rfl, fun hexit => absurd hexit Nat.zero_ne_one, fun hunknown => ?_⟩
    simp only [convertInput, hunknown, Prod.mk.injEq, reduceCtorEq, and_false] at hconverted

/-- A run that fails before its first input is read leaves the files as they are, and makes at most
the directories of its output path. -/
theorem run_early (h : request? s.arguments = some (.convert o)) :
    (o.inputs ≠ [] ∧ o.output = none ∨ Format.ofName? o.format = none →
      (run s).exitCode = 1 ∧ (run s).disk = s.disk) ∧
    (∀ directory, o.inputs ≠ [] → o.output = some directory →
      (s.disk.ensureAll directory).2 ≠ none ∨
        (∃ pattern ∈ o.inputs, Unreadable (s.disk.ensureAll directory).1 pattern) →
      (run s).exitCode = 1 ∧ Disk.Opens directory s.disk (run s).disk) ∧
    (o.inputs = [] →
      (run s).disk = s.disk ∧ ((run s).exitCode = 1 → (run s).output = [])) := by
  refine ⟨fun hunsettled => ?_, fun directory hinputs houtput hfailed => ?_, fun hinputs => ?_⟩
  · by_cases hinputs : o.inputs = []
    · obtain ⟨hdisk, -, hunknown⟩ := run_input h hinputs
      exact ⟨hunknown (hunsettled.resolve_left fun hfiles => hfiles.1 hinputs), hdisk⟩
    · rw [run_files h hinputs]
      obtain ⟨hfailure, hdisk⟩ := convertFiles_of_unsettled (d := s.disk)
        (hunsettled.imp And.right id)
      exact ⟨exitCode_of_failure _ _ hfailure _, hdisk⟩
  · rw [run_files h hinputs]
    obtain ⟨hfailure, hopens⟩ := convertFiles_of_unopened houtput hfailed
    exact ⟨exitCode_of_failure _ _ hfailure _, hopens⟩
  · obtain ⟨hdisk, houtput, -⟩ := run_input h hinputs
    exact ⟨hdisk, houtput⟩

/-- The second pattern is no glob pattern. The file that the first one names is not converted. -/
theorem run_early_second_pattern :
    let d : Disk := ⟨[], [(["in.xml"], .file (encode "<doc><member name=\"T:N.A\"/></doc>"))]⟩
    let s : Surroundings := ⟨["-o", "a/b", "in.xml", "["], none, .empty, d⟩
    (run s).exitCode = 1 ∧ Disk.Opens "a/b" d (run s).disk := by
  intro d s
  have hrequest : request? s.arguments =
      some (.convert ⟨["in.xml", "["], some "a/b", "markdown", false, false⟩) := by
    decide +kernel
  have hunreadable : Unreadable (d.ensureAll "a/b").1 "[" :=
    ⟨by decide +kernel, by decide +kernel, ⟨0, .range⟩, by decide +kernel⟩
  exact (run_early hrequest).2.1 "a/b" (List.cons_ne_nil _ _) rfl
    (.inr ⟨"[", List.mem_cons_of_mem _ List.mem_cons_self, hunreadable⟩)

/-- A file may have a name that is no glob pattern. -/
theorem run_converts_bracket :
    let d : Disk := ⟨[], [(["["], .file (encode "<doc><member name=\"T:N.A\"/></doc>"))]⟩
    let s : Surroundings := ⟨["-o", "out", "["], none, .empty, d⟩
    request? s.arguments = some (.convert ⟨["["], some "out", "markdown", false, false⟩) ∧
      Glob.read "[" = .error ⟨0, .range⟩ ∧ (run s).exitCode = 0 ∧
      d.has "out/[.md" = false ∧ (run s).disk.isFile "out/[.md" = true := by
  decide +kernel

end Runs
end ApiDocs.Command
