import ApiDocs.Proofs.Command.Conversion

namespace ApiDocs.Command

open Files

def convertDocuments (o : Options) (format : Format) (directory : Text) (d : Disk)
    (paths : List Text) : Report :=
  if o.single then convertAll format directory d paths else convertEach format directory d paths

section Growing

variable {d : Disk} {directory : Text} {format : Format} {o : Options} {paths : List Text}

theorem grows_convertEach (format : Format) (directory : Text) (d : Disk) (paths : List Text) :
    Disk.Grows d (convertEach format directory d paths).disk := by
  induction paths generalizing d with
  | nil => exact Disk.Grows.refl d
  | cons path paths ih =>
      by_cases hnil : classesOf d path = []
      · obtain ⟨log, -, heq⟩ := convertEach_cons_of_nil format directory hnil paths
        rw [heq]
        exact ih d
      · cases hwrite : d.write (documentPath directory (outputStem path) format)
            (encode (format.render (classesOf d path))) with
        | error fault =>
            obtain ⟨log, -, heq⟩ := convertEach_cons_of_error hnil hwrite paths
            rw [heq]
            exact Disk.Grows.refl d
        | ok e =>
            obtain ⟨log, -, heq⟩ := convertEach_cons_of_ok hnil hwrite paths
            rw [heq]
            exact (Disk.grows_write hwrite).trans (ih e)

theorem grows_convertAll (format : Format) (directory : Text) (d : Disk) (paths : List Text) :
    Disk.Grows d (convertAll format directory d paths).disk := by
  by_cases hnil : paths.flatMap (classesOf d) = []
  · obtain ⟨log, -, heq⟩ := convertAll_of_nil format directory hnil
    rw [heq]
    exact Disk.Grows.refl d
  · cases hwrite : d.write (documentPath directory format.stem format)
        (encode (format.render (paths.flatMap (classesOf d)))) with
    | error fault =>
        obtain ⟨log, -, heq⟩ := convertAll_of_error hnil hwrite
        rw [heq]
        exact Disk.Grows.refl d
    | ok e =>
        obtain ⟨log, -, heq⟩ := convertAll_of_ok hnil hwrite
        rw [heq]
        exact Disk.grows_write hwrite

theorem grows_convertDocuments (o : Options) (format : Format) (directory : Text) (d : Disk)
    (paths : List Text) : Disk.Grows d (convertDocuments o format directory d paths).disk := by
  unfold convertDocuments
  split_ifs
  · exact grows_convertAll format directory d paths
  · exact grows_convertEach format directory d paths

theorem addStylesheet_cases (directory : Text) (r : Report) :
    (∃ e, r.disk.write (Path.join directory stylesheetName) (encode stylesheet) = .ok e ∧
        addStylesheet directory r = { r with disk := e }) ∨
      (r.disk.has (Path.join directory stylesheetName) = true ∧ addStylesheet directory r = r) ∨
      ∃ fault, r.disk.write (Path.join directory stylesheetName) (encode stylesheet) =
          .error fault ∧ r.disk.has (Path.join directory stylesheetName) = false ∧
        addStylesheet directory r =
          { r with failure := some (.stylesheet (Path.join directory stylesheetName) fault) } := by
  unfold addStylesheet
  simp only
  split_ifs with hhas
  · exact .inr (.inl ⟨hhas, rfl⟩)
  · cases hwrite : r.disk.write (Path.join directory stylesheetName) (encode stylesheet) with
    | ok e => exact .inl ⟨e, rfl, rfl⟩
    | error fault => exact .inr (.inr ⟨fault, rfl, Bool.eq_false_iff.2 hhas, rfl⟩)

theorem convertPaths_eq_documents (o : Options) (format : Format) (directory : Text) (d : Disk)
    (paths : List Text) :
    convertPaths o format directory d paths =
      let r := convertDocuments o format directory d paths
      if wantsStylesheet o format r then addStylesheet directory r else r := rfl

theorem convertPaths_cases (o : Options) (format : Format) (directory : Text) (d : Disk)
    (paths : List Text) :
    convertPaths o format directory d paths = convertDocuments o format directory d paths ∨
      (convertDocuments o format directory d paths).failure = none ∧
        convertPaths o format directory d paths =
          addStylesheet directory (convertDocuments o format directory d paths) := by
  rw [convertPaths_eq_documents]
  generalize convertDocuments o format directory d paths = r
  simp only
  split_ifs with hwanted
  · refine .inr ⟨?_, rfl⟩
    simp only [wantsStylesheet, Bool.and_eq_true, Option.isNone_iff_eq_none] at hwanted
    exact hwanted.1.1.2
  · exact .inl rfl

theorem convertPaths_of_not_written
    (h : (convertDocuments o format directory d paths).written = false) :
    convertPaths o format directory d paths = convertDocuments o format directory d paths := by
  rw [convertPaths_eq_documents]
  exact if_neg (by simp [wantsStylesheet, h])

theorem grows_addStylesheet (directory : Text) (r : Report) :
    Disk.Grows r.disk (addStylesheet directory r).disk := by
  obtain ⟨e, hwrite, h⟩ | ⟨-, h⟩ | ⟨fault, -, -, h⟩ := addStylesheet_cases directory r <;> rw [h]
  · exact Disk.grows_write hwrite
  · exact Disk.Grows.refl r.disk
  · exact Disk.Grows.refl r.disk

theorem grows_convertPaths (o : Options) (format : Format) (directory : Text) (d : Disk)
    (paths : List Text) : Disk.Grows d (convertPaths o format directory d paths).disk := by
  have hgrows := grows_convertDocuments o format directory d paths
  obtain h | ⟨-, h⟩ := convertPaths_cases o format directory d paths <;> rw [h]
  · exact hgrows
  · exact hgrows.trans (grows_addStylesheet directory _)

theorem failure_convertDocuments
    (h : (convertPaths o format directory d paths).failure = none) :
    (convertDocuments o format directory d paths).failure = none := by
  obtain he | ⟨hnone, -⟩ := convertPaths_cases o format directory d paths
  · rw [← he]
    exact h
  · exact hnone

theorem failure_addStylesheet {r : Report} {place : Place}
    (hl : r.disk.locate directory = .ok place) (hd : r.disk.item? place = some .directory)
    (hstyle : Fitting directory stylesheetName) :
    (addStylesheet directory r).failure = r.failure := by
  obtain ⟨e, -, h⟩ | ⟨-, h⟩ | ⟨fault, hwrite, hhas, -⟩ := addStylesheet_cases directory r
  · rw [h]
  · rw [h]
  · have hnone : r.disk.item? (place ++ [stylesheetName]) = none := by
      rw [Disk.has, Disk.itemAt?_join hl hstyle.single hstyle.path hd hstyle.named hstyle.size]
        at hhas
      simpa using hhas
    have hok := Disk.write_join hl hstyle.single hstyle.path hd hstyle.named hstyle.size
      (by rw [hnone]; exact nofun) (encode stylesheet)
    cases hwrite.symm.trans hok

theorem fitting_stylesheetName {name : Text} (h : Fitting directory name)
    (hsize : Text.byteSize stylesheetName ≤ Text.byteSize name) :
    Fitting directory stylesheetName where
  single := by decide
  named := rfl
  path := (Disk.byteSize_join_le (by decide) h.single hsize).trans h.path
  size := by decide

section Styled

variable {place : Place} {name : Text} (hl : d.locate directory = .ok place)
  (hd : d.item? place = some .directory) (hname : Fitting directory name)
include hl hd hname

theorem itemAt?_of_grows {e : Disk} (h : Disk.Grows d e) :
    e.itemAt? (Path.join directory name) = e.item? (place ++ [name]) :=
  Disk.itemAt?_join (h.locate hl) hname.single hname.path (h.directory hd) hname.named hname.size

/-- The style sheet takes the place of no document. -/
theorem itemAt?_convertPaths (hne : name ≠ stylesheetName) (o : Options) (format : Format)
    (paths : List Text) :
    (convertPaths o format directory d paths).disk.itemAt? (Path.join directory name) =
      (convertDocuments o format directory d paths).disk.item? (place ++ [name]) := by
  have hgrows := grows_convertDocuments o format directory d paths
  rw [itemAt?_of_grows hl hd hname (grows_convertPaths o format directory d paths)]
  obtain h | ⟨-, h⟩ := convertPaths_cases o format directory d paths
  · rw [h]
  · rw [h]
    obtain ⟨e, hwrite, h⟩ | ⟨-, h⟩ | ⟨fault, -, -, h⟩ := addStylesheet_cases directory
      (convertDocuments o format directory d paths) <;> rw [h]
    obtain ⟨-, -, -, -, rfl⟩ := (Disk.write_join_eq_ok (hgrows.locate hl) (by decide)
      (hgrows.directory hd)).1 hwrite
    refine Disk.item?_put_of_ne (Disk.snoc_ne_nil _ _) (fun he => hne ?_) _ _
    exact (List.cons.inj (List.append_cancel_left he)).1

end Styled
end Growing

/-- A run over the files `paths`, in a known format and with an output directory, which there is on
the disk `made`. -/
structure Started (s : Surroundings) (o : Options) (directory : Text) (format : Format)
    (made : Disk) (paths : List Text) : Prop where
  request : request? s.arguments = some (.convert o)
  inputs : o.inputs ≠ []
  output : o.output = some directory
  known : Format.ofName? o.format = some format
  ensured : s.disk.ensureAll directory = (made, none)
  selected : ∃ log, filesOfAll made o.inputs = (paths, log, none)

section Starting

variable {s : Surroundings} {o : Options} {directory : Text} {format : Format} {made : Disk}
  {paths : List Text}

theorem run_files (hrequest : request? s.arguments = some (.convert o)) (hinputs : o.inputs ≠ []) :
    run s = outcome s (convertFiles o s.disk).log [] (convertFiles o s.disk).failure
      (convertFiles o s.disk).disk := by
  rw [run]
  simp only [hrequest, if_neg hinputs]

theorem exitCode_outcome (s : Surroundings) (log : List Log.Record) (output : Text)
    (failure : Option Failure) (d : Disk) :
    (outcome s log output failure d).exitCode = 0 ↔ failure = none := by
  cases failure <;> simp [outcome]

theorem exitCode_files (hrequest : request? s.arguments = some (.convert o))
    (hinputs : o.inputs ≠ []) : (run s).exitCode = 0 ∨ (run s).exitCode = 1 := by
  rw [run_files hrequest hinputs]
  cases (convertFiles o s.disk).failure with
  | none => exact .inl rfl
  | some failure => exact .inr rfl

theorem output_ne_nil (hrequest : request? s.arguments = some (.convert o))
    (houtput : o.output = some directory) : directory ≠ [] := by
  rintro rfl
  exact Reading.output_of_run hrequest nofun houtput

namespace Started

variable (h : Started s o directory format made paths)
include h

theorem directory_ne_nil : directory ≠ [] := output_ne_nil h.request h.output

theorem adds : Disk.Adds s.disk made := (Disk.ensureAll_eq_none h.directory_ne_nil h.ensured).1

theorem located : ∃ place, made.locate directory = .ok place ∧ made.item? place = some .directory :=
  Disk.isDirectory_iff.1 (Disk.ensureAll_eq_none h.directory_ne_nil h.ensured).2

theorem isFile : ∀ p ∈ paths, ∃ input content, made.locate p = .ok input ∧
    made.item? input = some (.file content) := by
  obtain ⟨log, hselected⟩ := h.selected
  exact fun p hp => Disk.isFile_iff.1 (isFile_of_filesOfAll hselected p hp)

/-- Of the spellings of a file, the first one stands for it. -/
theorem exists_ordered {p : Text} (hp : p ∈ paths) : ∃ q ∈ Path.ordered paths,
    Path.components q = Path.components p ∧ made.locate q = made.locate p := by
  obtain ⟨q, hq, hcomponents⟩ := List.mem_map.1
    (Path.mem_map_components_ordered.2 (List.mem_map_of_mem (f := Path.components) hp))
  obtain ⟨place, -, hlocate, -⟩ := h.isFile p hp
  obtain ⟨place', -, hlocate', -⟩ := h.isFile q (Path.mem_of_mem_ordered hq)
  obtain rfl := Disk.locate_eq_of_components hcomponents hlocate' hlocate
  exact ⟨q, hq, hcomponents, hlocate'.trans hlocate.symm⟩

theorem convertFiles_eq : ∃ log, filesOfAll made o.inputs = (paths, log, none) ∧
    convertFiles o s.disk =
      (convertPaths o format directory made (Path.ordered paths)).after log false := by
  obtain ⟨log, hselected⟩ := h.selected
  refine ⟨log, hselected, ?_⟩
  rw [convertFiles]
  simp only [h.output, h.known, h.ensured, hselected]

theorem run_disk :
    (run s).disk = (convertPaths o format directory made (Path.ordered paths)).disk := by
  obtain ⟨log, -, hfiles⟩ := h.convertFiles_eq
  rw [run_files h.request h.inputs, hfiles]
  rfl

theorem exitCode_eq_zero : (run s).exitCode = 0 ↔
    (convertPaths o format directory made (Path.ordered paths)).failure = none := by
  obtain ⟨log, -, hfiles⟩ := h.convertFiles_eq
  rw [run_files h.request h.inputs, exitCode_outcome, hfiles]
  rfl

section Settled

variable {r : Report}
  (hdocuments : convertDocuments o format directory made (Path.ordered paths) = r)
include hdocuments

theorem run_of_not_written (hwritten : r.written = false) :
    (run s).disk = r.disk ∧ ((run s).exitCode = 0 ↔ r.failure = none) := by
  have heq := convertPaths_of_not_written (hdocuments.symm ▸ hwritten)
  rw [h.run_disk, h.exitCode_eq_zero, heq, hdocuments]
  exact ⟨rfl, Iff.rfl⟩

theorem run_of_written {name : Text} {content : ByteArray} (hname : '/' ∉ name)
    (hne : name ≠ stylesheetName)
    (hwrite : made.write (Path.join directory name) content = .ok r.disk) (hnone : r.failure = none) :
    (run s).disk.itemAt? (Path.join directory name) = some (.file content) ∧
      (Fitting directory stylesheetName → (run s).exitCode = 0) := by
  obtain ⟨place, hl, hd⟩ := h.located
  obtain ⟨hpath, hnamed, hsize, -, hdisk⟩ := (Disk.write_join_eq_ok hl hname hd).1 hwrite
  have hgrows := Disk.grows_write hwrite
  rw [h.run_disk, h.exitCode_eq_zero]
  refine ⟨?_, fun hstyle => ?_⟩
  · refine (itemAt?_convertPaths hl hd ⟨hname, hnamed, hpath, hsize⟩ hne o format _).trans ?_
    rw [hdocuments, hdisk, Disk.item?_put_self (Disk.snoc_ne_nil _ _)]
  · obtain he | ⟨-, he⟩ := convertPaths_cases o format directory made (Path.ordered paths)
    · rw [he, hdocuments, hnone]
    · rw [he, hdocuments, failure_addStylesheet (hgrows.locate hl) (hgrows.directory hd) hstyle,
        hnone]

end Settled
end Started

/-- A run over files starts, or it fails and leaves nothing but directories. -/
theorem started_or_failed (hrequest : request? s.arguments = some (.convert o))
    (hinputs : o.inputs ≠ []) :
    (∃ directory format made paths, Started s o directory format made paths) ∨
      (run s).exitCode ≠ 0 ∧ Disk.Adds s.disk (run s).disk := by
  rw [run_files hrequest hinputs, ne_eq, exitCode_outcome]
  unfold convertFiles
  cases houtput : o.output with
  | none => exact .inr ⟨Option.some_ne_none _, Disk.Adds.refl _⟩
  | some directory =>
      cases hknown : Format.ofName? o.format with
      | none => exact .inr ⟨Option.some_ne_none _, Disk.Adds.refl _⟩
      | some format =>
          have hadds := Disk.adds_ensureFirst (Path.ancestors directory) s.disk
          rcases hensured : s.disk.ensureAll directory with ⟨made, _ | fault⟩
          · rw [← Disk.ensureAll, hensured] at hadds
            rcases hselected : filesOfAll made o.inputs with ⟨paths, log, _ | failure⟩
            · exact .inl ⟨directory, format, made, paths, hrequest, hinputs, houtput, hknown,
                hensured, log, hselected⟩
            · refine .inr ?_
              simp only [hensured, hselected]
              exact ⟨Option.some_ne_none _, hadds⟩
          · rw [← Disk.ensureAll, hensured] at hadds
            refine .inr ?_
            simp only [hensured]
            exact ⟨Option.some_ne_none _, hadds⟩

theorem exists_started (hrequest : request? s.arguments = some (.convert o))
    (hinputs : o.inputs ≠ []) (hexit : (run s).exitCode = 0) :
    ∃ directory format made paths, Started s o directory format made paths :=
  (started_or_failed hrequest hinputs).resolve_right fun h => h.1 hexit

end Starting
end ApiDocs.Command
