import ApiDocs.Proofs.Command.Started

namespace ApiDocs.Command

open Files Log

structure InputRun (s : Surroundings) (o : Options) (format : Format) (text : Text) : Prop where
  request : request? s.arguments = some (.convert o)
  inputs : o.inputs = []
  known : Format.ofName? o.format = some format
  input : s.input = encode text

/-- A run over one file, with an output directory, which there is on the disk `made`. -/
structure FileRun (s : Surroundings) (o : Options) (directory path : Text) (format : Format)
    (made : Disk) (text : Text) : Prop where
  request : request? s.arguments = some (.convert o)
  inputs : o.inputs = [path]
  output : o.output = some directory
  known : Format.ofName? o.format = some format
  ensured : s.disk.ensureAll directory = (made, none)
  content : s.disk.read path = .ok (encode text)
  unset : s.logSetting = none

def targetName (o : Options) (format : Format) (path : Text) : Text :=
  documentName (if o.single then format.stem else outputStem path) format

/-- A file of this name can be written in the directory: neither its path nor its name is too long,
and it is not the name of a directory. -/
structure Writable (d : Disk) (directory name : Text) : Prop where
  short : Text.byteSize (Path.join directory name) ≤ longestPath
  shortName : Text.byteSize name ≤ longestName
  free : d.isDirectory (Path.join directory name) = false

def skippedFile (path : Text) (error : Xml.Error) : Record :=
  program .warn "skipping malformed XML" [("file", path), ("error", error.message)]

def lineOf (r : Record) : Text := r.text ++ "\n"

def nothingFound : Record := program .warn "no documented types found in any input" []

section Encoding

variable {d : Disk} {path text : Text} {classes : List Class} {error : Xml.Error}

theorem decode?_encode (s : Text) : decode? (encode s) = some s := by
  have hvalid : String.fromUTF8? (encode s) = some (String.ofList s) :=
    dif_pos (String.ofList s).isValidUTF8
  rw [decode?, hvalid, Option.map_some, String.toList_ofList]

theorem classesOf_of_document (hread : d.read path = .ok (encode text))
    (h : Extract.document text = .ok classes) : classesOf d path = classes := by
  simp only [classesOf, hread, decode?_encode, h]

theorem parse_of_document (h : Extract.document text = .error error) :
    Xml.parse text = .error error := by
  unfold Extract.document at h
  cases hparse : Xml.parse text with
  | ok root =>
      rw [hparse] at h
      cases h
  | error error' =>
      rw [hparse] at h
      exact congrArg Except.error (Except.error.inj h)

theorem examine_of_error (hread : d.read path = .ok (encode text))
    (h : Extract.document text = .error error) :
    examine d path = ([skippedFile path error], none) := by
  simp only [examine, hread, decode?_encode, parse_of_document h]
  rfl

theorem shows_unset (r : Record) : shows (filterOf none) r = decide (r.level.rank ≤ 2) := rfl

theorem logText_unset {log : List Record} (h : ∀ r ∈ log, r.level.rank ≤ 2) :
    logText none log = log.flatMap lineOf := by
  rw [logText, List.filter_eq_self.2 fun r hr => (shows_unset r).trans (decide_eq_true (h r hr))]
  rfl

end Encoding

section Input

variable {s : Surroundings} {o : Options} {format : Format} {text : Text} {error : Xml.Error}

theorem InputRun.run_of_ok (h : InputRun s o format text) {classes : List Class}
    (hdocument : Extract.document text = .ok classes) :
    (run s).exitCode = 0 ∧ (run s).output = format.render classes := by
  unfold Extract.document at hdocument
  cases hparse : Xml.parse text with
  | error error =>
      rw [hparse] at hdocument
      cases hdocument
  | ok root =>
      rw [hparse] at hdocument
      obtain rfl := Except.ok.inj hdocument
      have hconvert : convertInput o s.input =
          ((Extract.notes root).map ofNote, .ok (format.render (Extract.classes root))) := by
        simp only [convertInput, h.known, h.input, decode?_encode, hparse]
      rw [run]
      simp only [h.request, if_pos h.inputs, hconvert]
      exact ⟨rfl, rfl⟩

theorem InputRun.run_of_error (h : InputRun s o format text)
    (hdocument : Extract.document text = .error error) :
    (run s).exitCode = 1 ∧ (run s).output = [] := by
  have hconvert : convertInput o s.input = ([], .error (.malformedInput error)) := by
    simp only [convertInput, h.known, h.input, decode?_encode, parse_of_document hdocument]
  rw [run]
  simp only [h.request, if_pos h.inputs, hconvert]
  exact ⟨rfl, rfl⟩

end Input

section File

variable {s : Surroundings} {o : Options} {directory path : Text} {format : Format} {made : Disk}
  {text : Text}

theorem FileRun.adds (h : FileRun s o directory path format made text) : Disk.Adds s.disk made :=
  (Disk.ensureAll_eq_none (output_ne_nil h.request h.output) h.ensured).1

theorem FileRun.read_made (h : FileRun s o directory path format made text) :
    made.isFile path = true ∧ made.read path = .ok (encode text) := by
  have hread := h.content
  unfold Disk.read at hread
  cases hlocate : s.disk.locate path with
  | error fault =>
      rw [hlocate] at hread
      cases hread
  | ok place =>
      rw [hlocate] at hread
      simp only at hread
      split at hread <;> cases hread
      next hfile =>
        have hlocate' := h.adds.grows.locate hlocate
        have hfile' := h.adds.kept hfile
        exact ⟨Disk.isFile_iff.2 ⟨place, _, hlocate', hfile'⟩, Disk.read_of_file hlocate' hfile'⟩

theorem FileRun.started (h : FileRun s o directory path format made text) :
    Started s o directory format made [path] where
  request := h.request
  inputs := by simp [h.inputs]
  output := h.output
  known := h.known
  ensured := h.ensured
  selected := by
    refine ⟨[], ?_⟩
    rw [h.inputs, filesOfAll, filesOf, if_pos h.read_made.1]
    rfl

theorem slash_not_mem_targetName (o : Options) (format : Format) (path : Text) :
    '/' ∉ targetName o format path := by
  refine slash_not_mem_documentName ?_ format
  split_ifs
  · exact slash_not_mem_stem format
  · exact slash_not_mem_outputStem path

theorem writable_iff {place : Place} {name : Text} (hl : made.locate directory = .ok place)
    (hd : made.item? place = some .directory) (hname : '/' ∉ name)
    (hnamed : Disk.isStep name = false) (content : ByteArray) :
    Writable made directory name ↔ ∃ e, made.write (Path.join directory name) content = .ok e := by
  simp only [Disk.write_join_eq_ok hl hname hd]
  constructor
  · rintro ⟨hpath, hsize, hfree⟩
    refine ⟨_, hpath, hnamed, hsize, fun hdirectory => ?_, rfl⟩
    rw [Disk.isDirectory, Disk.itemAt?_join hl hname hpath hd hnamed hsize, hdirectory] at hfree
    cases hfree
  · rintro ⟨_, hpath, -, hsize, hfree, -⟩
    refine ⟨hpath, hsize, ?_⟩
    rw [Disk.isDirectory, Disk.itemAt?_join hl hname hpath hd hnamed hsize]
    split
    · next hdirectory => exact absurd hdirectory hfree
    · rfl

theorem convertDocuments_one_of_nil {d : Disk} (hnil : classesOf d path = []) :
    ∃ log, convertDocuments o format directory d [path] = ⟨d, log, false, none⟩ := by
  unfold convertDocuments
  split_ifs
  · obtain ⟨log, -, heq⟩ := convertAll_of_nil format directory
      ((List.flatMap_singleton (classesOf d) path).trans hnil)
    exact ⟨log, heq⟩
  · obtain ⟨log, -, heq⟩ := convertEach_cons_of_nil format directory hnil []
    exact ⟨_, heq⟩

section Some

variable {d : Disk} (hsome : classesOf d path ≠ [])
include hsome

theorem convertDocuments_one_of_ok {e : Disk}
    (hwrite : d.write (Path.join directory (targetName o format path))
      (encode (format.render (classesOf d path))) = .ok e) :
    ∃ log, convertDocuments o format directory d [path] = ⟨e, log, true, none⟩ := by
  unfold convertDocuments
  unfold targetName at hwrite
  split_ifs at hwrite ⊢
  · rw [← List.flatMap_singleton (classesOf d)] at hsome hwrite
    obtain ⟨log, -, heq⟩ := convertAll_of_ok hsome hwrite
    exact ⟨log, heq⟩
  · obtain ⟨log, -, heq⟩ := convertEach_cons_of_ok hsome hwrite []
    exact ⟨_, heq⟩

theorem convertDocuments_one_of_error {fault : Fault}
    (hwrite : d.write (Path.join directory (targetName o format path))
      (encode (format.render (classesOf d path))) = .error fault) :
    ∃ log failure, convertDocuments o format directory d [path] =
      ⟨d, log, false, some failure⟩ := by
  unfold convertDocuments
  unfold targetName at hwrite
  split_ifs at hwrite ⊢
  · rw [← List.flatMap_singleton (classesOf d)] at hsome hwrite
    obtain ⟨log, -, heq⟩ := convertAll_of_error hsome hwrite
    exact ⟨log, _, heq⟩
  · obtain ⟨log, -, heq⟩ := convertEach_cons_of_error hsome hwrite []
    exact ⟨log, _, heq⟩

end Some

/-- A skipped file is told of, and again if there is nothing else to merge. -/
theorem convertDocuments_one_of_skipped {d : Disk} {log : List Record}
    (hexamine : examine d path = (log, none)) :
    convertDocuments o format directory d [path] =
      ⟨d, log ++ if o.single then [nothingFound] else [], false, none⟩ := by
  unfold convertDocuments
  split_ifs
  · simp only [convertAll, gather, hexamine, Option.getD_none, List.append_nil]
    rfl
  · simp only [convertEach, hexamine]
    rfl

section Outcome

variable (h : FileRun s o directory path format made text)
include h

theorem FileRun.run_of_nil (hnil : classesOf made path = []) :
    (run s).exitCode = 0 ∧ (run s).disk = made := by
  obtain ⟨log, heq⟩ := convertDocuments_one_of_nil hnil
  obtain ⟨hdisk, hexit⟩ := h.started.run_of_not_written heq rfl
  exact ⟨hexit.2 rfl, hdisk⟩

theorem FileRun.run_of_writable (hsome : classesOf made path ≠ [])
    (hwritable : Writable made directory (targetName o format path)) :
    (run s).disk.itemAt? (Path.join directory (targetName o format path)) =
        some (.file (encode (format.render (classesOf made path)))) ∧
      (Text.byteSize (Path.join directory stylesheetName) ≤ longestPath →
        (run s).exitCode = 0) := by
  obtain ⟨place, hl, hd⟩ := h.started.located
  have hname := slash_not_mem_targetName o format path
  obtain ⟨e, hwrite⟩ := (writable_iff hl hd hname (isStep_documentName _ format)
    (encode (format.render (classesOf made path)))).1 hwritable
  obtain ⟨log, heq⟩ := convertDocuments_one_of_ok hsome hwrite
  obtain ⟨hfound, hexit⟩ := h.started.run_of_written heq hname
    (documentName_ne_stylesheetName _ format) hwrite rfl
  exact ⟨hfound, fun hstyle => hexit ⟨by decide, rfl, hstyle, by decide⟩⟩

theorem FileRun.run_of_not_writable (hsome : classesOf made path ≠ [])
    (hwritable : ¬ Writable made directory (targetName o format path)) :
    (run s).exitCode = 1 ∧ (run s).disk = made := by
  obtain ⟨place, hl, hd⟩ := h.started.located
  cases hwrite : made.write (Path.join directory (targetName o format path))
      (encode (format.render (classesOf made path))) with
  | ok e =>
      exact absurd ((writable_iff hl hd (slash_not_mem_targetName o format path)
        (isStep_documentName _ format) _).2 ⟨e, hwrite⟩) hwritable
  | error fault =>
      obtain ⟨log, failure, heq⟩ := convertDocuments_one_of_error hsome hwrite
      obtain ⟨hdisk, hexit⟩ := h.started.run_of_not_written heq rfl
      have hone := (exitCode_files h.request h.started.inputs).resolve_left fun hzero =>
        Option.some_ne_none failure (hexit.1 hzero)
      exact ⟨hone, hdisk⟩

theorem FileRun.errors_of_error {error : Xml.Error}
    (herror : Extract.document text = .error error) :
    (run s).errors = lineOf (skippedFile path error) ++
      if o.single then lineOf nothingFound else [] := by
  have hexamine := examine_of_error h.read_made.2 herror
  have hdocuments : convertDocuments o format directory made (Path.ordered [path]) = _ :=
    convertDocuments_one_of_skipped hexamine
  obtain ⟨log, hselected, heq⟩ := h.started.convertFiles_eq
  have hlog : log = [] := by
    rw [h.inputs, filesOfAll, filesOf, if_pos h.read_made.1] at hselected
    exact (Prod.mk.inj (Prod.mk.inj hselected).2).1.symm
  rw [run_files h.request h.started.inputs, heq, convertPaths_of_not_written (by rw [hdocuments]),
    hdocuments, hlog]
  change logText s.logSetting ([skippedFile path error] ++ _) ++ [] = _
  rw [h.unset, List.append_nil, logText_unset, List.flatMap_append, List.flatMap_singleton]
  · split_ifs
    · rw [List.flatMap_singleton]
    · rfl
  · split_ifs <;> simp [skippedFile, nothingFound, program, Level.rank]

end Outcome
end File

/-- A text with types is put out, or written to a file; one without types is put out as an empty
document, or not written; one that cannot be read as XML is an error of the input, but a file with
it is skipped with a warning. -/
theorem ways_agree {s t : Surroundings} {o o' : Options} {directory path : Text} {format : Format}
    {made : Disk} {text : Text} (hinput : InputRun s o format text)
    (hfile : FileRun t o' directory path format made text) :
    Disk.Adds t.disk made ∧
    (∀ classes, Extract.document text = .ok classes →
      (run s).exitCode = 0 ∧ (run s).output = format.render classes ∧
      (classes ≠ [] →
        let name := targetName o' format path
        (Writable made directory name →
          (run t).disk.itemAt? (Path.join directory name) =
              some (.file (encode (run s).output)) ∧
            (Text.byteSize (Path.join directory stylesheetName) ≤ longestPath →
              (run t).exitCode = 0)) ∧
        (¬ Writable made directory name → (run t).exitCode = 1 ∧ (run t).disk = made)) ∧
      (classes = [] → (run t).exitCode = 0 ∧ (run t).disk = made)) ∧
    ∀ error, Extract.document text = .error error →
      (run s).exitCode = 1 ∧ (run s).output = [] ∧
      (run t).exitCode = 0 ∧ (run t).disk = made ∧
      (run t).errors = lineOf (skippedFile path error) ++
        if o'.single then lineOf nothingFound else [] := by
  refine ⟨hfile.adds, fun classes hclasses => ?_, fun error hfault => ?_⟩
  · obtain ⟨hexit, houtput⟩ := hinput.run_of_ok hclasses
    obtain rfl := classesOf_of_document hfile.read_made.2 hclasses
    refine ⟨hexit, houtput, fun hsome => ⟨fun hwritable => ?_, ?_⟩, hfile.run_of_nil⟩
    · rw [houtput]
      exact hfile.run_of_writable hsome hwritable
    · exact hfile.run_of_not_writable hsome
  · obtain ⟨hexit, houtput⟩ := hinput.run_of_error hfault
    have hnil : classesOf made path = [] := by
      rw [classesOf_eq_examine, examine_of_error hfile.read_made.2 hfault]
      rfl
    obtain ⟨hexit', hdisk⟩ := hfile.run_of_nil hnil
    exact ⟨hexit, houtput, hexit', hdisk, hfile.errors_of_error hfault⟩

/-- A text with a type, as the standard input, as a file, and as a file to be merged. -/
theorem ways_agree_one_type :
    let text : Text := "<doc><member name=\"T:N.A\"/></doc>"
    let d : Disk := ⟨[], [(["in.xml"], .file (encode text))]⟩
    let s : Surroundings := ⟨["-fhtml"], none, encode text, ⟨[], []⟩⟩
    let t : Surroundings := ⟨["-f", "html", "-o", "out", "in.xml"], none, .empty, d⟩
    let u : Surroundings := ⟨["--single", "-fhtml", "-o", "out", "in.xml"], none, .empty, d⟩
    (run s).exitCode = 0 ∧ (run s).output = Html.render [⟨"A", "N", [], [], []⟩] ∧
      (run t).disk.itemAt? "out/in.html" = some (.file (encode (run s).output)) ∧
      (run t).exitCode = 0 ∧
      (run u).disk.itemAt? "out/documentation.html" = some (.file (encode (run s).output)) ∧
      (run u).exitCode = 0 := by
  intro text d s t u
  have hinput : InputRun s ⟨[], none, "html", false, false⟩ .html text :=
    ⟨by decide +kernel, rfl, by decide +kernel, rfl⟩
  have hcontent : d.read "in.xml" = .ok (encode text) :=
    Disk.read_of_file (show d.locate "in.xml" = .ok ["in.xml"] by decide +kernel) rfl
  have hensured : d.ensureAll "out" = ((d.ensureAll "out").1, none) :=
    Prod.ext rfl (by decide +kernel)
  have hfile : FileRun t ⟨["in.xml"], some "out", "html", false, false⟩ "out" "in.xml" .html
      (d.ensureAll "out").1 text :=
    ⟨by decide +kernel, rfl, rfl, by decide +kernel, hensured, hcontent, rfl⟩
  have hmerged : FileRun u ⟨["in.xml"], some "out", "html", true, false⟩ "out" "in.xml" .html
      (d.ensureAll "out").1 text :=
    ⟨by decide +kernel, rfl, rfl, by decide +kernel, hensured, hcontent, rfl⟩
  have hdocument : Extract.document text = .ok [⟨"A", "N", [], [], []⟩] := by decide +kernel
  obtain ⟨-, hok, -⟩ := ways_agree hinput hfile
  obtain ⟨hexit, houtput, hsome, -⟩ := hok _ hdocument
  obtain ⟨hfound, hexit'⟩ :=
    (hsome (by decide)).1 ⟨by decide +kernel, by decide +kernel, by decide +kernel⟩
  obtain ⟨-, hok, -⟩ := ways_agree hinput hmerged
  obtain ⟨-, -, hsome, -⟩ := hok _ hdocument
  obtain ⟨hfound', hexit''⟩ :=
    (hsome (by decide)).1 ⟨by decide +kernel, by decide +kernel, by decide +kernel⟩
  exact ⟨hexit, houtput, hfound, hexit' (by decide +kernel), hfound', hexit'' (by decide +kernel)⟩

set_option maxRecDepth 4000 in
/-- A document that is put out cannot be written if its name is too long, or if its name has become
that of a directory on the way to the output directory. -/
theorem ways_differ :
    let text : Text := "<doc><member name=\"T:A\"/></doc>"
    let name : Text := List.replicate 253 'a'
    let s : Surroundings := ⟨[], none, encode text, ⟨[], []⟩⟩
    let t : Surroundings :=
      ⟨["-o", "out", name], none, .empty, ⟨[], [([name], .file (encode text))]⟩⟩
    let u : Surroundings := ⟨["--single", "-o", "a/documentation.md/..", "in.xml"], none, .empty,
      ⟨[], [(["in.xml"], .file (encode text))]⟩⟩
    InputRun s ⟨[], none, "markdown", false, false⟩ (.markdown .plain) text ∧
      FileRun t ⟨[name], some "out", "markdown", false, false⟩ "out" name (.markdown .plain)
        (t.disk.ensureAll "out").1 text ∧
      FileRun u ⟨["in.xml"], some "a/documentation.md/..", "markdown", true, false⟩
        "a/documentation.md/.." "in.xml" (.markdown .plain)
        (u.disk.ensureAll "a/documentation.md/..").1 text ∧
      t.disk.has "out" = false ∧ u.disk.has "a/documentation.md/.." = false ∧
      (run s).exitCode = 0 ∧ (run s).output ≠ [] ∧
      (run t).exitCode = 1 ∧
      (run t).disk.isFile (documentPath "out" name (.markdown .plain)) = false ∧
      (run u).exitCode = 1 ∧
      (run u).disk.isFile
        (documentPath "a/documentation.md/.." "documentation" (.markdown .plain)) = false := by
  intro text name s t u
  have hinput : InputRun s ⟨[], none, "markdown", false, false⟩ (.markdown .plain) text :=
    ⟨by decide +kernel, rfl, by decide +kernel, rfl⟩
  have hlong : FileRun t ⟨[name], some "out", "markdown", false, false⟩ "out" name
      (.markdown .plain) (t.disk.ensureAll "out").1 text :=
    ⟨by decide +kernel, rfl, rfl, by decide +kernel, Prod.ext rfl (by decide +kernel),
      Disk.read_of_file (show t.disk.locate name = .ok [name] by decide +kernel) rfl, rfl⟩
  have htaken : FileRun u ⟨["in.xml"], some "a/documentation.md/..", "markdown", true, false⟩
      "a/documentation.md/.." "in.xml" (.markdown .plain)
      (u.disk.ensureAll "a/documentation.md/..").1 text :=
    ⟨by decide +kernel, rfl, rfl, by decide +kernel, Prod.ext rfl (by decide +kernel),
      Disk.read_of_file (show u.disk.locate "in.xml" = .ok ["in.xml"] by decide +kernel) rfl, rfl⟩
  exact ⟨hinput, hlong, htaken, by decide +kernel⟩

end ApiDocs.Command
