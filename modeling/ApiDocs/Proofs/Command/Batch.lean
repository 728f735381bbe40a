import ApiDocs.Proofs.Command.Started
import Mathlib.Tactic.Tauto

namespace ApiDocs.Command

open Files

def documents (o : Options) (format : Format) (d : Disk) (paths : List Text) : List Output :=
  if o.single then jointDocument format d paths else eachDocument format d paths

/-- HTML documents come with a style sheet, unless something has its name. -/
def styles (o : Options) (format : Format) (directory : Text) (d : Disk) (paths : List Text) :
    List Output :=
  if format = .html ∧ o.noStylesheet = false ∧ (documents o format d paths).isEmpty = false ∧
      d.has (Path.join directory stylesheetName) = false then
    [⟨stylesheetName, encode stylesheet⟩]
  else []

def outputs (o : Options) (format : Format) (directory : Text) (d : Disk) (paths : List Text) :
    List Output :=
  documents o format d paths ++ styles o format directory d paths

/-- A run over the files `paths`, in a known format and with an output directory, which there is on
the disk `made`. On that disk no document is to take the place of a directory or of an input. -/
structure Batch (s : Surroundings) (o : Options) (directory : Text) (format : Format) (made : Disk)
    (paths : List Text) : Prop where
  request : request? s.arguments = some (.convert o)
  inputs : o.inputs ≠ []
  output : o.output = some directory
  known : Format.ofName? o.format = some format
  ensured : s.disk.ensureAll directory = (made, none)
  selected : ∃ log, filesOfAll made o.inputs = (paths, log, none)
  free : ∀ out ∈ documents o format made (Path.ordered paths),
    made.isDirectory (Path.join directory out.name) = false
  apart : ∀ out ∈ documents o format made (Path.ordered paths), ∀ p ∈ paths,
    made.locate (Path.join directory out.name) ≠ made.locate p

structure Fits (path : Text) : Prop where
  whole : Text.byteSize path ≤ longestPath
  pieces : ∀ piece ∈ Text.splitAt '/' path, Text.byteSize piece ≤ longestName

instance (path : Text) : Decidable (Fits path) :=
  decidable_of_iff (Text.byteSize path ≤ longestPath ∧
      ∀ piece ∈ Text.splitAt '/' path, Text.byteSize piece ≤ longestName)
    ⟨fun h => ⟨h.1, h.2⟩, fun h => ⟨h.whole, h.pieces⟩⟩

section Names

variable {o : Options} {format : Format} {d : Disk} {paths : List Text}

theorem outputs_of_styled {directory : Text} (h : format = .html ∧ o.noStylesheet = false ∧
      (documents o format d paths).isEmpty = false ∧
      d.has (Path.join directory stylesheetName) = false) :
    outputs o format directory d paths =
      documents o format d paths ++ [⟨stylesheetName, encode stylesheet⟩] := by
  rw [outputs, styles, if_pos h]

theorem outputs_of_not_styled {directory : Text} (h : ¬(format = .html ∧ o.noStylesheet = false ∧
      (documents o format d paths).isEmpty = false ∧
      d.has (Path.join directory stylesheetName) = false)) :
    outputs o format directory d paths = documents o format d paths := by
  rw [outputs, styles, if_neg h, List.append_nil]

theorem name_of_mem_documents {out : Output} (h : out ∈ documents o format d paths) :
    ∃ stem, '/' ∉ stem ∧ out.name = documentName stem format := by
  unfold documents at h
  split_ifs at h
  · unfold jointDocument at h
    simp only at h
    split_ifs at h
    · cases h
    · obtain rfl := List.mem_singleton.1 h
      exact ⟨format.stem, slash_not_mem_stem format, rfl⟩
  · obtain ⟨p, -, rfl⟩ := List.mem_map.1 h
    exact ⟨outputStem p, slash_not_mem_outputStem p, rfl⟩

end Names

section Running

variable {s : Surroundings} {o : Options} {directory : Text} {format : Format} {made : Disk}
  {paths : List Text}

theorem fitting_of_fits {name : Text} (hne : directory ≠ []) (hname : '/' ∉ name)
    (hnamed : Disk.isStep name = false) (h : Fits (Path.join directory name)) :
    Fitting directory name := by
  obtain ⟨pieces, hpieces, -⟩ := Disk.splitAt_join hne hname
  have hpiece : name ∈ Text.splitAt '/' (Path.join directory name) :=
    hpieces ▸ List.mem_append_right _ List.mem_cons_self
  exact ⟨hname, hnamed, h.whole, h.pieces name hpiece⟩

theorem Batch.started (h : Batch s o directory format made paths) :
    Started s o directory format made paths :=
  ⟨h.request, h.inputs, h.output, h.known, h.ensured, h.selected⟩

theorem has_of_mem_styles {out : Output} (h : out ∈ styles o format directory made paths) :
    out.name = stylesheetName ∧ made.has (Path.join directory stylesheetName) = false := by
  unfold styles at h
  split_ifs at h with hwanted
  · obtain rfl := List.mem_singleton.1 h
    exact ⟨rfl, hwanted.2.2.2⟩
  · cases h

theorem Batch.fitting (h : Batch s o directory format made paths)
    (hfits : ∀ out ∈ outputs o format directory made (Path.ordered paths),
      Fits (Path.join directory out.name)) :
    ∀ out ∈ outputs o format directory made (Path.ordered paths), Fitting directory out.name := by
  intro out hout
  rcases List.mem_append.1 hout with hdocument | hstyle
  · obtain ⟨stem, hstem, hname⟩ := name_of_mem_documents hdocument
    refine fitting_of_fits h.started.directory_ne_nil ?_ ?_ (hfits out hout) <;> rw [hname]
    · exact slash_not_mem_documentName hstem format
    · exact isStep_documentName stem format
  · obtain ⟨hname, -⟩ := has_of_mem_styles hstyle
    refine fitting_of_fits h.started.directory_ne_nil ?_ ?_ (hfits out hout) <;> rw [hname] <;>
      decide

theorem Batch.workable (h : Batch s o directory format made paths)
    (hfits : ∀ out ∈ outputs o format directory made (Path.ordered paths),
      Fits (Path.join directory out.name)) :
    ∃ place, Workable directory place (outputs o format directory made (Path.ordered paths))
      (Path.ordered paths) made := by
  obtain ⟨place, hlocated, hdirectory⟩ := h.started.located
  have hfitting := h.fitting hfits
  have hitem : ∀ out ∈ outputs o format directory made (Path.ordered paths),
      made.itemAt? (Path.join directory out.name) = made.item? (place ++ [out.name]) := by
    intro out hout
    have hfit := hfitting out hout
    exact Disk.itemAt?_join hlocated hfit.single hfit.path hdirectory hfit.named hfit.size
  -- nothing has the name of the style sheet if it is an output
  have hnone {out : Output} (hout : out ∈ styles o format directory made (Path.ordered paths)) :
      made.item? (place ++ [out.name]) = none := by
    obtain ⟨hname, hhas⟩ := has_of_mem_styles hout
    rw [Disk.has, ← hname, hitem out (List.mem_append_right _ hout)] at hhas
    simpa using hhas
  refine ⟨place, hlocated, hdirectory, hfitting, fun out hout => ?_, fun p hp => ?_⟩
  · rcases List.mem_append.1 hout with hdocument | hstyle
    · have hfree := h.free out hdocument
      rw [Disk.isDirectory, hitem out hout] at hfree
      intro hdirectory
      rw [hdirectory] at hfree
      cases hfree
    · rw [hnone hstyle]
      exact (Option.some_ne_none _).symm
  · obtain ⟨input, content, hlocate, hfile⟩ := h.started.isFile p (Path.mem_of_mem_ordered hp)
    refine ⟨input, content, hlocate, hfile, fun out hout => ?_⟩
    rintro rfl
    rcases List.mem_append.1 hout with hdocument | hstyle
    · have hfit := hfitting out hout
      refine h.apart out hdocument p (Path.mem_of_mem_ordered hp) (Eq.trans ?_ hlocate.symm)
      exact Disk.locate_join_of_isSome hlocated hfit.single hfit.path hdirectory hfit.named
        hfit.size (by rw [hfile]; rfl)
    · cases (hnone hstyle).symm.trans hfile

section Converted

variable {place : Place} {files : List Text}
  (h : Workable directory place (outputs o format directory made files) files made)
include h

theorem wrote_documents : Wrote place made (documents o format made files)
    (convertDocuments o format directory made files) := by
  have hmem : ∀ out ∈ documents o format made files, out ∈ outputs o format directory made files :=
    fun out => List.mem_append_left _
  unfold convertDocuments
  unfold documents at hmem ⊢
  split_ifs with hsingle
  · rw [if_pos hsingle] at hmem
    exact wrote_convertAll h format hmem
  · rw [if_neg hsingle] at hmem
    exact wrote_convertEach h format (List.Subset.refl files) hmem

theorem itemAt?_stylesheet :
    (writeAll place made (documents o format made files)).itemAt?
      (Path.join directory stylesheetName) = made.itemAt? (Path.join directory stylesheetName) := by
  have hafter := h.afterAll (List.subset_append_left (documents o format made files) _)
  by_cases hpath : Text.byteSize (Path.join directory stylesheetName) ≤ longestPath
  · have hname : '/' ∉ stylesheetName := by decide
    have hsize : Text.byteSize stylesheetName ≤ longestName := by decide
    rw [Disk.itemAt?_join hafter.located hname hpath hafter.isDirectory rfl hsize,
      Disk.itemAt?_join h.located hname hpath h.isDirectory rfl hsize]
    refine item?_writeAll_of_ne fun out hout he => ?_
    obtain ⟨stem, -, hstem⟩ := name_of_mem_documents hout
    have hsame := (List.cons.inj (List.append_cancel_left he)).1
    exact documentName_ne_stylesheetName stem format (hstem ▸ hsame.symm)
  · have hnone (d : Disk) : d.itemAt? (Path.join directory stylesheetName) = none := by
      unfold Disk.itemAt?
      cases hlocate : d.locate (Path.join directory stylesheetName) with
      | error fault => rfl
      | ok next => exact absurd (Disk.locate_eq_ok.1 hlocate).2.1 hpath
    rw [hnone, hnone]

theorem convertPaths_eq :
    (convertPaths o format directory made files).disk =
        writeAll place made (outputs o format directory made files) ∧
      (convertPaths o format directory made files).failure = none := by
  have hwrote := wrote_documents h
  have hafter := h.afterAll (List.subset_append_left (documents o format made files) _)
  have hstylesheet := itemAt?_stylesheet h
  rw [convertPaths_eq_documents]
  generalize convertDocuments o format directory made files = r at hwrote ⊢
  simp only
  have hwants : wantsStylesheet o format r = true ↔ format = .html ∧ o.noStylesheet = false ∧
      (documents o format made files).isEmpty = false := by
    simp only [wantsStylesheet, hwrote.written, hwrote.failure, Option.isNone_none, Bool.and_true,
      Bool.and_eq_true, Bool.not_eq_true', decide_eq_true_eq]
    tauto
  have hhas : r.disk.has (Path.join directory stylesheetName) =
      made.has (Path.join directory stylesheetName) := by
    rw [Disk.has, hwrote.disk, hstylesheet]
    rfl
  by_cases hw : wantsStylesheet o format r = true
  · obtain ⟨hhtml, hstyled, hsome⟩ := hwants.1 hw
    rw [if_pos hw, addStylesheet]
    simp only [hhas]
    cases hmade : made.has (Path.join directory stylesheetName) with
    | true =>
        rw [outputs_of_not_styled (by simp [hmade])]
        exact ⟨hwrote.disk, hwrote.failure⟩
    | false =>
        have houtputs := outputs_of_styled ⟨hhtml, hstyled, hsome, hmade⟩
        have hmem : ⟨stylesheetName, encode stylesheet⟩ ∈ outputs o format directory made files :=
          houtputs ▸ List.mem_append_right _ List.mem_cons_self
        have hwrite := hafter.write_eq hmem
        rw [← hwrote.disk] at hwrite
        rw [houtputs, writeAll_concat, ← hwrote.disk]
        simp only [hwrite, Bool.false_eq_true, if_false]
        exact ⟨trivial, hwrote.failure⟩
  · rw [if_neg hw, outputs_of_not_styled fun hwanted =>
      hw (hwants.2 ⟨hwanted.1, hwanted.2.1, hwanted.2.2.1⟩)]
    exact ⟨hwrote.disk, hwrote.failure⟩

end Converted

/-- A batch run ends well, and what it leaves on the disk is all outputs, written one after
another. -/
theorem Batch.run_eq (h : Batch s o directory format made paths)
    (hfits : ∀ out ∈ outputs o format directory made (Path.ordered paths),
      Fits (Path.join directory out.name)) :
    ∃ place, Workable directory place (outputs o format directory made (Path.ordered paths))
        (Path.ordered paths) made ∧
      (run s).exitCode = 0 ∧
      (run s).disk =
        writeAll place made (outputs o format directory made (Path.ordered paths)) := by
  obtain ⟨place, hworkable⟩ := h.workable hfits
  obtain ⟨hdisk, hfailure⟩ := convertPaths_eq hworkable
  exact ⟨place, hworkable, h.started.exitCode_eq_zero.2 hfailure, h.started.run_disk.trans hdisk⟩

end Running

section Written

theorem exists_of_getLast?_filter {α : Type} {p : α → Bool} {xs : List α} {x : α}
    (h : (xs.filter p).getLast? = some x) :
    ∃ front back, xs = front ++ x :: back ∧ p x = true ∧ ∀ y ∈ back, p y = false := by
  obtain ⟨before, hbefore⟩ := List.getLast?_eq_some_iff.1 h
  obtain ⟨first, second, rfl, -, hsecond⟩ := List.filter_eq_append_iff.1 hbefore
  obtain ⟨middle, back, rfl, -, hx, hback⟩ := List.filter_eq_cons_iff.1 hsecond
  refine ⟨first ++ middle, back, (List.append_assoc ..).symm, hx, fun y hy => ?_⟩
  exact Bool.eq_false_iff.2 (List.filter_eq_nil_iff.1 hback y hy)

variable {directory : Text} {place : Place} {files : List Text} {d : Disk} {written : List Output}
  {out : Output}

theorem Workable.item?_output (h : Workable directory place written files d)
    (hout : out ∈ written) :
    (writeAll place d written).itemAt? (Path.join directory out.name) =
      (writeAll place d written).item? (place ++ [out.name]) := by
  have hafter := h.afterAll (List.Subset.refl _)
  have hfit := h.fitting out hout
  exact Disk.itemAt?_join hafter.located hfit.single hfit.path hafter.isDirectory hfit.named
    hfit.size

theorem Workable.itemAt?_last {front back : List Output}
    (h : Workable directory place written files d) (hwritten : written = front ++ out :: back)
    (hlast : ∀ later ∈ back, later.name ≠ out.name) :
    (writeAll place d written).itemAt? (Path.join directory out.name) =
      some (.file out.content) := by
  rw [h.item?_output (hwritten ▸ List.mem_append_right front List.mem_cons_self), hwritten]
  exact item?_writeAll_of_last hlast front

theorem Workable.item?_elsewhere (h : Workable directory place written files d) {p : Place}
    (hp : ∀ out ∈ written,
      (writeAll place d written).locate (Path.join directory out.name) ≠ .ok p) :
    (writeAll place d written).item? p = d.item? p := by
  have hafter := h.afterAll (List.Subset.refl _)
  refine item?_writeAll_of_ne fun out hout he => hp out hout ?_
  have hfit := h.fitting out hout
  rw [he]
  exact Disk.locate_join_of_isSome hafter.located hfit.single hfit.path hafter.isDirectory
    hfit.named hfit.size (isSome_writeAll (.inr ⟨out, hout, rfl⟩))

end Written

section Useful

variable {s : Surroundings} {o : Options} {directory : Text} {format : Format} {made : Disk}
  {paths : List Text}

theorem documents_filter (o : Options) (format : Format) (d : Disk) (paths : List Text) :
    documents o format d (paths.filter fun p => classesOf d p ≠ []) =
      documents o format d paths := by
  have hjoint : (paths.filter fun p => classesOf d p ≠ []).flatMap (classesOf d) =
      paths.flatMap (classesOf d) := by
    induction paths with
    | nil => rfl
    | cons p paths ih =>
        rw [List.filter_cons]
        split_ifs with hp
        · rw [List.flatMap_cons, List.flatMap_cons, ih]
        · rw [List.flatMap_cons, ih, of_not_not (of_decide_eq_false (Bool.eq_false_iff.2 hp)),
            List.nil_append]
  unfold documents
  split_ifs
  · rw [jointDocument, hjoint, jointDocument]
  · rw [eachDocument, List.filter_filter, eachDocument]
    simp only [Bool.and_self]

theorem isEmpty_documents {d : Disk} (h : ∃ p ∈ paths, classesOf d p ≠ []) :
    (documents o format d paths).isEmpty = false := by
  obtain ⟨p, hp, hsome⟩ := h
  unfold documents
  split_ifs
  · have hne : paths.flatMap (classesOf d) ≠ [] :=
      fun hnil => hsome (List.flatMap_eq_nil_iff.1 hnil p hp)
    rw [jointDocument, if_neg hne]
    rfl
  · have hmem : p ∈ paths.filter fun p => classesOf d p ≠ [] :=
      List.mem_filter.2 ⟨hp, decide_eq_true hsome⟩
    exact List.isEmpty_eq_false_iff.2 (List.ne_nil_of_mem (List.mem_map_of_mem hmem))

theorem Batch.respects (h : Batch s o directory format made paths) :
    Path.Respects (fun p => classesOf made p ≠ []) paths := by
  intro p hp q hq hcomponents
  obtain ⟨place, content, hlocate, hfile⟩ := h.started.isFile p hp
  obtain ⟨place', content', hlocate', hfile'⟩ := h.started.isFile q hq
  obtain rfl := Disk.locate_eq_of_components hcomponents hlocate hlocate'
  have hclasses : classesOf made p = classesOf made q := by
    unfold classesOf
    rw [Disk.read_of_file hlocate hfile, Disk.read_of_file hlocate' hfile]
  simp only [hclasses]

theorem Batch.documents_ordered (h : Batch s o directory format made paths) :
    documents o format made (Path.ordered paths) =
      documents o format made (Path.ordered (paths.filter fun p => classesOf made p ≠ [])) := by
  rw [← documents_filter, Path.filter_ordered h.respects]

/-- Leaving out inputs without types makes a run with the same outputs. -/
theorem Batch.without_idle (h : Batch s o directory format made paths)
    {front extra back : List Text} (hinputs : o.inputs = front ++ extra ++ back)
    (hne : front ++ back ≠ [])
    (hidle : ∀ pattern ∈ extra, ∀ files log, filesOf made pattern = .ok (files, log) →
      ∀ p ∈ files, classesOf made p = [])
    {t : Surroundings} (hdisk : t.disk = s.disk)
    (hrequest : request? t.arguments = some (.convert { o with inputs := front ++ back })) :
    ∃ paths', Batch t { o with inputs := front ++ back } directory format made paths' ∧
      documents o format made (Path.ordered paths') =
        documents o format made (Path.ordered paths) := by
  obtain ⟨log, hselected⟩ := h.selected
  rw [hinputs] at hselected
  obtain ⟨_, _, backFiles, backLog, hfront, hback, rfl, -⟩ := filesOfAll_append.1 hselected
  obtain ⟨frontFiles, frontLog, extraFiles, extraLog, hfirst, hextra, rfl, -⟩ :=
    filesOfAll_append.1 hfront
  -- the documents depend on the files with types only, and the further inputs find none of these
  have hfiltered : (frontFiles ++ extraFiles ++ backFiles).filter (fun p => classesOf made p ≠ []) =
      (frontFiles ++ backFiles).filter fun p => classesOf made p ≠ [] := by
    have hnone : extraFiles.filter (fun p => classesOf made p ≠ []) = [] := by
      refine List.filter_eq_nil_iff.2 fun p hp => ?_
      obtain ⟨pattern, hpattern, files, note, hfiles, hmem⟩ := mem_filesOfAll hextra p hp
      simp [hidle pattern hpattern files note hfiles p hmem]
    simp only [List.filter_append, hnone, List.append_nil]
  have hsubset : frontFiles ++ backFiles ⊆ frontFiles ++ extraFiles ++ backFiles := by
    intro p hp
    simp only [List.mem_append] at hp ⊢
    tauto
  have hdocuments : documents o format made (Path.ordered (frontFiles ++ backFiles)) =
      documents o format made (Path.ordered (frontFiles ++ extraFiles ++ backFiles)) := by
    rw [h.documents_ordered, hfiltered, ← documents_filter,
      Path.filter_ordered (h.respects.of_subset hsubset)]
  refine ⟨frontFiles ++ backFiles,
    ⟨hrequest, hne, h.output, h.known, hdisk ▸ h.ensured, ?_, ?_, ?_⟩, hdocuments⟩
  · exact ⟨_, filesOfAll_append.2 ⟨_, _, _, _, hfirst, hback, rfl, rfl⟩⟩
  · exact fun out hout => h.free out (hdocuments ▸ hout)
  · exact fun out hout p hp => h.apart out (hdocuments ▸ hout) p (hsubset hp)

end Useful

section Result

variable {s : Surroundings} {o : Options} {directory : Text} {format : Format} {made : Disk}
  {place : Place} {files paths : List Text}

section Found

variable (h : Workable directory place (outputs o format directory made files) files made)
include h

theorem itemAt?_document (hsingle : o.single = false) {stem path : Text}
    (hlast : (files.filter fun p => outputStem p = stem ∧ classesOf made p ≠ []).getLast? =
      some path) :
    (writeAll place made (outputs o format directory made files)).itemAt?
        (documentPath directory stem format) =
      some (.file (encode (format.render (classesOf made path)))) := by
  simp only [Bool.decide_and, ← List.filter_filter] at hlast
  obtain ⟨front, back, hfiles, hstem, hback⟩ := exists_of_getLast?_filter hlast
  obtain rfl := of_decide_eq_true hstem
  have hwritten : outputs o format directory made files =
      front.map (documentOf format made) ++ documentOf format made path ::
        (back.map (documentOf format made) ++ styles o format directory made files) := by
    rw [outputs, documents, hsingle, eachDocument, hfiles]
    simp
  refine h.itemAt?_last hwritten fun later hlater => ?_
  rcases List.mem_append.1 hlater with hlater | hlater
  · obtain ⟨p, hp, rfl⟩ := List.mem_map.1 hlater
    exact fun hname => of_decide_eq_false (hback p hp) (documentName_inj hname)
  · rw [(has_of_mem_styles hlater).1]
    exact (documentName_ne_stylesheetName _ _).symm

theorem itemAt?_jointDocument (hsingle : o.single = true)
    (hsome : files.flatMap (classesOf made) ≠ []) :
    (writeAll place made (outputs o format directory made files)).itemAt?
        (documentPath directory format.stem format) =
      some (.file (encode (format.render (files.flatMap (classesOf made))))) := by
  have hwritten : outputs o format directory made files =
      [] ++ ⟨documentName format.stem format,
        encode (format.render (files.flatMap (classesOf made)))⟩ ::
          styles o format directory made files := by
    rw [outputs, documents, hsingle, if_pos rfl, jointDocument, if_neg hsome]
    rfl
  refine h.itemAt?_last hwritten fun later hlater => ?_
  rw [(has_of_mem_styles hlater).1]
  exact (documentName_ne_stylesheetName _ _).symm

theorem itemAt?_style (hhtml : format = .html) (hstyled : o.noStylesheet = false)
    (hsome : ∃ p ∈ files, classesOf made p ≠ [])
    (hnone : made.has (Path.join directory stylesheetName) = false) :
    (writeAll place made (outputs o format directory made files)).itemAt?
        (Path.join directory stylesheetName) = some (.file (encode stylesheet)) := by
  have hwritten := outputs_of_styled ⟨hhtml, hstyled, isEmpty_documents hsome, hnone⟩
  simpa only using h.itemAt?_last hwritten (List.forall_mem_nil _)

theorem itemAt?_style_of_has (hhas : made.has (Path.join directory stylesheetName) = true) :
    (writeAll place made (outputs o format directory made files)).itemAt?
        (Path.join directory stylesheetName) =
      made.itemAt? (Path.join directory stylesheetName) := by
  rw [outputs_of_not_styled (by simp [hhas])]
  exact itemAt?_stylesheet h

end Found

theorem outputs_eq_nil (hsingle : o.single = true) (hnone : files.flatMap (classesOf made) = []) :
    outputs o format directory made files = [] := by
  have hdocuments : documents o format made files = [] := by
    rw [documents, if_pos hsingle, jointDocument, if_pos hnone]
  rw [outputs_of_not_styled (by simp [hdocuments]), hdocuments]

/-- What a batch run leaves on the disk: for each stem the document of the last file with types, or
one document of all types; beside HTML the style sheet, if nothing has its name; and else the files
that were there. Inputs without types make no difference. -/
theorem batch_result (h : Batch s o directory format made paths)
    (hfits : ∀ out ∈ outputs o format directory made (Path.ordered paths),
      Fits (Path.join directory out.name)) :
    (run s).exitCode = 0 ∧
    (o.single = false → ∀ stem path,
      ((Path.ordered paths).filter fun p => outputStem p = stem ∧ classesOf made p ≠ []).getLast? =
        some path →
      (run s).disk.itemAt? (documentPath directory stem format) =
        some (.file (encode (format.render (classesOf made path))))) ∧
    (o.single = true →
      ((Path.ordered paths).flatMap (classesOf made) ≠ [] →
        (run s).disk.itemAt? (documentPath directory format.stem format) =
          some (.file (encode (format.render ((Path.ordered paths).flatMap (classesOf made)))))) ∧
      ((Path.ordered paths).flatMap (classesOf made) = [] → (run s).disk = made)) ∧
    (format = .html → o.noStylesheet = false → (∃ p ∈ Path.ordered paths, classesOf made p ≠ []) →
      made.has (Path.join directory stylesheetName) = false →
      (run s).disk.itemAt? (Path.join directory stylesheetName) =
        some (.file (encode stylesheet))) ∧
    (made.has (Path.join directory stylesheetName) = true →
      (run s).disk.itemAt? (Path.join directory stylesheetName) =
        made.itemAt? (Path.join directory stylesheetName)) ∧
    (∀ place content, (∀ out ∈ outputs o format directory made (Path.ordered paths),
        (run s).disk.locate (Path.join directory out.name) ≠ .ok place) →
      ((run s).disk.item? place = some (.file content) ↔
        s.disk.item? place = some (.file content))) ∧
    ∀ front extra back, o.inputs = front ++ extra ++ back → front ++ back ≠ [] →
      (∀ pattern ∈ extra, ∀ files log, filesOf made pattern = .ok (files, log) →
        ∀ p ∈ files, classesOf made p = []) →
      ∀ t : Surroundings, t.disk = s.disk →
        request? t.arguments = some (.convert { o with inputs := front ++ back }) →
        (run t).exitCode = 0 ∧ (run t).disk = (run s).disk := by
  obtain ⟨place, hworkable, hexit, hdisk⟩ := h.run_eq hfits
  have hadds := h.started.adds
  refine ⟨hexit, fun hsingle stem path hlast => ?_,
    fun hsingle => ⟨fun hsome => ?_, fun hnone => ?_⟩, fun hhtml hstyled hsome hnone => ?_,
    fun hhas => ?_, fun p content hp => ?_,
    fun front extra back hinputs hne hidle t ht hrequest => ?_⟩
  · rw [hdisk]
    exact itemAt?_document hworkable hsingle hlast
  · rw [hdisk]
    exact itemAt?_jointDocument hworkable hsingle hsome
  · rw [hdisk, outputs_eq_nil hsingle hnone]
    rfl
  · rw [hdisk]
    exact itemAt?_style hworkable hhtml hstyled hsome hnone
  · rw [hdisk]
    exact itemAt?_style_of_has hworkable hhas
  · rw [hdisk] at hp ⊢
    rw [hworkable.item?_elsewhere hp]
    exact hadds.item?_file p content
  · obtain ⟨paths', hbatch, hdocuments⟩ := h.without_idle hinputs hne hidle ht hrequest
    have houtputs : outputs { o with inputs := front ++ back } format directory made
        (Path.ordered paths') = outputs o format directory made (Path.ordered paths) := by
      unfold outputs styles
      rw [← hdocuments]
      rfl
    obtain ⟨place', hworkable', hexit', hdisk'⟩ := hbatch.run_eq (houtputs ▸ hfits)
    have hplace : place' = place :=
      Except.ok.inj (hworkable'.located.symm.trans hworkable.located)
    rw [hdisk', hdisk, houtputs, hplace]
    exact ⟨hexit', rfl⟩

end Result

/-- Of two files with one stem the last one counts, and a file that is no document counts for
nothing. -/
theorem batch_result_same_stem :
    let d : Disk := ⟨[], [(["a"], .directory), (["b"], .directory),
      (["a", "x.xml"], .file (encode "<doc><member name=\"T:N.A\"/></doc>")),
      (["b", "x.xml"], .file (encode "<doc><member name=\"T:N.B\"/></doc>")),
      (["bad.xml"], .file (encode "<doc>"))]⟩
    let s : Surroundings :=
      ⟨["-f", "html", "-o", "out", "b/x.xml", "bad.xml", "a/x.xml"], none, .empty, d⟩
    let t : Surroundings := ⟨["-f", "html", "-o", "out", "b/x.xml", "a/x.xml"], none, .empty, d⟩
    (run s).exitCode = 0 ∧
      (run s).disk.itemAt? "out/x.html" =
        some (.file (encode (Html.render [⟨"B", "N", [], [], []⟩]))) ∧
      (run s).disk.itemAt? "out/styles.css" = some (.file (encode stylesheet)) ∧
      (run t).exitCode = 0 ∧ (run t).disk = (run s).disk := by
  intro d s t
  let o : Options := ⟨["b/x.xml", "bad.xml", "a/x.xml"], some "out", "html", false, false⟩
  let made := (d.ensureAll "out").1
  have hbatch : Batch s o "out" .html made o.inputs :=
    { request := by decide +kernel
      inputs := by decide
      output := rfl
      known := by decide +kernel
      ensured := Prod.ext rfl (by decide +kernel)
      selected := ⟨[], Prod.ext (by decide +kernel)
        (Prod.ext (by decide +kernel) (by decide +kernel))⟩
      free := by decide +kernel
      apart := by decide +kernel }
  have hclasses : classesOf made "b/x.xml" = [⟨"B", "N", [], [], []⟩] := by decide +kernel
  have hbad : filesOf made "bad.xml" = .ok (["bad.xml"], []) := if_pos (by decide +kernel)
  obtain ⟨hexit, hlast, -, hstyle, -, -, hidle⟩ := batch_result hbatch (by decide +kernel)
  refine ⟨hexit, ?_, ?_, ?_⟩
  · have hdocument := hlast rfl "x" "b/x.xml" (by decide +kernel)
    rw [hclasses] at hdocument
    exact hdocument
  · exact hstyle rfl rfl ⟨"b/x.xml", by decide +kernel, by decide +kernel⟩ (by decide +kernel)
  · refine hidle ["b/x.xml"] ["bad.xml"] ["a/x.xml"] rfl (by decide) ?_ t rfl (by decide +kernel)
    intro pattern hpattern files log hfiles
    obtain rfl := List.mem_singleton.1 hpattern
    obtain ⟨rfl, -⟩ := Prod.mk.inj (Except.ok.inj (hbad.symm.trans hfiles))
    decide +kernel

set_option maxRecDepth 4000 in
/-- Documents are named after their inputs, and such a name may be too long for a file. -/
theorem exitCode_longName :
    let name : Text := List.replicate 253 'a'
    let s : Surroundings := ⟨["-o", "out", name], none, .empty,
      ⟨[], [([name], .file (encode "<doc><member name=\"T:A\"/></doc>"))]⟩⟩
    let o : Options := ⟨[name], some "out", "markdown", false, false⟩
    Batch s o "out" (.markdown .plain) (s.disk.ensureAll "out").1 [name] ∧
      (run s).exitCode = 1 := by
  intro name s o
  have hbatch : Batch s o "out" (.markdown .plain) (s.disk.ensureAll "out").1 [name] :=
    { request := by decide +kernel
      inputs := by decide
      output := rfl
      known := by decide +kernel
      ensured := Prod.ext rfl (by decide +kernel)
      selected := ⟨[], Prod.ext (by decide +kernel)
        (Prod.ext (by decide +kernel) (by decide +kernel))⟩
      free := by decide +kernel
      apart := by decide +kernel }
  exact ⟨hbatch, by decide +kernel⟩

end ApiDocs.Command
