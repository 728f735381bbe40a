import ApiDocs.Proofs.Command.Started
import ApiDocs.Proofs.Files.Alike
import Mathlib.Data.List.Forall2

namespace ApiDocs.Command

open Files

/-- Two spellings of a path that lead to one place on two disks. -/
structure SameFile (d e : Disk) (p q : Text) : Prop where
  components : Path.components p = Path.components q
  place : ∃ place, d.locate p = .ok place ∧ e.locate q = .ok place

/-- Reports of runs that have read the same files and left the same. -/
structure Agree (r r' : Report) : Prop where
  disk : Disk.Alike r.disk r'.disk
  written : r.written = r'.written
  failure : r.failure.isSome = r'.failure.isSome
  read : List.Forall₂ (SameFile r.disk r'.disk) (filesRead r.log) (filesRead r'.log)

section Selecting

variable {d e : Disk} {patterns others paths files : List Text} {log note : List Log.Record}
  {pattern : Text}

theorem filesOf_alike (h : Disk.Alike d e) (hfiles : filesOf d pattern = .ok (files, note)) :
    ∃ files' note', filesOf e pattern = .ok (files', note') ∧ files ⊆ files' := by
  unfold filesOf at hfiles ⊢
  rw [h.isFile, h.isDirectory] at hfiles
  split_ifs at hfiles ⊢
  · exact ⟨files, note, hfiles, List.Subset.refl _⟩
  · cases hfiles
    refine ⟨_, _, rfl, ?_⟩
    unfold documentsIn
    rw [show d.isFile = e.isFile from funext h.isFile]
    exact List.filter_subset _ (List.map_subset _ (h.namesAt pattern))
  · cases hread : Glob.read pattern with
    | error fault =>
        rw [hread] at hfiles
        cases hfiles
    | ok p =>
        rw [hread] at hfiles
        simp only at hfiles ⊢
        have hsubset := matchesOf_subset h p
        have hfound : files = matchesOf d p := by
          split at hfiles <;> cases hfiles
          · next hnil => exact hnil.symm
          · rfl
        rw [hfound]
        split
        · next hnil => exact ⟨_, _, rfl, hnil ▸ hsubset⟩
        · exact ⟨_, _, rfl, hsubset⟩

theorem filesOf_of_mem (h : filesOfAll d patterns = (paths, log, none))
    (hmem : pattern ∈ patterns) :
    ∃ files note, filesOf d pattern = .ok (files, note) ∧ files ⊆ paths := by
  induction patterns generalizing paths log with
  | nil => cases hmem
  | cons first patterns ih =>
      obtain ⟨files, note, rest, notes, hfiles, hrest, rfl, rfl⟩ := filesOfAll_cons.1 h
      rcases List.mem_cons.1 hmem with rfl | hmem
      · exact ⟨files, note, hfiles, List.subset_append_left _ _⟩
      · obtain ⟨found, note', hfound, hsubset⟩ := ih hrest hmem
        exact ⟨found, note', hfound, List.subset_append_of_subset_right _ hsubset⟩

theorem filesOfAll_alike (h : Disk.Alike d e) (hall : filesOfAll d patterns = (paths, log, none))
    (hothers : others ⊆ patterns) :
    ∃ paths' log', filesOfAll e others = (paths', log', none) ∧ paths' ⊆ paths := by
  induction others with
  | nil => exact ⟨[], [], rfl, List.nil_subset _⟩
  | cons pattern others ih =>
      obtain ⟨hpattern, hothers⟩ := List.cons_subset.1 hothers
      obtain ⟨rest, notes, hrest, hsubset⟩ := ih hothers
      obtain ⟨files, note, hfiles, hincluded⟩ := filesOf_of_mem hall hpattern
      obtain ⟨files', note', hfiles', -⟩ := filesOf_alike h hfiles
      obtain ⟨_, _, hback, hsame⟩ := filesOf_alike h.symm hfiles'
      obtain ⟨rfl, rfl⟩ := Prod.mk.inj (Except.ok.inj (hback.symm.trans hfiles))
      exact ⟨_, _, filesOfAll_cons.2 ⟨files', note', rest, notes, hfiles', hrest, rfl, rfl⟩,
        List.append_subset.2 ⟨List.Subset.trans hsame hincluded, hsubset⟩⟩

theorem filesRead_filesOfAll (d : Disk) (patterns : List Text) :
    filesRead (filesOfAll d patterns).2.1 = [] := by
  have hone {pattern : Text} {files : List Text} {note : List Log.Record}
      (h : filesOf d pattern = .ok (files, note)) : filesRead note = [] := by
    unfold filesOf at h
    split_ifs at h
    · cases h
      rfl
    · cases h
      rfl
    · split at h
      · cases h
      · split at h <;> cases h <;> rfl
  induction patterns with
  | nil => rfl
  | cons pattern patterns ih =>
      rw [filesOfAll]
      cases hfiles : filesOf d pattern with
      | error failure => rfl
      | ok found =>
          simp only
          rw [filesRead, List.filterMap_append, ← filesRead, ← filesRead, hone hfiles, ih]
          rfl

end Selecting

section Reading

variable {d e d' e' : Disk} {p q directory : Text} {paths others : List Text} {format : Format}
  {r r' : Report} {log log' : List Log.Record} {o o' : Options}

theorem SameFile.mono (h : SameFile d e p q) (hd : Disk.Grows d d') (he : Disk.Grows e e') :
    SameFile d' e' p q := by
  obtain ⟨place, hp, hq⟩ := h.place
  exact ⟨h.components, place, hd.locate hp, he.locate hq⟩

theorem located_of_isFile (h : d.isFile p = true) : ∃ place, d.locate p = .ok place := by
  obtain ⟨place, -, hlocate, -⟩ := Disk.isFile_iff.1 h
  exact ⟨place, hlocate⟩

theorem SameFile.classesOf_eq (h : SameFile d e p q) (halike : Disk.Alike d e) :
    classesOf d p = classesOf e q := by
  obtain ⟨place, hp, hq⟩ := h.place
  have hread : d.read p = e.read q := by simp only [Disk.read, hp, hq, halike.item]
  rw [classesOf, classesOf, hread]

theorem flatMap_classesOf_eq (h : Disk.Alike d e)
    (hpaths : List.Forall₂ (SameFile d e) paths others) :
    paths.flatMap (classesOf d) = others.flatMap (classesOf e) := by
  induction hpaths with
  | nil => rfl
  | cons hfirst hrest ih => rw [List.flatMap_cons, List.flatMap_cons, ih, hfirst.classesOf_eq h]

theorem sameFile_of_located (hplaces : ∀ q, d.locate q = e.locate q)
    (hcomponents : paths.map Path.components = others.map Path.components)
    (hpaths : ∀ p ∈ paths, ∃ place, d.locate p = .ok place)
    (hothers : ∀ q ∈ others, ∃ place, e.locate q = .ok place) :
    List.Forall₂ (SameFile d e) paths others := by
  induction paths generalizing others with
  | nil =>
      cases others with
      | nil => exact .nil
      | cons q others => cases hcomponents
  | cons p paths ih =>
      cases others with
      | nil => cases hcomponents
      | cons q others =>
          obtain ⟨hfirst, hrest⟩ := List.cons.inj hcomponents
          obtain ⟨⟨place, hp⟩, hpaths⟩ := List.forall_mem_cons.1 hpaths
          obtain ⟨⟨place', hq⟩, hothers⟩ := List.forall_mem_cons.1 hothers
          obtain rfl := Disk.locate_eq_of_components hfirst hp ((hplaces q).trans hq)
          exact .cons ⟨hfirst, place, hp, hq⟩ (ih hrest hpaths hothers)

theorem sameFile_ordered {patterns patterns' : List Text} (h : Disk.Alike d e)
    (hpatterns : ∀ pattern, pattern ∈ patterns ↔ pattern ∈ patterns')
    (hall : filesOfAll d patterns = (paths, log, none))
    (hall' : filesOfAll e patterns' = (others, log', none)) :
    List.Forall₂ (SameFile d e) (Path.ordered paths) (Path.ordered others) := by
  obtain ⟨_, _, hsame, hless⟩ := filesOfAll_alike h hall fun p => (hpatterns p).2
  obtain ⟨rfl, -⟩ := Prod.mk.inj (hsame.symm.trans hall')
  obtain ⟨_, _, hsame, hmore⟩ := filesOfAll_alike h.symm hall' fun p => (hpatterns p).1
  obtain ⟨rfl, -⟩ := Prod.mk.inj (hsame.symm.trans hall)
  refine sameFile_of_located h.locate (Path.map_components_ordered fun c => ?_) (fun p hp => ?_)
    fun q hq => ?_
  · exact ⟨fun hc => List.map_subset _ hmore hc, fun hc => List.map_subset _ hless hc⟩
  · exact located_of_isFile (isFile_of_filesOfAll hall p (Path.mem_of_mem_ordered hp))
  · exact located_of_isFile (isFile_of_filesOfAll hall' q (Path.mem_of_mem_ordered hq))

theorem Agree.after (h : Agree r r')
    (hread : List.Forall₂ (SameFile r.disk r'.disk) (filesRead log) (filesRead log'))
    (written : Bool) : Agree (r.after log written) (r'.after log' written) where
  disk := h.disk
  written := congrArg (written || ·) h.written
  failure := h.failure
  read := by
    simp only [Report.after, filesRead, List.filterMap_append]
    exact List.rel_append hread h.read

theorem agree_failed {failure failure' : Failure} (h : Disk.Alike d e) (hlog : filesRead log = [])
    (hlog' : filesRead log' = []) :
    Agree ⟨d, log, false, some failure⟩ ⟨e, log', false, some failure'⟩ :=
  ⟨h, rfl, rfl, by rw [hlog, hlog']; exact .nil⟩

theorem agree_convertEach (h : Disk.Alike d e)
    (hpaths : List.Forall₂ (SameFile d e) paths others) :
    Agree (convertEach format directory d paths) (convertEach format directory e others) := by
  -- the disks are arbitrary: each file is read on the disks with the documents written so far
  induction paths generalizing d e others with
  | nil =>
      cases hpaths
      exact ⟨h, rfl, rfl, .nil⟩
  | cons p paths ih =>
      cases hpaths with
      | @cons _ q _ others hfirst hrest =>
      have hclasses := hfirst.classesOf_eq h
      have hread {log log' : List Log.Record} (hlog : filesRead log = [p])
          (hlog' : filesRead log' = [q]) {d' e' : Disk} (hd : Disk.Grows d d')
          (he : Disk.Grows e e') :
          List.Forall₂ (SameFile d' e') (filesRead log) (filesRead log') := by
        rw [hlog, hlog']
        exact .cons (hfirst.mono hd he) .nil
      by_cases hnil : classesOf d p = []
      · obtain ⟨log, hlog, heq⟩ := convertEach_cons_of_nil format directory hnil paths
        obtain ⟨log', hlog', heq'⟩ :=
          convertEach_cons_of_nil format directory (hclasses ▸ hnil) others
        rw [heq, heq']
        refine (ih h hrest).after ?_ false
        exact hread hlog hlog' (grows_convertEach ..) (grows_convertEach ..)
      · have hwrite := h.write (documentPath directory (outputStem p) format)
          (encode (format.render (classesOf d p)))
        generalize hleft : d.write _ _ = left, hright : e.write _ _ = right at hwrite
        rw [hclasses, outputStem_congr hfirst.components] at hright
        cases hwrite with
        | ok hwritten =>
            obtain ⟨log, hlog, heq⟩ := convertEach_cons_of_ok hnil hleft paths
            obtain ⟨log', hlog', heq'⟩ := convertEach_cons_of_ok (hclasses ▸ hnil) hright others
            have hd := Disk.grows_write hleft
            have he := Disk.grows_write hright
            rw [heq, heq']
            refine (ih hwritten (hrest.imp fun _ _ hsame => hsame.mono hd he)).after ?_ true
            exact hread hlog hlog' (hd.trans (grows_convertEach ..))
              (he.trans (grows_convertEach ..))
        | error fault =>
            obtain ⟨log, hlog, heq⟩ := convertEach_cons_of_error hnil hleft paths
            obtain ⟨log', hlog', heq'⟩ := convertEach_cons_of_error (hclasses ▸ hnil) hright others
            rw [heq, heq']
            exact ⟨h, rfl, rfl, hread hlog hlog' (Disk.Grows.refl d) (Disk.Grows.refl e)⟩

theorem agree_convertAll (h : Disk.Alike d e) (hpaths : List.Forall₂ (SameFile d e) paths others) :
    Agree (convertAll format directory d paths) (convertAll format directory e others) := by
  have hclasses := flatMap_classesOf_eq h hpaths
  have hread {log log' : List Log.Record} (hlog : filesRead log = paths)
      (hlog' : filesRead log' = others) {d' e' : Disk} (hd : Disk.Grows d d')
      (he : Disk.Grows e e') : List.Forall₂ (SameFile d' e') (filesRead log) (filesRead log') := by
    rw [hlog, hlog']
    exact hpaths.imp fun _ _ hsame => hsame.mono hd he
  by_cases hnil : paths.flatMap (classesOf d) = []
  · obtain ⟨log, hlog, heq⟩ := convertAll_of_nil format directory hnil
    obtain ⟨log', hlog', heq'⟩ := convertAll_of_nil format directory (hclasses ▸ hnil)
    rw [heq, heq']
    exact ⟨h, rfl, rfl, hread hlog hlog' (Disk.Grows.refl d) (Disk.Grows.refl e)⟩
  · have hwrite := h.write (documentPath directory format.stem format)
      (encode (format.render (paths.flatMap (classesOf d))))
    generalize hleft : d.write _ _ = left, hright : e.write _ _ = right at hwrite
    rw [hclasses] at hright
    cases hwrite with
    | ok hwritten =>
        obtain ⟨log, hlog, heq⟩ := convertAll_of_ok hnil hleft
        obtain ⟨log', hlog', heq'⟩ := convertAll_of_ok (hclasses ▸ hnil) hright
        rw [heq, heq']
        exact ⟨hwritten, rfl, rfl,
          hread hlog hlog' (Disk.grows_write hleft) (Disk.grows_write hright)⟩
    | error fault =>
        obtain ⟨log, hlog, heq⟩ := convertAll_of_error hnil hleft
        obtain ⟨log', hlog', heq'⟩ := convertAll_of_error (hclasses ▸ hnil) hright
        rw [heq, heq']
        exact ⟨h, rfl, rfl, hread hlog hlog' (Disk.Grows.refl d) (Disk.Grows.refl e)⟩

theorem Agree.addStylesheet (h : Agree r r') (directory : Text) :
    Agree (addStylesheet directory r) (addStylesheet directory r') := by
  have hwrite := h.disk.write (Path.join directory stylesheetName) (encode stylesheet)
  unfold Command.addStylesheet
  simp only [h.disk.has]
  split_ifs
  · exact h
  · generalize hleft : r.disk.write _ _ = left, hright : r'.disk.write _ _ = right at hwrite
    cases hwrite with
    | ok hwritten =>
        exact ⟨hwritten, h.written, h.failure, h.read.imp fun _ _ hsame =>
          hsame.mono (Disk.grows_write hleft) (Disk.grows_write hright)⟩
    | error fault => exact ⟨h.disk, h.written, rfl, h.read⟩

theorem agree_convertPaths (ho : o' = { o with inputs := o'.inputs }) (h : Disk.Alike d e)
    (hpaths : List.Forall₂ (SameFile d e) paths others) :
    Agree (convertPaths o format directory d paths)
      (convertPaths o' format directory e others) := by
  have hdocuments : Agree (convertDocuments o format directory d paths)
      (convertDocuments o' format directory e others) := by
    rw [ho]
    unfold convertDocuments
    split_ifs
    · exact agree_convertAll h hpaths
    · exact agree_convertEach h hpaths
  have hwants : wantsStylesheet o format (convertDocuments o format directory d paths) =
      wantsStylesheet o' format (convertDocuments o' format directory e others) := by
    rw [wantsStylesheet, wantsStylesheet, hdocuments.written, ← Option.not_isSome,
      ← Option.not_isSome, hdocuments.failure, ho]
  rw [convertPaths_eq_documents, convertPaths_eq_documents]
  simp only
  rw [hwants]
  split_ifs
  · exact hdocuments.addStylesheet directory
  · exact hdocuments

/-- The first pattern that cannot be read may be another one, but nothing is read then. -/
theorem agree_convertFiles (ho : o' = { o with inputs := o'.inputs })
    (hinputs : ∀ pattern, pattern ∈ o.inputs ↔ pattern ∈ o'.inputs) (h : Disk.Alike d e) :
    Agree (convertFiles o d) (convertFiles o' e) := by
  have houtput : o'.output = o.output := by rw [ho]
  have hformat : o'.format = o.format := by rw [ho]
  rw [convertFiles, convertFiles, houtput, hformat]
  cases o.output with
  | none => exact agree_failed h rfl rfl
  | some directory =>
      cases Format.ofName? o.format with
      | none => exact agree_failed h rfl rfl
      | some format =>
          have hmade := h.ensureAll directory
          rcases hd : d.ensureAll directory with ⟨made, fault⟩
          rcases he : e.ensureAll directory with ⟨made', fault'⟩
          rw [hd, he] at hmade
          obtain ⟨hmade, rfl : fault = fault'⟩ := hmade
          simp only [hd, he]
          cases fault with
          | some fault => exact agree_failed hmade rfl rfl
          | none =>
              have hread := filesRead_filesOfAll made o.inputs
              have hread' := filesRead_filesOfAll made' o'.inputs
              -- a pattern that cannot be read on one disk cannot be read on the other
              rcases hall : filesOfAll made o.inputs with ⟨paths, log, _ | failure⟩ <;>
                rcases hall' : filesOfAll made' o'.inputs with ⟨paths', log', _ | failure'⟩ <;>
                rw [hall] at hread <;> rw [hall'] at hread' <;> simp only [hall, hall']
              · have hfiles := sameFile_ordered hmade hinputs hall hall'
                refine (agree_convertPaths ho hmade hfiles).after ?_ false
                rw [hread, hread']
                exact .nil
              · obtain ⟨_, _, hsome, -⟩ := filesOfAll_alike hmade hall fun p => (hinputs p).2
                cases hsome.symm.trans hall'
              · obtain ⟨_, _, hsome, -⟩ := filesOfAll_alike hmade.symm hall' fun p => (hinputs p).1
                cases hsome.symm.trans hall
              · exact agree_failed hmade hread hread'

end Reading

section Complete

variable {d : Disk} {directory : Text} {format : Format} {paths : List Text}

theorem filesRead_convertEach (h : (convertEach format directory d paths).failure = none) :
    filesRead (convertEach format directory d paths).log = paths := by
  have hcons {path : Text} {log rest : List Log.Record} {paths : List Text}
      (hlog : filesRead log = [path]) (hrest : filesRead rest = paths) :
      filesRead (log ++ rest) = path :: paths := by
    rw [filesRead, List.filterMap_append, ← filesRead, ← filesRead, hlog, hrest]
    rfl
  induction paths generalizing d with
  | nil => rfl
  | cons path paths ih =>
      by_cases hnil : classesOf d path = []
      · obtain ⟨log, hlog, heq⟩ := convertEach_cons_of_nil format directory hnil paths
        rw [heq] at h ⊢
        exact hcons hlog (ih h)
      · cases hwrite : d.write (documentPath directory (outputStem path) format)
            (encode (format.render (classesOf d path))) with
        | error fault =>
            obtain ⟨log, -, heq⟩ := convertEach_cons_of_error hnil hwrite paths
            rw [heq] at h
            cases h
        | ok e =>
            obtain ⟨log, hlog, heq⟩ := convertEach_cons_of_ok hnil hwrite paths
            rw [heq] at h ⊢
            exact hcons hlog (ih h)

theorem filesRead_convertAll (format : Format) (directory : Text) (d : Disk) (paths : List Text) :
    filesRead (convertAll format directory d paths).log = paths := by
  by_cases hnil : paths.flatMap (classesOf d) = []
  · obtain ⟨log, hlog, heq⟩ := convertAll_of_nil format directory hnil
    rw [heq, hlog]
  · obtain ⟨log, log', hlog, hlog', heq⟩ := convertAll_of_ne hnil format directory
    rw [heq]
    simp only
    split
    · exact hlog
    · exact hlog'

theorem Started.filesRead_eq {s : Surroundings} {o : Options} {made : Disk}
    (h : Started s o directory format made paths) (hexit : (run s).exitCode = 0) :
    filesRead (convertFiles o s.disk).log = Path.ordered paths := by
  obtain ⟨log, hselected, hfiles⟩ := h.convertFiles_eq
  have hread := filesRead_filesOfAll made o.inputs
  rw [hselected] at hread
  have hnone := failure_convertDocuments (h.exitCode_eq_zero.1 hexit)
  have hdocuments : filesRead (convertDocuments o format directory made (Path.ordered paths)).log =
      Path.ordered paths := by
    unfold convertDocuments at hnone ⊢
    split_ifs at hnone ⊢
    · exact filesRead_convertAll format directory made _
    · exact filesRead_convertEach hnone
  have hlog : (convertPaths o format directory made (Path.ordered paths)).log =
      (convertDocuments o format directory made (Path.ordered paths)).log := by
    obtain he | ⟨-, he⟩ := convertPaths_cases o format directory made (Path.ordered paths) <;>
      rw [he]
    obtain ⟨e, -, he⟩ | ⟨-, he⟩ | ⟨fault, -, -, he⟩ := addStylesheet_cases directory
      (convertDocuments o format directory made (Path.ordered paths)) <;> rw [he]
  rw [hfiles, Report.after, filesRead, List.filterMap_append, ← filesRead, ← filesRead, hread, hlog,
    hdocuments]
  rfl

end Complete

/-- Two runs with the same options, over the same inputs in any order and number, on disks that list
the same items in any order, read the same files in the same order, end with the same exit code and
leave the same on their disks. A run that ends well has read every selected file once, in order. -/
theorem run_reordered {s t : Surroundings} {o o' : Options}
    (hrequest : request? s.arguments = some (.convert o))
    (hrequest' : request? t.arguments = some (.convert o'))
    (hfiles : o.inputs ≠ []) (hoptions : o' = { o with inputs := o'.inputs })
    (hinputs : ∀ pattern, pattern ∈ o.inputs ↔ pattern ∈ o'.inputs)
    (hdisk : Disk.Alike s.disk t.disk) :
    List.Forall₂ (SameFile (run s).disk (run t).disk) (filesRead (convertFiles o s.disk).log)
        (filesRead (convertFiles o' t.disk).log) ∧
      (run s).exitCode = (run t).exitCode ∧ Disk.Alike (run s).disk (run t).disk ∧
      ∀ directory format made paths, Started s o directory format made paths →
        (run s).exitCode = 0 → filesRead (convertFiles o s.disk).log = Path.ordered paths := by
  obtain ⟨pattern, hpattern⟩ := List.exists_mem_of_ne_nil _ hfiles
  have hfiles' : o'.inputs ≠ [] := List.ne_nil_of_mem ((hinputs pattern).1 hpattern)
  have hagree := agree_convertFiles hoptions hinputs hdisk
  have hread : ∀ directory format made paths, Started s o directory format made paths →
      (run s).exitCode = 0 → filesRead (convertFiles o s.disk).log = Path.ordered paths :=
    fun _ _ _ _ hstarted => hstarted.filesRead_eq
  rw [run_files hrequest' hfiles']
  rw [run_files hrequest hfiles] at hread ⊢
  refine ⟨hagree.read, ?_, hagree.disk, hread⟩
  simp only [outcome, hagree.failure]

/-- Two inputs have one stem, so their order counts, and one of them is spelled in two ways. -/
theorem run_reordered_same_stem :
    let d : Disk := ⟨[], [(["in"], .directory), (["x"], .directory),
      (["in", "b.xml"], .file (encode "<doc>")),
      (["in", "a.xml"], .file (encode "<doc><member name=\"T:N.A\"/></doc>")),
      (["x", "a.xml"], .file (encode "<doc><member name=\"T:N.B\"/></doc>"))]⟩
    let s : Surroundings := ⟨["-o", "out", "in", "x/a.xml", "in/./a.xml"], none, .empty, d⟩
    let o : Options := ⟨["in", "x/a.xml", "in/./a.xml"], some "out", "markdown", false, false⟩
    let t : Surroundings := ⟨["x/a.xml", "-oout", "in/./a.xml", "x/a.xml", "in"], none, .empty,
      ⟨[], d.items.reverse⟩⟩
    let o' : Options :=
      ⟨["x/a.xml", "in/./a.xml", "x/a.xml", "in"], some "out", "markdown", false, false⟩
    filesRead (convertFiles o s.disk).log = ["in/a.xml", "in/b.xml", "x/a.xml"] ∧
      filesRead (convertFiles o' t.disk).log = ["in/./a.xml", "in/b.xml", "x/a.xml"] ∧
      List.Forall₂ (SameFile (run s).disk (run t).disk) (filesRead (convertFiles o s.disk).log)
        (filesRead (convertFiles o' t.disk).log) ∧
      (run s).exitCode = (run t).exitCode ∧ Disk.Alike (run s).disk (run t).disk := by
  intro d s o t o'
  have hinputs : ∀ pattern, pattern ∈ o.inputs ↔ pattern ∈ o'.inputs := by
    intro pattern
    simp only [o, o', List.mem_cons, List.not_mem_nil, or_false]
    tauto
  have hdisk : Disk.Alike d ⟨[], d.items.reverse⟩ :=
    Disk.alike_of_perm rfl (List.reverse_perm _).symm (by decide)
  obtain ⟨hread, hexit, hleft, -⟩ :=
    run_reordered (s := s) (t := t) (o := o) (by decide +kernel) (by decide +kernel) (by decide) rfl
      hinputs hdisk
  exact ⟨by decide +kernel, by decide +kernel, hread, hexit, hleft⟩

end ApiDocs.Command
