import ApiDocs.Proofs.Command.Started
import ApiDocs.Proofs.Files.Sound
import Mathlib.Data.Finset.Card

namespace ApiDocs.Command

open Files

/-- Where the input files with types lead. -/
def placesFrom (lead : Text → Except Fault Place) (d : Disk) (paths : List Text) : Finset Place :=
  ((paths.filter fun p => classesOf d p ≠ []).filterMap fun p => (lead p).toOption).toFinset

def documentedPlaces (d : Disk) (paths : List Text) : Finset Place := placesFrom d.locate d paths

def documentPlaces (format : Format) (directory : Text) (d e : Disk) (paths : List Text) :
    Finset Place :=
  placesFrom (fun p => e.locate (documentPath directory (outputStem p) format)) d paths

/-- On the disk `e` every input file with types has a document of its own, and there are as many
documents as such files. -/
structure Separate (format : Format) (directory : Text) (d e : Disk) (paths : List Text) :
    Prop where
  own : ∃ own : Place → Place, Set.InjOn own (documentedPlaces d paths) ∧
    ∀ p ∈ paths, ∀ input, d.locate p = .ok input → classesOf d p ≠ [] →
      own input ∈ documentPlaces format directory d e paths ∧
        e.item? (own input) = some (.file (encode (format.render (classesOf d p))))
  count : (documentPlaces format directory d e paths).card = (documentedPlaces d paths).card

section Places

variable {d : Disk} {place : Place} {paths : List Text} {format : Format}

theorem mem_placesFrom {lead : Text → Except Fault Place} : place ∈ placesFrom lead d paths ↔
    ∃ p ∈ paths, classesOf d p ≠ [] ∧ lead p = .ok place := by
  rw [placesFrom, List.mem_toFinset, List.mem_filterMap]
  constructor
  · rintro ⟨p, hp, hlead⟩
    obtain ⟨hmem, hsome⟩ := List.mem_filter.1 hp
    refine ⟨p, hmem, of_decide_eq_true hsome, ?_⟩
    cases h : lead p <;> rw [h] at hlead <;> cases hlead
    rfl
  · rintro ⟨p, hp, hsome, hlead⟩
    refine ⟨p, List.mem_filter.2 ⟨hp, decide_eq_true hsome⟩, ?_⟩
    rw [hlead]
    rfl

def stemAt (place : Place) : Text :=
  (place.getLast?.map fun name => (Path.cutName name).1).getD "documentation"

def placeFor (format : Format) (output input : Place) : Place :=
  output ++ [documentName (stemAt input) format]

theorem placeFor_inj {output input other : Place} :
    placeFor format output input = placeFor format output other ↔ stemAt input = stemAt other := by
  refine ⟨fun h => ?_, fun h => by rw [placeFor, h, placeFor]⟩
  exact documentName_inj (List.cons.inj (List.append_cancel_left h)).1

end Places

section Written

variable {s : Surroundings} {o : Options} {directory : Text} {format : Format} {made : Disk}
  {paths : List Text} {place : Place}

theorem outputStem_eq_stemAt (h : Started s o directory format made paths) (hsound : made.Sound)
    {p : Text} (hp : p ∈ paths) {input : Place} (hlocate : made.locate p = .ok input) :
    outputStem p = stemAt input := by
  obtain ⟨_, content, hl, hfile⟩ := h.isFile p hp
  cases hlocate.symm.trans hl
  rw [outputStem, Path.stem?, hsound.fileName?_eq hlocate hfile, stemAt]

theorem mem_eachDocument (h : Started s o directory format made paths) {p : Text} (hp : p ∈ paths)
    (hsome : classesOf made p ≠ []) :
    documentOf format made p ∈ eachDocument format made (Path.ordered paths) := by
  obtain ⟨q, hq, hcomponents, hlocate⟩ := h.exists_ordered hp
  have hclasses := classesOf_congr hlocate
  have hdocument : documentOf format made p = documentOf format made q := by
    rw [documentOf, documentOf, hclasses, outputStem_congr hcomponents]
  rw [hdocument]
  exact List.mem_map_of_mem (List.mem_filter.2 ⟨hq, decide_eq_true (hclasses ▸ hsome)⟩)

theorem of_mem_eachDocument {out : Output}
    (hout : out ∈ eachDocument format made (Path.ordered paths)) :
    ∃ p ∈ paths, classesOf made p ≠ [] ∧ out = documentOf format made p := by
  obtain ⟨p, hp, rfl⟩ := List.mem_map.1 hout
  obtain ⟨hmem, hsome⟩ := List.mem_filter.1 hp
  exact ⟨p, Path.mem_of_mem_ordered hmem, of_decide_eq_true hsome, rfl⟩

open Classical in
noncomputable def writable (directory : Text) (place : Place) (d : Disk) (outputs : List Output) :
    List Output :=
  outputs.filter fun out =>
    Fitting directory out.name ∧ d.item? (place ++ [out.name]) ≠ some .directory

theorem mem_writable {d : Disk} {outputs : List Output} {out : Output} :
    out ∈ writable directory place d outputs ↔
      out ∈ outputs ∧ Fitting directory out.name ∧
        d.item? (place ++ [out.name]) ≠ some .directory := by
  simp only [writable, List.mem_filter, decide_eq_true_eq]

section Finished

variable (h : Started s o directory format made paths) (hl : made.locate directory = .ok place)
  (hd : made.item? place = some .directory)
  (hapart : ∀ p ∈ paths, classesOf made p ≠ [] → ∀ q ∈ paths,
    made.locate (documentPath directory (outputStem p) format) ≠ made.locate q)
include h hl hd hapart

theorem Started.workable_writable :
    Workable directory place
      (writable directory place made (eachDocument format made (Path.ordered paths)))
      (Path.ordered paths) made where
  located := hl
  isDirectory := hd
  fitting out hout := (mem_writable.1 hout).2.1
  free out hout := (mem_writable.1 hout).2.2
  apart q hq := by
    obtain ⟨input, content, hlocate, hfile⟩ := h.isFile q (Path.mem_of_mem_ordered hq)
    refine ⟨input, content, hlocate, hfile, fun out hout => ?_⟩
    rintro rfl
    obtain ⟨hmem, hfit, -⟩ := mem_writable.1 hout
    obtain ⟨p, hp, hsome, rfl⟩ := of_mem_eachDocument hmem
    refine hapart p hp hsome q (Path.mem_of_mem_ordered hq) (Eq.trans ?_ hlocate.symm)
    have hsome : (made.item? (place ++ [(documentOf format made p).name])).isSome := by
      rw [hfile]
      rfl
    exact Disk.locate_join_of_isSome hl hfit.single hfit.path hd hfit.named hfit.size hsome

/-- A run that ends well could write all documents. -/
theorem Started.workable (hsingle : o.single = false) (hexit : (run s).exitCode = 0) :
    Workable directory place (eachDocument format made (Path.ordered paths)) (Path.ordered paths)
      made := by
  have hworkable := h.workable_writable hl hd hapart
  have hnone := failure_convertDocuments (h.exitCode_eq_zero.1 hexit)
  rw [convertDocuments, if_neg (by simp [hsingle])] at hnone
  exact hworkable.mono <| documents_of_failure hworkable format (List.Subset.refl _)
    (fun out hout hfit hfree => mem_writable.2 ⟨hout, hfit, hfree⟩) hnone

end Finished

section Found

variable (h : Started s o directory format made paths) (hsingle : o.single = false)
  (hworkable : Workable directory place (eachDocument format made (Path.ordered paths))
    (Path.ordered paths) made)
include h hsingle hworkable

theorem item?_run {out : Output} (hout : out ∈ eachDocument format made (Path.ordered paths)) :
    (run s).disk.item? (place ++ [out.name]) =
      (writeAll place made (eachDocument format made (Path.ordered paths))).item?
        (place ++ [out.name]) := by
  have hfit := hworkable.fitting out hout
  have hname : out.name ≠ stylesheetName := by
    obtain ⟨p, -, -, rfl⟩ := of_mem_eachDocument hout
    exact documentName_ne_stylesheetName _ _
  have hwrote := wrote_convertEach hworkable format (List.Subset.refl _) fun _ => id
  rw [h.run_disk, ← itemAt?_of_grows hworkable.located hworkable.isDirectory hfit
      (grows_convertPaths o format directory made _),
    itemAt?_convertPaths hworkable.located hworkable.isDirectory hfit hname, convertDocuments,
    if_neg (by simp [hsingle]), hwrote.disk]

theorem locate_run {out : Output} (hout : out ∈ eachDocument format made (Path.ordered paths)) :
    (run s).disk.locate (Path.join directory out.name) = .ok (place ++ [out.name]) := by
  have hfit := hworkable.fitting out hout
  have hgrows : Disk.Grows made (run s).disk := h.run_disk ▸ grows_convertPaths ..
  refine Disk.locate_join_of_isSome (hgrows.locate hworkable.located) hfit.single hfit.path
    (hgrows.directory hworkable.isDirectory) hfit.named hfit.size ?_
  rw [item?_run h hsingle hworkable hout]
  exact isSome_writeAll (.inr ⟨out, hout, rfl⟩)

theorem documentPlaces_run (hsound : made.Sound) :
    documentPlaces format directory made (run s).disk paths =
      (documentedPlaces made paths).image (placeFor format place) := by
  have hfound {p : Text} (hp : p ∈ paths) (hsome : classesOf made p ≠ []) :
      ∃ input, made.locate p = .ok input ∧
        (run s).disk.locate (documentPath directory (outputStem p) format) =
          .ok (placeFor format place input) := by
    obtain ⟨input, content, hlocate, hfile⟩ := h.isFile p hp
    refine ⟨input, hlocate, ?_⟩
    rw [placeFor, ← outputStem_eq_stemAt h hsound hp hlocate]
    exact locate_run h hsingle hworkable (mem_eachDocument h hp hsome)
  ext output
  simp only [documentPlaces, documentedPlaces, Finset.mem_image, mem_placesFrom]
  constructor
  · rintro ⟨p, hp, hsome, hlocate⟩
    obtain ⟨input, hinput, hplace⟩ := hfound hp hsome
    exact ⟨input, ⟨p, hp, hsome, hinput⟩, Except.ok.inj (hplace.symm.trans hlocate)⟩
  · rintro ⟨input, ⟨p, hp, hsome, hlocate⟩, rfl⟩
    obtain ⟨input', hinput, hplace⟩ := hfound hp hsome
    obtain rfl := Except.ok.inj (hlocate.symm.trans hinput)
    exact ⟨p, hp, hsome, hplace⟩

theorem separate_run_iff (hsound : made.Sound) :
    Separate format directory made (run s).disk paths ↔
      Set.InjOn (placeFor format place) (documentedPlaces made paths) := by
  have hplaces := documentPlaces_run h hsingle hworkable hsound
  constructor
  · intro hseparate
    rw [← Finset.card_image_iff, ← hplaces]
    exact hseparate.count
  · intro hinj
    refine ⟨⟨placeFor format place, hinj, fun p hp input hlocate hsome => ?_⟩, ?_⟩
    · have hinput : input ∈ documentedPlaces made paths :=
        mem_placesFrom.2 ⟨p, hp, hsome, hlocate⟩
      refine ⟨hplaces ▸ Finset.mem_image_of_mem _ hinput, ?_⟩
      have hout := mem_eachDocument h hp hsome
      have hstem := outputStem_eq_stemAt h hsound hp hlocate
      rw [placeFor, ← hstem]
      refine (item?_run h hsingle hworkable hout).trans (item?_writeAll_of_agree hout ?_)
      -- a document of this name is the document of this file
      intro other hother hname
      obtain ⟨q, hq, hsome', rfl⟩ := of_mem_eachDocument hother
      obtain ⟨input', content, hlocate', -⟩ := h.isFile q hq
      have hstem' := outputStem_eq_stemAt h hsound hq hlocate'
      have hsame := (hstem'.symm.trans (documentName_inj hname)).trans hstem
      obtain rfl := hinj (mem_placesFrom.2 ⟨q, hq, hsome', hlocate'⟩) hinput
        (placeFor_inj.2 hsame)
      exact congrArg (fun classes => encode (format.render classes))
        (classesOf_congr (hlocate'.trans hlocate.symm))
    · rw [hplaces]
      exact Finset.card_image_iff.2 hinj

end Found
end Written

/-- Where no document takes the place of an input, a run that ends well gives every input its own
document exactly if files with types that have one stem are one file. -/
theorem separate_iff {s : Surroundings} {o : Options}
    (hrequest : request? s.arguments = some (.convert o)) (hinputs : o.inputs ≠ [])
    (hsingle : o.single = false) (hexit : (run s).exitCode = 0) (hsound : s.disk.Sound) :
    ∃ directory format made paths, Started s o directory format made paths ∧
      ((∀ p ∈ paths, classesOf made p ≠ [] → ∀ q ∈ paths,
          made.locate (documentPath directory (outputStem p) format) ≠ made.locate q) →
        (Separate format directory made (run s).disk paths ↔
          ∀ p ∈ paths, ∀ q ∈ paths, classesOf made p ≠ [] → classesOf made q ≠ [] →
            outputStem p = outputStem q → made.locate p = made.locate q)) := by
  obtain ⟨directory, format, made, paths, h⟩ := exists_started hrequest hinputs hexit
  refine ⟨directory, format, made, paths, h, fun hapart => ?_⟩
  obtain ⟨place, hl, hd⟩ := h.located
  have hmade : made.Sound := by
    have hensured := hsound.ensureAll directory
    rwa [h.ensured] at hensured
  rw [separate_run_iff h hsingle (h.workable hl hd hapart hsingle hexit) hmade]
  constructor
  · intro hinj p hp q hq hsome hsome' hstem
    obtain ⟨input, content, hlocate, -⟩ := h.isFile p hp
    obtain ⟨input', content', hlocate', -⟩ := h.isFile q hq
    rw [outputStem_eq_stemAt h hmade hp hlocate, outputStem_eq_stemAt h hmade hq hlocate'] at hstem
    rw [hlocate, hlocate', hinj (mem_placesFrom.2 ⟨p, hp, hsome, hlocate⟩)
      (mem_placesFrom.2 ⟨q, hq, hsome', hlocate'⟩) (placeFor_inj.2 hstem)]
  · intro hstems input hinput input' hinput' hplace
    obtain ⟨p, hp, hsome, hlocate⟩ := mem_placesFrom.1 hinput
    obtain ⟨q, hq, hsome', hlocate'⟩ := mem_placesFrom.1 hinput'
    have hstem : outputStem p = outputStem q := by
      rw [outputStem_eq_stemAt h hmade hp hlocate, outputStem_eq_stemAt h hmade hq hlocate']
      exact placeFor_inj.1 hplace
    have hsame := hstems p hp q hq hsome hsome' hstem
    exact Except.ok.inj (hlocate.symm.trans (hsame.trans hlocate'))

/-- Two directories, one file in two spellings and one that is no document. -/
theorem separate_two_directories :
    let d : Disk := ⟨[], [(["a"], .directory), (["b"], .directory),
      (["a", "x.xml"], .file (encode "<doc><member name=\"T:N.A\"/></doc>")),
      (["b", "y.xml"], .file (encode "<doc><member name=\"T:N.B\"/></doc>")),
      (["b", "x.xml"], .file (encode "<doc>"))]⟩
    let s : Surroundings := ⟨["-o", "out", "b", "a/*.xml", "./a/x.xml"], none, .empty, d⟩
    let made := (d.ensureAll "out").1
    (run s).exitCode = 0 ∧ d.Sound ∧
      Separate (.markdown .plain) "out" made (run s).disk
        ["b/y.xml", "b/x.xml", "a/x.xml", "./a/x.xml"] := by
  intro d s made
  let o : Options := ⟨["b", "a/*.xml", "./a/x.xml"], some "out", "markdown", false, false⟩
  have hexit : (run s).exitCode = 0 := by decide +kernel
  have hsound : d.Sound := Disk.sound_of_items <| by
    simp only [d, List.forall_mem_cons, List.not_mem_nil, IsEmpty.forall_iff, implies_true,
      and_true]
    exact ⟨rfl, rfl, rfl, rfl, rfl⟩
  obtain ⟨directory, format, disk, paths, h, hiff⟩ :=
    separate_iff (s := s) (o := o) (by decide +kernel) (by decide) rfl hexit hsound
  obtain rfl : "out" = directory := Option.some.inj h.output
  obtain rfl : .markdown .plain = format := Option.some.inj h.known
  obtain rfl : made = disk := congrArg Prod.fst h.ensured
  obtain ⟨log, hselected⟩ := h.selected
  have hpaths : (filesOfAll made o.inputs).1 = ["b/y.xml", "b/x.xml", "a/x.xml", "./a/x.xml"] := by
    decide +kernel
  rw [hselected] at hpaths
  obtain rfl := hpaths
  exact ⟨hexit, hsound, (hiff (by decide +kernel)).2 (by decide +kernel)⟩

/-- Two files of one name in two directories leave one document, that of the second. -/
theorem separate_fails_same_stem :
    let d : Disk := ⟨[], [(["a"], .directory), (["b"], .directory),
      (["a", "x.xml"], .file (encode "<doc><member name=\"T:N.A\"/></doc>")),
      (["b", "x.xml"], .file (encode "<doc><member name=\"T:N.B\"/></doc>"))]⟩
    let s : Surroundings := ⟨["-o", "out", "a/x.xml", "b/x.xml"], none, .empty, d⟩
    let o : Options := ⟨["a/x.xml", "b/x.xml"], some "out", "markdown", false, false⟩
    let made := (d.ensureAll "out").1
    Started s o "out" (.markdown .plain) made o.inputs ∧ (run s).exitCode = 0 ∧
      (∀ p ∈ o.inputs, classesOf made p ≠ [] → ∀ q ∈ o.inputs,
        made.locate (documentPath "out" (outputStem p) (.markdown .plain)) ≠ made.locate q) ∧
      (documentedPlaces made o.inputs).card = 2 ∧
      (documentPlaces (.markdown .plain) "out" made (run s).disk o.inputs).card = 1 ∧
      ¬ Separate (.markdown .plain) "out" made (run s).disk o.inputs := by
  intro d s o made
  have hstarted : Started s o "out" (.markdown .plain) made o.inputs :=
    { request := by decide +kernel
      inputs := by decide
      output := rfl
      known := by decide +kernel
      ensured := Prod.ext rfl (by decide +kernel)
      selected := ⟨[], Prod.ext (by decide +kernel)
        (Prod.ext (by decide +kernel) (by decide +kernel))⟩ }
  have hinputs : (documentedPlaces made o.inputs).card = 2 := by decide +kernel
  have houtputs :
      (documentPlaces (.markdown .plain) "out" made (run s).disk o.inputs).card = 1 := by
    decide +kernel
  refine ⟨hstarted, by decide +kernel, by decide +kernel, hinputs, houtputs, fun h => ?_⟩
  have hcount := h.count
  rw [hinputs, houtputs] at hcount
  cases hcount

end ApiDocs.Command
