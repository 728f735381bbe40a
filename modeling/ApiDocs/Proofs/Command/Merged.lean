import ApiDocs.Proofs.Command.Started
import Mathlib.Data.List.Dedup
import Mathlib.Data.List.Flatten

namespace ApiDocs.Command

open Files

def classesAt (d : Disk) (place : Place) : List Class :=
  match d.item? place with
  | some (.file content) =>
    match decode? content with
    | none => []
    | some s => (Extract.document s).toOption.getD []
  | _ => []

/-- The types of the files to which the paths lead, each file once. -/
def EachOnce (d : Disk) (paths : List Text) (classes : List Class) : Prop :=
  ∃ files : List Place, files.Nodup ∧
    (∀ place, place ∈ files ↔ ∃ p ∈ paths, d.locate p = .ok place) ∧
    classes = files.flatMap (classesAt d)

section Lists

variable {α : Type} [DecidableEq α] {g : α → List Class}

theorem flatMap_dedup {xs : List α} (h : (xs.filter fun x => g x ≠ []).Nodup) :
    xs.dedup.flatMap g = xs.flatMap g := by
  induction xs with
  | nil => rfl
  | cons x xs ih =>
      by_cases hx : g x = []
      · rw [List.filter_cons_of_neg (by simpa using hx)] at h
        rw [List.flatMap_cons, hx, List.nil_append, ← ih h]
        by_cases hmem : x ∈ xs
        · rw [List.dedup_cons_of_mem hmem]
        · rw [List.dedup_cons_of_notMem hmem, List.flatMap_cons, hx, List.nil_append]
      · rw [List.filter_cons_of_pos (by simpa using hx)] at h
        obtain ⟨hfirst, hrest⟩ := List.nodup_cons.1 h
        have hmem : x ∉ xs := fun hmem =>
          hfirst (List.mem_filter.2 ⟨hmem, decide_eq_true hx⟩)
        rw [List.dedup_cons_of_notMem hmem, List.flatMap_cons, List.flatMap_cons, ih hrest]

theorem nodup_of_length_flatMap {xs : List α}
    (h : (xs.flatMap g).length ≤ (xs.dedup.flatMap g).length) :
    (xs.filter fun x => g x ≠ []).Nodup := by
  induction xs with
  | nil => exact List.nodup_nil
  | cons x xs ih =>
      rw [List.flatMap_cons, List.length_append] at h
      by_cases hmem : x ∈ xs
      · rw [List.dedup_cons_of_mem hmem] at h
        have hle := ((List.dedup_sublist xs).flatMap g).length_le
        have hx : g x = [] := List.length_eq_zero_iff.1 (by omega)
        rw [List.filter_cons_of_neg (by simpa using hx)]
        exact ih (by omega)
      · rw [List.dedup_cons_of_notMem hmem, List.flatMap_cons, List.length_append] at h
        have hrest := ih (by omega)
        rw [List.filter_cons]
        split_ifs
        · exact List.nodup_cons.2 ⟨fun hx => hmem (List.mem_of_mem_filter hx), hrest⟩
        · exact hrest

theorem exists_flatMap_eq_iff (xs : List α) :
    (∃ l : List α, l.Nodup ∧ (∀ x, x ∈ l ↔ x ∈ xs) ∧ xs.flatMap g = l.flatMap g) ↔
      (xs.filter fun x => g x ≠ []).Nodup := by
  constructor
  · rintro ⟨l, hnodup, hmem, he⟩
    have hperm : l.Perm xs.dedup :=
      (List.perm_ext_iff_of_nodup hnodup (List.nodup_dedup xs)).2 fun x => by
        rw [hmem, List.mem_dedup]
    refine nodup_of_length_flatMap (Nat.le_of_eq ?_)
    rw [he, (hperm.flatMap_right g).length_eq]
  · intro h
    exact ⟨xs.dedup, List.nodup_dedup xs, fun x => List.mem_dedup, (flatMap_dedup h).symm⟩

end Lists

section Merging

variable {s : Surroundings} {o : Options} {directory : Text} {format : Format} {made d : Disk}
  {paths : List Text} {place : Place} {p : Text}

theorem classesOf_eq_classesAt (hl : d.locate p = .ok place) :
    classesOf d p = classesAt d place := by
  unfold classesOf classesAt Disk.read
  simp only [hl]
  cases d.item? place with
  | none => rfl
  | some item =>
      cases item with
      | directory => rfl
      | file content =>
          simp only
          cases decode? content with
          | none => rfl
          | some s =>
              simp only
              cases Extract.document s <;> rfl

theorem byteSize_stylesheetName_le (format : Format) :
    Text.byteSize stylesheetName ≤ Text.byteSize (documentName format.stem format) := by
  cases format with
  | markdown style => cases style <;> decide
  | html => decide
  | json => decide

/-- A merging run that ends well leaves one document of the types of all paths, or none if there are
no types. Any other has written nothing. -/
theorem Started.merged (h : Started s o directory format made paths) (hsingle : o.single = true) :
    let merged := (Path.ordered paths).flatMap (classesOf made)
    ((run s).exitCode = 0 ∧
      (merged ≠ [] → (run s).disk.itemAt? (documentPath directory format.stem format) =
        some (.file (encode (format.render merged)))) ∧
      (merged = [] → (run s).disk = made)) ∨
    (run s).exitCode ≠ 0 ∧ (run s).disk = made := by
  intro merged
  have hdocuments : convertDocuments o format directory made (Path.ordered paths) =
      convertAll format directory made (Path.ordered paths) := if_pos hsingle
  by_cases hnil : merged = []
  · obtain ⟨log, -, heq⟩ := convertAll_of_nil format directory hnil
    obtain ⟨hdisk, hexit⟩ := h.run_of_not_written (hdocuments.trans heq) rfl
    exact .inl ⟨hexit.2 rfl, fun hsome => absurd hnil hsome, fun _ => hdisk⟩
  · cases hwrite : made.write (documentPath directory format.stem format)
        (encode (format.render merged)) with
    | error fault =>
        obtain ⟨log, -, heq⟩ := convertAll_of_error hnil hwrite
        obtain ⟨hdisk, hexit⟩ := h.run_of_not_written (hdocuments.trans heq) rfl
        exact .inr ⟨fun hzero => (Option.some_ne_none _) (hexit.1 hzero), hdisk⟩
    | ok e =>
        obtain ⟨log, -, heq⟩ := convertAll_of_ok hnil hwrite
        have hname := slash_not_mem_documentName (slash_not_mem_stem format) format
        obtain ⟨hfound, hexit⟩ := h.run_of_written (hdocuments.trans heq) hname
          (documentName_ne_stylesheetName _ _) hwrite rfl
        obtain ⟨place, hl, hd⟩ := h.located
        obtain ⟨hpath, hnamed, hsize, -, -⟩ := (Disk.write_join_eq_ok hl hname hd).1 hwrite
        have hstyle := fitting_stylesheetName ⟨hname, hnamed, hpath, hsize⟩
          (byteSize_stylesheetName_le format)
        exact .inl ⟨hexit hstyle, fun _ => hfound, fun hnone => absurd hnone hnil⟩

def target (d : Disk) (p : Text) : Place := (d.locate p).toOption.getD []

theorem Started.locate_eq (h : Started s o directory format made paths) {p : Text}
    (hp : p ∈ paths) : made.locate p = .ok (target made p) := by
  obtain ⟨place, -, hlocate, -⟩ := h.isFile p hp
  rw [target, hlocate]
  rfl

theorem Started.classesAt_target (h : Started s o directory format made paths) {p : Text}
    (hp : p ∈ paths) : classesAt made (target made p) = classesOf made p :=
  (classesOf_eq_classesAt (h.locate_eq hp)).symm

theorem Started.merged_eq (h : Started s o directory format made paths) :
    (Path.ordered paths).flatMap (classesOf made) =
      ((Path.ordered paths).map (target made)).flatMap (classesAt made) := by
  rw [List.flatMap_map]
  exact List.flatMap_congr fun p hp => (h.classesAt_target (Path.mem_of_mem_ordered hp)).symm

theorem Started.mem_places (h : Started s o directory format made paths) (place : Place) :
    (∃ p ∈ paths, made.locate p = .ok place) ↔
      place ∈ (Path.ordered paths).map (target made) := by
  rw [List.mem_map]
  constructor
  · rintro ⟨p, hp, hlocate⟩
    obtain ⟨q, hq, -, hsame⟩ := h.exists_ordered hp
    rw [hlocate, h.locate_eq (Path.mem_of_mem_ordered hq)] at hsame
    exact ⟨q, hq, Except.ok.inj hsame⟩
  · rintro ⟨q, hq, rfl⟩
    exact ⟨q, Path.mem_of_mem_ordered hq, h.locate_eq (Path.mem_of_mem_ordered hq)⟩

/-- A file counts once exactly if the paths that lead to it have the same components. -/
theorem Started.eachOnce_iff (h : Started s o directory format made paths) :
    EachOnce made paths ((Path.ordered paths).flatMap (classesOf made)) ↔
      ∀ p ∈ paths, ∀ q ∈ paths, classesOf made p ≠ [] → made.locate p = made.locate q →
        Path.components p = Path.components q := by
  have hcomponents := Path.nodup_map_components_ordered paths
  simp only [EachOnce, h.mem_places, h.merged_eq]
  rw [exists_flatMap_eq_iff, List.filter_map,
    List.nodup_map_iff_inj_on (hcomponents.of_map.filter _)]
  constructor
  · intro hinj p hp q hq hsome hlocate
    obtain ⟨p', hp', hpc, hpl⟩ := h.exists_ordered hp
    obtain ⟨q', hq', hqc, hql⟩ := h.exists_ordered hq
    have hkept {r : Text} (hr : r ∈ Path.ordered paths) (hl : made.locate r = made.locate p) :
        r ∈ (Path.ordered paths).filter
          ((fun x => decide (classesAt made x ≠ [])) ∘ target made) := by
      refine List.mem_filter.2 ⟨hr, decide_eq_true ?_⟩
      rwa [h.classesAt_target (Path.mem_of_mem_ordered hr), classesOf_congr hl]
    have hsame : target made p' = target made q' := by
      rw [target, target, hpl, hql, hlocate]
    rw [← hpc, ← hqc, hinj p' (hkept hp' hpl) q' (hkept hq' (hql.trans hlocate.symm)) hsame]
  · intro hsame p hp q hq hpq
    obtain ⟨hp, hsome⟩ := List.mem_filter.1 hp
    obtain ⟨hq, -⟩ := List.mem_filter.1 hq
    have hp' := Path.mem_of_mem_ordered hp
    have hq' := Path.mem_of_mem_ordered hq
    refine List.inj_on_of_nodup_map hcomponents hp hq (hsame p hp' q hq' ?_ ?_)
    · rw [← h.classesAt_target hp']
      exact of_decide_eq_true hsome
    · rw [h.locate_eq hp', h.locate_eq hq', hpq]

end Merging

/-- With `--single` a run leaves the types of all selected files in one document. It counts each
file once exactly if no file with types has been selected by paths with different components. -/
theorem merged_once_iff {s : Surroundings} {o : Options}
    (hrequest : request? s.arguments = some (.convert o)) (hinputs : o.inputs ≠ [])
    (hsingle : o.single = true) :
    ((run s).exitCode = 0 ∧ ∃ directory format made paths,
      Started s o directory format made paths ∧
      let merged := (Path.ordered paths).flatMap (classesOf made)
      (merged ≠ [] → (run s).disk.itemAt? (documentPath directory format.stem format) =
        some (.file (encode (format.render merged)))) ∧
      (merged = [] → (run s).disk = made) ∧
      (EachOnce made paths merged ↔
        ∀ p ∈ paths, ∀ q ∈ paths, classesOf made p ≠ [] → made.locate p = made.locate q →
          Path.components p = Path.components q)) ∨
    (run s).exitCode ≠ 0 ∧ Disk.Adds s.disk (run s).disk := by
  obtain ⟨directory, format, made, paths, h⟩ | hfailed := started_or_failed hrequest hinputs
  · obtain ⟨hexit, hsome, hnone⟩ | ⟨hexit, hdisk⟩ := h.merged hsingle
    · exact .inl ⟨hexit, directory, format, made, paths, h, hsome, hnone, h.eachOnce_iff⟩
    · exact .inr ⟨hexit, hdisk ▸ h.adds⟩
  · exact .inr hfailed

/-- A directory, a pattern and a path that find one file. -/
theorem merged_once_three_ways :
    let d : Disk := ⟨[], [(["in"], .directory),
      (["in", "b.xml"], .file (encode "<doc><member name=\"T:N.B\"/></doc>")),
      (["in", "a.xml"], .file (encode "<doc><member name=\"T:N.A\"/></doc>"))]⟩
    let s : Surroundings :=
      ⟨["--single", "-o", "out", "in", "in/*.xml", "in/./b.xml"], none, .empty, d⟩
    let made := (d.ensureAll "out").1
    let paths : List Text := ["in/b.xml", "in/a.xml", "in/b.xml", "in/a.xml", "in/./b.xml"]
    let classes : List Class := [⟨"A", "N", [], [], []⟩, ⟨"B", "N", [], [], []⟩]
    (run s).exitCode = 0 ∧
      (run s).disk.itemAt? "out/documentation.md" =
        some (.file (encode (Markdown.render .plain classes))) ∧
      EachOnce made paths classes := by
  intro d s made paths classes
  let o : Options := ⟨["in", "in/*.xml", "in/./b.xml"], some "out", "markdown", true, false⟩
  have hexit : (run s).exitCode = 0 := by decide +kernel
  obtain ⟨-, directory, format, disk, found, h, hsome, -, hiff⟩ | ⟨hfailed, -⟩ :=
    merged_once_iff (s := s) (o := o) (by decide +kernel) (by decide) rfl
  · obtain rfl : "out" = directory := Option.some.inj h.output
    obtain rfl : .markdown .plain = format := Option.some.inj h.known
    obtain rfl : made = disk := congrArg Prod.fst h.ensured
    obtain ⟨log, hselected⟩ := h.selected
    have hpaths : (filesOfAll made o.inputs).1 = paths := by decide +kernel
    rw [hselected] at hpaths
    obtain rfl : found = paths := hpaths
    have hclasses : (Path.ordered paths).flatMap (classesOf made) = classes := by decide +kernel
    rw [hclasses] at hsome hiff
    exact ⟨hexit, hsome (by decide), hiff.2 (by decide +kernel)⟩
  · exact absurd hexit hfailed

/-- A leading `./` makes another path of the same file, and the file counts twice. -/
theorem merged_once_fails_leading_dot :
    let d : Disk := ⟨[], [(["a.xml"], .file (encode "<doc><member name=\"T:N.A\"/></doc>"))]⟩
    let s : Surroundings := ⟨["--single", "-o", "out", "a.xml", "./a.xml"], none, .empty, d⟩
    let o : Options := ⟨["a.xml", "./a.xml"], some "out", "markdown", true, false⟩
    let made := (d.ensureAll "out").1
    let classes : List Class := [⟨"A", "N", [], [], []⟩, ⟨"A", "N", [], [], []⟩]
    Started s o "out" (.markdown .plain) made o.inputs ∧ (run s).exitCode = 0 ∧
      made.locate "a.xml" = made.locate "./a.xml" ∧
      (Path.ordered o.inputs).flatMap (classesOf made) = classes ∧
      (run s).disk.itemAt? "out/documentation.md" =
        some (.file (encode (Markdown.render .plain classes))) ∧
      ¬ EachOnce made o.inputs classes := by
  intro d s o made classes
  have hstarted : Started s o "out" (.markdown .plain) made o.inputs :=
    { request := by decide +kernel
      inputs := by decide
      output := rfl
      known := by decide +kernel
      ensured := Prod.ext rfl (by decide +kernel)
      selected := ⟨[], Prod.ext (by decide +kernel)
        (Prod.ext (by decide +kernel) (by decide +kernel))⟩ }
  have hexit : (run s).exitCode = 0 := by decide +kernel
  have hclasses : (Path.ordered o.inputs).flatMap (classesOf made) = classes := by decide +kernel
  refine ⟨hstarted, hexit, by decide +kernel, hclasses, ?_, fun h => ?_⟩
  · obtain ⟨-, hsome, -⟩ | ⟨hfailed, -⟩ := hstarted.merged rfl
    · rw [hclasses] at hsome
      exact hsome (by decide)
    · exact absurd hexit hfailed
  · rw [← hclasses, hstarted.eachOnce_iff] at h
    exact absurd h (by decide +kernel)

end ApiDocs.Command
