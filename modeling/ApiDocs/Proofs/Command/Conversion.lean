import ApiDocs.Proofs.Command.Selection
import ApiDocs.Proofs.Files.Disk
import Mathlib.Data.List.Induction

namespace ApiDocs.Command

open Files

/-- The documented types of a file. A file that cannot be read has none. -/
def classesOf (d : Disk) (path : Text) : List Class :=
  match d.read path with
  | .error _ => []
  | .ok content =>
    match decode? content with
    | none => []
    | some s =>
      match Extract.document s with
      | .error _ => []
      | .ok classes => classes

structure Output where
  name : Text
  content : ByteArray

def documentName (stem : Text) (format : Format) : Text := stem ++ "." ++ format.extension

def documentOf (format : Format) (d : Disk) (path : Text) : Output :=
  ⟨documentName (outputStem path) format, encode (format.render (classesOf d path))⟩

def eachDocument (format : Format) (d : Disk) (paths : List Text) : List Output :=
  (paths.filter fun p => classesOf d p ≠ []).map (documentOf format d)

def jointDocument (format : Format) (d : Disk) (paths : List Text) : List Output :=
  let classes := paths.flatMap (classesOf d)
  if classes = [] then [] else [⟨documentName format.stem format, encode (format.render classes)⟩]

def readMessages : List Text := ["skipping unreadable file", "skipping malformed XML", "parsed"]

def fileRead? (r : Log.Record) : Option Text :=
  let name : Text := "file"
  if readMessages.contains r.message then r.fields.lookup name else none

/-- The files that have been read, by the log. -/
def filesRead (log : List Log.Record) : List Text := log.filterMap fileRead?

def writeAll (place : Place) (d : Disk) (outputs : List Output) : Disk :=
  outputs.foldl (fun d out => d.put (place ++ [out.name]) (.file out.content)) d

section Names

theorem getLast?_documentName (stem : Text) (format : Format) :
    ∃ c ∈ ['d', 'l', 'n'], (documentName stem format).getLast? = some c := by
  unfold documentName
  cases format with
  | markdown style => exact ⟨'d', by decide, List.getLast?_append ..⟩
  | html => exact ⟨'l', by decide, List.getLast?_append ..⟩
  | json => exact ⟨'n', by decide, List.getLast?_append ..⟩

theorem isStep_documentName (stem : Text) (format : Format) :
    Disk.isStep (documentName stem format) = false := by
  obtain ⟨c, hc, hlast⟩ := getLast?_documentName stem format
  refine Disk.isStep_eq_false.2 ⟨?_, ?_⟩
  · rintro (h | h) <;> rw [h] at hlast <;> cases hlast
    exact absurd hc (by decide)
  · intro h
    rw [h] at hlast
    cases hlast
    exact absurd hc (by decide)

theorem documentName_ne_stylesheetName (stem : Text) (format : Format) :
    documentName stem format ≠ stylesheetName := by
  obtain ⟨c, hc, hlast⟩ := getLast?_documentName stem format
  intro h
  rw [h] at hlast
  cases hlast
  exact absurd hc (by decide)

theorem documentName_inj {stem stem' : Text} {format : Format}
    (h : documentName stem format = documentName stem' format) : stem = stem' :=
  List.append_cancel_right (List.append_cancel_right h)

theorem slash_not_mem_stem (format : Format) : '/' ∉ format.stem := by
  unfold Format.stem
  split <;> decide

theorem slash_not_mem_documentName {stem : Text} (h : '/' ∉ stem) (format : Format) :
    '/' ∉ documentName stem format := by
  unfold documentName
  cases format <;> simpa [Format.extension] using h

end Names

section Writing

variable {d : Disk} {place : Place} {outputs : List Output}

theorem item?_writeAll_of_ne {p : Place} (h : ∀ out ∈ outputs, p ≠ place ++ [out.name]) :
    (writeAll place d outputs).item? p = d.item? p := by
  induction outputs generalizing d with
  | nil => rfl
  | cons out outputs ih =>
      obtain ⟨hout, houtputs⟩ := List.forall_mem_cons.1 h
      exact (ih houtputs).trans (Disk.item?_put_of_ne (Disk.snoc_ne_nil _ _) hout _ _)

theorem writeAll_concat (out : Output) : writeAll place d (outputs ++ [out]) =
    (writeAll place d outputs).put (place ++ [out.name]) (.file out.content) :=
  List.foldl_append

theorem isSome_writeAll {p : Place}
    (h : (d.item? p).isSome ∨ ∃ out ∈ outputs, p = place ++ [out.name]) :
    ((writeAll place d outputs).item? p).isSome := by
  induction outputs generalizing d with
  | nil => exact h.resolve_right fun ⟨_, hmem, _⟩ => List.not_mem_nil hmem
  | cons out outputs ih =>
      apply ih
      by_cases hp : p = place ++ [out.name]
      · left
        rw [hp, Disk.item?_put_self (Disk.snoc_ne_nil _ _)]
        rfl
      · rw [Disk.item?_put_of_ne (Disk.snoc_ne_nil _ _) hp]
        refine h.imp_right fun ⟨other, hother, he⟩ => ⟨other, ?_, he⟩
        exact (List.mem_cons.1 hother).resolve_left fun hsame => hp (hsame ▸ he)

theorem item?_writeAll_of_last {out : Output} {back : List Output}
    (h : ∀ later ∈ back, later.name ≠ out.name) (front : List Output) :
    (writeAll place d (front ++ out :: back)).item? (place ++ [out.name]) =
      some (.file out.content) := by
  unfold writeAll
  rw [List.foldl_append, List.foldl_cons]
  refine (item?_writeAll_of_ne fun later hlater he => ?_).trans
    (Disk.item?_put_self (Disk.snoc_ne_nil _ _) _ _)
  exact h later hlater (List.cons.inj (List.append_cancel_left he)).1.symm

theorem item?_writeAll_of_agree {out : Output} (hout : out ∈ outputs)
    (h : ∀ other ∈ outputs, other.name = out.name → other.content = out.content) :
    (writeAll place d outputs).item? (place ++ [out.name]) = some (.file out.content) := by
  induction outputs using List.reverseRecOn with
  | nil => cases hout
  | append_singleton front last ih =>
      rw [writeAll_concat]
      by_cases hname : last.name = out.name
      · rw [hname, Disk.item?_put_self (Disk.snoc_ne_nil _ _),
          h last (List.mem_append_right front List.mem_cons_self) hname]
      · have hfront : out ∈ front := by
          rcases List.mem_append.1 hout with hfront | hlast
          · exact hfront
          · exact absurd (congrArg Output.name (List.mem_singleton.1 hlast)).symm hname
        rw [Disk.item?_put_of_ne (Disk.snoc_ne_nil _ _) (by simpa using Ne.symm hname)]
        exact ih hfront fun other hother => h other (List.mem_append_left _ hother)

end Writing

structure Fitting (directory name : Text) : Prop where
  single : '/' ∉ name
  named : Disk.isStep name = false
  path : Text.byteSize (Path.join directory name) ≤ longestPath
  size : Text.byteSize name ≤ longestName

/-- The output directory is there, all outputs can be written in it, and none of them is an
input. -/
structure Workable (directory : Text) (place : Place) (outputs : List Output) (paths : List Text)
    (d : Disk) : Prop where
  located : d.locate directory = .ok place
  isDirectory : d.item? place = some .directory
  fitting : ∀ out ∈ outputs, Fitting directory out.name
  free : ∀ out ∈ outputs, d.item? (place ++ [out.name]) ≠ some .directory
  apart : ∀ p ∈ paths, ∃ input content, d.locate p = .ok input ∧
    d.item? input = some (.file content) ∧ ∀ out ∈ outputs, input ≠ place ++ [out.name]

section Steps

variable {directory : Text} {place : Place} {outputs : List Output} {paths : List Text} {d : Disk}
  {out : Output} {path : Text}

theorem Workable.write_eq (h : Workable directory place outputs paths d) (hout : out ∈ outputs) :
    d.write (Path.join directory out.name) out.content =
      .ok (d.put (place ++ [out.name]) (.file out.content)) :=
  have hfits := h.fitting out hout
  Disk.write_join h.located hfits.single hfits.path h.isDirectory hfits.named hfits.size
    (h.free out hout) out.content

theorem Workable.grows (h : Workable directory place outputs paths d) (hout : out ∈ outputs) :
    Disk.Grows d (d.put (place ++ [out.name]) (.file out.content)) :=
  Disk.grows_put (h.free out hout) out.content

theorem Workable.put (h : Workable directory place outputs paths d) (hout : out ∈ outputs) :
    Workable directory place outputs paths (d.put (place ++ [out.name]) (.file out.content)) where
  located := (h.grows hout).locate h.located
  isDirectory := (h.grows hout).directory h.isDirectory
  fitting := h.fitting
  free other hother := by
    rw [Disk.item?_put (Disk.snoc_ne_nil _ _)]
    split_ifs
    · exact nofun
    · exact h.free other hother
  apart p hp := by
    obtain ⟨input, content, hlocate, hfile, happart⟩ := h.apart p hp
    refine ⟨input, content, (h.grows hout).locate hlocate, ?_, happart⟩
    rw [Disk.item?_put_of_ne (Disk.snoc_ne_nil _ _) (happart out hout)]
    exact hfile

theorem Workable.classesOf_put (h : Workable directory place outputs paths d) (hout : out ∈ outputs)
    (hp : path ∈ paths) :
    classesOf (d.put (place ++ [out.name]) (.file out.content)) path = classesOf d path := by
  obtain ⟨input, content, hlocate, hfile, happart⟩ := h.apart path hp
  have hfile' := Disk.item?_put_of_ne (Disk.snoc_ne_nil place out.name) (happart out hout) d
    (.file out.content)
  unfold classesOf
  rw [Disk.read_of_file hlocate hfile,
    Disk.read_of_file ((h.grows hout).locate hlocate) (hfile'.trans hfile)]

theorem Workable.mono (h : Workable directory place outputs paths d) {some' : List Output}
    (hsome : some' ⊆ outputs) : Workable directory place some' paths d where
  located := h.located
  isDirectory := h.isDirectory
  fitting out hout := h.fitting out (hsome hout)
  free out hout := h.free out (hsome hout)
  apart p hp := by
    obtain ⟨input, content, hlocate, hfile, happart⟩ := h.apart p hp
    exact ⟨input, content, hlocate, hfile, fun out hout => happart out (hsome hout)⟩

theorem Workable.afterAll (h : Workable directory place outputs paths d) {some' : List Output}
    (hsome : some' ⊆ outputs) :
    Workable directory place outputs paths (writeAll place d some') := by
  induction some' generalizing d with
  | nil => exact h
  | cons out rest ih =>
      obtain ⟨hout, hrest⟩ := List.cons_subset.1 hsome
      exact ih (h.put hout) hrest

end Steps

/-- A report of a run that has written these files and gone on. -/
structure Wrote (place : Place) (d : Disk) (outputs : List Output) (r : Report) : Prop where
  disk : r.disk = writeAll place d outputs
  written : r.written = !outputs.isEmpty
  failure : r.failure = none

theorem Wrote.after {place : Place} {d : Disk} {outputs : List Output} {r : Report}
    (h : Wrote place d outputs r) (log : List Log.Record) :
    Wrote place d outputs (r.after log false) :=
  ⟨h.disk, h.written, h.failure⟩

section Converting

variable {directory : Text} {place : Place} {outputs : List Output} {paths : List Text} {d : Disk}

theorem classesOf_congr {path other : Text} (h : d.locate path = d.locate other) :
    classesOf d path = classesOf d other := by
  unfold classesOf Disk.read
  rw [h]

theorem classesOf_eq_examine (d : Disk) (path : Text) :
    classesOf d path = (examine d path).2.getD [] := by
  unfold classesOf examine Extract.document
  cases d.read path with
  | error fault => rfl
  | ok content =>
      cases hdecode : decode? content with
      | none => simp only [hdecode]; rfl
      | some s =>
          cases hparse : Xml.parse s <;> simp only [hdecode, hparse] <;> rfl

theorem filesRead_examine (d : Disk) (path : Text) : filesRead (examine d path).1 = [path] := by
  unfold examine
  split
  · rfl
  · split
    · rfl
    · split
      · rfl
      · next root _ =>
        have hnotes : filesRead ((Extract.notes root).map Log.ofNote) = [] := by
          refine List.filterMap_eq_nil_iff.2 fun r hr => ?_
          obtain ⟨note, -, rfl⟩ := List.mem_map.1 hr
          cases note <;> rfl
        simp only
        rw [filesRead, List.filterMap_append, ← filesRead, hnotes]
        rfl

section Each

variable {path : Text} {format : Format}

theorem convertEach_cons_of_nil (format : Format) (directory : Text) (h : classesOf d path = [])
    (rest : List Text) : ∃ log, filesRead log = [path] ∧
      convertEach format directory d (path :: rest) =
        (convertEach format directory d rest).after log false := by
  have hread := filesRead_examine d path
  rw [classesOf_eq_examine] at h
  rw [convertEach]
  rcases hexamine : examine d path with ⟨log, _ | classes⟩ <;> rw [hexamine] at h hread
  · exact ⟨log, hread, rfl⟩
  · obtain rfl : classes = [] := h
    refine ⟨_, ?_, rfl⟩
    rw [filesRead, List.filterMap_append, ← filesRead, hread]
    rfl

variable (hsome : classesOf d path ≠ [])
include hsome

theorem convertEach_cons_of_ne (format : Format) (directory : Text) (rest : List Text) :
    ∃ log log', filesRead log = [path] ∧ filesRead log' = [path] ∧
      convertEach format directory d (path :: rest) =
        let target := documentPath directory (outputStem path) format
        match d.write target (encode (format.render (classesOf d path))) with
        | .error fault => ⟨d, log, false, some (.document target fault)⟩
        | .ok e => (convertEach format directory e rest).after log' true := by
  have hread := filesRead_examine d path
  rw [classesOf_eq_examine] at hsome ⊢
  rw [convertEach]
  rcases hexamine : examine d path with ⟨log, _ | _ | ⟨c, classes⟩⟩ <;> rw [hexamine] at hsome hread
  · exact absurd rfl hsome
  · exact absurd rfl hsome
  · refine ⟨log, _, hread, ?_, rfl⟩
    rw [filesRead, List.filterMap_append, ← filesRead, hread]
    rfl

theorem convertEach_cons_of_ok {e : Disk}
    (hwrite : d.write (documentPath directory (outputStem path) format)
      (encode (format.render (classesOf d path))) = .ok e) (rest : List Text) :
    ∃ log, filesRead log = [path] ∧
      convertEach format directory d (path :: rest) =
        (convertEach format directory e rest).after log true := by
  obtain ⟨log, log', -, hread, heq⟩ := convertEach_cons_of_ne hsome format directory rest
  simp only [hwrite] at heq
  exact ⟨log', hread, heq⟩

theorem convertEach_cons_of_error {fault : Fault}
    (hwrite : d.write (documentPath directory (outputStem path) format)
      (encode (format.render (classesOf d path))) = .error fault) (rest : List Text) :
    ∃ log, filesRead log = [path] ∧
      convertEach format directory d (path :: rest) = ⟨d, log, false,
        some (.document (documentPath directory (outputStem path) format) fault)⟩ := by
  obtain ⟨log, log', hread, -, heq⟩ := convertEach_cons_of_ne hsome format directory rest
  simp only [hwrite] at heq
  exact ⟨log, hread, heq⟩

end Each

theorem eachDocument_cons_of_nil {format : Format} {path : Text} (h : classesOf d path = [])
    (rest : List Text) : eachDocument format d (path :: rest) = eachDocument format d rest := by
  rw [eachDocument, List.filter_cons_of_neg (by simp [h])]
  rfl

theorem eachDocument_cons_of_ne {format : Format} {path : Text} (h : classesOf d path ≠ [])
    (rest : List Text) : eachDocument format d (path :: rest) =
      documentOf format d path :: eachDocument format d rest := by
  rw [eachDocument, List.filter_cons_of_pos (by simp [h])]
  rfl

theorem eachDocument_congr {e : Disk} {rest : List Text}
    (h : ∀ p ∈ rest, classesOf e p = classesOf d p) (format : Format) :
    eachDocument format e rest = eachDocument format d rest := by
  induction rest with
  | nil => rfl
  | cons path rest ih =>
      obtain ⟨hpath, hrest⟩ := List.forall_mem_cons.1 h
      have hdocument : documentOf format e path = documentOf format d path := by
        rw [documentOf, documentOf, hpath]
      by_cases hnil : classesOf d path = []
      · rw [eachDocument_cons_of_nil hnil, eachDocument_cons_of_nil (hpath.trans hnil), ih hrest]
      · rw [eachDocument_cons_of_ne hnil, eachDocument_cons_of_ne (hpath ▸ hnil), ih hrest,
          hdocument]

theorem wrote_convertEach (h : Workable directory place outputs paths d) (format : Format)
    {rest : List Text} (hrest : rest ⊆ paths)
    (hdocuments : ∀ out ∈ eachDocument format d rest, out ∈ outputs) :
    Wrote place d (eachDocument format d rest) (convertEach format directory d rest) := by
  induction rest generalizing d with
  | nil => exact ⟨rfl, rfl, rfl⟩
  | cons path rest ih =>
      obtain ⟨hpath, hrest⟩ := List.cons_subset.1 hrest
      by_cases hnil : classesOf d path = []
      · obtain ⟨log, -, heq⟩ := convertEach_cons_of_nil format directory hnil rest
        rw [eachDocument_cons_of_nil hnil] at hdocuments ⊢
        rw [heq]
        exact (ih h hrest hdocuments).after log
      · rw [eachDocument_cons_of_ne hnil] at hdocuments ⊢
        obtain ⟨hout, hdocuments⟩ := List.forall_mem_cons.1 hdocuments
        have hsame := eachDocument_congr (fun p hp => h.classesOf_put hout (hrest hp)) format
        have hlater := ih (h.put hout) hrest (hsame ▸ hdocuments)
        rw [hsame] at hlater
        obtain ⟨log, -, heq⟩ := convertEach_cons_of_ok hnil (h.write_eq hout) rest
        rw [heq]
        exact ⟨hlater.disk, rfl, hlater.failure⟩

/-- If all goes well, the files that fit in the directory and replace no directory are enough. -/
theorem documents_of_failure (h : Workable directory place outputs paths d) (format : Format)
    {rest : List Text} (hrest : rest ⊆ paths)
    (hall : ∀ out ∈ eachDocument format d rest, Fitting directory out.name →
      d.item? (place ++ [out.name]) ≠ some .directory → out ∈ outputs)
    (hnone : (convertEach format directory d rest).failure = none) :
    eachDocument format d rest ⊆ outputs := by
  -- the disk is arbitrary: a document that has been written changes no document to come
  induction rest generalizing d with
  | nil => exact List.nil_subset outputs
  | cons path rest ih =>
      obtain ⟨hpath, hrest⟩ := List.cons_subset.1 hrest
      by_cases hnil : classesOf d path = []
      · obtain ⟨log, -, heq⟩ := convertEach_cons_of_nil format directory hnil rest
        rw [eachDocument_cons_of_nil hnil] at hall ⊢
        rw [heq] at hnone
        exact ih h hrest hall hnone
      · rw [eachDocument_cons_of_ne hnil] at hall ⊢
        obtain ⟨hfirst, hall⟩ := List.forall_mem_cons.1 hall
        cases hwrite : d.write (documentPath directory (outputStem path) format)
            (encode (format.render (classesOf d path))) with
        | error fault =>
            obtain ⟨log, -, heq⟩ := convertEach_cons_of_error hnil hwrite rest
            rw [heq] at hnone
            cases hnone
        | ok e =>
            obtain ⟨log, -, heq⟩ := convertEach_cons_of_ok hnil hwrite rest
            rw [heq] at hnone
            have hname := slash_not_mem_documentName (slash_not_mem_outputStem path) format
            obtain ⟨hsize, hnamed, hlong, hfree, rfl⟩ :=
              (Disk.write_join_eq_ok h.located hname h.isDirectory).1 hwrite
            have hout := hfirst ⟨hname, hnamed, hsize, hlong⟩ hfree
            have hsame := eachDocument_congr (fun p hp => h.classesOf_put hout (hrest hp)) format
            refine List.cons_subset.2 ⟨hout, ?_⟩
            rw [← hsame]
            refine ih (h.put hout) hrest (fun other hother hfit hfree' => ?_) hnone
            refine hall other (hsame ▸ hother) hfit fun hdirectory => hfree' ?_
            exact (h.grows hout).directory hdirectory

theorem gather_eq (d : Disk) (paths : List Text) :
    (gather d paths).2 = paths.flatMap (classesOf d) := by
  induction paths with
  | nil => rfl
  | cons path paths ih =>
      rw [gather, List.flatMap_cons, ← ih, classesOf_eq_examine]

theorem filesRead_gather (d : Disk) (paths : List Text) : filesRead (gather d paths).1 = paths := by
  induction paths with
  | nil => rfl
  | cons path paths ih =>
      rw [gather, filesRead, List.filterMap_append, ← filesRead, ← filesRead, filesRead_examine, ih]
      rfl

section All

variable {format : Format}

theorem convertAll_of_nil (format : Format) (directory : Text)
    (h : paths.flatMap (classesOf d) = []) :
    ∃ log, filesRead log = paths ∧ convertAll format directory d paths = ⟨d, log, false, none⟩ := by
  have hread := filesRead_gather d paths
  rw [← gather_eq] at h
  rw [convertAll]
  rcases hgather : gather d paths with ⟨log, classes⟩
  rw [hgather] at h hread
  obtain rfl : classes = [] := h
  refine ⟨_, ?_, rfl⟩
  rw [filesRead, List.filterMap_append, ← filesRead, hread]
  exact List.append_nil paths

variable (hsome : paths.flatMap (classesOf d) ≠ [])
include hsome

theorem convertAll_of_ne (format : Format) (directory : Text) :
    ∃ log log', filesRead log = paths ∧ filesRead log' = paths ∧
      convertAll format directory d paths =
        let target := documentPath directory format.stem format
        match d.write target (encode (format.render (paths.flatMap (classesOf d)))) with
        | .error fault => ⟨d, log, false, some (.document target fault)⟩
        | .ok e => ⟨e, log', true, none⟩ := by
  have hread := filesRead_gather d paths
  rw [← gather_eq] at hsome ⊢
  rw [convertAll]
  rcases hgather : gather d paths with ⟨log, _ | ⟨c, classes⟩⟩ <;> rw [hgather] at hsome hread
  · exact absurd rfl hsome
  · refine ⟨log, _, hread, ?_, rfl⟩
    rw [filesRead, List.filterMap_append, ← filesRead, hread]
    exact List.append_nil paths

theorem convertAll_of_ok {e : Disk}
    (hwrite : d.write (documentPath directory format.stem format)
      (encode (format.render (paths.flatMap (classesOf d)))) = .ok e) :
    ∃ log, filesRead log = paths ∧ convertAll format directory d paths = ⟨e, log, true, none⟩ := by
  obtain ⟨log, log', -, hread, heq⟩ := convertAll_of_ne hsome format directory
  simp only [hwrite] at heq
  exact ⟨log', hread, heq⟩

theorem convertAll_of_error {fault : Fault}
    (hwrite : d.write (documentPath directory format.stem format)
      (encode (format.render (paths.flatMap (classesOf d)))) = .error fault) :
    ∃ log, filesRead log = paths ∧ convertAll format directory d paths =
      ⟨d, log, false, some (.document (documentPath directory format.stem format) fault)⟩ := by
  obtain ⟨log, log', hread, -, heq⟩ := convertAll_of_ne hsome format directory
  simp only [hwrite] at heq
  exact ⟨log, hread, heq⟩

end All

theorem wrote_convertAll (h : Workable directory place outputs paths d) (format : Format)
    (hdocuments : ∀ out ∈ jointDocument format d paths, out ∈ outputs) :
    Wrote place d (jointDocument format d paths) (convertAll format directory d paths) := by
  unfold jointDocument at hdocuments ⊢
  by_cases hnil : paths.flatMap (classesOf d) = []
  · obtain ⟨log, -, heq⟩ := convertAll_of_nil format directory hnil
    rw [if_pos hnil, heq]
    exact ⟨rfl, rfl, rfl⟩
  · rw [if_neg hnil] at hdocuments ⊢
    obtain ⟨log, -, heq⟩ :=
      convertAll_of_ok hnil (h.write_eq (hdocuments _ List.mem_cons_self))
    rw [heq]
    exact ⟨rfl, rfl, rfl⟩

end Converting
end ApiDocs.Command
