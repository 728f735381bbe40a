import ApiDocs.Files.Search
import ApiDocs.Proofs.Files.Disk

namespace ApiDocs.Files

namespace Disk

structure Alike (d e : Disk) : Prop where
  home : d.home = e.home
  item : ∀ place, d.item? place = e.item? place

variable {d e : Disk}

theorem Alike.symm (h : Alike d e) : Alike e d := ⟨h.home.symm, fun place => (h.item place).symm⟩

theorem find?_eq_some {items : List (Place × Item)} (h : (items.map Prod.fst).Nodup) {place : Place}
    {entry : Place × Item} :
    items.find? (·.1 = place) = some entry ↔ entry ∈ items ∧ entry.1 = place := by
  induction items with
  | nil => simp
  | cons first items ih =>
      obtain ⟨hfirst, hitems⟩ := List.nodup_cons.1 h
      rw [List.find?_cons, List.mem_cons]
      by_cases hplace : first.1 = place
      · rw [decide_eq_true hplace]
        constructor
        · rintro ⟨⟩
          exact ⟨.inl rfl, hplace⟩
        · rintro ⟨rfl | hmem, hentry⟩
          · rfl
          · exact absurd (List.mem_map_of_mem hmem) (hplace.trans hentry.symm ▸ hfirst)
      · rw [decide_eq_false hplace]
        refine (ih hitems).trans ⟨fun h => ⟨.inr h.1, h.2⟩, fun ⟨hmem, hentry⟩ => ?_⟩
        exact ⟨hmem.resolve_left fun he => hplace (he ▸ hentry), hentry⟩

/-- The order in which the items of a disk are listed tells nothing about what it holds. -/
theorem alike_of_perm (hhome : d.home = e.home) (hitems : d.items.Perm e.items)
    (hnodup : (d.items.map Prod.fst).Nodup) : Alike d e where
  home := hhome
  item place := by
    have hfind : d.items.find? (·.1 = place) = e.items.find? (·.1 = place) := by
      ext entry
      rw [find?_eq_some hnodup, find?_eq_some ((hitems.map Prod.fst).nodup_iff.1 hnodup),
        hitems.mem_iff]
    rw [item?, item?, hfind]

theorem Alike.put (h : Alike d e) {place : Place} (hne : place ≠ []) (item : Item) :
    Alike (d.put place item) (e.put place item) where
  home := h.home
  item p := by rw [item?_put hne, item?_put hne, h.item]

section Looking

variable (h : Alike d e)
include h

theorem Alike.step (place : Place) (piece : Text) : d.step place piece = e.step place piece := by
  simp only [Disk.step, h.item]

theorem Alike.walk (place : Place) (pieces : List Text) :
    d.walk place pieces = e.walk place pieces := by
  induction pieces generalizing place with
  | nil => rfl
  | cons piece pieces ih => simp only [Disk.walk, h.step, ih]

theorem Alike.startOf (path : Text) : d.startOf path = e.startOf path := by
  simp only [Disk.startOf, h.home]

theorem Alike.locate (path : Text) : d.locate path = e.locate path := by
  simp only [Disk.locate, h.walk, h.startOf]

theorem Alike.itemAt? (path : Text) : d.itemAt? path = e.itemAt? path := by
  simp only [Disk.itemAt?, h.locate, funext h.item]

theorem Alike.isFile (path : Text) : d.isFile path = e.isFile path := by
  simp only [Disk.isFile, h.itemAt?]

theorem Alike.isDirectory (path : Text) : d.isDirectory path = e.isDirectory path := by
  simp only [Disk.isDirectory, h.itemAt?]

theorem Alike.has (path : Text) : d.has path = e.has path := by
  simp only [Disk.has, h.itemAt?]

theorem Alike.locateParent (path : Text) (pieces : List Text) :
    d.locateParent path pieces = e.locateParent path pieces := by
  simp only [Disk.locateParent, h.walk, h.step, h.startOf]

end Looking

section Changing

inductive Results : Except Fault Disk → Except Fault Disk → Prop
  | ok {d e : Disk} (h : Alike d e) : Results (.ok d) (.ok e)
  | error (fault : Fault) : Results (.error fault) (.error fault)

variable (h : Alike d e)
include h

theorem Alike.write (path : Text) (content : ByteArray) :
    Results (d.write path content) (e.write path content) := by
  simp only [Disk.write, h.locateParent, h.item]
  split
  · exact .error _
  · next parent name _ =>
    split_ifs
    · exact .error _
    · exact .error _
    · split
      · exact .error _
      · exact .ok (h.put (snoc_ne_nil parent name) _)

theorem Alike.makeDirectory (path : Text) :
    Results (d.makeDirectory path) (e.makeDirectory path) := by
  simp only [Disk.makeDirectory, h.locateParent, h.item]
  split
  · exact .error _
  · next parent name _ =>
    split_ifs
    · exact .error _
    · exact .error _
    · exact .error _
    · exact .ok (h.put (snoc_ne_nil parent name) _)

theorem Alike.ensureDirectory (path : Text) :
    Results (d.ensureDirectory path) (e.ensureDirectory path) := by
  have hmade := h.makeDirectory path
  unfold Disk.ensureDirectory
  generalize d.makeDirectory path = made, e.makeDirectory path = made' at hmade
  cases hmade with
  | ok hmade => exact .ok hmade
  | error fault =>
      simp only [h.isDirectory]
      split_ifs
      · exact .ok h
      · exact .error fault

def settle (d : Disk) : Except Fault Disk → Disk × Option Fault
  | .ok d => (d, none)
  | .error fault => (d, some fault)

omit h in
theorem Results.settled {made made' : Except Fault Disk} (hmade : Results made made')
    (h : Alike d e) :
    Alike (settle d made).1 (settle e made').1 ∧ (settle d made).2 = (settle e made').2 := by
  cases hmade with
  | ok hmade => exact ⟨hmade, rfl⟩
  | error fault => exact ⟨h, rfl⟩

theorem Alike.ensureFirst (paths : List Text) :
    Alike (d.ensureFirst paths).1 (e.ensureFirst paths).1 ∧
      (d.ensureFirst paths).2 = (e.ensureFirst paths).2 := by
  induction paths with
  | nil => exact ⟨h, rfl⟩
  | cons path above ih =>
      have hmade := h.makeDirectory path
      simp only [Disk.ensureFirst]
      generalize d.makeDirectory path = made, e.makeDirectory path = made' at hmade
      cases hmade with
      | ok => exact (h.ensureDirectory path).settled h
      | error fault =>
          cases fault with
          | notFound =>
              generalize d.ensureFirst above = r, e.ensureFirst above = r' at ih
              obtain ⟨d', fault⟩ := r
              obtain ⟨e', fault'⟩ := r'
              obtain ⟨habove, rfl : fault = fault'⟩ := ih
              cases fault with
              | some fault => exact ⟨habove, rfl⟩
              | none => exact (habove.ensureDirectory path).settled habove
          | alreadyExists | notDirectory | isDirectory | nameTooLong =>
              exact (h.ensureDirectory path).settled h

theorem Alike.ensureAll (path : Text) :
    Alike (d.ensureAll path).1 (e.ensureAll path).1 ∧
      (d.ensureAll path).2 = (e.ensureAll path).2 :=
  h.ensureFirst _

end Changing

section Finding

theorem mem_below {place : Place} {names : List Text} :
    names ∈ d.below place ↔ names ≠ [] ∧ (d.item? (place ++ names)).isSome := by
  rw [below, List.mem_filterMap]
  constructor
  · rintro ⟨⟨p, item⟩, hmem, hnames⟩
    simp only at hnames
    split_ifs at hnames with hp
    obtain ⟨rest, rfl⟩ := List.isPrefixOf_iff_prefix.1 hp.1
    obtain rfl : rest = names := by simpa using hnames
    have hne : rest ≠ [] := fun he => hp.2 (he ▸ List.append_nil place)
    exact ⟨hne, (isSome_item? (List.append_ne_nil_of_right_ne_nil _ hne)).2 ⟨item, hmem⟩⟩
  · rintro ⟨hne, hsome⟩
    obtain ⟨item, hmem⟩ := (isSome_item? (List.append_ne_nil_of_right_ne_nil _ hne)).1 hsome
    refine ⟨_, hmem, ?_⟩
    simp [hne]

variable (h : Alike d e)
include h

theorem Alike.belowAt (path : Text) : d.belowAt path ⊆ e.belowAt path := by
  intro names hnames
  unfold Disk.belowAt at hnames ⊢
  rw [h.isDirectory, h.locate] at hnames
  split_ifs at hnames ⊢
  · split at hnames
    · rw [mem_below, h.item, ← mem_below] at hnames
      exact hnames
    · cases hnames
  · cases hnames

theorem Alike.namesAt (path : Text) : d.namesAt path ⊆ e.namesAt path :=
  List.filterMap_subset _ (h.belowAt path)

end Finding
end Disk

section Searching

open Glob

variable {d e : Disk} (h : Disk.Alike d e)
include h

theorem candidates_subset (path : Text) (l : Level) :
    candidates d path l ⊆ candidates e path l := by
  unfold candidates
  by_cases hdeep : l.deep
  · rw [if_pos hdeep, if_pos hdeep]
    exact List.filterMap_subset _ (h.belowAt path)
  · rw [if_neg hdeep, if_neg hdeep]
    split
    · rw [show d.has = e.has from funext h.has]
      exact List.Subset.refl _
    · rw [h.isDirectory]
      refine List.append_subset.2 ⟨List.subset_append_left _ _, ?_⟩
      exact List.subset_append_of_subset_right _
        (List.map_subset _ (List.filter_subset _ (h.namesAt path)))

theorem expand_subset (ls : List Level) (path : Text) : expand d ls path ⊆ expand e ls path := by
  induction ls generalizing path with
  | nil => exact List.Subset.refl _
  | cons l ls ih =>
      intro p hp
      obtain ⟨q, hq, hp⟩ := List.mem_flatMap.1 hp
      exact List.mem_flatMap.2 ⟨q, candidates_subset h path l hq, ih q hp⟩

theorem matchesOf_subset (p : Pattern) : matchesOf d p ⊆ matchesOf e p := by
  unfold matchesOf
  by_cases hdirectories : p.directories
  · rw [if_pos hdirectories, if_pos hdirectories]
    exact List.Subset.refl _
  · rw [if_neg hdirectories, if_neg hdirectories, show d.isFile = e.isFile from funext h.isFile]
    exact List.filter_subset _ (expand_subset h p.levels _)

end Searching
end ApiDocs.Files
