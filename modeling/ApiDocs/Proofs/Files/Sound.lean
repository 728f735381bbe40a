import ApiDocs.Proofs.Files.Disk

namespace ApiDocs.Files.Disk

def Sound (d : Disk) : Prop :=
  ∀ place, (d.item? place).isSome → d.item? place.dropLast = some .directory

variable {d e : Disk} {place parent : Place} {path name : Text}

theorem sound_of_items (h : ∀ entry ∈ d.items, d.item? entry.1.dropLast = some .directory) :
    d.Sound := by
  intro place hplace
  by_cases hne : place = []
  · rw [hne]
    exact item?_nil d
  · obtain ⟨item, hmem⟩ := (isSome_item? hne).1 hplace
    exact h _ hmem

theorem Sound.put (h : d.Sound) (hparent : d.item? parent = some .directory)
    (hfree : d.item? (parent ++ [name]) ≠ some .directory) (item : Item) :
    (d.put (parent ++ [name]) item).Sound := by
  have hne := snoc_ne_nil parent name
  intro place hplace
  by_cases hp : place = parent ++ [name]
  · have hself : parent ≠ parent ++ [name] := by simp
    rw [hp, List.dropLast_concat, item?_put_of_ne hne hself]
    exact hparent
  · rw [item?_put_of_ne hne hp] at hplace
    have habove := h place hplace
    rw [item?_put_of_ne hne]
    · exact habove
    · exact fun he => hfree (he ▸ habove)

theorem Sound.makeDirectory (h : d.Sound) (hm : d.makeDirectory path = .ok e) : e.Sound := by
  obtain ⟨parent, name, hparent, -, -, hnone, rfl⟩ := makeDirectory_eq_put hm
  exact h.put (locateParent_eq_ok hparent).2.2.1 (by rw [hnone]; exact nofun) _

theorem Sound.ensureDirectory (h : d.Sound) (he : d.ensureDirectory path = .ok e) : e.Sound := by
  unfold Disk.ensureDirectory at he
  split at he
  · next made hmade =>
    cases he
    exact h.makeDirectory hmade
  · split_ifs at he
    cases he
    exact h

theorem Sound.ensureAll (h : d.Sound) (path : Text) : (d.ensureAll path).1.Sound :=
  ensureFirst_keeps _ h fun _ => Sound.ensureDirectory

/-- The last piece of a path to a file is neither empty nor a dot nor two dots: these lead to
directories. -/
theorem Sound.fileName?_eq (h : d.Sound) {content : ByteArray} (hl : d.locate path = .ok place)
    (hf : d.item? place = some (.file content)) : Path.fileName? path = place.getLast? := by
  obtain ⟨-, -, hwalk⟩ := locate_eq_ok.1 hl
  obtain ⟨front, piece, hpieces⟩ :=
    (List.eq_nil_or_concat' (Text.splitAt '/' path)).resolve_left (Text.splitAt_ne_nil '/' path)
  rw [hpieces] at hwalk
  obtain ⟨middle, -, hlast⟩ := walk_append.1 hwalk
  obtain ⟨next, hstep, ⟨⟩⟩ := walk_cons.1 hlast
  obtain ⟨hdirectory, hleads⟩ := step_eq_ok.1 hstep
  cases hleads with
  | empty | here => cases hdirectory.symm.trans hf
  | up =>
      have hup := h middle (by rw [hdirectory]; rfl)
      cases hup.symm.trans hf
  | down hnamed _ _ =>
      obtain ⟨hhere, hup⟩ := isStep_eq_false.1 hnamed
      have hname : Path.ofPiece piece = some (.name piece) := by
        rw [Path.ofPiece, if_neg hhere, if_neg hup]
      have hcomponents : (Path.components path).getLast? = some (.name piece) := by
        rw [Path.components, hpieces, List.filterMap_append, List.filterMap_cons_some hname,
          ← List.append_assoc]
        exact List.getLast?_concat
      rw [Path.fileName?, hcomponents, List.getLast?_concat]

end ApiDocs.Files.Disk
