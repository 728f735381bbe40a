import ApiDocs.Extract.Classes
import Mathlib.Data.List.Forall2
import Mathlib.Data.List.Sort
import Mathlib.Data.List.Induction

namespace ApiDocs

namespace Entry

def names (es : List Entry) : List Text := es.map (·.name)

def last? (name : Text) (es : List Entry) : Option Entry := es.reverse.find? (·.name = name)

/-- One entry more: it takes the place of the one with its name, or else the last place. All other
entries stay where they are and as they are. -/
inductive Stored (e : Entry) : List Entry → List Entry → Prop
  | fresh {ds} : e.name ∉ names ds → Stored e ds (ds ++ [e])
  | known {before old after} : e.name ∉ names before →
      Stored e (before ++ ⟨e.name, old⟩ :: after) (before ++ e :: after)

/-- The names of some entries, each once, in the order in which they come first and with the
description that comes last. -/
structure Collected (es ds : List Entry) : Prop where
  names : ∀ n, n ∈ names ds ↔ n ∈ names es
  ordered : (Entry.names ds).Pairwise fun m n =>
    (Entry.names es).idxOf m < (Entry.names es).idxOf n
  last : ∀ d ∈ ds, last? d.name es = some d

variable {es ds ds' : List Entry} {e : Entry}

theorem names_append (es ds : List Entry) : names (es ++ ds) = names es ++ names ds :=
  List.map_append

theorem names_cons (e : Entry) (es : List Entry) : names (e :: es) = e.name :: names es := rfl

theorem last?_concat (name : Text) (es : List Entry) (e : Entry) :
    last? name (es ++ [e]) = if e.name = name then some e else last? name es := by
  rw [last?, List.reverse_concat, List.find?_cons]
  by_cases h : e.name = name
  · simp [h]
  · simp [h, last?]

theorem collect_concat (es : List Entry) (e : Entry) :
    collect (es ++ [e]) = upsert (collect es) e := by
  rw [collect, List.foldl_append]
  rfl

section Steps

theorem Stored.cons {d : Entry} (hne : e.name ≠ d.name) (h : Stored e ds ds') :
    Stored e (d :: ds) (d :: ds') := by
  cases h with
  | fresh hfresh => exact .fresh (List.not_mem_cons_of_ne_of_not_mem hne hfresh)
  | @known before old after hbefore =>
      exact @Stored.known e (d :: before) old after (List.not_mem_cons_of_ne_of_not_mem hne hbefore)

theorem stored_upsert (ds : List Entry) (e : Entry) : Stored e ds (upsert ds e) := by
  induction ds with
  | nil => exact .fresh List.not_mem_nil
  | cons d ds ih =>
      rw [upsert]
      by_cases hd : d.name = e.name
      · rw [if_pos hd]
        obtain ⟨name, old⟩ := d
        obtain rfl : name = e.name := hd
        exact @Stored.known e [] old ds List.not_mem_nil
      · rw [if_neg hd]
        exact ih.cons (Ne.symm hd)

theorem name_ne_of_not_mem {d : Entry} (h : e.name ∉ names ds) (hd : d ∈ ds) : e.name ≠ d.name :=
  fun he => h (he ▸ List.mem_map_of_mem hd)

end Steps

section Collecting

variable (h : Collected es ds)
include h

theorem Collected.nodup : (Entry.names ds).Nodup := by
  refine h.ordered.imp ?_
  rintro m n hlt rfl
  exact Nat.lt_irrefl _ hlt

theorem Collected.ordered_concat (e : Entry) : (Entry.names ds).Pairwise fun m n =>
    (Entry.names (es ++ [e])).idxOf m < (Entry.names (es ++ [e])).idxOf n := by
  have hkept {n : Text} (hn : n ∈ Entry.names ds) :
      (Entry.names (es ++ [e])).idxOf n = (Entry.names es).idxOf n := by
    rw [names_append, List.idxOf_append_of_mem ((h.names n).1 hn)]
  refine h.ordered.imp_of_mem fun hm hn hlt => ?_
  rwa [hkept hm, hkept hn]

theorem Collected.last_concat {d : Entry} (hd : d ∈ ds) (hne : e.name ≠ d.name) :
    last? d.name (es ++ [e]) = some d := by
  rw [last?_concat, if_neg hne, h.last d hd]

omit h in
theorem last?_concat_self (es : List Entry) (e : Entry) : last? e.name (es ++ [e]) = some e := by
  rw [last?_concat, if_pos rfl]

theorem Collected.fresh (hfresh : e.name ∉ Entry.names ds) : Collected (es ++ [e]) (ds ++ [e]) where
  names n := by
    simp only [names_append, List.mem_append, h.names]
  ordered := by
    have hnew : e.name ∉ Entry.names es := fun hn => hfresh ((h.names _).2 hn)
    rw [names_append ds, List.pairwise_append]
    refine ⟨h.ordered_concat e, List.pairwise_singleton _ _, fun m hm n hn => ?_⟩
    obtain rfl := List.mem_singleton.1 hn
    have hm := (h.names m).1 hm
    have hfirst := List.idxOf_lt_length_iff.2 hm
    rw [names_append, List.idxOf_append_of_mem hm, List.idxOf_append_of_notMem hnew]
    omega
  last := by
    refine List.forall_mem_append.2 ⟨fun d hd => ?_, ?_⟩
    · exact h.last_concat hd (name_ne_of_not_mem hfresh hd)
    · exact List.forall_mem_singleton.2 (last?_concat_self es e)

omit h in
theorem Collected.known {before after : List Entry} {old : Text}
    (h : Collected es (before ++ ⟨e.name, old⟩ :: after)) :
    Collected (es ++ [e]) (before ++ e :: after) := by
  have hsame : Entry.names (before ++ e :: after) =
      Entry.names (before ++ ⟨e.name, old⟩ :: after) := by
    simp [Entry.names]
  have hnodup := h.nodup
  rw [names_append, names_cons, List.nodup_middle, List.nodup_cons, List.mem_append, not_or] at hnodup
  obtain ⟨⟨hbefore, hafter⟩, -⟩ := hnodup
  refine ⟨fun n => ?_, hsame ▸ h.ordered_concat e, ?_⟩
  · have hmem : e.name ∈ Entry.names es := (h.names _).1 (by simp [Entry.names])
    rw [hsame, h.names, names_append, List.mem_append]
    refine ⟨.inl, fun hn => hn.elim id fun hn => ?_⟩
    rwa [List.mem_singleton.1 hn]
  · refine List.forall_mem_append.2 ⟨fun d hd => ?_, List.forall_mem_cons.2 ⟨?_, fun d hd => ?_⟩⟩
    · exact h.last_concat (List.mem_append_left _ hd) (name_ne_of_not_mem hbefore hd)
    · exact last?_concat_self es e
    · have hd' := List.mem_append_right before (List.mem_cons_of_mem ⟨e.name, old⟩ hd)
      exact h.last_concat hd' (name_ne_of_not_mem hafter hd)

theorem Collected.concat (hs : Stored e ds ds') : Collected (es ++ [e]) ds' := by
  cases hs with
  | fresh hfresh => exact h.fresh hfresh
  | known _ => exact h.known

end Collecting

section Runs

theorem collected_collect (es : List Entry) : Collected es (collect es) := by
  induction es using List.reverseRecOn with
  | nil => exact ⟨fun _ => Iff.rfl, .nil, nofun⟩
  | append_singleton es e ih =>
      rw [collect_concat]
      exact ih.concat (stored_upsert _ e)

theorem Collected.subset (h : Collected es ds) (h' : Collected es ds') : ds ⊆ ds' := by
  intro d hd
  obtain ⟨d', hd', he⟩ := List.mem_map.1 ((h'.names _).2 ((h.names _).1 (List.mem_map_of_mem hd)))
  have hlast := h'.last d' hd'
  rw [he, h.last d hd] at hlast
  exact Option.some.inj hlast ▸ hd'

def Earlier (es : List Entry) (d e : Entry) : Prop :=
  (names es).idxOf d.name < (names es).idxOf e.name

instance : Std.Irrefl (Earlier es) := ⟨fun _ => Nat.lt_irrefl _⟩

instance : Std.Antisymm (Earlier es) := ⟨fun _ _ hde hed => absurd hed (Nat.lt_asymm hde)⟩

theorem Collected.earlier (h : Collected es ds) : ds.Pairwise (Earlier es) := by
  have hnames : (ds.map (·.name)).Pairwise _ := h.ordered
  have hentries := List.pairwise_map.1 hnames
  exact hentries

/-- What is collected is settled by the names, their order and their last descriptions. -/
theorem collected_iff : Collected es ds ↔ collect es = ds := by
  constructor
  · intro h
    have h' := collected_collect es
    exact h'.earlier.eq_of_mem_iff h.earlier fun d => ⟨(h'.subset h ·), (h.subset h' ·)⟩
  · rintro rfl
    exact collected_collect es

end Runs
end Entry

namespace Extract

open Xml

def keyedChildren (e : Element) (tag key : Text) : List Element :=
  (e.childrenNamed tag).filter fun child => (child.attribute? key).isSome

structure EntryOf (key : Text) (child : Element) (d : Entry) : Prop where
  name : child.attribute? key = some d.name
  description : d.description = Text.clean (inlineText child)

/-- What the children with this tag say under their keys, collected. -/
def Keyed (e : Element) (tag key : Text) (ds : List Entry) : Prop :=
  ∃ es, List.Forall₂ (EntryOf key) (keyedChildren e tag key) es ∧ Entry.Collected es ds

theorem forall₂_filterMap {α β : Type} {R : α → β → Prop} {p : α → Bool} {f : α → Option β}
    {xs : List α} (hnone : ∀ x ∈ xs, f x = none → p x = false)
    (hsome : ∀ x ∈ xs, ∀ y, f x = some y → p x = true ∧ R x y) :
    List.Forall₂ R (xs.filter p) (xs.filterMap f) := by
  induction xs with
  | nil => exact .nil
  | cons x xs ih =>
      obtain ⟨hx, hxs⟩ := List.forall_mem_cons.1 hnone
      obtain ⟨hy, hys⟩ := List.forall_mem_cons.1 hsome
      cases hf : f x with
      | none =>
          rw [List.filter_cons_of_neg (by simp [hx hf]), List.filterMap_cons_none hf]
          exact ih hxs hys
      | some y =>
          obtain ⟨hp, hr⟩ := hy y hf
          rw [List.filter_cons_of_pos hp, List.filterMap_cons_some hf]
          exact .cons hr (ih hxs hys)

theorem keyed_entries (e : Element) (tag key : Text) : Keyed e tag key (entries e tag key) := by
  refine ⟨_, forall₂_filterMap ?_ ?_, Entry.collected_collect _⟩
  · intro child _ hnone
    rw [Option.map_eq_none_iff.1 hnone]
    rfl
  · intro child _ d hsome
    obtain ⟨name, hname, rfl⟩ := Option.map_eq_some_iff.1 hsome
    exact ⟨Option.isSome_iff_exists.2 ⟨name, hname⟩, hname, rfl⟩

theorem entryOf_rightUnique (key : Text) : Relator.RightUnique (EntryOf key) := by
  rintro child ⟨name, description⟩ ⟨name', description'⟩ h h'
  obtain rfl : name = name' := Option.some.inj (h.name.symm.trans h'.name)
  obtain rfl : description = description' := h.description.trans h'.description.symm
  rfl

theorem Keyed.unique {e : Element} {tag key : Text} {ds ds' : List Entry} (h : Keyed e tag key ds)
    (h' : Keyed e tag key ds') : ds = ds' := by
  obtain ⟨es, hes, hds⟩ := h
  obtain ⟨es', hes', hds'⟩ := h'
  obtain rfl := (entryOf_rightUnique key).forall₂ hes hes'
  rw [← Entry.collected_iff.1 hds, ← Entry.collected_iff.1 hds']

end Extract
end ApiDocs
