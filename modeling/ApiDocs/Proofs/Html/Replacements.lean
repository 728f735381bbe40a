import ApiDocs.Proofs.Html.Escape
import ApiDocs.Proofs.Html.Links

namespace ApiDocs.Html

section InTurn

abbrev Table := List (Char × Text)

def replaceAll (c : Char) (put s : Text) : Text := s.flatMap fun d => if d = c then put else [d]

def replaceInTurn : Table → Text → Text
  | [], s => s
  | (c, put) :: table, s => replaceInTurn table (replaceAll c put s)

def putFor (table : Table) (c : Char) : Text := (table.lookup c).getD [c]

/-- No replacement puts in what a later one takes out. -/
def Undisturbed (table : Table) : Prop := table.Pairwise fun p q => q.1 ∉ p.2

variable {c : Char} {table : Table} {s : Text}

theorem putFor_of_forall (h : ∀ p ∈ table, p.1 ≠ c) : putFor table c = [c] := by
  have hnone : table.lookup c = none :=
    List.lookup_eq_none_iff.2 fun p hp => by simpa using (h p hp).symm
  rw [putFor, hnone, Option.getD_none]

theorem putFor_cons_self (c : Char) (put : Text) (table : Table) :
    putFor ((c, put) :: table) c = put := by
  rw [putFor, List.lookup_cons_self, Option.getD_some]

theorem putFor_cons_of_ne {d : Char} (h : d ≠ c) (put : Text) (table : Table) :
    putFor ((c, put) :: table) d = putFor table d := by
  rw [putFor, List.lookup_cons, beq_false_of_ne h]
  rfl

theorem flatMap_putFor_of_forall (h : ∀ p ∈ table, p.1 ∉ s) : s.flatMap (putFor table) = s := by
  induction s with
  | nil => rfl
  | cons c s ih =>
      have hc : putFor table c = [c] := putFor_of_forall fun p hp he => h p hp (by simp [he])
      rw [List.flatMap_cons, hc, ih fun p hp hs => h p hp (List.mem_cons_of_mem c hs)]
      rfl

theorem replaceInTurn_eq_flatMap (h : Undisturbed table) (s : Text) :
    replaceInTurn table s = s.flatMap (putFor table) := by
  induction table generalizing s with
  | nil => exact (flatMap_putFor_of_forall fun _ h => absurd h List.not_mem_nil).symm
  | cons p table ih =>
      obtain ⟨c, put⟩ := p
      obtain ⟨hput, htable⟩ := List.pairwise_cons.1 h
      rw [replaceInTurn, ih htable, replaceAll, List.flatMap_assoc]
      refine List.flatMap_congr fun d _ => ?_
      by_cases hd : d = c
      · rw [if_pos hd, hd, putFor_cons_self, flatMap_putFor_of_forall hput]
      · rw [if_neg hd, putFor_cons_of_ne hd, List.flatMap_singleton]

/-- The order counts: after the others, the ampersand would be found in what they have put in. -/
example : replaceInTurn [('<', "&lt;"), ('&', "&amp;")] "<" = "&amp;lt;" := by decide

end InTurn

section Escaping

variable {c : Char} {s t : Text}

def replacements : Table := [('&', "&amp;"), ('<', "&lt;"), ('>', "&gt;"), ('"', "&quot;")]

theorem undisturbed_replacements : Undisturbed replacements := by
  unfold Undisturbed replacements
  decide

theorem Escapes.eq_putFor (h : Escapes c s) : s = putFor replacements c := by
  cases h with
  | plain hamp hopen hclose hquote =>
      refine (putFor_of_forall ?_).symm
      simp [replacements, hamp.symm, hopen.symm, hclose.symm, hquote.symm]
  | _ => rfl

theorem escape_eq_replaceInTurn (s : Text) : escape s = replaceInTurn replacements s := by
  rw [replaceInTurn_eq_flatMap undisturbed_replacements, escape]
  exact List.flatMap_congr fun c _ => (escapes_escapeChar c).eq_putFor

theorem escape_eq_iff : escape s = escape t ↔ s = t := ⟨escape_inj, congrArg escape⟩

end Escaping

section Ids

variable {c : Char} {u : Text}

theorem Escapes.ofId_eq (h : Escapes c u) (hc : c ≠ '.') : Anchor.ofId u = u := by
  cases h with
  | plain => rw [Anchor.ofId, List.map_singleton, if_neg hc]
  | _ => rfl

theorem escape_ofId (s : Text) : escape (Anchor.ofId s) = Anchor.ofId (escape s) := by
  rw [escape, escape, Anchor.ofId, Anchor.ofId, List.flatMap_map, List.map_flatMap]
  refine List.flatMap_congr fun c _ => ?_
  by_cases hc : c = '.'
  · rw [hc]
    rfl
  · rw [if_neg hc]
    exact ((escapes_escapeChar c).ofId_eq hc).symm

theorem map_idOf (names : List Text) :
    names.map idOf = (names.map escape).map Anchor.ofId := by
  rw [List.map_map]
  exact List.map_congr_left fun name _ => escape_ofId name

/-- Escaping is four replacements in turn, and read from the left it is undone: no text is lost, no two
become one, and texts are escaped piece by piece. Dots may be replaced before or after it, which is to
say that the ids and the link targets of a page are made of the escaped names. -/
theorem escape_lossless :
    (∀ s, escape s = replaceInTurn replacements s) ∧
    (∀ s, unescape (escape s) = s) ∧
    (∀ s t, unescape (escape s ++ t) = s ++ unescape t) ∧
    (∀ s t, escape s = escape t ↔ s = t) ∧
    (∀ s t, escape (s ++ t) = escape s ++ escape t) ∧
    (∀ s, escape (Anchor.ofId s) = Anchor.ofId (escape s)) ∧
    ∀ classes,
      let groups := Group.ofClasses classes
      headingIds (render classes) =
        ((groups.flatMap Group.headingNames).map escape).map Anchor.ofId ∧
      linkTargets (render classes) =
        (((Group.forest groups).fullNames ++ groups.flatMap Group.linkedNames).map escape).map
          Anchor.ofId := by
  refine ⟨escape_eq_replaceInTurn, unescape_escape, unescape_append, fun s t => escape_eq_iff,
    escape_append, escape_ofId, fun classes => ⟨?_, ?_⟩⟩
  · rw [(shows_render classes).ids, map_idOf]
  · rw [(shows_render classes).targets, map_idOf]

end Ids
end ApiDocs.Html
