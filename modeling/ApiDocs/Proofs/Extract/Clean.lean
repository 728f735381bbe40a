import ApiDocs.Extract.Classes
import ApiDocs.Proofs.Text.Clean
import Mathlib.Tactic.SplitIfs

namespace ApiDocs

theorem Identifier.withoutKind_subset (name : Text) : withoutKind name ⊆ name := by
  intro c hc
  unfold withoutKind at hc
  split at hc
  · split_ifs at hc
    · exact List.mem_cons_of_mem _ (List.mem_cons_of_mem _ hc)
    · exact hc
  · exact hc

/-- What is written about a member in free words: everything but names. -/
def Member.freeTexts (m : Member) : List Text :=
  [m.summary, m.remarks, m.returns, m.value, m.permission, m.overloads] ++
    (m.parameters ++ m.typeParameters ++ m.exceptions).map (·.description) ++
    (m.seeAlso ++ m.examples ++ m.lists)

def Class.freeTexts (c : Class) : List Text :=
  c.summary :: c.remarks :: c.members.flatMap Member.freeTexts

structure Member.Clean (m : Member) : Prop where
  summary : m.summary.Clean
  remarks : m.remarks.Clean
  returns : m.returns.Clean
  value : m.value.Clean
  permission : m.permission.Clean
  overloads : m.overloads.Clean
  parameters : ∀ e ∈ m.parameters, e.description.Clean
  typeParameters : ∀ e ∈ m.typeParameters, e.description.Clean
  exceptions : ∀ e ∈ m.exceptions, e.description.Clean
  seeAlso : ∀ s ∈ m.seeAlso, s.Clean
  examples : ∀ s ∈ m.examples, s.Clean
  lists : ∀ s ∈ m.lists, s.Clean

structure Class.Clean (c : Class) : Prop where
  summary : c.summary.Clean
  remarks : c.remarks.Clean
  members : ∀ m ∈ c.members, m.Clean

theorem Member.Clean.freeTexts {m : Member} (h : m.Clean) : ∀ t ∈ m.freeTexts, t.Clean := by
  simp only [Member.freeTexts, List.forall_mem_append, List.forall_mem_cons, List.forall_mem_map]
  exact ⟨⟨⟨h.summary, h.remarks, h.returns, h.value, h.permission, h.overloads, nofun⟩,
    ⟨h.parameters, h.typeParameters⟩, h.exceptions⟩, ⟨h.seeAlso, h.examples⟩, h.lists⟩

theorem Class.Clean.freeTexts {c : Class} (h : c.Clean) : ∀ t ∈ c.freeTexts, t.Clean := by
  simp only [Class.freeTexts, List.forall_mem_cons, List.forall_mem_flatMap]
  exact ⟨h.summary, h.remarks, fun m hm => (h.members m hm).freeTexts⟩

theorem Entry.mem_upsert {es : List Entry} {e d : Entry} (h : d ∈ upsert es e) :
    d = e ∨ d ∈ es := by
  induction es with
  | nil => exact .inl (List.mem_singleton.1 h)
  | cons e' es ih =>
      rw [upsert] at h
      by_cases he : e'.name = e.name
      · rw [if_pos he] at h
        rcases List.mem_cons.1 h with h | h
        · exact .inl h
        · exact .inr (List.mem_cons_of_mem _ h)
      · rw [if_neg he] at h
        rcases List.mem_cons.1 h with rfl | h
        · exact .inr List.mem_cons_self
        · exact (ih h).imp id (List.mem_cons_of_mem _)

theorem Entry.mem_foldl_upsert {es known : List Entry} {d : Entry}
    (h : d ∈ es.foldl upsert known) : d ∈ known ∨ d ∈ es := by
  induction es generalizing known with
  | nil => exact .inl h
  | cons e es ih =>
      rcases ih h with h | h
      · rcases mem_upsert h with rfl | h
        · exact .inr List.mem_cons_self
        · exact .inl h
      · exact .inr (List.mem_cons_of_mem _ h)

theorem Entry.mem_of_mem_collect {es : List Entry} {d : Entry} (h : d ∈ collect es) : d ∈ es :=
  (mem_foldl_upsert h).resolve_left List.not_mem_nil

namespace Extract

open Xml

theorem clean_prose (e : Element) : (prose e).Clean := Text.clean_clean _

theorem clean_childProse (e : Element) (name : Text) : (childProse e name).Clean := by
  rw [childProse]
  cases e.child? name with
  | none => exact Text.clean_nil
  | some child => exact clean_prose child

/-- The colon stands only between a term and a description that both say something. -/
theorem clean_itemLine (item : Element) : (itemLine item).Clean := by
  have hterm := clean_childProse item "term"
  have hdescription := clean_childProse item "description"
  unfold itemLine
  simp only
  split_ifs with _ hdescription' hterm'
  · exact clean_prose item
  · exact hterm
  · exact hdescription
  · exact hterm.join (by decide) hdescription hterm' hdescription'

theorem clean_listLine (list : Element) : (listLine list).Clean := by
  have hitems : ∀ item ∈ listItems list, item.Clean ∧ item ≠ [] := by
    intro item hitem
    obtain ⟨hline, hne⟩ := List.mem_filter.1 hitem
    obtain ⟨e, -, rfl⟩ := List.mem_map.1 hline
    exact ⟨clean_itemLine e, of_decide_eq_true hne⟩
  rw [listLine]
  cases h : listItems list with
  | nil => exact clean_prose list
  | cons item items =>
      rw [h] at hitems
      exact (Text.clean_joinWith (by decide) hitems).1

theorem clean_entries (e : Element) (tag key : Text) :
    ∀ d ∈ entries e tag key, d.description.Clean := by
  intro d hd
  obtain ⟨child, -, hchild⟩ := List.mem_filterMap.1 (Entry.mem_of_mem_collect hd)
  obtain ⟨name, -, rfl⟩ := Option.map_eq_some_iff.1 hchild
  exact clean_prose child

theorem clean_member (name : Text) (e : Element) : (member name e).Clean where
  summary := clean_childProse e _
  remarks := clean_childProse e _
  returns := clean_childProse e _
  value := clean_childProse e _
  permission := clean_childProse e _
  overloads := clean_childProse e _
  parameters := clean_entries e _ _
  typeParameters := clean_entries e _ _
  exceptions := clean_entries e _ _
  seeAlso := List.forall_mem_map.2 fun s _ => Text.clean_clean s
  examples := List.forall_mem_map.2 fun e _ => clean_prose e
  lists := List.forall_mem_map.2 fun e _ => clean_listLine e

theorem clean_typeClass (typeName : Text) (e : Element) (members : List (Text × Element)) :
    (typeClass typeName e members).Clean where
  summary := clean_childProse e _
  remarks := clean_childProse e _
  members := List.forall_mem_map.2 fun m _ => clean_member m.1 m.2

theorem clean_classes (root : Element) : ∀ c ∈ classes root, c.Clean := by
  intro c hc
  obtain ⟨⟨name, e⟩, -, h⟩ := List.mem_filterMap.1 hc
  simp only at h
  split at h
  · cases h
  · cases h
  · cases h
    exact clean_typeClass _ e _

theorem clean_document {s : Text} {cs : List Class} (h : document s = .ok cs) :
    ∀ c ∈ cs, c.Clean := by
  rw [document] at h
  cases hroot : parse s with
  | error e => rw [hroot] at h; cases h
  | ok root =>
      rw [hroot] at h
      cases h
      exact clean_classes root

/-- Whatever a document says in free words becomes clean text, and so a single line. -/
theorem freeTexts_clean {s : Text} {cs : List Class} (h : document s = .ok cs) :
    ∀ c ∈ cs, ∀ t ∈ c.freeTexts, t.Clean ∧ '\n' ∉ t ∧ '\r' ∉ t := by
  intro c hc t ht
  have hclean := (clean_document h c hc).freeTexts t ht
  exact ⟨hclean, hclean.lineBreaks_not_mem⟩

/-- Line breaks, other blanks and a list with empty parts. -/
theorem freeTexts_clean_list :
    let s : Text := "<doc><member name=\"T:A\"><summary> One\n two&#x2003;<c> three</c> </summary>" ++
      "</member><member name=\"M:A.b\"><param name=\"p\">&#x85;a&#x2028;b</param>" ++
      "<seealso cref=\" T:X&#10; \"/><list><item><term> t </term><description/></item>" ++
      "<item> <term/></item><listheader><term>u</term><description>\r\nv</description>" ++
      "</listheader><item>&#xA0;w</item></list></member></doc>"
    let c : Class := ⟨"A", [], "One two \x60 three\x60", [], [⟨.method, "M:A.b", [], [], [], [], [],
      [], false, [⟨"p", "a b"⟩], [], [], ["T:X"], [], ["t; u: v; w"]⟩]⟩
    document s = .ok [c] ∧ ∀ t ∈ c.freeTexts, t.Clean ∧ '\n' ∉ t ∧ '\r' ∉ t := by
  intro s c
  have h : document s = .ok [c] := by decide +kernel
  exact ⟨h, freeTexts_clean h c List.mem_cons_self⟩

end Extract
end ApiDocs
