import ApiDocs.Proofs.Extract.Keyed
import ApiDocs.Proofs.Extract.Texts
import ApiDocs.Proofs.Text.Cut

namespace ApiDocs.Xml

def Content.all : Content → List Element
  | nil => []
  | text _ rest => rest.all
  | element n as cs rest => ⟨n, as, cs⟩ :: cs.all ++ rest.all

def Element.all (e : Element) : List Element := e :: e.content.all

theorem Content.named_eq_filter (name : Text) (c : Content) :
    c.named name = c.all.filter (·.name = name) := by
  induction c with
  | nil => rfl
  | text _ rest ih => exact ih
  | element n as cs rest ihc ihr =>
      rw [named, ihc, ihr, all, List.cons_append, List.filter_cons, List.filter_append]
      by_cases hn : n = name
      · simp [hn]
      · simp [hn]

theorem Element.named_eq_filter (name : Text) (e : Element) :
    e.named name = e.all.filter (·.name = name) := by
  rw [named, Content.named_eq_filter, all, List.filter_cons]
  by_cases hn : e.name = name
  · simp [hn]
  · simp [hn]

end ApiDocs.Xml

namespace ApiDocs.Extract

open Xml

/-- An entry is a member element with a name. -/
def isEntry (e : Element) : Bool := e.name = "member" && (e.attribute? "name").isSome

def memberEntries (root : Element) : List Element := root.all.filter isEntry

def isTypeEntry (e : Element) : Bool :=
  match e.attribute? "name" with
  | some ('T' :: ':' :: _ :: _) => true
  | _ => false

/-- The mark of a method, a property or a field, and a name that goes on after the name of the type
and a dot. -/
def isEntryOf (typeName : Text) (e : Element) : Bool :=
  match e.attribute? "name" with
  | some (letter :: ':' :: name) =>
      letter ∈ ['M', 'P', 'F'] && (typeName ++ ['.']).isPrefixOf name
  | _ => false

/-- The member that an entry gives: its name and kind, and what its children say. -/
structure MemberOf (e : Element) (m : Member) : Prop where
  name : e.attribute? "name" = some m.name
  kind : (m.name.head?, m.kind) ∈
    [(some 'M', Kind.method), (some 'P', Kind.property), (some 'F', Kind.field)]
  summary : ChildText e "summary" m.summary
  remarks : ChildText e "remarks" m.remarks
  returns : ChildText e "returns" m.returns
  value : ChildText e "value" m.value
  permission : ChildText e "permission" m.permission
  overloads : ChildText e "overloads" m.overloads
  inheritDoc : m.inheritDoc = true ↔ e.childrenNamed "inheritdoc" ≠ []
  parameters : Keyed e "param" "name" m.parameters
  typeParameters : Keyed e "typeparam" "name" m.typeParameters
  exceptions : Keyed e "exception" "cref" m.exceptions
  seeAlso : m.seeAlso =
    ((e.childrenNamed "seealso").filterMap (·.attribute? "cref")).map Text.clean
  examples : m.examples =
    (e.childrenNamed "example").map fun child => Text.clean (inlineText child)
  lists : List.Forall₂ ListText (e.childrenNamed "list") m.lists

/-- The class that the entry of a type gives. Its members may stand anywhere in the document. -/
structure ClassOf (root : Element) (typeName : Text) (e : Element) (c : Class) : Prop where
  name : e.attribute? "name" = some ("T:" ++ typeName)
  nonempty : typeName ≠ []
  parts : (c.nameSpace, c.className) = Identifier.split typeName
  summary : ChildText e "summary" c.summary
  remarks : ChildText e "remarks" c.remarks
  members : List.Forall₂ MemberOf ((memberEntries root).filter (isEntryOf typeName)) c.members

section Selection

theorem namedMembers_eq (root : Element) :
    namedMembers root =
      (memberEntries root).filterMap fun e => (e.attribute? "name").map (·, e) := by
  unfold namedMembers memberElements memberEntries
  rw [Element.named_eq_filter, List.filterMap_filter, List.filterMap_filter]
  apply List.filterMap_congr
  intro e _
  cases h : e.attribute? "name" with
  | none => simp only [Option.map_none, ite_self]
  | some name => simp only [isEntry, h, Option.isSome_some, Bool.and_true]

theorem isStart_iff (start s : Text) : Text.isStart start s = true ↔ start <+: s := by
  rw [Text.isStart, Option.isSome_iff_exists]
  constructor
  · rintro ⟨rest, h⟩
    exact ⟨rest, (Text.dropStart?_eq_some h).symm⟩
  · rintro ⟨rest, rfl⟩
    exact ⟨rest, Text.dropStart?_append start rest⟩

def NamesMemberOf (typeName name : Text) : Prop :=
  ∃ letter ∈ ['M', 'P', 'F'], ∃ rest, name = letter :: ':' :: rest ∧ typeName ++ ['.'] <+: rest

theorem memberStarts_any (typeName name : Text) :
    (memberStarts typeName).any (Text.isStart · name) = true ↔ NamesMemberOf typeName name := by
  have hstart (letter : Char) : letter :: ':' :: (typeName ++ ['.']) <+: name ↔
      ∃ rest, name = letter :: ':' :: rest ∧ typeName ++ ['.'] <+: rest := by
    constructor
    · rintro ⟨rest, rfl⟩
      exact ⟨_, rfl, List.prefix_append _ rest⟩
    · rintro ⟨rest, rfl, h⟩
      simpa using h
  simp only [NamesMemberOf, memberStarts, memberMarks, List.any_map, List.any_cons, List.any_nil,
    Bool.or_false, Bool.or_eq_true, Function.comp_apply, isStart_iff]
  simp only [List.mem_cons, List.not_mem_nil, or_false, exists_eq_or_imp, exists_eq_left, ← hstart]
  rfl

theorem isEntryOf_iff {e : Element} {name : Text} (h : e.attribute? "name" = some name)
    (typeName : Text) : isEntryOf typeName e = true ↔ NamesMemberOf typeName name := by
  rw [isEntryOf, h, NamesMemberOf]
  constructor
  · intro hm
    split at hm
    · next letter rest he =>
      simp only [Option.some.injEq] at he
      simp only [Bool.and_eq_true, decide_eq_true_eq, List.isPrefixOf_iff_prefix] at hm
      exact ⟨letter, hm.1, rest, he, hm.2⟩
    · simp at hm
  · rintro ⟨letter, hl, rest, rfl, hp⟩
    simp only [Bool.and_eq_true, decide_eq_true_eq, List.isPrefixOf_iff_prefix]
    exact ⟨hl, hp⟩

theorem memberOf_of_kind {name : Text} {e : Element} (h : e.attribute? "name" = some name)
    (hkind : (name.head?, kindOf name) ∈
      [(some 'M', Kind.method), (some 'P', Kind.property), (some 'F', Kind.field)]) :
    MemberOf e (member name e) where
  name := h
  kind := hkind
  summary := childText_childProse e _
  remarks := childText_childProse e _
  returns := childText_childProse e _
  value := childText_childProse e _
  permission := childText_childProse e _
  overloads := childText_childProse e _
  inheritDoc := by
    change (e.child? "inheritdoc").isSome = true ↔ _
    rw [child?_eq_head?, List.isSome_head?]
  parameters := keyed_entries e _ _
  typeParameters := keyed_entries e _ _
  exceptions := keyed_entries e _ _
  seeAlso := rfl
  examples := rfl
  lists := (forall₂_iff_map (f := listLine) fun _ _ => listText_iff).2 rfl

theorem memberOf_member {typeName name : Text} {e : Element} (h : e.attribute? "name" = some name)
    (hn : NamesMemberOf typeName name) : MemberOf e (member name e) := by
  obtain ⟨letter, hl, rest, rfl, -⟩ := hn
  have hkind : (some letter, Kind.ofLetter letter) ∈
      [(some 'M', Kind.method), (some 'P', Kind.property), (some 'F', Kind.field)] := by
    simp only [List.mem_cons, List.not_mem_nil, or_false] at hl
    rcases hl with rfl | rfl | rfl <;> decide
  exact memberOf_of_kind h hkind

theorem identifier_of_mem {root e : Element} (h : e ∈ memberEntries root) :
    ∃ name, e.attribute? "name" = some name := by
  have he := (List.mem_filter.1 h).2
  rw [isEntry, Bool.and_eq_true] at he
  exact Option.isSome_iff_exists.1 he.2

theorem memberStarts_any_eq {e : Element} {name : Text} (h : e.attribute? "name" = some name)
    (typeName : Text) :
    (memberStarts typeName).any (Text.isStart · name) = isEntryOf typeName e := by
  rw [Bool.eq_iff_iff, memberStarts_any, isEntryOf_iff h]

theorem membersOf_entries (root : Element) (typeName : Text) :
    List.Forall₂ MemberOf ((memberEntries root).filter (isEntryOf typeName))
      (membersOf typeName (namedMembers root)) := by
  rw [membersOf, namedMembers_eq, List.filter_filterMap, List.map_filterMap]
  apply forall₂_filterMap
  · intro e he hnone
    obtain ⟨name, hname⟩ := identifier_of_mem he
    rw [hname, Option.map_some, Option.filter_some, memberStarts_any_eq hname] at hnone
    by_contra hm
    simp [hm] at hnone
  · intro e he m hsome
    obtain ⟨name, hname⟩ := identifier_of_mem he
    rw [hname, Option.map_some, Option.filter_some, memberStarts_any_eq hname] at hsome
    by_cases hm : isEntryOf typeName e = true
    · rw [if_pos hm, Option.map_some, Option.some.injEq] at hsome
      subst hsome
      exact ⟨hm, memberOf_member hname ((isEntryOf_iff hname typeName).1 hm)⟩
    · rw [if_neg hm] at hsome
      cases hsome

theorem isTypeEntry_iff {e : Element} {name : Text} (h : e.attribute? "name" = some name) :
    isTypeEntry e = true ↔ ∃ typeName ≠ [], name = 'T' :: ':' :: typeName := by
  rw [isTypeEntry, h]
  constructor
  · intro ht
    split at ht
    · next c rest he =>
      exact ⟨c :: rest, List.cons_ne_nil _ _, Option.some.inj he⟩
    · cases ht
  · rintro ⟨typeName, hne, rfl⟩
    obtain ⟨c, rest, rfl⟩ := List.exists_cons_of_ne_nil hne
    rfl

def namedTypes (root : Element) : List (Text × Element) :=
  (namedMembers root).filterMap fun m =>
    ((typeName? m.1).filter fun typeName => typeName ≠ []).map (·, m.2)

theorem classes_eq (root : Element) :
    classes root = (namedTypes root).map fun t => typeClass t.1 t.2 (namedMembers root) := by
  unfold classes namedTypes
  rw [List.map_filterMap]
  apply List.filterMap_congr
  rintro ⟨name, e⟩ -
  cases h : typeName? name with
  | none => simp [h]
  | some typeName =>
      cases typeName with
      | nil => simp [h, Option.filter]
      | cons c rest => simp [h, Option.filter]

theorem typeName?_eq_some {name typeName : Text} :
    typeName? name = some typeName ↔ name = 'T' :: ':' :: typeName := by
  constructor
  · exact Text.dropStart?_eq_some
  · rintro rfl
    exact Text.dropStart?_append "T:" typeName

theorem namedTypes_entries (root : Element) :
    List.Forall₂
      (fun e t => e.attribute? "name" = some ('T' :: ':' :: t.1) ∧ t.1 ≠ [] ∧ t.2 = e)
      ((memberEntries root).filter isTypeEntry) (namedTypes root) := by
  rw [namedTypes, namedMembers_eq, List.filterMap_filterMap]
  apply forall₂_filterMap
  · intro e he hnone
    obtain ⟨name, hname⟩ := identifier_of_mem he
    by_contra ht
    obtain ⟨typeName, hne, rfl⟩ := (isTypeEntry_iff hname).1 (by simpa using ht)
    rw [hname, Option.map_some, Option.bind_some, typeName?_eq_some.2 rfl] at hnone
    simp [hne] at hnone
  · intro e he t hsome
    obtain ⟨name, hname⟩ := identifier_of_mem he
    rw [hname, Option.map_some, Option.bind_some, Option.map_eq_some_iff] at hsome
    obtain ⟨typeName, hfilter, rfl⟩ := hsome
    obtain ⟨ht, hne⟩ := Option.filter_eq_some_iff.1 hfilter
    obtain rfl := typeName?_eq_some.1 ht
    have hne : typeName ≠ [] := by simpa using hne
    exact ⟨(isTypeEntry_iff hname).2 ⟨typeName, hne, rfl⟩, hname, hne, rfl⟩

theorem namedMembers_of_entries {root other : Element}
    (h : memberEntries other = memberEntries root) : namedMembers other = namedMembers root := by
  rw [namedMembers_eq, namedMembers_eq, h]

theorem exists_partner {α β : Type} {R : α → β → Prop} {xs : List α} {ys : List β}
    (h : List.Forall₂ R xs ys) : ∀ y ∈ ys, ∃ x ∈ xs, R x y := by
  induction h with
  | nil => simp
  | cons hr _ ih =>
      refine List.forall_mem_cons.2 ⟨⟨_, List.mem_cons_self, hr⟩, fun y hy => ?_⟩
      obtain ⟨x, hx, hr⟩ := ih y hy
      exact ⟨x, List.mem_cons_of_mem _ hx, hr⟩

end Selection

section Classes

variable {root e : Element} {c : Class} {typeName : Text}

theorem ClassOf.nameSpace_eq (h : ClassOf root typeName e c) :
    c.nameSpace = (Identifier.split typeName).1 :=
  congrArg Prod.fst h.parts

theorem ClassOf.className_eq (h : ClassOf root typeName e c) :
    c.className = (Identifier.split typeName).2 :=
  congrArg Prod.snd h.parts

theorem ChildText.unique {tag t t' : Text} (h : ChildText e tag t) (h' : ChildText e tag t') :
    t = t' := by
  rw [← childText_iff.1 h, ← childText_iff.1 h']

theorem listText_rightUnique : Relator.RightUnique ListText := by
  intro e t t' h h'
  rw [← listText_iff.1 h, ← listText_iff.1 h']

theorem MemberOf.kind_eq {m : Member} (h : MemberOf e m) : m.kind = kindOf m.name := by
  have hkind := h.kind
  cases hname : m.name with
  | nil => simp [hname] at hkind
  | cons letter rest =>
      simp only [hname, List.head?_cons, List.mem_cons, Prod.mk.injEq, Option.some.injEq,
        List.not_mem_nil, or_false] at hkind
      rcases hkind with ⟨rfl, hk⟩ | ⟨rfl, hk⟩ | ⟨rfl, hk⟩ <;> exact hk

theorem memberOf_rightUnique : Relator.RightUnique MemberOf := by
  intro e m m' h h'
  have hname : m.name = m'.name := Option.some.inj (h.name.symm.trans h'.name)
  have hkind : m.kind = m'.kind := by rw [h.kind_eq, h'.kind_eq, hname]
  have hinherit : m.inheritDoc = m'.inheritDoc :=
    Bool.eq_iff_iff.2 (h.inheritDoc.trans h'.inheritDoc.symm)
  have hlists := listText_rightUnique.forall₂ h.lists h'.lists
  cases m
  cases m'
  simp only [Member.mk.injEq]
  exact ⟨hkind, hname, h.summary.unique h'.summary, h.remarks.unique h'.remarks,
    h.returns.unique h'.returns, h.value.unique h'.value, h.permission.unique h'.permission,
    h.overloads.unique h'.overloads, hinherit, h.parameters.unique h'.parameters,
    h.typeParameters.unique h'.typeParameters, h.exceptions.unique h'.exceptions,
    h.seeAlso.trans h'.seeAlso.symm, h.examples.trans h'.examples.symm, hlists⟩

theorem classOf_rightUnique (root : Element) :
    Relator.RightUnique fun e c => ∃ typeName, ClassOf root typeName e c := by
  rintro e c c' ⟨typeName, h⟩ ⟨typeName', h'⟩
  obtain rfl : typeName = typeName' := by simpa using h.name.symm.trans h'.name
  have hnameSpace := h.nameSpace_eq.trans h'.nameSpace_eq.symm
  have hclassName := h.className_eq.trans h'.className_eq.symm
  have hmembers := memberOf_rightUnique.forall₂ h.members h'.members
  cases c
  cases c'
  simp only [Class.mk.injEq]
  exact ⟨hclassName, hnameSpace, h.summary.unique h'.summary, h.remarks.unique h'.remarks, hmembers⟩

theorem MemberOf.kind_ne_unknown {m : Member} (h : MemberOf e m) : m.kind ≠ .unknown := by
  intro hk
  have hkind := h.kind
  rw [hk] at hkind
  simp at hkind

/-- A member goes to every type whose name and a dot its own name begins with, and to no other. -/
theorem ClassOf.attached_iff (h : ClassOf root typeName e c) {i : Element}
    (hi : i ∈ memberEntries root) {letter : Char} {rest : Text} (hl : letter ∈ ['M', 'P', 'F'])
    (hname : i.attribute? "name" = some (letter :: ':' :: rest)) :
    (∃ m ∈ c.members, MemberOf i m) ↔ typeName ++ ['.'] <+: rest := by
  constructor
  · rintro ⟨m, hm, hmember⟩
    obtain ⟨j, hj, hmember'⟩ := exists_partner h.members m hm
    have hsame : m.name = letter :: ':' :: rest :=
      Option.some.inj (hmember.name.symm.trans hname)
    obtain ⟨letter', -, rest', he, hp⟩ :=
      (isEntryOf_iff hmember'.name typeName).1 (List.mem_filter.1 hj).2
    rw [hsame] at he
    simp only [List.cons.injEq, true_and] at he
    exact he.2 ▸ hp
  · intro hp
    have hentry := (isEntryOf_iff hname typeName).2 ⟨letter, hl, rest, rfl, hp⟩
    have hflip : List.Forall₂ (fun m i => MemberOf i m) c.members
        ((memberEntries root).filter (isEntryOf typeName)) := h.members.flip
    exact exists_partner hflip i (List.mem_filter.2 ⟨hi, hentry⟩)

theorem classOf_entries (root : Element) :
    List.Forall₂ (fun e c => ∃ typeName, ClassOf root typeName e c)
      ((memberEntries root).filter isTypeEntry) (classes root) := by
  rw [classes_eq, List.forall₂_map_right_iff]
  refine (namedTypes_entries root).imp ?_
  rintro e ⟨typeName, _⟩ ⟨hname, hne, rfl⟩
  exact ⟨typeName, hname, hne, rfl, childText_childProse _ _, childText_childProse _ _,
    membersOf_entries root typeName⟩

theorem classes_iff {cs : List Class} :
    List.Forall₂ (fun e c => ∃ typeName, ClassOf root typeName e c)
      ((memberEntries root).filter isTypeEntry) cs ↔ classes root = cs := by
  constructor
  · intro h
    exact (classOf_rightUnique root).forall₂ (classOf_entries root) h
  · rintro rfl
    exact classOf_entries root

/-- Each type's entry gives one class, in document order. The members of a class are the entries
that its name tells, wherever they stand, and member elements without a name count for nothing. -/
theorem classes_exact (root : Element) :
    (∀ cs, List.Forall₂ (fun e c => ∃ typeName, ClassOf root typeName e c)
      ((memberEntries root).filter isTypeEntry) cs ↔ classes root = cs) ∧
    (∀ c ∈ classes root, ∀ m ∈ c.members, m.kind ≠ .unknown) ∧
    (∀ e c typeName, ClassOf root typeName e c → ∀ i ∈ memberEntries root, ∀ letter rest,
      letter ∈ ['M', 'P', 'F'] → i.attribute? "name" = some (letter :: ':' :: rest) →
        ((∃ m ∈ c.members, MemberOf i m) ↔ typeName ++ ['.'] <+: rest)) ∧
    ∀ other, memberEntries other = memberEntries root → classes other = classes root := by
  refine ⟨fun cs => classes_iff, ?_, ?_, ?_⟩
  · intro c hc m hm
    obtain ⟨e, -, typeName, hclass⟩ := exists_partner (classOf_entries root) c hc
    obtain ⟨i, -, hmember⟩ := exists_partner hclass.members m hm
    exact hmember.kind_ne_unknown
  · intro e c typeName hclass i hi letter rest hl hname
    exact hclass.attached_iff hi hl hname
  · intro other h
    rw [classes_eq, classes_eq, namedTypes, namedTypes, namedMembers_of_entries h]

end Classes

section Descriptions

structure Described (e : Element) (m : Member) : Prop where
  parameters : Keyed e "param" "name" m.parameters
  typeParameters : Keyed e "typeparam" "name" m.typeParameters
  exceptions : Keyed e "exception" "cref" m.exceptions

theorem described_member (name : Text) (e : Element) : Described e (member name e) :=
  ⟨keyed_entries e _ _, keyed_entries e _ _, keyed_entries e _ _⟩

theorem MemberOf.described {e : Element} {m : Member} (h : MemberOf e m) : Described e m :=
  ⟨h.parameters, h.typeParameters, h.exceptions⟩

/-- Entries stored one after another have distinct names, each at the place where it came first and
with the description that came last; one entry more changes none of another name. The parameters,
type parameters and exceptions of a member are collected in this way from the children that carry
their key. -/
theorem descriptions_collected :
    (∀ es, (Entry.names (Entry.collect es)).Nodup ∧
      ∀ ds, Entry.Collected es ds ↔ Entry.collect es = ds) ∧
    (∀ ds e, Entry.Stored e ds (Entry.upsert ds e)) ∧
    (∀ name e, Described e (member name e)) ∧
    ∀ root, ∀ c ∈ classes root, ∀ m ∈ c.members, ∃ e ∈ memberEntries root,
      MemberOf e m ∧ Described e m := by
  refine ⟨fun es => ⟨(Entry.collected_collect es).nodup, fun ds => Entry.collected_iff⟩,
    Entry.stored_upsert, described_member, fun root c hc m hm => ?_⟩
  obtain ⟨_, -, typeName, hclass⟩ := exists_partner (classOf_entries root) c hc
  obtain ⟨e, he, hmember⟩ := exists_partner hclass.members m hm
  exact ⟨e, List.mem_of_mem_filter he, hmember, hmember.described⟩

/-- Names that come again, a child without its key, and one that is no child of the member. -/
theorem descriptions_collected_repeated :
    let content : Content :=
      .element "param" [⟨"name", "a"⟩] (.text "one" .nil) <|
      .element "param" [⟨"name", "b"⟩] (.text "two" .nil) <|
      .element "param" [] (.text "three" .nil) <|
      .element "remarks" [] (.element "param" [⟨"name", "c"⟩] .nil .nil) <|
      .element "param" [⟨"name", "a"⟩] (.text " four\n five" .nil) <|
      .element "exception" [⟨"name", "x"⟩, ⟨"cref", "T:X"⟩] .nil .nil
    let root : Element := ⟨"doc", [],
      .element "member" [⟨"name", "T:C"⟩] .nil (.element "member" [⟨"name", "M:C.f"⟩] content .nil)⟩
    let m : Member := ⟨.method, "M:C.f", [], [], [], [], [], [], false,
      [⟨"a", "four five"⟩, ⟨"b", "two"⟩], [], [⟨"T:X", []⟩], [], [], []⟩
    let c : Class := ⟨"C", [], [], [], [m]⟩
    classes root = [c] ∧ ∃ e ∈ memberEntries root, MemberOf e m ∧ Described e m := by
  intro content root m c
  have hclasses : classes root = [c] := by decide +kernel
  have hc : c ∈ classes root := hclasses ▸ List.mem_singleton_self c
  exact ⟨hclasses, descriptions_collected.2.2.2 root c hc m (List.mem_singleton_self m)⟩

end Descriptions

end ApiDocs.Extract
