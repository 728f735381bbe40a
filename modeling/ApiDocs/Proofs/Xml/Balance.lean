import ApiDocs.Xml.Tree

namespace ApiDocs.Xml

/-- Tokens that close every tag they open, and the names of their outermost elements. -/
inductive Balanced : List Token → List Text → Prop
  | nil : Balanced [] []
  | text {ts names} (t : Text) : Balanced ts names → Balanced (.text t :: ts) names
  | aside {ts names} : Balanced ts names → Balanced (.aside :: ts) names
  | empty {ts names} (name : Text) (attributes : List Attribute) :
      Balanced ts names → Balanced (.empty name attributes :: ts) (name :: names)
  | element {inside inner ts names} (name : Text) (attributes : List Attribute) :
      Balanced inside inner → Balanced ts names →
      Balanced (.opened name attributes :: inside ++ .closed name :: ts) (name :: names)

/-- Tokens that complete the outermost elements `roots` and leave the elements `stack` open,
innermost first. -/
inductive Leaves : List Token → (roots stack : List Text) → Prop
  | outside {ts roots} : Balanced ts roots → Leaves ts roots []
  | inside {ts roots stack us names} (name : Text) (attributes : List Attribute) :
      Leaves ts roots stack → Balanced us names →
      Leaves (ts ++ .opened name attributes :: us) roots (name :: stack)

/-- A token that no document has after the completed `roots` and inside the open `stack`. -/
inductive Breaks : (roots stack : List Text) → Token → Error → Prop
  | unexpectedEnd (roots : List Text) (name : Text) :
      Breaks roots [] (.closed name) (.unexpectedEnd name)
  | mismatchedEnd (roots stack : List Text) {innermost name : Text} : innermost ≠ name →
      Breaks roots (innermost :: stack) (.closed name)
        (.unreadable (.form (.mismatchedEnd innermost name)))
  | secondRoot (first second : Text) :
      Breaks [first] [second] (.closed second) (.multipleRoots first second)
  | secondEmptyRoot (first second : Text) (attributes : List Attribute) :
      Breaks [first] [] (.empty second attributes) (.multipleRoots first second)

/-- What a reader says of tokens and the fault after them: the name of the root, or the first
error from the left. -/
inductive Verdict : List Token → Option Fault → Except Error Text → Prop
  | breaks {before roots stack t e} (after : List Token) (fault : Option Fault) :
      Leaves before roots stack → roots.length ≤ 1 → Breaks roots stack t e →
      Verdict (before ++ t :: after) fault (.error e)
  | faulty {ts roots stack} (fault : Fault) : Leaves ts roots stack → roots.length ≤ 1 →
      Verdict ts (some fault) (.error (.unreadable fault))
  | unclosed {ts roots name stack} : Leaves ts roots (name :: stack) → roots.length ≤ 1 →
      Verdict ts none (.error (.unclosedElement name))
  | rootless {ts} : Balanced ts [] → Verdict ts none (.error .emptyDocument)
  | document {ts name} : Balanced ts [name] → Verdict ts none (.ok name)

section Grammar

variable {ts us : List Token} {roots names stack : List Text}

theorem Balanced.append (h : Balanced ts roots) (hu : Balanced us names) :
    Balanced (ts ++ us) (roots ++ names) := by
  induction h with
  | nil => exact hu
  | text t _ ih => exact .text t ih
  | aside _ ih => exact .aside ih
  | empty name attributes _ ih => exact .empty name attributes ih
  | element name attributes hi _ _ ih =>
      have h := Balanced.element name attributes hi ih
      simpa only [List.append_assoc, List.cons_append] using h

theorem Leaves.append_inside {name : Text} (h : Leaves ts roots (name :: stack))
    (hu : Balanced us names) : Leaves (ts ++ us) roots (name :: stack) := by
  cases h with
  | inside _ attributes hl hb =>
      rw [List.append_assoc, List.cons_append]
      exact .inside name attributes hl (hb.append hu)

theorem Leaves.append_outside (h : Leaves ts roots []) (hu : Balanced us names) :
    Leaves (ts ++ us) (roots ++ names) [] := by
  cases h with
  | outside hb => exact .outside (hb.append hu)

theorem Leaves.append (h : Leaves ts roots stack) (hu : Balanced us names) :
    Leaves (ts ++ us) (if stack = [] then roots ++ names else roots) stack := by
  cases stack with
  | nil => exact h.append_outside hu
  | cons name stack => exact h.append_inside hu

theorem Leaves.append_opened (h : Leaves ts roots stack) (name : Text)
    (attributes : List Attribute) : Leaves (ts ++ [.opened name attributes]) roots (name :: stack) :=
  .inside name attributes h .nil

theorem Leaves.append_closed {name : Text} (h : Leaves ts roots (name :: stack)) :
    Leaves (ts ++ [.closed name]) (if stack = [] then roots ++ [name] else roots) stack := by
  cases h with
  | inside _ attributes hl hb =>
      rw [List.append_assoc, List.cons_append]
      exact hl.append (.element name attributes hb .nil)

end Grammar

namespace Progress

def openNames (p : Progress) : List Text := p.stack.map (·.name)

def rootNames (p : Progress) : List Text := p.root.toList.map (·.name)

theorem length_rootNames (p : Progress) : p.rootNames.length ≤ 1 := by
  obtain ⟨stack, root⟩ := p
  cases root <;> simp [rootNames]

theorem run_append (p : Progress) (ts us : List Token) :
    p.run (ts ++ us) = (p.run ts).bind (·.run us) := by
  induction ts generalizing p with
  | nil => rfl
  | cons t ts ih =>
      simp only [List.cons_append, run]
      cases p.step t with
      | ok q => exact ih q
      | error e => rfl

theorem names_addText (p : Progress) (t : Text) :
    (p.addText t).openNames = p.openNames ∧ (p.addText t).rootNames = p.rootNames := by
  obtain ⟨stack, root⟩ := p
  cases stack <;> exact ⟨rfl, rfl⟩

theorem names_push (p : Progress) (e : Element) :
    (p.push e).openNames = e.name :: p.openNames ∧ (p.push e).rootNames = p.rootNames :=
  ⟨rfl, rfl⟩

theorem attach_cases (p : Progress) (e : Element) :
    (∃ q, p.attach e = .ok q ∧ q.openNames = p.openNames ∧
      q.rootNames = if p.openNames = [] then p.rootNames ++ [e.name] else p.rootNames) ∨
    (∃ first, p.openNames = [] ∧ p.rootNames = [first] ∧
      p.attach e = .error (.multipleRoots first e.name)) := by
  obtain ⟨stack, root⟩ := p
  cases stack with
  | cons parent outer => exact .inl ⟨_, rfl, rfl, rfl⟩
  | nil =>
      cases root with
      | none => exact .inl ⟨_, rfl, rfl, rfl⟩
      | some first => exact .inr ⟨first.name, rfl, rfl, rfl⟩

theorem close_cases (p : Progress) (name : Text) :
    (∃ q stack, p.openNames = name :: stack ∧ p.close name = .ok q ∧ q.openNames = stack ∧
      q.rootNames = if stack = [] then p.rootNames ++ [name] else p.rootNames) ∨
    (∃ e, p.close name = .error e ∧ Breaks p.rootNames p.openNames (.closed name) e) := by
  obtain ⟨stack, root⟩ := p
  cases stack with
  | nil => exact .inr ⟨_, rfl, .unexpectedEnd _ name⟩
  | cons e outer =>
      by_cases hn : e.name = name
      · subst hn
        simp only [close, if_pos]
        rcases attach_cases ⟨outer, root⟩ e with ⟨q, hq, hs, hr⟩ | ⟨first, hs, hr, he⟩
        · exact .inl ⟨q, _, rfl, hq, hs, hr⟩
        · refine .inr ⟨_, he, ?_⟩
          have hb := Breaks.secondRoot first e.name
          rwa [← hr, show [e.name] = openNames ⟨e :: outer, root⟩ from
            congrArg (e.name :: ·) hs.symm] at hb
      · exact .inr ⟨_, if_neg hn, .mismatchedEnd _ _ hn⟩

/-- One step: a token is taken and the grammar follows, or the token breaks the document. -/
theorem step_cases (p : Progress) (t : Token) :
    (∃ q, p.step t = .ok q ∧ ∀ ts, Leaves ts p.rootNames p.openNames →
      Leaves (ts ++ [t]) q.rootNames q.openNames) ∨
    (∃ e, p.step t = .error e ∧ Breaks p.rootNames p.openNames t e) := by
  have stays {t : Token} (ht : Balanced [t] []) {ts : List Token}
      (h : Leaves ts p.rootNames p.openNames) : Leaves (ts ++ [t]) p.rootNames p.openNames := by
    simpa only [List.append_nil, ite_self] using h.append ht
  cases t with
  | text t =>
      refine .inl ⟨_, rfl, fun ts h => ?_⟩
      rw [(names_addText p t).1, (names_addText p t).2]
      exact stays (.text t .nil) h
  | aside => exact .inl ⟨p, rfl, fun ts h => stays (.aside .nil) h⟩
  | opened name attributes => exact .inl ⟨_, rfl, fun ts h => h.append_opened name attributes⟩
  | empty name attributes =>
      rcases attach_cases p ⟨name, attributes, .nil⟩ with ⟨q, hq, hs, hr⟩ | ⟨first, hs, hr, he⟩
      · refine .inl ⟨q, hq, fun ts h => ?_⟩
        rw [hs, hr]
        exact h.append (.empty name attributes .nil)
      · rw [hs, hr]
        exact .inr ⟨_, he, .secondEmptyRoot first name attributes⟩
  | closed name =>
      rcases close_cases p name with ⟨q, stack, hn, hq, hs, hr⟩ | h
      · refine .inl ⟨q, hq, fun ts h => ?_⟩
        rw [hn] at h
        rw [hs, hr]
        exact h.append_closed
      · exact .inr h

theorem run_cases {before : List Token} (p : Progress)
    (h : Leaves before p.rootNames p.openNames) (ts : List Token) :
    (∃ q, p.run ts = .ok q ∧ Leaves (before ++ ts) q.rootNames q.openNames) ∨
    (∃ (e : Error) (q : Progress) (taken : List Token) (t : Token) (after : List Token),
      ts = taken ++ t :: after ∧ p.run ts = .error e ∧
      Leaves (before ++ taken) q.rootNames q.openNames ∧
      Breaks q.rootNames q.openNames t e) := by
  induction ts generalizing p before with
  | nil => exact .inl ⟨p, rfl, by rwa [List.append_nil]⟩
  | cons t ts ih =>
      rcases step_cases p t with ⟨q, hq, hl⟩ | ⟨e, he, hb⟩
      · simp only [run, hq]
        rcases ih q (hl before h) with ⟨r, hr, hl'⟩ | ⟨e, r, taken, u, after, rfl, he, hl', hb⟩
        · exact .inl ⟨r, hr, by rwa [List.append_assoc] at hl'⟩
        · refine .inr ⟨e, r, t :: taken, u, after, rfl, he, ?_, hb⟩
          rwa [List.append_assoc] at hl'
      · exact .inr ⟨e, p, [], t, ts, rfl, by simp only [run, he], by rwa [List.append_nil], hb⟩

theorem attach_of_room (p : Progress) (e : Element)
    (h : p.openNames = [] → p.rootNames = []) :
    ∃ q, p.attach e = .ok q ∧ q.openNames = p.openNames ∧
      q.rootNames = if p.openNames = [] then p.rootNames ++ [e.name] else p.rootNames := by
  rcases attach_cases p e with hq | ⟨first, hs, hr, -⟩
  · exact hq
  · rw [h hs] at hr
    exact absurd hr (List.cons_ne_nil _ _).symm

theorem close_of_room {p : Progress} {name : Text} {stack : List Text}
    (hp : p.openNames = name :: stack) (h : stack = [] → p.rootNames = []) :
    ∃ q, p.close name = .ok q ∧ q.openNames = stack ∧
      q.rootNames = if stack = [] then p.rootNames ++ [name] else p.rootNames := by
  rcases close_cases p name with ⟨q, stack', hn, hq, hs, hr⟩ | ⟨e, -, hb⟩
  · rw [hp] at hn
    obtain rfl := (List.cons.inj hn).2
    exact ⟨q, hq, hs, hr⟩
  · generalize p.rootNames = roots at h hb
    rw [hp] at hb
    cases hb with
    | mismatchedEnd _ _ hne => exact absurd rfl hne
    | secondRoot => exact absurd (h rfl) (List.cons_ne_nil _ _)

theorem run_balanced {ts : List Token} {names : List Text} (h : Balanced ts names) (p : Progress)
    (hroom : p.openNames = [] → (p.rootNames ++ names).length ≤ 1) :
    ∃ q, p.run ts = .ok q ∧ q.openNames = p.openNames ∧
      q.rootNames = if p.openNames = [] then p.rootNames ++ names else p.rootNames := by
  have room {p : Progress} {name : Text} {names : List Text}
      (h : p.openNames = [] → (p.rootNames ++ name :: names).length ≤ 1) (hs : p.openNames = []) :
      p.rootNames = [] ∧ names = [] := by
    have := h hs
    simp only [List.length_append, List.length_cons] at this
    exact ⟨List.length_eq_zero_iff.1 (by omega), List.length_eq_zero_iff.1 (by omega)⟩
  -- the progress is arbitrary, since what is inside an element runs with that element open
  induction h generalizing p with
  | nil => exact ⟨p, rfl, rfl, by rw [List.append_nil, ite_self]⟩
  | text t _ ih =>
      have h := ih (p.addText t)
      rw [(names_addText p t).1, (names_addText p t).2] at h
      exact h hroom
  | aside _ ih => exact ih p hroom
  | @empty ts names name attributes _ ih =>
      obtain ⟨q, hq, hs, hr⟩ := attach_of_room p ⟨name, attributes, .nil⟩ fun h => (room hroom h).1
      obtain ⟨r, hrun, hs', hr'⟩ := ih q fun h => by
        rw [hs] at h
        rw [hr, if_pos h, List.append_assoc]
        exact hroom h
      refine ⟨r, by simp only [run, step, hq, hrun], hs'.trans hs, ?_⟩
      rw [hr', hr, hs]
      split <;> simp
  | @element us inner ts names name attributes _ _ ihi ih =>
      obtain ⟨q, hq, hs, hr⟩ := ihi (p.push ⟨name, attributes, .nil⟩) fun h =>
        absurd h (List.cons_ne_nil _ _)
      rw [(names_push p _).1] at hs hr
      rw [(names_push p _).2, if_neg (List.cons_ne_nil _ _)] at hr
      obtain ⟨r, hc, hs', hr'⟩ := close_of_room hs fun h => hr ▸ (room hroom h).1
      rw [hr] at hr'
      obtain ⟨z, hrun, hsz, hrz⟩ := ih r fun h => by
        rw [hs'] at h
        rw [hr', if_pos h, List.append_assoc]
        exact hroom h
      refine ⟨z, ?_, hsz.trans hs', ?_⟩
      · simp only [List.cons_append, run, step, run_append, hq, hc, Except.bind, hrun]
      · rw [hrz, hr', hs']
        split <;> simp

theorem run_of_leaves {ts : List Token} {roots stack : List Text} (h : Leaves ts roots stack)
    (hl : roots.length ≤ 1) :
    ∃ p, start.run ts = .ok p ∧ p.openNames = stack ∧ p.rootNames = roots := by
  induction h with
  | outside hb => exact run_balanced hb start fun _ => hl
  | inside name attributes _ hb ih =>
      obtain ⟨p, hp, hs, hr⟩ := ih hl
      obtain ⟨q, hq, hs', hr'⟩ := run_balanced hb (p.push ⟨name, attributes, .nil⟩) fun h =>
        absurd h (List.cons_ne_nil _ _)
      rw [(names_push p _).1, hs] at hs' hr'
      rw [(names_push p _).2, if_neg (List.cons_ne_nil _ _), hr] at hr'
      refine ⟨q, ?_, hs', hr'⟩
      simp only [run_append, hp, Except.bind, run, step, hq]

theorem step_of_breaks {p : Progress} {t : Token} {e : Error}
    (h : Breaks p.rootNames p.openNames t e) : p.step t = .error e := by
  obtain ⟨stack, root⟩ := p
  generalize hr : rootNames ⟨stack, root⟩ = roots at h
  generalize hs : openNames ⟨stack, root⟩ = names at h
  cases h with
  | unexpectedEnd =>
      obtain rfl : stack = [] := List.map_eq_nil_iff.1 hs
      rfl
  | mismatchedEnd _ _ hne =>
      obtain ⟨e, outer, rfl, rfl, -⟩ := List.map_eq_cons_iff.1 hs
      exact if_neg hne
  | secondRoot first second =>
      obtain ⟨e, outer, rfl, rfl, ho⟩ := List.map_eq_cons_iff.1 hs
      obtain rfl := List.map_eq_nil_iff.1 ho
      cases root with
      | none => cases hr
      | some root =>
          obtain rfl : root.name = first := (List.cons.inj hr).1
          exact if_pos rfl
  | secondEmptyRoot first second attributes =>
      obtain rfl := List.map_eq_nil_iff.1 hs
      cases root with
      | none => cases hr
      | some root =>
          obtain rfl : root.name = first := (List.cons.inj hr).1
          rfl

end Progress

section Parse

open Progress

theorem leaves_start : Leaves [] start.rootNames start.openNames := .outside .nil

theorem verdict_build (ts : List Token) (fault : Option Fault) :
    Verdict ts fault ((build ts fault).map (·.name)) := by
  unfold build
  rcases run_cases start leaves_start ts with ⟨q, hq, hl⟩ | ⟨e, q, taken, t, after, rfl, he, hl, hb⟩
  · simp only [hq, List.nil_append] at hl ⊢
    cases fault with
    | some fault => exact .faulty fault hl q.length_rootNames
    | none =>
        obtain ⟨stack, root⟩ := q
        cases stack with
        | cons e outer => exact .unclosed hl (length_rootNames ⟨e :: outer, root⟩)
        | nil =>
            cases hl with
            | outside hb =>
                cases root with
                | none => exact .rootless hb
                | some root => exact .document hb
  · simp only [he, List.nil_append] at hl ⊢
    exact .breaks after fault hl q.length_rootNames hb

theorem build_of_verdict {ts : List Token} {fault : Option Fault} {r : Except Error Text}
    (h : Verdict ts fault r) : (build ts fault).map (·.name) = r := by
  unfold build
  cases h with
  | breaks after fault hl hr hb =>
      obtain ⟨p, hp, rfl, rfl⟩ := run_of_leaves hl hr
      simp only [run_append, hp, Except.bind, run, step_of_breaks hb, Except.map]
  | faulty fault hl hr =>
      obtain ⟨p, hp, -, -⟩ := run_of_leaves hl hr
      simp only [hp, Except.map]
  | unclosed hl hr =>
      obtain ⟨⟨stack, root⟩, hp, hs, -⟩ := run_of_leaves hl hr
      obtain ⟨e, outer, rfl, rfl, -⟩ := List.map_eq_cons_iff.1 hs
      simp only [hp, finish, Except.map]
  | rootless hb =>
      obtain ⟨⟨stack, root⟩, hp, hs, hr⟩ := run_of_leaves (.outside hb) (Nat.zero_le _)
      obtain rfl := List.map_eq_nil_iff.1 hs
      cases root with
      | none => simp only [hp, finish, Except.map]
      | some root => cases hr
  | @document _ name hb =>
      obtain ⟨⟨stack, root⟩, hp, hs, hr⟩ := run_of_leaves (.outside hb) (Nat.le_refl _)
      obtain rfl := List.map_eq_nil_iff.1 hs
      cases root with
      | none => cases hr
      | some root =>
          obtain rfl : root.name = name := (List.cons.inj hr).1
          simp only [hp, finish, Except.map]

/-- The reader accepts the documents and names their root. Otherwise it reports the first token
that no document has in its place, the fault of the text if that comes first, or what is missing
at the end. -/
theorem parse_iff_verdict (s : Text) (r : Except Error Text) :
    (parse s).map (·.name) = r ↔
      Verdict (tokens (withoutByteOrderMark s)).1 (tokens (withoutByteOrderMark s)).2 r := by
  constructor
  · rintro rfl
    exact verdict_build _ _
  · exact build_of_verdict

end Parse
end ApiDocs.Xml
