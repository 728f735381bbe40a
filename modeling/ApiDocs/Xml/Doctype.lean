import ApiDocs.Xml.Attribute

namespace ApiDocs.Xml

/-- The content of a tag, up to the first `>` outside quotes, and the text after it. The open
quote is reported if there is no such place. -/
def cutTag (quote : Option Char) : Text → Except (Option Char) (Text × Text)
  | [] => .error quote
  | c :: s =>
    match quote with
    | some q =>
      (cutTag (if c = q then none else some q) s).map fun (content, rest) => (c :: content, rest)
    | none =>
      if c = '>' then .ok ([], s)
      else
        (cutTag (if isQuote c then some c else none) s).map
          fun (content, rest) => (c :: content, rest)

theorem length_cutTag {quote : Option Char} {s content rest : Text}
    (h : cutTag quote s = .ok (content, rest)) : rest.length < s.length := by
  induction s generalizing quote content with
  | nil => simp [cutTag] at h
  | cons c s ih =>
    have step : ∀ q, (cutTag q s).map (fun (content, rest) => (c :: content, rest))
        = .ok (content, rest) → rest.length < (c :: s).length := by
      intro q hq
      cases hs : cutTag q s with
      | error e => simp [hs, Except.map] at hq
      | ok p =>
        obtain ⟨b, r⟩ := p
        simp only [hs, Except.map, Except.ok.injEq, Prod.mk.injEq] at hq
        have := ih (hq.2 ▸ hs)
        simp only [List.length_cons]
        omega
    unfold cutTag at h
    split at h
    · exact step _ h
    · split at h
      · simp only [Except.ok.injEq, Prod.mk.injEq] at h
        simp [h.2]
      · exact step _ h

namespace Doctype

def past? (mark : Text) (s : Text) : Option Text := (Text.cutAt? mark s).map (·.2)

theorem length_past? {mark s rest : Text} (h : past? mark s = some rest) :
    rest.length ≤ s.length := by
  obtain ⟨⟨b, r⟩, hr, rfl⟩ := Option.map_eq_some_iff.1 h
  exact Text.length_of_cutAt? hr

def quotedDeclarations : List Text := ["!ENTITY", "!ATTLIST", "!NOTATION"]

/-- The text after the markup of an internal subset, whose `<` has been read. -/
def pastMarkup? (s : Text) : Option Text :=
  if Text.isStart "?" s then past? "?>" (s.drop 1)
  else if Text.isStart "!--" s then past? "-->" (s.drop 3)
  else if quotedDeclarations.any (Text.isStart · s) then (cutTag none s).toOption.map (·.2)
  else past? ">" s

theorem length_pastMarkup? {s rest : Text} (h : pastMarkup? s = some rest) :
    rest.length ≤ s.length := by
  unfold pastMarkup? at h
  split at h
  · exact Nat.le_trans (length_past? h) (by simp)
  · split at h
    · exact Nat.le_trans (length_past? h) (by simp)
    · split at h
      · cases hc : cutTag none s with
        | error e => simp [hc, Except.toOption] at h
        | ok p =>
          obtain ⟨b, r⟩ := p
          simp only [hc, Except.toOption, Option.map_some, Option.some.injEq] at h
          exact Nat.le_of_lt (h ▸ length_cutTag hc)
      · exact length_past? h

def pastSubset? (s : Text) : Option Text :=
  match s with
  | [] => none
  | c :: s =>
    if c = ']' then past? ">" s
    else if c = '<' then
      match _h : pastMarkup? s with
      | some rest => pastSubset? rest
      | none => none
    else pastSubset? s
termination_by s.length
decreasing_by
  · have := length_pastMarkup? _h
    simp only [List.length_cons]
    omega
  · simp

def pastOuter? (s : Text) : Option Text :=
  match s with
  | [] => none
  | c :: s =>
    if c = '>' then some s
    else if c = '[' then pastSubset? s
    else if isQuote c then
      match _h : past? [c] s with
      | some rest => pastOuter? rest
      | none => none
    else pastOuter? s
termination_by s.length
decreasing_by
  · have := length_past? _h
    simp only [List.length_cons]
    omega
  · simp

theorem length_pastSubset? {s rest : Text} (h : pastSubset? s = some rest) :
    rest.length ≤ s.length := by
  fun_induction pastSubset? s with
  | case1 => simp at h
  | case2 s => exact Nat.le_trans (length_past? h) (by simp)
  | case3 s r hr _ ih =>
    have := length_pastMarkup? hr
    have := ih h
    simp only [List.length_cons]
    omega
  | case4 => simp at h
  | case5 c s _ _ ih =>
    have := ih h
    simp only [List.length_cons]
    omega

theorem length_pastOuter? {s rest : Text} (h : pastOuter? s = some rest) : rest.length ≤ s.length := by
  fun_induction pastOuter? s with
  | case1 => simp at h
  | case2 s => simp only [Option.some.injEq] at h; simp [h]
  | case3 s => exact Nat.le_trans (length_pastSubset? h) (by simp)
  | case4 c s _ _ _ r hr ih =>
    have := length_past? hr
    have := ih h
    simp only [List.length_cons]
    omega
  | case5 => simp at h
  | case6 c s _ _ _ ih =>
    have := ih h
    simp only [List.length_cons]
    omega

def read (s : Text) : Except Fault Text :=
  if (s.take 6).map Char.toUpper = "OCTYPE" then
    let s := s.drop 6
    match pastOuter? s with
    | none => .error (.markup .doctype)
    | some rest =>
      if (s.dropWhile isSpace).head? = some '>' then .error (.form .namelessDoctype) else .ok rest
  else .error (.markup .doctype)

end Doctype
end ApiDocs.Xml
