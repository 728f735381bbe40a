import ApiDocs.Xml.Doctype

namespace ApiDocs.Xml

inductive Token
  | text (content : Text)
  | aside
  | opened (name : Text) (attributes : List Attribute)
  | empty (name : Text) (attributes : List Attribute)
  | closed (name : Text)
deriving DecidableEq, Repr

namespace Token

def isTextChar (c : Char) : Bool := c ≠ '<' && c ≠ '&'

def isReferenceChar (c : Char) : Bool := c ≠ ';' && c ≠ '&' && c ≠ '<'

def nextReference (s : Text) : Except Fault (Token × Text) :=
  match s.dropWhile isReferenceChar with
  | ';' :: rest => .ok (text (Reference.inContent (s.takeWhile isReferenceChar)), rest)
  | _ => .error (.form .openReference)

/-- White space at the end of the name of an end tag is dropped, unless there is nothing else. -/
def endName (s : Text) : Text :=
  if Text.dropEndWhile isSpace s = [] then s else Text.dropEndWhile isSpace s

def nameAndAttributes (content : Text) : Except Fault (Text × List Attribute) :=
  let name := content.takeWhile (!isSpace ·)
  (Attribute.readFrom (Text.byteSize content) [] (content.dropWhile (!isSpace ·))).map (name, ·)

def ofTag (content : Text) : Except Fault Token :=
  if content.head? = some '/' then .ok (closed (endName content.tail))
  else if content.getLast? = some '/' then
    (nameAndAttributes content.dropLast).map fun (name, attributes) => empty name attributes
  else (nameAndAttributes content).map fun (name, attributes) => opened name attributes

def nextTag (s : Text) : Except Fault (Token × Text) :=
  match cutTag none s with
  | .error none => .error (.markup .tag)
  | .error (some quote) => .error (.markup (.attributeValue quote))
  | .ok (content, rest) => (ofTag content).map (·, rest)

def nextDeclaration (s : Text) : Except Fault (Token × Text) :=
  match s with
  | '[' :: s =>
    match (Text.dropStart? "CDATA[" s).bind (Text.cutAt? "]]>") with
    | some (content, rest) => .ok (text content, rest)
    | none => .error (.markup .cdata)
  | '-' :: s =>
    match (Text.dropStart? "-" s).bind (Text.cutAt? "-->") with
    | some (_, rest) => .ok (aside, rest)
    | none => .error (.markup .comment)
  | 'D' :: s => (Doctype.read s).map (aside, ·)
  | 'd' :: s => (Doctype.read s).map (aside, ·)
  | _ => .error (.markup .unknown)

/-- An instruction that begins like this is an XML declaration. -/
def isDeclaration (s : Text) : Bool :=
  match Text.dropStart? "xml" s with
  | none => false
  | some [] => true
  | some (c :: _) => isSpace c || c = '?'

def nextInstruction (s : Text) : Except Fault (Token × Text) :=
  if s.head? = some '>' then .error (.markup .instruction)
  else
    match Text.cutAt? "?>" s with
    | some (_, rest) => .ok (aside, rest)
    | none => .error (.markup (if isDeclaration s then .declaration else .instruction))

def next (c : Char) (s : Text) : Except Fault (Token × Text) :=
  if c = '&' then nextReference s
  else if c = '<' then
    match s with
    | '!' :: s => nextDeclaration s
    | '?' :: s => nextInstruction s
    | s => nextTag s
  else .ok (text (c :: s.takeWhile isTextChar), s.dropWhile isTextChar)

section Length

variable {s rest : Text} {t : Token}

theorem rest_of_map {α β γ : Type} {x : Except Fault α} {f : α → β} {y : β} {r r' : γ}
    (h : (x.map fun a => (f a, r)) = .ok (y, r')) : r = r' := by
  cases x with
  | error e => simp [Except.map] at h
  | ok a => simp only [Except.map, Except.ok.injEq, Prod.mk.injEq] at h; exact h.2

theorem length_nextReference (h : nextReference s = .ok (t, rest)) : rest.length ≤ s.length := by
  have hs := Text.length_dropWhile_le isReferenceChar s
  unfold nextReference at h
  split at h
  · next r hr =>
    simp only [Except.ok.injEq, Prod.mk.injEq] at h
    rw [hr, h.2, List.length_cons] at hs
    omega
  · simp at h

theorem length_nextTag (h : nextTag s = .ok (t, rest)) : rest.length ≤ s.length := by
  unfold nextTag at h
  split at h
  · simp at h
  · simp at h
  · next content r hc => exact rest_of_map h ▸ Nat.le_of_lt (length_cutTag hc)

theorem length_cutAfter {start mark content : Text}
    (h : (Text.dropStart? start s).bind (Text.cutAt? mark) = some (content, rest)) :
    rest.length ≤ s.length := by
  obtain ⟨r, hr, hc⟩ := Option.bind_eq_some_iff.1 h
  have := Text.length_of_cutAt? hc
  have hs := congrArg List.length (Text.dropStart?_eq_some hr)
  rw [List.length_append] at hs
  omega

theorem length_doctype {s : Text} (h : Doctype.read s = .ok rest) : rest.length ≤ s.length := by
  unfold Doctype.read at h
  split at h
  · simp only at h
    split at h
    · simp at h
    · next r hr =>
      split at h
      · simp at h
      · simp only [Except.ok.injEq] at h
        have := Doctype.length_pastOuter? hr
        rw [h, List.length_drop] at this
        omega
  · simp at h

theorem length_doctypeToken (h : (Doctype.read s).map (aside, ·) = .ok (t, rest)) :
    rest.length ≤ s.length := by
  cases hd : Doctype.read s with
  | error e => simp [hd, Except.map] at h
  | ok r =>
    simp only [hd, Except.map, Except.ok.injEq, Prod.mk.injEq] at h
    exact h.2 ▸ length_doctype hd

theorem length_nextDeclaration (h : nextDeclaration s = .ok (t, rest)) :
    rest.length ≤ s.length := by
  unfold nextDeclaration at h
  split at h
  · split at h
    · next content r hc =>
      simp only [Except.ok.injEq, Prod.mk.injEq] at h
      have := length_cutAfter hc
      simp only [List.length_cons, ← h.2]
      omega
    · simp at h
  · split at h
    · next content r hc =>
      simp only [Except.ok.injEq, Prod.mk.injEq] at h
      have := length_cutAfter hc
      simp only [List.length_cons, ← h.2]
      omega
    · simp at h
  · exact Nat.le_succ_of_le (length_doctypeToken h)
  · exact Nat.le_succ_of_le (length_doctypeToken h)
  · simp at h

theorem length_nextInstruction (h : nextInstruction s = .ok (t, rest)) :
    rest.length ≤ s.length := by
  unfold nextInstruction at h
  split at h
  · simp at h
  · split at h
    · next content r hc =>
      simp only [Except.ok.injEq, Prod.mk.injEq] at h
      exact h.2 ▸ Text.length_of_cutAt? hc
    · simp at h

theorem length_next {c : Char} (h : next c s = .ok (t, rest)) : rest.length ≤ s.length := by
  unfold next at h
  split at h
  · exact length_nextReference h
  · split at h
    · split at h
      · exact Nat.le_succ_of_le (length_nextDeclaration h)
      · exact Nat.le_succ_of_le (length_nextInstruction h)
      · exact length_nextTag h
    · simp only [Except.ok.injEq, Prod.mk.injEq] at h
      exact h.2 ▸ Text.length_dropWhile_le _ _

end Length
end Token

/-- The tokens of a text up to the first fault, and that fault. -/
def tokens (s : Text) : List Token × Option Fault :=
  match s with
  | [] => ([], none)
  | c :: s =>
    match _h : Token.next c s with
    | .error fault => ([], some fault)
    | .ok (t, rest) =>
      let (ts, fault) := tokens rest
      (t :: ts, fault)
termination_by s.length
decreasing_by
  have := Token.length_next _h
  simp only [List.length_cons]
  omega

end ApiDocs.Xml
