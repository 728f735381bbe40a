import ApiDocs.Xml.Reference

namespace ApiDocs.Xml

def isSpace (c : Char) : Bool := c = ' ' || c = '\t' || c = '\r' || c = '\n'

def isQuote (c : Char) : Bool := c = '"' || c = '\''

structure Attribute where
  key : Text
  value : Text
deriving DecidableEq, Repr

namespace Attribute

def isKeyChar (c : Char) : Bool := c ≠ '=' && !isSpace c

def position (size : Nat) (s : Text) : Nat := size - Text.byteSize s

def readValue (size : Nat) (s : Text) : Except Fault (Text × Text) :=
  match s.dropWhile isSpace with
  | [] => .error (.attribute (.expectedValue size))
  | q :: r =>
    if isQuote q then
      match Text.cutAt? [q] r with
      | none => .error (.attribute (.expectedQuote size q))
      | some (raw, rest) =>
        match Reference.value raw with
        | .ok value => .ok (value, rest)
        | .error fault => .error (.reference fault)
    else .error (.attribute (.unquotedValue (position size (q :: r))))

/-- The attribute whose key begins with `c`, and the text after it. The first character belongs
to the key whatever it is. `earlier` holds the keys before it with their positions. -/
def readOne (size : Nat) (earlier : List (Text × Nat)) (c : Char) (s : Text) :
    Except Fault (Attribute × Text) :=
  let key := c :: s.takeWhile isKeyChar
  match (s.dropWhile isKeyChar).dropWhile isSpace with
  | [] => .error (.attribute (.expectedEq size))
  | d :: r =>
    if d = '=' then
      match earlier.find? (·.1 = key) with
      | some (_, p) => .error (.attribute (.duplicated (position size (c :: s)) p))
      | none =>
        match readValue size r with
        | .ok (value, rest) => .ok (⟨key, value⟩, rest)
        | .error fault => .error fault
    else .error (.attribute (.expectedEq (position size (d :: r))))

theorem length_readValue {size : Nat} {s value rest : Text}
    (h : readValue size s = .ok (value, rest)) : rest.length < s.length := by
  have hs := Text.length_dropWhile_le isSpace s
  unfold readValue at h
  split at h
  · simp at h
  · next q r hq =>
    rw [hq, List.length_cons] at hs
    split at h
    · split at h
      · simp at h
      · next raw rest' hc =>
        split at h
        · simp only [Except.ok.injEq, Prod.mk.injEq] at h
          have := Text.length_of_cutAt? hc
          rw [h.2] at this
          omega
        · simp at h
    · simp at h

theorem length_readOne {size : Nat} {earlier : List (Text × Nat)} {c : Char} {s rest : Text}
    {a : Attribute} (h : readOne size earlier c s = .ok (a, rest)) : rest.length < s.length := by
  have hk := Text.length_dropWhile_le isKeyChar s
  have hs := Text.length_dropWhile_le isSpace (s.dropWhile isKeyChar)
  simp only [readOne] at h
  split at h
  · simp at h
  · next d r hd =>
    rw [hd, List.length_cons] at hs
    split at h
    · split at h
      · simp at h
      · split at h
        · next value rest' hv =>
          simp only [Except.ok.injEq, Prod.mk.injEq] at h
          have := length_readValue hv
          rw [h.2] at this
          omega
        · simp at h
    · simp at h

def readFrom (size : Nat) (earlier : List (Text × Nat)) (s : Text) :
    Except Fault (List Attribute) :=
  match _hs : s.dropWhile isSpace with
  | [] => .ok []
  | c :: r =>
    match _hr : readOne size earlier c r with
    | .error fault => .error fault
    | .ok (a, rest) => (readFrom size ((a.key, position size (c :: r)) :: earlier) rest).map (a :: ·)
termination_by s.length
decreasing_by
  have h := Text.length_dropWhile_le isSpace s
  have := length_readOne _hr
  rw [_hs, List.length_cons] at h
  omega

end Attribute
end ApiDocs.Xml
