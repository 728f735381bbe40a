import ApiDocs.Files.Path

namespace ApiDocs.Glob

inductive FaultKind
  | wildcards
  | depth
  | range
deriving DecidableEq, Repr

structure Fault where
  position : Nat
  kind : FaultKind
deriving DecidableEq, Repr

def FaultKind.message : FaultKind → Text
  | .wildcards => "wildcards are either regular `*` or recursive `**`"
  | .depth => "recursive wildcards must form a single path component"
  | .range => "invalid range pattern"

def Fault.message (f : Fault) : Text :=
  "Pattern syntax error near position " ++ Text.ofNat f.position ++ ": " ++ f.kind.message

inductive Token
  | char (c : Char)
  | anyChar
  | anyRun
  | anyDepth
  | within (ranges : List (Char × Char))
  | outside (ranges : List (Char × Char))
deriving DecidableEq, Repr

def ranges : Text → List (Char × Char)
  | [] => []
  | a :: '-' :: b :: s => (a, b) :: ranges s
  | a :: s => (a, a) :: ranges s

/-- The bracket after `[`: whether it excludes, its members, and the text after it. The first
member is a member even if it closes brackets. -/
def bracket? (s : Text) : Option (Bool × Text × Text) :=
  let excludes := s.head? = some '!'
  match if excludes then s.tail else s with
  | [] => none
  | first :: rest =>
    (Text.cutAt? "]" rest).map fun (members, rest) => (excludes, first :: members, rest)

/-- Only the start of a path component may stand before `**`. -/
def startsComponent (previous : Option Char) : Bool :=
  match previous with
  | none => true
  | some c => c = '/'

def isStar (c : Char) : Bool := c = '*'

theorem length_bracket? {s members rest : Text} {excludes : Bool}
    (h : bracket? s = some (excludes, members, rest)) : rest.length ≤ s.length := by
  have hs : (if s.head? = some '!' then s.tail else s).length ≤ s.length := by
    split
    · simp
    · exact Nat.le_refl _
  simp only [bracket?] at h
  split at h
  · simp at h
  · next first r hr =>
    obtain ⟨⟨m, r'⟩, hc, he⟩ := Option.map_eq_some_iff.1 h
    simp only [Prod.mk.injEq] at he
    have := Text.length_of_cutAt? hc
    rw [he.2.2] at this
    rw [hr, List.length_cons] at hs
    omega

def tokensFrom (position : Nat) (previous : Option Char) (s : Text) :
    Except Fault (List Token) :=
  match s with
  | [] => .ok []
  | c :: s =>
    if c = '?' then (tokensFrom (position + 1) (some c) s).map (.anyChar :: ·)
    else if c = '*' then
      let stars := 1 + (s.takeWhile isStar).length
      let rest := s.dropWhile isStar
      if stars = 1 then (tokensFrom (position + 1) (some c) rest).map (.anyRun :: ·)
      else if stars = 2 then
        if startsComponent previous then
          match _hr : rest with
          | [] => .ok [.anyDepth]
          | d :: r =>
            if d = '/' then (tokensFrom (position + 3) (some d) r).map (.anyDepth :: ·)
            else .error ⟨position + 2, .depth⟩
        else .error ⟨position - 1, .depth⟩
      else .error ⟨position + 2, .wildcards⟩
    else if c = '[' then
      match _hb : bracket? s with
      | none => .error ⟨position, .range⟩
      | some (excludes, members, rest) =>
        (tokensFrom (position + 1 + (s.length - rest.length)) (some ']') rest).map
          ((if excludes then .outside (ranges members) else .within (ranges members)) :: ·)
    else (tokensFrom (position + 1) (some c) s).map (.char c :: ·)
termination_by s.length
decreasing_by
  · simp
  · have := Text.length_dropWhile_le isStar s
    simp only [List.length_cons]
    omega
  · have := Text.length_dropWhile_le isStar s
    simp only [rest] at _hr
    rw [_hr, List.length_cons] at this
    simp only [List.length_cons]
    omega
  · have := length_bracket? _hb
    simp only [List.length_cons]
    omega
  · simp

def tokens (s : Text) : Except Fault (List Token) := tokensFrom 0 none s

def inRanges (l : List (Char × Char)) (c : Char) : Bool :=
  l.any fun r => r.1.toNat ≤ c.toNat && c.toNat ≤ r.2.toNat

def Token.accepts (c : Char) : Token → Bool
  | char d => c = d
  | anyChar => true
  | within l => inRanges l c
  | outside l => !inRanges l c
  | anyRun => false
  | anyDepth => false

def anyFrom : List Bool → List Bool
  | [] => []
  | b :: bs =>
    let rest := anyFrom bs
    (b || rest.head?.getD false) :: rest

/-- Whether the tokens accept each end of a text, the whole text first and the empty end last. -/
def acceptsEnds : List Token → Text → List Bool
  | [], s => s.map (fun _ => false) ++ [true]
  | .anyRun :: ts, s => anyFrom (acceptsEnds ts s)
  | t :: ts, s => List.zipWith (fun c b => t.accepts c && b) s (acceptsEnds ts s).tail ++ [false]

def accepts (ts : List Token) (s : Text) : Bool := (acceptsEnds ts s).head?.getD false

inductive Test
  | literal (name : Text)
  | tokens (tokens : List Token)
deriving DecidableEq, Repr

def literal? : List Token → Option Text
  | [] => some []
  | .char c :: ts => (literal? ts).map (c :: ·)
  | _ :: _ => none

def Test.ofTokens (ts : List Token) : Test :=
  match literal? ts with
  | some name => .literal name
  | none => .tokens ts

def Test.accepts (name : Text) : Test → Bool
  | literal s => name = s
  | tokens ts => Glob.accepts ts name

structure Level where
  deep : Bool
  test : Test
deriving DecidableEq, Repr

/-- A pattern for directories ends in a slash or in `**`. -/
structure Pattern where
  absolute : Bool
  levels : List Level
  directories : Bool
deriving DecidableEq, Repr

def levels (deep : Bool) : List (List Token) → List Level × Bool
  | [] => ([], deep)
  | ts :: rest =>
    if ts = [.anyDepth] then levels true rest
    else
      let (ls, ends) := levels false rest
      (⟨deep, .ofTokens ts⟩ :: ls, ends)

def componentTexts (s : Text) : List Text :=
  let relative := if Path.isAbsolute s then s.tail else s
  let pieces := Text.splitAt '/' relative
  if relative ≠ [] ∧ pieces.getLast? = some [] then pieces.dropLast else pieces

def tokensOfAll : List Text → Except Fault (List (List Token))
  | [] => .ok []
  | s :: rest =>
    match tokens s with
    | .error fault => .error fault
    | .ok ts => (tokensOfAll rest).map (ts :: ·)

def read (s : Text) : Except Fault Pattern :=
  match tokens s with
  | .error fault => .error fault
  | .ok _ =>
    (tokensOfAll (componentTexts s)).map fun all =>
      let (ls, ends) := levels false all
      ⟨Path.isAbsolute s, ls, ends || s.getLast? = some '/'⟩

end ApiDocs.Glob
