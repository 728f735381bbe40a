namespace ApiDocs

abbrev Text := List Char

instance : Coe String Text := ⟨String.toList⟩

namespace Text

def byteSize : Text → Nat
  | [] => 0
  | c :: s => c.utf8Size + byteSize s

def dropBytes : (n : Nat) → Text → Text
  | 0, s => s
  | _ + 1, [] => []
  | n + 1, c :: s => dropBytes (n + 1 - c.utf8Size) s

def takeBytes : (n : Nat) → Text → Text
  | 0, _ => []
  | _ + 1, [] => []
  | n + 1, c :: s => c :: takeBytes (n + 1 - c.utf8Size) s

/-- The characters that begin at a byte position from `first` on and before `last`. -/
def between (first last : Nat) (s : Text) : Text := takeBytes (last - first) (dropBytes first s)

def joinWith (separator : Text) : List Text → Text
  | [] => []
  | [s] => s
  | s :: t :: rest => s ++ separator ++ joinWith separator (t :: rest)

/-- A text that is left out where there is nothing to show. -/
def ifAny {α : Type} : List α → Text → Text
  | [], _ => []
  | _ :: _, s => s

/-- The parts between the characters that satisfy `p`: one more than there are such characters. -/
def pieces (p : Char → Bool) : Text → List Text
  | [] => [[]]
  | c :: s =>
    if p c then [] :: pieces p s
    else
      match pieces p s with
      | [] => [[c]]
      | piece :: rest => (c :: piece) :: rest

def splitAt (separator : Char) (s : Text) : List Text := pieces (· == separator) s

def dropStart? : (start : Text) → Text → Option Text
  | [], s => some s
  | _ :: _, [] => none
  | a :: start, c :: s => if a = c then dropStart? start s else none

def isStart (start s : Text) : Bool := (dropStart? start s).isSome

def cutAt? (mark : Text) : Text → Option (Text × Text)
  | [] => (dropStart? mark []).map fun rest => ([], rest)
  | c :: s =>
    match dropStart? mark (c :: s) with
    | some rest => some ([], rest)
    | none => (cutAt? mark s).map fun (before, rest) => (c :: before, rest)

def cutAtLast? (mark : Char) : Text → Option (Text × Text)
  | [] => none
  | c :: s =>
    match cutAtLast? mark s with
    | some (before, rest) => some (c :: before, rest)
    | none => if c = mark then some ([], s) else none

def dropEndWhile (p : Char → Bool) (s : Text) : Text := (s.reverse.dropWhile p).reverse

def dropReturn (s : Text) : Text := if s.getLast? = some '\r' then s.dropLast else s

/-- The lines of a text whose last line is closed too. A line is closed by a line feed, or by a
carriage return and a line feed. -/
def lines (s : Text) : List Text := (splitAt '\n' s).dropLast.map dropReturn

def ofNat (n : Nat) : Text := Nat.toDigits 10 n

theorem pieces_ne_nil (p : Char → Bool) (s : Text) : pieces p s ≠ [] := by
  cases s with
  | nil => simp [pieces]
  | cons c s =>
    unfold pieces
    split
    · simp
    · split <;> simp

theorem joinWith_splitAt (separator : Char) (s : Text) :
    joinWith [separator] (splitAt separator s) = s := by
  unfold splitAt
  induction s with
  | nil => rfl
  | cons c s ih =>
    have hne := pieces_ne_nil (· == separator) s
    unfold pieces
    split
    · next hc =>
      cases h : pieces (· == separator) s with
      | nil => exact absurd h hne
      | cons piece rest => rw [h] at ih; simp_all [joinWith]
    · cases h : pieces (· == separator) s with
      | nil => exact absurd h hne
      | cons piece rest => rw [h] at ih; cases rest <;> simp_all [joinWith]

theorem dropStart?_eq_some {start s rest : Text} (h : dropStart? start s = some rest) :
    s = start ++ rest := by
  induction start generalizing s with
  | nil => simpa [dropStart?] using h
  | cons a start ih =>
    cases s with
    | nil => simp [dropStart?] at h
    | cons c s =>
      unfold dropStart? at h
      split at h
      · next hc => simp [ih h, hc]
      · simp at h

theorem cutAt?_eq_some {mark s before rest : Text} (h : cutAt? mark s = some (before, rest)) :
    s = before ++ mark ++ rest := by
  induction s generalizing before rest with
  | nil =>
    obtain ⟨r, hr, he⟩ := Option.map_eq_some_iff.1 h
    simp only [Prod.mk.injEq] at he
    obtain ⟨rfl, rfl⟩ := he
    simpa using dropStart?_eq_some hr
  | cons c s ih =>
    unfold cutAt? at h
    split at h
    · next r hr =>
      simp only [Option.some.injEq, Prod.mk.injEq] at h
      obtain ⟨rfl, rfl⟩ := h
      simpa using dropStart?_eq_some hr
    · obtain ⟨⟨b, r⟩, hr, he⟩ := Option.map_eq_some_iff.1 h
      simp only [Prod.mk.injEq] at he
      obtain ⟨rfl, rfl⟩ := he
      simpa using ih hr

theorem length_of_cutAt? {mark s before rest : Text} (h : cutAt? mark s = some (before, rest)) :
    rest.length ≤ s.length := by
  rw [cutAt?_eq_some h, List.length_append]
  exact Nat.le_add_left _ _

theorem length_dropWhile_le (p : Char → Bool) (s : Text) :
    (s.dropWhile p).length ≤ s.length := (List.dropWhile_suffix p).length_le

end Text
end ApiDocs
