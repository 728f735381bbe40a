import ApiDocs.Text.Blank

namespace ApiDocs.Text

def trim (s : Text) : Text := dropEndWhile isBlank (s.dropWhile isBlank)

/-- Writes a space for every run of blanks; `inRun` says that such a run is under way. -/
def squeezeFrom (inRun : Bool) : Text → Text
  | [] => []
  | c :: s =>
    if isBlank c then
      if inRun then squeezeFrom true s else ' ' :: squeezeFrom true s
    else c :: squeezeFrom false s

def squeeze (s : Text) : Text := squeezeFrom false s

def clean (s : Text) : Text := trim (squeeze s)

def words (s : Text) : List Text := (pieces isBlank s).filter (· ≠ [])

theorem words_blank_cons {c : Char} (h : isBlank c = true) (s : Text) :
    words (c :: s) = words s := by
  simp [words, pieces, h]

theorem words_of_forall_blank {s : Text} (h : ∀ c ∈ s, isBlank c = true) : words s = [] := by
  induction s with
  | nil => rfl
  | cons c s ih =>
    rw [words_blank_cons (h c (by simp))]
    exact ih fun d hd => h d (by simp [hd])

end ApiDocs.Text
