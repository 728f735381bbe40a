import ApiDocs.Proofs.Json.Reader
import Mathlib.Tactic.SplitIfs

namespace ApiDocs.Json

section Strings

theorem digit?_hexDigit : ∀ n < 16, Numeral.digit? 16 (hexDigit n) = some n := by decide

theorem readCode_control {c : Char} (h : c.toNat < 0x20) (rest : Text) :
    readCode ('0' :: '0' :: hexDigit (c.toNat / 16) :: hexDigit (c.toNat % 16) :: rest) =
      some (c, rest) := by
  have hzero : Numeral.digit? 16 '0' = some 0 := by decide
  have hhigh := digit?_hexDigit (c.toNat / 16) (by omega)
  have hlow := digit?_hexDigit (c.toNat % 16) (by omega)
  have hvalue : ((0 * 16 + 0) * 16 + c.toNat / 16) * 16 + c.toNat % 16 = c.toNat := by omega
  have hunit : readUnit ('0' :: '0' :: hexDigit (c.toNat / 16) :: hexDigit (c.toNat % 16) :: rest) =
      some (c.toNat, rest) := by
    simp only [readUnit, hzero, hhigh, hlow, Option.bind_eq_bind, Option.bind_some, hvalue]
  have hsingle : ¬ (0xd800 ≤ c.toNat ∧ c.toNat < 0xdc00) := by omega
  simp only [readCode, hunit, Option.bind_eq_bind, Option.bind_some, if_neg hsingle,
    CodePoint.toChar?_toNat, Option.map_some]

theorem readChar_plain {c : Char} (hslash : c ≠ '\\') (hquote : c ≠ '"') (h : ¬ c.toNat < 0x20)
    (rest : Text) : readChar (c :: rest) = some (c, rest) := by
  rw [readChar]
  · simp [hslash, hquote, h]
  · simp [hslash]
  · simp [hslash]

theorem readChar_escapeChar (c : Char) (rest : Text) :
    readChar (escapeChar c ++ rest) = some (c, rest) := by
  unfold escapeChar
  split_ifs with hquote hslash hfeed hreturn htab hback hform hcontrol
  · rw [hquote]
    rfl
  · rw [hslash]
    rfl
  · rw [hfeed]
    rfl
  · rw [hreturn]
    rfl
  · rw [htab]
    rfl
  · rw [show c = '\x08' from Char.toNat_inj.1 hback]
    rfl
  · rw [show c = '\x0c' from Char.toNat_inj.1 hform]
    rfl
  · exact readCode_control hcontrol rest
  · exact readChar_plain hslash hquote hcontrol rest

theorem escapeChar_first (c : Char) : ∃ d s, escapeChar c = d :: s ∧ d ≠ '"' := by
  unfold escapeChar
  split_ifs with hquote
  all_goals try exact ⟨'\\', _, rfl, by decide⟩
  exact ⟨c, [], rfl, hquote⟩

theorem readChars_cons {d : Char} (h : d ≠ '"') (n : Nat) (s : Text) :
    readChars (n + 1) (d :: s) = (readChar (d :: s)).bind fun r =>
      (readChars n r.2).bind fun q => some (r.1 :: q.1, q.2) := by
  rw [readChars]
  · rfl
  · simp [h]

theorem readChars_escaped (s rest : Text) (n : Nat) (h : s.length ≤ n) :
    readChars n (s.flatMap escapeChar ++ '"' :: rest) = some (s, rest) := by
  induction s generalizing n with
  | nil => cases n <;> rfl
  | cons c s ih =>
      cases n with
      | zero => simp at h
      | succ n =>
          rw [List.length_cons, Nat.add_le_add_iff_right] at h
          obtain ⟨d, t, hd, hquote⟩ := escapeChar_first c
          have hchar := readChar_escapeChar c (s.flatMap escapeChar ++ '"' :: rest)
          rw [hd, List.cons_append] at hchar
          rw [List.flatMap_cons, List.append_assoc, hd, List.cons_append, readChars_cons hquote,
            hchar, Option.bind_some, ih n h, Option.bind_some]

theorem length_le_escaped (s : Text) : s.length ≤ (s.flatMap escapeChar).length := by
  induction s with
  | nil => exact Nat.le_refl _
  | cons c s ih =>
      obtain ⟨d, t, hd, -⟩ := escapeChar_first c
      simp only [List.flatMap_cons, hd, List.cons_append, List.length_cons, List.length_append]
      omega

theorem readString_quoted (s rest : Text) : readString (quoted s ++ rest) = some (s, rest) := by
  rw [quoted, List.cons_append, List.cons_append, readString, List.append_assoc]
  apply readChars_escaped
  rw [List.length_append]
  exact Nat.le_trans (length_le_escaped s) (Nat.le_add_right _ _)

end Strings

section Lists

variable {α : Type} {read : Text → Option (α × Text)} {write : α → Text} {closing : Char}

theorem skip_newLine (depth : Nat) (s : Text) : skip (newLine depth ++ s) = skip s := by
  rw [newLine, List.cons_append, skip, List.dropWhile_cons_of_pos (by decide),
    List.dropWhile_append_of_pos, skip]
  intro c hc
  rw [List.eq_of_mem_replicate hc]
  rfl

theorem skip_cons {c : Char} (h : isSpace c = false) (s : Text) : skip (c :: s) = c :: s :=
  List.dropWhile_cons_of_neg (by simp [h])

def separated (write : α → Text) : List α → Text
  | [] => []
  | a :: as => write a ++ comma as ++ separated write as

theorem comma_cons (a : α) (as : List α) : comma (a :: as) = [','] := rfl

/-- Reading gives back what was written, with anything after it. -/
def Recovers (read : Text → Option (α × Text)) (write : α → Text) (a : α) : Prop :=
  ∀ rest, read (write a ++ rest) = some (a, rest)

def Starts (closing : Char) (s : Text) : Prop :=
  ∀ rest, ∃ c t, skip (s ++ rest) = c :: t ∧ c ≠ closing

theorem Starts.ne_nil {s : Text} (h : Starts closing s) : s ≠ [] := by
  rintro rfl
  obtain ⟨c, t, hskip, -⟩ := h []
  cases hskip

theorem length_le_separated {a : α} {as : List α} (h : a ∈ as) :
    (write a).length ≤ (separated write as).length := by
  induction as with
  | nil => cases h
  | cons b as ih =>
      rw [separated, List.length_append, List.length_append]
      rcases List.mem_cons.1 h with rfl | h
      · omega
      · have hle := ih h
        omega

theorem count_le_separated {as : List α} (h : ∀ a ∈ as, write a ≠ []) :
    as.length ≤ (separated write as).length := by
  induction as with
  | nil => exact Nat.le_refl _
  | cons a as ih =>
      obtain ⟨ha, has⟩ := List.forall_mem_cons.1 h
      have hpos := List.length_pos_iff.2 ha
      have hle := ih has
      simp only [separated, List.length_append, List.length_cons]
      omega

theorem readItems_separated (hclosing : isSpace closing = false) (hcomma : closing ≠ ',')
    (depth : Nat) (rest : Text) {as : List α} (hne : as ≠ [])
    (h : ∀ a ∈ as, Recovers read write a) (n : Nat) (hn : as.length ≤ n) :
    readItems read closing n (separated write as ++ (newLine depth ++ closing :: rest)) =
      some (as, rest) := by
  induction as generalizing n with
  | nil => exact absurd rfl hne
  | cons a as ih =>
      obtain ⟨ha, has⟩ := List.forall_mem_cons.1 h
      cases n with
      | zero => simp at hn
      | succ n =>
          rw [List.length_cons, Nat.add_le_add_iff_right] at hn
          cases as with
          | nil =>
              have hread := ha (newLine depth ++ closing :: rest)
              simp only [separated, comma, List.append_nil, readItems, hread, Option.bind_eq_bind,
                Option.bind_some, skip_newLine, skip_cons hclosing, if_neg hcomma, if_true]
          | cons b as =>
              have hcommaRead : isSpace ',' = false := rfl
              have hrest := ih (List.cons_ne_nil b as) has n hn
              have hread := ha (',' :: (separated write (b :: as) ++ (newLine depth ++ closing :: rest)))
              have hwritten : separated write (a :: b :: as) ++ (newLine depth ++ closing :: rest) =
                  write a ++ ',' :: (separated write (b :: as) ++ (newLine depth ++ closing :: rest)) := by
                rw [separated, comma_cons, List.append_assoc, List.append_assoc, List.singleton_append]
              simp only [hwritten, readItems, hread, Option.bind_eq_bind, Option.bind_some,
                skip_cons hcommaRead, if_true, hrest, Option.map_some]

theorem readList_nil (hclosing : isSpace closing = false) (rest : Text) :
    readList read closing (closing :: rest) = some ([], rest) := by
  rw [readList, skip_cons hclosing]
  exact if_pos rfl

theorem readList_separated (hclosing : isSpace closing = false) (hcomma : closing ≠ ',')
    (depth : Nat) (rest : Text) {as : List α} (hne : as ≠ [])
    (h : ∀ a ∈ as, Recovers read write a) (hstarts : ∀ a ∈ as, Starts closing (write a)) :
    readList read closing (separated write as ++ (newLine depth ++ closing :: rest)) =
      some (as, rest) := by
  obtain ⟨a, as, rfl⟩ := List.exists_cons_of_ne_nil hne
  have hcount := count_le_separated fun a ha => (hstarts a ha).ne_nil
  have hitems := readItems_separated hclosing hcomma depth rest hne h _
    (Nat.le_trans hcount (Nat.le_add_right _ (newLine depth ++ closing :: rest).length))
  rw [← List.length_append] at hitems
  obtain ⟨c, t, hskip, hc⟩ := hstarts a List.mem_cons_self
    (comma as ++ separated write as ++ (newLine depth ++ closing :: rest))
  have hfirst : skip (separated write (a :: as) ++ (newLine depth ++ closing :: rest)) = c :: t := by
    rw [← hskip, separated]
    simp only [List.append_assoc]
  rw [readList, hfirst]
  exact (if_neg hc).trans hitems

end Lists

section Values

def writeItem (depth : Nat) (v : Value) : Text := newLine depth ++ write depth v

theorem writeItems_eq (depth : Nat) (vs : List Value) :
    writeItems depth vs = separated (writeItem depth) vs := by
  induction vs with
  | nil => rw [writeItems, separated]
  | cons v vs ih => rw [writeItems, separated, ih, writeItem]

def writeField (depth : Nat) (f : Text × Value) : Text :=
  newLine depth ++ quoted f.1 ++ ": " ++ write depth f.2

theorem writeFields_eq (depth : Nat) (fs : List (Text × Value)) :
    writeFields depth fs = separated (writeField depth) fs := by
  induction fs with
  | nil => rw [writeFields, separated]
  | cons f fs ih =>
      obtain ⟨key, v⟩ := f
      rw [writeFields, separated, ih, writeField]

theorem write_first (depth : Nat) (v : Value) :
    ∃ c s, write depth v = c :: s ∧ c ∈ ['"', 't', 'f', '[', '\x7b'] := by
  cases v with
  | text s => exact ⟨'"', _, by rw [write, quoted, List.cons_append], by decide⟩
  | bool b =>
      cases b with
      | false => exact ⟨'f', _, by rw [write]; rfl, by decide⟩
      | true => exact ⟨'t', _, by rw [write]; rfl, by decide⟩
  | array vs => cases vs <;> exact ⟨'[', _, by rw [write]; rfl, by decide⟩
  | object fs => cases fs <;> exact ⟨'\x7b', _, by rw [write]; rfl, by decide⟩

theorem skip_write (depth : Nat) (v : Value) (rest : Text) :
    skip (write depth v ++ rest) = write depth v ++ rest := by
  obtain ⟨c, s, hwrite, hc⟩ := write_first depth v
  rw [hwrite, List.cons_append]
  apply skip_cons
  simp only [List.mem_cons, List.not_mem_nil, or_false] at hc
  rcases hc with rfl | rfl | rfl | rfl | rfl <;> rfl

theorem readValue_skip {s t : Text} (h : skip s = skip t) (n : Nat) :
    readValue n s = readValue n t := by
  cases n with
  | zero => rfl
  | succ n => rw [readValue, readValue, h]

/-- With enough depth to read it, a value is read as it was written. -/
def Readable (v : Value) : Prop :=
  ∀ depth n, (write depth v).length ≤ n → Recovers (readValue n) (write depth) v

theorem Readable.item {v : Value} (h : Readable v) {depth n : Nat}
    (hn : (writeItem depth v).length ≤ n) : Recovers (readValue n) (writeItem depth) v := by
  intro rest
  rw [writeItem, List.length_append] at hn
  have hskip : skip (writeItem depth v ++ rest) = skip (write depth v ++ rest) := by
    rw [writeItem, List.append_assoc, skip_newLine]
  rw [readValue_skip hskip]
  exact h depth n (Nat.le_trans (Nat.le_add_left _ _) hn) rest

theorem skip_writeField (depth : Nat) (f : Text × Value) (rest : Text) :
    skip (writeField depth f ++ rest) =
      '"' :: (f.1.flatMap escapeChar ++ '"' :: ':' :: ' ' :: (write depth f.2 ++ rest)) := by
  rw [writeField, List.append_assoc, List.append_assoc, List.append_assoc, skip_newLine, quoted,
    List.cons_append, List.cons_append, List.append_assoc]
  exact skip_cons rfl _

theorem Readable.field {f : Text × Value} (h : Readable f.2) {depth n : Nat}
    (hn : (writeField depth f).length ≤ n) :
    Recovers (readField (readValue n)) (writeField depth) f := by
  intro rest
  have hspace : skip (' ' :: (write depth f.2 ++ rest)) = skip (write depth f.2 ++ rest) := rfl
  have hlength : (write depth f.2).length ≤ n := by
    rw [writeField, List.length_append] at hn
    exact Nat.le_trans (Nat.le_add_left _ _) hn
  have hvalue : readValue n (' ' :: (write depth f.2 ++ rest)) = some (f.2, rest) := by
    rw [readValue_skip hspace]
    exact h depth n hlength rest
  have hkey : readString (skip (writeField depth f ++ rest)) =
      some (f.1, ':' :: ' ' :: (write depth f.2 ++ rest)) := by
    rw [skip_writeField, ← readString_quoted, quoted, List.cons_append, List.cons_append,
      List.append_assoc]
    rfl
  have hcolon : isSpace ':' = false := rfl
  simp only [readField, hkey, Option.bind_eq_bind, Option.bind_some, skip_cons hcolon, if_true,
    hvalue, Option.map_some]

theorem starts_item (depth : Nat) (v : Value) : Starts ']' (writeItem depth v) := by
  intro rest
  obtain ⟨c, s, hwrite, hc⟩ := write_first depth v
  refine ⟨c, s ++ rest, ?_, ?_⟩
  · rw [writeItem, List.append_assoc, skip_newLine, skip_write, hwrite, List.cons_append]
  · rintro rfl
    exact absurd hc (by decide)

theorem starts_field (depth : Nat) (f : Text × Value) : Starts '\x7d' (writeField depth f) := by
  intro rest
  exact ⟨'"', _, skip_writeField depth f rest, by decide⟩

theorem readValue_text (n : Nat) (s : Text) :
    readValue (n + 1) ('"' :: s) = (readString ('"' :: s)).map fun r => (.text r.1, r.2) := by
  rw [readValue, skip_cons rfl]
  rfl

theorem readValue_array (n : Nat) (s : Text) :
    readValue (n + 1) ('[' :: s) =
      (readList (readValue n) ']' s).map fun r => (.array r.1, r.2) := by
  rw [readValue, skip_cons rfl]
  rfl

theorem readValue_object (n : Nat) (s : Text) :
    readValue (n + 1) ('\x7b' :: s) =
      (readList (readField (readValue n)) '\x7d' s).map fun r => (.object r.1, r.2) := by
  rw [readValue, skip_cons rfl]
  rfl

theorem readable_text (s : Text) : Readable (.text s) := by
  intro depth n hn rest
  cases n with
  | zero => simp [write, quoted] at hn
  | succ n =>
      have hstring := readString_quoted s rest
      rw [quoted, List.cons_append, List.cons_append] at hstring
      rw [write, quoted, List.cons_append, List.cons_append, readValue_text, hstring]
      rfl

theorem readable_bool (b : Bool) : Readable (.bool b) := by
  intro depth n hn rest
  cases n with
  | zero => cases b <;> simp [write] at hn
  | succ n => cases b <;> (rw [write, readValue]; rfl)

theorem readable_emptyArray : Readable (.array []) := by
  intro depth n hn rest
  cases n with
  | zero => simp [write] at hn
  | succ n =>
      rw [write]
      exact (readValue_array n _).trans (congrArg _ (readList_nil rfl rest))

theorem readable_emptyObject : Readable (.object []) := by
  intro depth n hn rest
  cases n with
  | zero => simp [write] at hn
  | succ n =>
      rw [write]
      exact (readValue_object n _).trans (congrArg _ (readList_nil rfl rest))

theorem readable_array {v : Value} {vs : List Value} (h : ∀ w ∈ v :: vs, Readable w) :
    Readable (.array (v :: vs)) := by
  intro depth n hn rest
  have hwritten : write depth (.array (v :: vs)) =
      '[' :: (separated (writeItem (depth + 1)) (v :: vs) ++ (newLine depth ++ [']'])) := by
    rw [write, writeItems_eq, List.append_assoc, List.append_assoc]
    rfl
  rw [hwritten] at hn ⊢
  cases n with
  | zero => simp at hn
  | succ n =>
      rw [List.length_cons, Nat.add_le_add_iff_right, List.length_append] at hn
      have hitems : ∀ w ∈ v :: vs, Recovers (readValue n) (writeItem (depth + 1)) w := by
        intro w hw
        exact (h w hw).item (Nat.le_trans (length_le_separated hw) (Nat.le_of_add_right_le hn))
      have hstarts : ∀ w ∈ v :: vs, Starts ']' (writeItem (depth + 1) w) :=
        fun w _ => starts_item (depth + 1) w
      have hlist := readList_separated rfl (by decide) depth rest (List.cons_ne_nil v vs) hitems
        hstarts
      rw [List.cons_append, List.append_assoc, List.append_assoc, readValue_array]
      exact congrArg _ hlist

theorem readable_object {f : Text × Value} {fs : List (Text × Value)}
    (h : ∀ g ∈ f :: fs, Readable g.2) : Readable (.object (f :: fs)) := by
  intro depth n hn rest
  have hwritten : write depth (.object (f :: fs)) =
      '\x7b' :: (separated (writeField (depth + 1)) (f :: fs) ++ (newLine depth ++ ['\x7d'])) := by
    rw [write, writeFields_eq, List.append_assoc, List.append_assoc]
    rfl
  rw [hwritten] at hn ⊢
  cases n with
  | zero => simp at hn
  | succ n =>
      rw [List.length_cons, Nat.add_le_add_iff_right, List.length_append] at hn
      have hfields : ∀ g ∈ f :: fs,
          Recovers (readField (readValue n)) (writeField (depth + 1)) g := by
        intro g hg
        exact (h g hg).field (Nat.le_trans (length_le_separated hg) (Nat.le_of_add_right_le hn))
      have hstarts : ∀ g ∈ f :: fs, Starts '\x7d' (writeField (depth + 1) g) :=
        fun g _ => starts_field (depth + 1) g
      have hlist := readList_separated rfl (by decide) depth rest (List.cons_ne_nil f fs) hfields
        hstarts
      rw [List.cons_append, List.append_assoc, List.append_assoc, readValue_object]
      exact congrArg _ hlist

mutual

theorem readable : (v : Value) → Readable v
  | .text s => readable_text s
  | .bool b => readable_bool b
  | .array [] => readable_emptyArray
  | .array (v :: vs) => readable_array (readable_items (v :: vs))
  | .object [] => readable_emptyObject
  | .object (f :: fs) => readable_object (readable_fields (f :: fs))

theorem readable_items : (vs : List Value) → ∀ v ∈ vs, Readable v
  | [] => List.forall_mem_nil _
  | v :: vs => List.forall_mem_cons.2 ⟨readable v, readable_items vs⟩

theorem readable_fields : (fs : List (Text × Value)) → ∀ f ∈ fs, Readable f.2
  | [] => List.forall_mem_nil _
  | (_, v) :: fs => List.forall_mem_cons.2 ⟨readable v, readable_fields fs⟩

end

/-- Whatever follows a written value, reading gives the value and leaves the rest. -/
theorem read_write (depth : Nat) (v : Value) (rest : Text) :
    read (write depth v ++ rest) = some (v, rest) := by
  apply readable v depth
  rw [List.length_append]
  exact Nat.le_add_right _ _

end Values
end ApiDocs.Json
