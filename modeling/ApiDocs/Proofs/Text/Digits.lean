import ApiDocs.Text.Numeral
import Mathlib.Data.List.Induction
import Mathlib.Tactic.SplitIfs

namespace ApiDocs.Numeral

inductive Denotes (base : Nat) : Text → Nat → Prop
  | digit {c d} : digit? base c = some d → Denotes base [c] d
  | append {s n c d} : Denotes base s n → digit? base c = some d →
      Denotes base (s ++ [c]) (n * base + d)

variable {base : Nat} {s : Text} {n : Nat}

section Digit

variable {d : Nat} {c : Char}

theorem toNat_digitChar :
    ∀ d < 16, d.digitChar.toNat = if d < 10 then d + 0x30 else d - 10 + 0x61 := by
  decide

theorem toNat_toUpper_digitChar :
    ∀ d < 16, d.digitChar.toUpper.toNat = if d < 10 then d + 0x30 else d - 10 + 0x41 := by
  decide

theorem toUpper_digitChar : ∀ d < 10, d.digitChar.toUpper = d.digitChar := by decide

theorem digit?_eq_some_iff (hbase : base ≤ 16) :
    digit? base c = some d ↔ d < base ∧ (c = d.digitChar ∨ c = d.digitChar.toUpper) := by
  rw [digit?, Option.filter_eq_some_iff, and_comm, decide_eq_true_eq]
  refine and_congr_right fun hd => ?_
  have hlower := toNat_digitChar d (by omega)
  have hupper := toNat_toUpper_digitChar d (by omega)
  rw [← Char.toNat_inj, ← Char.toNat_inj, hlower, hupper]
  split_ifs <;> simp only [Option.some.injEq, false_iff] <;> omega

theorem digit?_decimal_iff : digit? 10 c = some d ↔ d < 10 ∧ c = d.digitChar := by
  rw [digit?_eq_some_iff (by decide)]
  refine and_congr_right fun hd => ?_
  rw [toUpper_digitChar d hd, or_self]

end Digit

section Reading

theorem Denotes.ne_nil (h : Denotes base s n) : s ≠ [] := by
  cases h <;> simp

theorem Denotes.digits (h : Denotes base s n) : ∀ c ∈ s, digit? base c ≠ none := by
  induction h with
  | digit hd =>
      intro c hc
      rw [List.mem_singleton.1 hc, hd]
      exact Option.some_ne_none _
  | append _ hd ih =>
      intro c hc
      rcases List.mem_append.1 hc with hc | hc
      · exact ih c hc
      · rw [List.mem_singleton.1 hc, hd]
        exact Option.some_ne_none _

theorem readFrom_append (base v : Nat) (s t : Text) :
    readFrom base v (s ++ t) = (readFrom base v s).bind (readFrom base · t) := by
  induction s generalizing v with
  | nil => rfl
  | cons c s ih =>
      simp only [List.cons_append, readFrom]
      split
      · rfl
      · split
        · exact ih _
        · rfl

theorem readFrom_concat_eq_ok_iff {v : Nat} {c : Char} :
    readFrom base v (s ++ [c]) = .ok n ↔
      ∃ m d, readFrom base v s = .ok m ∧ digit? base c = some d ∧ m * base + d = n ∧ n < bound := by
  rw [readFrom_append]
  cases readFrom base v s with
  | error fault => simp [Except.bind]
  | ok m =>
      cases hd : digit? base c with
      | none => simp [Except.bind, readFrom, hd]
      | some d =>
          by_cases hlt : m * base + d < bound
          · simp only [Except.bind, readFrom, hd, if_pos hlt]
            constructor
            · rintro ⟨⟩
              exact ⟨m, d, rfl, rfl, rfl, hlt⟩
            · rintro ⟨_, _, ⟨⟩, ⟨⟩, rfl, -⟩
              rfl
          · simp only [Except.bind, readFrom, hd, if_neg hlt, reduceCtorEq, false_iff]
            rintro ⟨_, _, ⟨⟩, ⟨⟩, rfl, hn⟩
            exact hlt hn

theorem readFrom_denotes (h : Denotes base s n) (hn : n < bound) : readFrom base 0 s = .ok n := by
  induction h with
  | digit hd => simp [readFrom, hd, hn]
  | @append s n c d _ hd ih =>
      have hpos : 0 < base := Nat.lt_of_le_of_lt (Nat.zero_le d) (digit?_lt hd)
      have hle : n ≤ n * base := Nat.le_mul_of_pos_right n hpos
      exact readFrom_concat_eq_ok_iff.2 ⟨n, d, ih (by omega), hd, rfl, hn⟩

theorem denotes_of_readFrom (hne : s ≠ []) (h : readFrom base 0 s = .ok n) :
    Denotes base s n ∧ n < bound := by
  induction s using List.reverseRecOn generalizing n with
  | nil => exact absurd rfl hne
  | append_singleton s c ih =>
      obtain ⟨m, d, hs, hd, rfl, hn⟩ := readFrom_concat_eq_ok_iff.1 h
      refine ⟨?_, hn⟩
      cases s with
      | nil =>
          cases hs
          rw [Nat.zero_mul, Nat.zero_add]
          exact .digit hd
      | cons b t => exact .append (ih (List.cons_ne_nil b t) hs).1 hd

/-- What is read is what the digits denote. -/
theorem read_eq_ok_iff : read base s = .ok n ↔ Denotes base s n ∧ n < bound := by
  unfold read
  split
  · next hnil => exact iff_of_false nofun fun h => h.1.ne_nil hnil
  · next hne => exact ⟨denotes_of_readFrom hne, fun h => readFrom_denotes h.1 h.2⟩

end Reading
end ApiDocs.Numeral
