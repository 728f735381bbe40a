import ApiDocs.Proofs.Markdown.Anchors
import ApiDocs.Proofs.Text.NumberSigns

namespace ApiDocs.Markdown

def rowText (line : Text) : Text := (line.dropWhile (· = '#')).drop 1

/-- Every line that begins with a number sign stands right behind the anchor of its own text. -/
def Announced (rows : List Text) : Prop :=
  ∀ before line after, rows = before ++ line :: after → Text.isSigned line = true →
    before.getLast? = some (anchorRow (rowText line))

/-- The lines that begin with a number sign are `n` headings with their anchors. -/
structure HeadingsOnly (s : Text) (n : Nat) : Prop where
  announced : Announced (Text.splitAt '\n' s)
  count : (Text.splitAt '\n' s).countP Text.isSigned = n

def firstLine (s : Text) : Text := s.takeWhile (· ≠ '\n')

/-- The anchor of a heading is the anchor of its first line. -/
def KeepsAnchor (text : Text) : Prop := Anchor.ofHeading (firstLine text) = Anchor.ofHeading text

section Count

/-- The lines with a number sign that are not the first line of a heading. -/
def Block.strays : Block → Nat
  | heading text _ _ => Text.signs false text
  | b => Text.signs true b.write

def Quiet (bs : List Block) : Prop := ∀ b ∈ bs, b.strays = 0

theorem signs_anchorLine (text : Text) : Text.signs true (anchorLine text) = 0 := by
  have hrows := Text.countP_splitAt true (anchorLine text)
  rw [if_pos rfl, (closed_anchorLine text).splitAt_eq, rows_anchorLine] at hrows
  exact hrows.symm

theorem signs_heading (text : Text) {level : Nat} (h : 0 < level) :
    Text.signs true (heading .plain text level) = 1 + Text.signs false text := by
  obtain ⟨n, rfl⟩ := Nat.exists_eq_add_of_lt h
  have hsigns : Text.signs false (List.replicate n '#') = 0 :=
    Text.signs_inside_of_not_mem (by simp)
  have hline : heading .plain text (0 + n + 1) =
      '#' :: (List.replicate n '#' ++ ' ' :: (text ++ ['\n', '\n'])) := by
    simp [heading, HeadingStyle.heading, headingLine, List.replicate_succ]
  rw [hline, Text.signs, Text.signs_append, Text.signs_cons_of_ne (by decide)]
  simp only [Char.reduceEq, decide_false, Text.signs_append, hsigns]
  simp [Text.signs]

theorem signs_styled (b : Block) :
    Text.signs true (b.styled .anchorTag) = b.headingText?.toList.length + b.strays := by
  cases b with
  | heading text level h =>
      rw [Block.styled, (Block.heading text level h).closed_tag.signs_append]
      have hsum := congrArg₂ (· + ·) (signs_anchorLine text) (signs_heading text h)
      exact hsum.trans (Nat.zero_add _)
  | link | lines => exact (Nat.zero_add _).symm

theorem signs_writeStyled (bs : List Block) :
    Text.signs true (writeStyled .anchorTag bs) =
      (bs.filterMap Block.headingText?).length + (bs.map Block.strays).sum := by
  rw [List.filterMap_eq_flatMap_toList]
  induction bs with
  | nil => rfl
  | cons b bs ih =>
      rw [writeStyled_cons, (b.closed_styled .anchorTag).signs_append, signs_styled, ih,
        List.flatMap_cons, List.length_append, List.map_cons, List.sum_cons]
      omega

theorem countP_render (classes : List Class) :
    (Text.splitAt '\n' (render .anchorTag classes)).countP Text.isSigned =
      headingCount classes + ((blocks classes).map Block.strays).sum := by
  have hsigns := Text.countP_splitAt true (render .anchorTag classes)
  rw [if_pos rfl] at hsigns
  rw [hsigns, ← writeStyled_blocks, signs_writeStyled, headingTexts_blocks, length_headings]

theorem countP_render_eq_iff (classes : List Class) :
    (Text.splitAt '\n' (render .anchorTag classes)).countP Text.isSigned = headingCount classes ↔
      Quiet (blocks classes) := by
  rw [countP_render, Nat.add_eq_left, List.sum_eq_zero_iff_forall_eq_nat, List.forall_mem_map]
  exact Iff.rfl

end Count

section Rows

theorem anchorRow_inj {s t : Text} :
    anchorRow s = anchorRow t ↔ Anchor.ofHeading s = Anchor.ofHeading t := by
  unfold anchorRow
  rw [List.append_left_inj, List.append_right_inj]

def headingRow (text : Text) (level : Nat) : Text :=
  List.replicate level '#' ++ " " ++ firstLine text

theorem rowText_headingRow (text : Text) (level : Nat) :
    rowText (headingRow text level) = firstLine text := by
  rw [rowText, headingRow, List.append_assoc, List.dropWhile_append_of_pos (by simp)]
  rfl

theorem isSigned_headingRow (text : Text) {level : Nat} (h : 0 < level) :
    Text.isSigned (headingRow text level) = true := by
  obtain ⟨n, rfl⟩ := Nat.exists_eq_add_of_lt h
  rfl

theorem rows_heading (text : Text) (level : Nat) :
    Text.rows (heading .plain text level) =
      headingRow text level :: (Text.splitAt '\n' text).tail ++ [[]] := by
  have hmarks : '\n' ∉ (List.replicate level '#' ++ " " : Text) := by simp
  have hclosed : Text.Closed (headingLine text level) := Text.closed_line _
  rw [heading, HeadingStyle.heading, hclosed.rows_append]
  unfold headingLine
  rw [Text.rows_line, Text.splitAt_append_of_not_mem hmarks (Text.splitAt_eq_cons '\n' text)]
  rfl

theorem unsigned_tail {text : Text} (h : Text.signs false text = 0) :
    ∀ line ∈ (Text.splitAt '\n' text).tail ++ [[]], Text.isSigned line = false := by
  have hcount := Text.countP_splitAt false text
  rw [if_neg (by decide), h, List.countP_eq_zero] at hcount
  intro line hline
  rcases List.mem_append.1 hline with hline | hline
  · exact Bool.eq_false_iff.2 (hcount line hline)
  · rw [List.mem_singleton.1 hline]
    rfl

theorem unsigned_rows {s : Text} (hs : Text.Closed s) (h : Text.signs true s = 0) :
    ∀ line ∈ Text.rows s, Text.isSigned line = false := by
  have hcount := Text.countP_splitAt true s
  rw [if_pos rfl, h, hs.splitAt_eq, List.countP_eq_zero] at hcount
  exact fun line hline => Bool.eq_false_iff.2 (hcount line (List.mem_append_left _ hline))

end Rows

section Announced

variable {rows rows' : List Text}

theorem announced_of_unsigned (h : ∀ line ∈ rows, Text.isSigned line = false) : Announced rows := by
  rintro before line after rfl hline
  rw [h line (by simp)] at hline
  cases hline

theorem Announced.append (h : Announced rows) (h' : Announced rows') :
    Announced (rows ++ rows') := by
  intro before line after he hline
  rcases List.append_eq_append_iff.1 he with ⟨middle, rfl, hrows⟩ | ⟨middle, rfl, hrows⟩
  · rw [List.getLast?_append, h' middle line after hrows hline, Option.some_or]
  · cases middle with
    -- the first of the second rows would have its anchor in the first rows
    | nil => cases h' [] line after hrows.symm hline
    | cons line' middle =>
        obtain ⟨rfl, rfl⟩ := List.cons.inj hrows
        exact h before line middle rfl hline

theorem announced_pair {anchor line : Text} (hanchor : Text.isSigned anchor = false)
    (h : anchor = anchorRow (rowText line)) : Announced [anchor, line] := by
  intro before line' after he hline
  rcases before with _ | ⟨first, _ | ⟨second, before⟩⟩
  · obtain ⟨rfl, -⟩ := List.cons.inj he
    rw [hanchor] at hline
    cases hline
  · simp only [List.cons_append, List.nil_append, List.cons.injEq] at he
    obtain ⟨rfl, rfl, -⟩ := he
    exact congrArg some h
  · simp at he

theorem announced_styled {b : Block} (hb : b.strays = 0)
    (h : ∀ text ∈ b.headingText?, KeepsAnchor text) :
    Announced (Text.rows (b.styled .anchorTag)) := by
  rw [rows_styled_anchorTag]
  cases b with
  | heading text level positive =>
      have hanchor : anchorRow text = anchorRow (rowText (headingRow text level)) := by
        rw [rowText_headingRow]
        exact (anchorRow_inj.2 (h text rfl)).symm
      have hpair : Announced [anchorRow text, headingRow text level] := announced_pair rfl hanchor
      have hrest := announced_of_unsigned (unsigned_tail hb)
      rw [Block.write, rows_heading]
      exact hpair.append hrest
  | link before text target after =>
      exact announced_of_unsigned (unsigned_rows (Block.link before text target after).closed_write hb)
  | lines s hs => exact announced_of_unsigned (unsigned_rows hs hb)

def rowsOf (bs : List Block) : List Text := bs.flatMap fun b => Text.rows (b.styled .anchorTag)

theorem announced_rowsOf {bs : List Block} (hquiet : Quiet bs)
    (h : ∀ text ∈ bs.filterMap Block.headingText?, KeepsAnchor text) :
    Announced (rowsOf bs) := by
  rw [List.filterMap_eq_flatMap_toList] at h
  induction bs with
  | nil => exact announced_of_unsigned (List.forall_mem_nil _)
  | cons b bs ih =>
      obtain ⟨hb, hbs⟩ := List.forall_mem_cons.1 hquiet
      rw [List.flatMap_cons, List.forall_mem_append] at h
      have hhead := announced_styled hb fun text ht => h.1 text (Option.mem_toList.2 ht)
      exact hhead.append (ih hbs h.2)

theorem keepsAnchor_of_announced {classes : List Class}
    (h : Announced (Text.splitAt '\n' (render .anchorTag classes))) :
    ∀ text ∈ headings classes, KeepsAnchor text := by
  intro text htext
  rw [← headingTexts_blocks] at htext
  obtain ⟨b, hb, htext⟩ := List.mem_filterMap.1 htext
  cases b with
  | link | lines => cases htext
  | heading text' level positive =>
      cases htext
      obtain ⟨before, after, hblocks⟩ := List.append_of_mem hb
      have hrows : Text.splitAt '\n' (render .anchorTag classes) =
          (rowsOf before ++ [anchorRow text]) ++ headingRow text level ::
            ((Text.splitAt '\n' text).tail ++ [[]] ++ rowsOf after ++ [[]]) := by
        rw [splitAt_render, hblocks, List.flatMap_append, List.flatMap_cons, rows_styled_anchorTag,
          Block.write, rows_heading]
        simp [rowsOf, Block.headingText?]
      have hlast := h _ _ _ hrows (isSigned_headingRow text positive)
      rw [List.getLast?_concat, Option.some.injEq, anchorRow_inj, rowText_headingRow] at hlast
      exact hlast.symm

/-- The lines with number signs are the headings exactly when no block has such a line of its own
and the first line of every heading has its anchor. -/
theorem headingsOnly_iff_quiet (classes : List Class) :
    HeadingsOnly (render .anchorTag classes) (headingCount classes) ↔
      Quiet (blocks classes) ∧ ∀ text ∈ headings classes, KeepsAnchor text := by
  constructor
  · intro h
    exact ⟨(countP_render_eq_iff classes).1 h.count, keepsAnchor_of_announced h.announced⟩
  · rintro ⟨hquiet, hkeeps⟩
    refine ⟨?_, (countP_render_eq_iff classes).2 hquiet⟩
    rw [splitAt_render]
    rw [← headingTexts_blocks] at hkeeps
    exact (announced_rowsOf hquiet hkeeps).append (announced_of_unsigned (by simp [Text.isSigned]))

end Announced
end ApiDocs.Markdown
