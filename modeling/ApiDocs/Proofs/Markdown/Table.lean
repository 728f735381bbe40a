import ApiDocs.Proofs.Extract.Clean
import ApiDocs.Proofs.Markdown.Anchors

namespace ApiDocs.Markdown

section Reading

/-- What stands before, between and after the bars that have no backslash right in front of them.
`escaped` says that a backslash comes right before. -/
def cellsFrom (escaped : Bool) : Text → List Text
  | [] => [[]]
  | c :: s =>
    if c = '|' ∧ escaped = false then [] :: cellsFrom false s
    else (cellsFrom (c = '\\') s).modifyHead (c :: ·)

def cells (line : Text) : List Text := cellsFrom false line

def unescapeCell : Text → Text
  | '\\' :: '|' :: s => '|' :: unescapeCell s
  | c :: s => c :: unescapeCell s
  | [] => []

structure Row where
  title : Text
  target : Text
  summary : Text
deriving DecidableEq

/-- Three bars with a cell between each two of them, a link in the first cell and the summary in the
second. The target of the link is what stands behind the last `](#`. -/
def readRow (line : Text) : Option Row :=
  match cells line with
  | [[], first, second, []] => do
    let (before, after) ← Text.cutAtLastMark? "](#" first
    let title ← Text.inside? " [" "" before
    let target ← Text.inside? "" ") " after
    let summary ← Text.inside? " " " " second
    some ⟨unescapeCell title, target, unescapeCell summary⟩
  | _ => none

end Reading

section Cells

theorem escapeCell_append (s t : Text) : escapeCell (s ++ t) = escapeCell s ++ escapeCell t :=
  List.flatMap_append

theorem escapeCell_of_not_mem {s : Text} (h : '|' ∉ s) : escapeCell s = s := by
  induction s with
  | nil => rfl
  | cons c s ih =>
      rw [List.mem_cons, not_or] at h
      rw [escapeCell_cons, if_neg (Ne.symm h.1), ih h.2]
      rfl

theorem cellsFrom_escapeCell (escaped : Bool) (s t : Text) :
    cellsFrom escaped (escapeCell s ++ ' ' :: '|' :: t) =
      (escapeCell s ++ [' ']) :: cellsFrom false t := by
  induction s generalizing escaped with
  | nil => simp [escapeCell, cellsFrom]
  | cons c s ih =>
      rw [escapeCell_cons, List.append_assoc]
      by_cases hc : c = '|'
      · simp [hc, cellsFrom, ih]
      · simp [hc, cellsFrom, ih]

theorem unescapeCell_cons {c : Char} {s : Text} (h : ¬ (c = '\\' ∧ s.head? = some '|')) :
    unescapeCell (c :: s) = c :: unescapeCell s := by
  rw [unescapeCell]
  rintro s rfl rfl
  exact h ⟨rfl, rfl⟩

theorem head?_escapeCell (s : Text) : (escapeCell s).head? ≠ some '|' := by
  cases s with
  | nil => exact nofun
  | cons c s =>
      rw [escapeCell_cons]
      by_cases hc : c = '|'
      · simp [hc]
      · simp [hc]

theorem unescapeCell_escapeCell (s : Text) : unescapeCell (escapeCell s) = s := by
  induction s with
  | nil => rfl
  | cons c s ih =>
      rw [escapeCell_cons]
      by_cases hc : c = '|'
      · rw [if_pos hc, hc]
        exact congrArg ('|' :: ·) ih
      · rw [if_neg hc, List.singleton_append, unescapeCell_cons fun h => head?_escapeCell s h.2, ih]

end Cells

section Rows

def linkCell (title : Text) : Text :=
  " [" ++ escapeCell title ++ "](#" ++ Anchor.ofHeading title ++ ") "

def summaryCell (summary : Text) : Text := " " ++ escapeCell summary ++ " "

def tableLine (nameSpace : Text) (m : Member) : Text :=
  "|" ++ linkCell (m.title nameSpace) ++ "|" ++ summaryCell m.summary ++ "|"

theorem tableRow_eq (nameSpace : Text) (m : Member) :
    tableRow nameSpace m = tableLine nameSpace m ++ "\n" := by
  unfold tableRow tableLine linkCell summaryCell
  simp

theorem not_mem_escapeCell {c : Char} {s : Text} (hbar : c ≠ '|') (hslash : c ≠ '\\') (h : c ∉ s) :
    c ∉ escapeCell s := by
  intro hc
  obtain ⟨d, hd, hc⟩ := List.mem_flatMap.1 hc
  by_cases he : d = '|'
  · simp [he, hbar, hslash] at hc
  · rw [if_neg he, List.mem_singleton] at hc
    exact h (hc ▸ hd)

theorem lineFeed_not_mem_tableLine {nameSpace : Text} {m : Member}
    (htitle : '\n' ∉ m.title nameSpace) (hsummary : '\n' ∉ m.summary) :
    '\n' ∉ tableLine nameSpace m := by
  have htext := not_mem_escapeCell (by decide) (by decide) htitle
  have htarget := lineFeed_not_mem_ofHeading (m.title nameSpace)
  have hcell := not_mem_escapeCell (by decide) (by decide) hsummary
  simp [tableLine, linkCell, summaryCell, htext, htarget, hcell]

theorem linkCell_eq (title : Text) :
    linkCell title = escapeCell (" [" ++ title ++ "](#" ++ Anchor.ofHeading title ++ ")") ++ " " := by
  have htarget := escapeCell_of_not_mem
    (Anchor.not_mem_ofHeading (c := '|') (by decide +kernel) title)
  simp only [escapeCell_append, htarget]
  simp [linkCell, escapeCell]

theorem summaryCell_eq (summary : Text) :
    summaryCell summary = escapeCell (' ' :: summary) ++ " " := rfl

theorem cells_tableLine (nameSpace : Text) (m : Member) :
    cells (tableLine nameSpace m) =
      [[], linkCell (m.title nameSpace), summaryCell m.summary, []] := by
  have hcells (s t : Text) :
      cells ("|" ++ (escapeCell s ++ " ") ++ "|" ++ (escapeCell t ++ " ") ++ "|") =
        [[], escapeCell s ++ [' '], escapeCell t ++ [' '], []] := by
    have hs := cellsFrom_escapeCell false s (escapeCell t ++ ' ' :: '|' :: [])
    have ht := cellsFrom_escapeCell false t []
    simp [cells, cellsFrom, hs, ht]
  rw [tableLine, linkCell_eq, summaryCell_eq, hcells]
  rfl

/-- The last `](#` of the link is its own, since its target has no bracket. -/
theorem cutAtLastMark?_linkCell (title : Text) :
    Text.cutAtLastMark? "](#" (linkCell title) =
      some (" [" ++ escapeCell title, Anchor.ofHeading title ++ ") ") := by
  have htarget := Anchor.not_mem_ofHeading (c := ']') (by decide +kernel) title
  have hrest : ']' ∉ "(#" ++ (Anchor.ofHeading title ++ ") ") := by simp [htarget]
  have hcut := Text.cutAtLastMark?_append hrest (" [" ++ escapeCell title)
  rw [linkCell]
  simpa using hcut

theorem readRow_tableLine (nameSpace : Text) (m : Member) :
    readRow (tableLine nameSpace m) =
      some ⟨m.title nameSpace, Anchor.ofHeading (m.title nameSpace), m.summary⟩ := by
  have htitle : Text.inside? " [" "" (" [" ++ escapeCell (m.title nameSpace)) =
      some (escapeCell (m.title nameSpace)) := by
    simpa using Text.inside?_append " [" "" (escapeCell (m.title nameSpace))
  have htarget : Text.inside? "" ") " (Anchor.ofHeading (m.title nameSpace) ++ ") ") =
      some (Anchor.ofHeading (m.title nameSpace)) :=
    Text.inside?_append "" ") " (Anchor.ofHeading (m.title nameSpace))
  have hsummary : Text.inside? " " " " (summaryCell m.summary) = some (escapeCell m.summary) :=
    Text.inside?_append " " " " (escapeCell m.summary)
  rw [readRow, cells_tableLine]
  simp only [cutAtLastMark?_linkCell, htitle, htarget, hsummary, Option.bind_eq_bind,
    Option.bind_some, unescapeCell_escapeCell]

end Rows

section Tables

variable {style : HeadingStyle} {c : Class}

def headRows : List Text := ["| Name | Summary |", "| --- | --- |"]

def tableRows (c : Class) : List Text := headRows ++ c.members.map (tableLine c.nameSpace)

theorem rows_tableRow {nameSpace : Text} {m : Member} (htitle : '\n' ∉ m.title nameSpace)
    (hsummary : '\n' ∉ m.summary) :
    Text.rows (tableRow nameSpace m) = [tableLine nameSpace m] := by
  rw [tableRow_eq, Text.rows_line]
  exact Text.splitAt_of_not_mem (lineFeed_not_mem_tableLine htitle hsummary)

theorem rows_memberTable (style : HeadingStyle) (hmembers : c.members ≠ [])
    (htitles : ∀ m ∈ c.members, '\n' ∉ m.title c.nameSpace)
    (hsummaries : ∀ m ∈ c.members, '\n' ∉ m.summary) :
    Text.rows (memberTable style c) =
      Text.rows (heading style "Members" 3) ++ tableRows c ++ [[]] := by
  have hhead : Text.Closed (heading style "Members" 3) := Text.closed_line _
  have hbody : Text.Closed (c.members.flatMap (tableRow c.nameSpace)) :=
    Text.closed_flatMap fun m _ => closed_tableRow c.nameSpace m
  have hlines : Text.rows (c.members.flatMap (tableRow c.nameSpace)) =
      c.members.map (tableLine c.nameSpace) := by
    rw [Text.rows_flatMap fun m _ => closed_tableRow c.nameSpace m, List.map_eq_flatMap]
    exact List.flatMap_congr fun m hm => rows_tableRow (htitles m hm) (hsummaries m hm)
  have htable : memberTable style c =
      heading style "Members" 3 ++
        (tableHead ++ (c.members.flatMap (tableRow c.nameSpace) ++ "\n")) := by
    obtain ⟨m, members, hm⟩ := List.exists_cons_of_ne_nil hmembers
    rw [memberTable, hm, Text.ifAny, List.append_assoc, List.append_assoc]
  have hhead' : Text.Closed tableHead := Text.closed_of_getLast? rfl
  have hheadRows : Text.rows tableHead = headRows := rfl
  have hend : Text.rows "\n" = [[]] := rfl
  rw [htable, hhead.rows_append, hhead'.rows_append, hbody.rows_append, hlines, hheadRows, hend,
    tableRows, List.append_assoc, List.append_assoc]

theorem table_mem_passages {classes : List Class} (hc : c ∈ classes) (hmembers : c.members ≠ []) :
    .table (c.members.map (MemberRow.ofMember c.nameSpace)) ∈ passages classes := by
  obtain ⟨g, hg, -, hmem⟩ := (Group.holds_ofClasses classes c.nameSpace c).2 ⟨hc, rfl⟩
  have hclass : .table (c.members.map (MemberRow.ofMember c.nameSpace)) ∈ c.passages := by
    simp [Class.passages]
  have hgroup : .table (c.members.map (MemberRow.ofMember c.nameSpace)) ∈ g.passages :=
    List.mem_cons_of_mem _ (List.mem_flatMap.2 ⟨c, hmem, hclass⟩)
  refine List.mem_filter.2 ⟨List.mem_flatMap.2 ⟨g, hg, hgroup⟩, ?_⟩
  simpa [Passage.isFull] using hmembers

theorem passageBlocks_infix {classes : List Class} {p : Passage} (hp : p ∈ passages classes) :
    passageBlocks p <:+: blocks classes := by
  obtain ⟨before, after, hpassages⟩ := List.append_of_mem hp
  rw [blocks, hpassages, List.flatMap_append, List.flatMap_cons]
  exact ⟨contentsBlocks (Group.ofClasses classes) ++ before.flatMap passageBlocks,
    after.flatMap passageBlocks, by simp only [List.append_assoc]⟩

theorem rows_passageText_infix (style : HeadingStyle) {classes : List Class} {p : Passage}
    (hp : p ∈ passages classes) :
    Text.rows (passageText style p) <:+: Text.splitAt '\n' (render style classes) := by
  have hfull := (List.mem_filter.1 hp).2
  have hrows : Text.rows (passageText style p) =
      (passageBlocks p).flatMap fun b => Text.rows (b.styled style) := by
    rw [passageText, Passage.write_of_full hfull, ← writeStyled_passageBlocks style hfull, writeStyled,
      Text.rows_flatMap fun b _ => b.closed_styled style]
  obtain ⟨before, after, hblocks⟩ := passageBlocks_infix hp
  rw [splitAt_render, ← hblocks, List.flatMap_append, List.flatMap_append, ← hrows, List.append_assoc]
  exact ⟨_, _, rfl⟩

theorem rows_memberTable_infix (style : HeadingStyle) {classes : List Class} (hc : c ∈ classes)
    (hmembers : c.members ≠ []) :
    Text.rows (memberTable style c) <:+: Text.splitAt '\n' (render style classes) := by
  rw [← passageText_table]
  exact rows_passageText_infix style (table_mem_passages hc hmembers)

/-- A table of members has two head rows and then a row for each member. Where no title or summary
has a line feed, whatever else they have, every row tells title, target and summary of its member.
No summary of a document has a line feed. -/
theorem memberTable_readable :
    (∀ style classes, ∀ c ∈ classes, c.members ≠ [] →
      (∀ m ∈ c.members, '\n' ∉ m.title c.nameSpace ∧ '\n' ∉ m.summary) →
        ∃ lines, Text.rows (memberTable style c) =
            Text.rows (heading style "Members" 3) ++ (headRows ++ lines) ++ [[]] ∧
          Text.rows (memberTable style c) <:+: Text.splitAt '\n' (render style classes) ∧
          lines.map readRow = c.members.map fun m =>
            some ⟨m.title c.nameSpace, Anchor.ofHeading (m.title c.nameSpace), m.summary⟩) ∧
      ∀ s classes, Extract.document s = .ok classes → ∀ c ∈ classes, ∀ m ∈ c.members,
        '\n' ∉ m.summary := by
  constructor
  · intro style classes c hc hmembers htexts
    have htitles m hm := (htexts m hm).1
    have hsummaries m hm := (htexts m hm).2
    refine ⟨c.members.map (tableLine c.nameSpace),
      rows_memberTable style hmembers htitles hsummaries, rows_memberTable_infix style hc hmembers, ?_⟩
    rw [List.map_map]
    exact List.map_congr_left fun m _ => readRow_tableLine c.nameSpace m
  · intro s classes h c hc m hm
    exact ((Extract.clean_document h c hc).members m hm).summary.lineBreaks_not_mem.1

/-- Bars, backslashes and the mark of a link inside the texts. -/
theorem memberTable_readable_marks :
    let s : Text := "<doc><member name=\"T:N.C\"/><member name=\"M:N.C.f|](#x\\\"><summary>" ++
      "\\|](#|\\</summary></member></doc>"
    let m : Member := ⟨.method, "M:N.C.f|](#x\\", "\\|](#|\\", [], [], [], [], [], false, [], [], [], [],
      [], []⟩
    let c : Class := ⟨"C", "N", [], [], [m]⟩
    Extract.document s = .ok [c] ∧ '\n' ∉ m.title c.nameSpace ∧ '\n' ∉ m.summary ∧
      ∃ lines, Text.rows (memberTable .plain c) =
          Text.rows (heading .plain "Members" 3) ++ (headRows ++ lines) ++ [[]] ∧
        Text.rows (memberTable .plain c) <:+: Text.splitAt '\n' (render .plain [c]) ∧
        lines.map readRow = [some ⟨"C.f|](#x\\", "cfx", "\\|](#|\\"⟩] := by
  intro s m c
  have h : Extract.document s = .ok [c] := by decide +kernel
  have htitle : '\n' ∉ m.title c.nameSpace := by decide
  have hsummary : '\n' ∉ m.summary :=
    memberTable_readable.2 s [c] h c List.mem_cons_self m List.mem_cons_self
  obtain ⟨lines, hrows, hinfix, hread⟩ := memberTable_readable.1 .plain [c] c List.mem_cons_self
    (List.cons_ne_nil _ _) (List.forall_mem_singleton.2 ⟨htitle, hsummary⟩)
  have hmember : (c.members.map fun m =>
      some (Row.mk (m.title c.nameSpace) (Anchor.ofHeading (m.title c.nameSpace)) m.summary)) =
        [some ⟨"C.f|](#x\\", "cfx", "\\|](#|\\"⟩] := by decide +kernel
  exact ⟨h, htitle, hsummary, lines, hrows, hinfix, hread.trans hmember⟩

end Tables
end ApiDocs.Markdown
