import ApiDocs.Proofs.Html.Elements

namespace ApiDocs.Html

section Reading

structure Item where
  depth : Nat
  target : Option Text
  text : Text
deriving DecidableEq

def Item.ofLine (l : Forest.Line) : Item := ⟨l.depth, some (idOf l.fullName), escape l.name⟩

def leadingText : List Piece → Text
  | .char c :: ps => c :: leadingText ps
  | _ => []

def readItem (depth : Nat) : List Piece → Item
  | p :: ps => ⟨depth, p.target?, leadingText ps⟩
  | [] => ⟨depth, none, []⟩

/-- The items up to the end of the division, where `lists` is the number of lists that are open. -/
def itemsFrom (lists : Nat) : List Piece → List Item
  | [] => []
  | .char _ :: ps => itemsFrom lists ps
  | .tag content :: ps =>
    if content = "ul" then itemsFrom (lists + 1) ps
    else if content = "/ul" then itemsFrom (lists - 1) ps
    else if content = "li" then readItem (lists - 1) ps :: itemsFrom lists ps
    else if content = "/div" then []
    else itemsFrom lists ps

/-- The items of the sidebar in the order in which they appear. -/
def readSidebar (page : Text) : List Item :=
  itemsFrom 0 ((pieces page).dropWhile (· ≠ .tag "div class=\"sidebar\""))

end Reading

section Steps

variable (lists depth : Nat) (ps : List Piece)

theorem itemsFrom_chars (s : Text) : itemsFrom lists (s.map .char ++ ps) = itemsFrom lists ps := by
  induction s with
  | nil => rfl
  | cons c s ih => exact ih

theorem itemsFrom_ul : itemsFrom lists (.tag "ul" :: ps) = itemsFrom (lists + 1) ps := if_pos rfl

theorem itemsFrom_endUl : itemsFrom (lists + 1) (.tag "/ul" :: ps) = itemsFrom lists ps := by
  rw [itemsFrom, if_neg (by decide), if_pos rfl, Nat.add_sub_cancel]

theorem itemsFrom_li :
    itemsFrom (depth + 1) (.tag "li" :: ps) = readItem depth ps :: itemsFrom (depth + 1) ps := by
  rw [itemsFrom, if_neg (by decide), if_neg (by decide), if_pos rfl, Nat.add_sub_cancel]

theorem itemsFrom_other (content : Text) (h : content ∉ (["ul", "/ul", "li", "/div"] : List Text)) :
    itemsFrom lists (.tag content :: ps) = itemsFrom lists ps := by
  simp only [List.mem_cons, List.not_mem_nil, or_false, not_or] at h
  rw [itemsFrom, if_neg h.1, if_neg h.2.1, if_neg h.2.2.1, if_neg h.2.2.2]

theorem itemsFrom_link (target : Text) :
    itemsFrom lists (.tag (Tag.link target).written :: ps) = itemsFrom lists ps := by
  apply itemsFrom_other
  rw [Tag.written_link]
  simp

theorem leadingText_chars (s content : Text) :
    leadingText (s.map .char ++ .tag content :: ps) = s := by
  induction s with
  | nil => rfl
  | cons c s ih => exact congrArg (c :: ·) ih

theorem readItem_link (target s content : Text) :
    readItem depth (.tag (Tag.link target).written :: (s.map .char ++ .tag content :: ps)) =
      ⟨depth, some (idOf target), s⟩ := by
  have htarget : Piece.target? (.tag (Tag.link target).written) = some (idOf target) :=
    attribute?_written _ target
  rw [readItem, htarget, leadingText_chars]

end Steps

section Pieces

theorem pieces_plain (s : Text) : (Markup.plain s).pieces = (escape s).map .char :=
  List.append_nil _

theorem pieces_within (t : Tag) (m : Markup) :
    (Markup.within t m).pieces = .tag t.written :: (m.pieces ++ [.tag ('/' :: t.name)]) := rfl

theorem pieces_line (m : Markup) : (Markup.line m).pieces = m.pieces ++ [.char '\n'] :=
  Markup.pieces_append m (Markup.plain "\n")

theorem pieces_link (target s : Text) :
    (Markup.link target s false).pieces =
      .tag (Tag.link target).written :: ((escape s).map .char ++ [.tag "/a"]) := by
  have hinside : (Markup.text false s .nil).pieces = (escape s).map .char := pieces_plain s
  rw [Markup.link, pieces_within, hinside]
  rfl

theorem pieces_listItem (m : Markup) :
    (Markup.listItem m).pieces = .tag "li" :: (m.pieces ++ [.tag "/li", .char '\n']) := by
  rw [Markup.listItem, pieces_line, pieces_within, List.cons_append, List.append_assoc]
  rfl

theorem pieces_listElement (items : Markup) :
    (Markup.listElement items).pieces =
      .tag "ul" :: .char '\n' :: (items.pieces ++ [.tag "/ul", .char '\n']) := by
  rw [Markup.listElement, pieces_line, pieces_within, Markup.pieces_append, List.cons_append,
    List.append_assoc]
  rfl

end Pieces

section Trees

variable (lists depth : Nat) (ps : List Piece)

theorem itemsFrom_listElement (items : Markup) :
    itemsFrom lists ((Markup.listElement items).pieces ++ ps) =
      itemsFrom (lists + 1) (items.pieces ++ .tag "/ul" :: .char '\n' :: ps) := by
  rw [pieces_listElement, List.cons_append, List.cons_append, List.append_assoc, itemsFrom_ul]
  rfl

theorem itemsFrom_listItem (name fullName : Text) (below : Markup) :
    itemsFrom (depth + 1)
        ((Markup.listItem (Markup.link fullName name false ++ below)).pieces ++ ps) =
      ⟨depth, some (idOf fullName), escape name⟩ ::
        itemsFrom (depth + 1) (below.pieces ++ .tag "/li" :: .char '\n' :: ps) := by
  have hpieces : (Markup.listItem (Markup.link fullName name false ++ below)).pieces ++ ps =
      .tag "li" :: .tag (Tag.link fullName).written ::
        ((escape name).map .char ++ .tag "/a" ::
          (below.pieces ++ .tag "/li" :: .char '\n' :: ps)) := by
    rw [pieces_listItem, Markup.pieces_append, pieces_link]
    simp only [List.cons_append, List.append_assoc, List.nil_append]
  have hend := itemsFrom_other (depth + 1) (below.pieces ++ .tag "/li" :: .char '\n' :: ps) "/a"
    (by decide)
  rw [hpieces, itemsFrom_li, readItem_link, itemsFrom_link, itemsFrom_chars, hend]

theorem itemsFrom_endItem (lists : Nat) (ps : List Piece) :
    itemsFrom lists (.tag "/li" :: .char '\n' :: ps) = itemsFrom lists ps :=
  itemsFrom_other lists (.char '\n' :: ps) "/li" (by decide)

/-- Children stand in a list of their own, one level deeper. Without children there is no list. -/
theorem itemsFrom_childList {items : Markup} {children : Forest}
    (h : ∀ qs, itemsFrom (depth + 2) (items.pieces ++ qs) =
      (children.linesFrom (depth + 1)).map Item.ofLine ++ itemsFrom (depth + 2) qs) :
    itemsFrom (depth + 1) ((Markup.childList items children).pieces ++ ps) =
      (children.linesFrom (depth + 1)).map Item.ofLine ++ itemsFrom (depth + 1) ps := by
  cases children with
  | nil => rfl
  | node name fullName below siblings =>
      have hlist : itemsFrom (depth + 1)
          ((Markup.plain "\n" ++ Markup.listElement items).pieces ++ ps) =
            itemsFrom (depth + 1) ((Markup.listElement items).pieces ++ ps) := by
        rw [Markup.pieces_append, pieces_plain, List.append_assoc, itemsFrom_chars]
      rw [Markup.childList, hlist, itemsFrom_listElement, h, itemsFrom_endUl]
      rfl

theorem itemsFrom_sidebarItems (f : Forest) :
    itemsFrom (depth + 1) ((Markup.sidebarItems f).pieces ++ ps) =
      (f.linesFrom depth).map Item.ofLine ++ itemsFrom (depth + 1) ps := by
  induction f generalizing depth ps with
  | nil => rfl
  | node name fullName children siblings ihc ihs =>
      rw [Markup.sidebarItems, Markup.pieces_append, List.append_assoc, itemsFrom_listItem,
        itemsFrom_childList depth _ (ihc (depth + 1)), itemsFrom_endItem, ihs, Forest.linesFrom,
        List.map_append, List.map_cons, List.append_assoc]
      rfl

end Trees

section Pages

theorem itemsFrom_sidebarTitle (lists : Nat) (ps : List Piece) :
    itemsFrom lists ((Markup.plain "\n" ++ Markup.sidebarTitle).pieces ++ ps) =
      itemsFrom lists ps := by
  have hpieces : (Markup.plain "\n" ++ Markup.sidebarTitle).pieces =
      .char '\n' :: .tag "h2" ::
        (("Table of Contents" : Text).map .char ++ [.tag "/h2", .char '\n']) := by decide
  have htag := itemsFrom_other lists
    (("Table of Contents" : Text).map .char ++ .tag "/h2" :: .char '\n' :: ps) "h2" (by decide)
  have hend := itemsFrom_other lists (.char '\n' :: ps) "/h2" (by decide)
  rw [hpieces, List.cons_append, itemsFrom, List.cons_append, List.append_assoc]
  exact htag.trans ((itemsFrom_chars lists _ _).trans hend)

theorem pieces_sidebar (f : Forest) :
    (Markup.sidebar f).pieces =
      .tag "div class=\"sidebar\"" :: ((Markup.plain "\n" ++ Markup.sidebarTitle).pieces ++
        ((Markup.listElement (Markup.sidebarItems f)).pieces ++ [.tag "/div", .char '\n'])) := by
  rw [Markup.sidebar, pieces_line, pieces_within, Markup.pieces_append, List.cons_append,
    List.append_assoc, List.append_assoc]
  rfl

theorem itemsFrom_sidebar (f : Forest) (ps : List Piece) :
    itemsFrom 0 ((Markup.sidebar f).pieces ++ ps) = f.lines.map Item.ofLine := by
  have hstart := itemsFrom_other 0
    ((Markup.plain "\n" ++ Markup.sidebarTitle).pieces ++
      ((Markup.listElement (Markup.sidebarItems f)).pieces ++ .tag "/div" :: .char '\n' :: ps))
    "div class=\"sidebar\"" (by decide)
  have hend : itemsFrom 0 (.char '\n' :: .tag "/div" :: .char '\n' :: ps) = [] := by
    rw [itemsFrom, itemsFrom, if_neg (by decide), if_neg (by decide), if_neg (by decide), if_pos rfl]
  rw [pieces_sidebar, List.cons_append, List.append_assoc, List.append_assoc]
  refine hstart.trans ?_
  rw [itemsFrom_sidebarTitle, itemsFrom_listElement, itemsFrom_sidebarItems, itemsFrom_endUl, hend,
    List.append_nil, Forest.lines]

theorem readSidebar_render (classes : List Class) :
    readSidebar (render classes) =
      (Group.forest (Group.ofClasses classes)).lines.map Item.ofLine := by
  let f := Group.forest (Group.ofClasses classes)
  let rest : Text := pane (Group.ofClasses classes) ++ "</body>\n</html>\n"
  have hrender : render classes = (head ++ "<body>\n") ++ ((Markup.sidebar f).write ++ rest) := by
    rw [render, Markup.write_sidebar, List.append_assoc, List.append_assoc]
  have hhead : Reads (head ++ "<body>\n") (pieces (head ++ "<body>\n")) :=
    ⟨by decide +kernel, rfl⟩
  have hpieces : pieces (render classes) =
      pieces (head ++ "<body>\n") ++ ((Markup.sidebar f).pieces ++ pieces rest) := by
    rw [hrender, hhead.pieces_append, (Markup.sidebar f).reads_write.pieces_append]
  have hbefore : ∀ p ∈ pieces (head ++ "<body>\n"),
      decide (p ≠ Piece.tag "div class=\"sidebar\"") := by decide +kernel
  have hfirst : ((Markup.sidebar f).pieces ++ pieces rest).dropWhile
      (· ≠ .tag "div class=\"sidebar\"") = (Markup.sidebar f).pieces ++ pieces rest := by
    rw [pieces_sidebar, List.cons_append, List.dropWhile_cons_of_neg (by simp)]
  rw [readSidebar, hpieces, List.dropWhile_append_of_pos hbefore, hfirst, itemsFrom_sidebar]

example :
    readSidebar (render [⟨"C", "A.B<", [], [], []⟩, ⟨"D", "E", [], [], []⟩]) =
      [⟨0, some "A", "A"⟩, ⟨1, some "A-B&lt;", "B&lt;"⟩, ⟨0, some "E", "E"⟩] := by
  decide +kernel

end Pages
end ApiDocs.Html
