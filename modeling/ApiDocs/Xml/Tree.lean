import ApiDocs.Xml.Token
import ApiDocs.Xml.Element

namespace ApiDocs.Xml

/-- The open elements, innermost first, and the root once it is complete. -/
structure Progress where
  stack : List Element
  root : Option Element
deriving DecidableEq, Repr

namespace Progress

def start : Progress := ⟨[], none⟩

def push (p : Progress) (e : Element) : Progress := { p with stack := e :: p.stack }

def attach (p : Progress) (e : Element) : Except Error Progress :=
  match p.stack with
  | parent :: outer =>
    .ok { p with stack := { parent with content := parent.content.addElement e } :: outer }
  | [] =>
    match p.root with
    | some first => .error (.multipleRoots first.name e.name)
    | none => .ok { p with root := some e }

def addText (p : Progress) (t : Text) : Progress :=
  match p.stack with
  | parent :: outer =>
    { p with stack := { parent with content := parent.content.addText t } :: outer }
  | [] => p

def close (p : Progress) (name : Text) : Except Error Progress :=
  match p.stack with
  | [] => .error (.unexpectedEnd name)
  | e :: outer =>
    if e.name = name then attach { p with stack := outer } e
    else .error (.unreadable (.form (.mismatchedEnd e.name name)))

def step (p : Progress) : Token → Except Error Progress
  | .text t => .ok (p.addText t)
  | .aside => .ok p
  | .opened name attributes => .ok (p.push ⟨name, attributes, .nil⟩)
  | .empty name attributes => p.attach ⟨name, attributes, .nil⟩
  | .closed name => p.close name

def run (p : Progress) : List Token → Except Error Progress
  | [] => .ok p
  | t :: ts =>
    match p.step t with
    | .ok p => run p ts
    | .error e => .error e

def finish (p : Progress) : Except Error Element :=
  match p.stack, p.root with
  | e :: _, _ => .error (.unclosedElement e.name)
  | [], some root => .ok root
  | [], none => .error .emptyDocument

end Progress

/-- A fault of the tree comes before a fault of the text after it. -/
def build (tokens : List Token) (fault : Option Fault) : Except Error Element :=
  match Progress.start.run tokens, fault with
  | .error e, _ => .error e
  | .ok _, some fault => .error (.unreadable fault)
  | .ok p, none => p.finish

def withoutByteOrderMark : Text → Text
  | [] => []
  | c :: s => if c = '\uFEFF' then s else c :: s

def parse (s : Text) : Except Error Element :=
  let (ts, fault) := tokens (withoutByteOrderMark s)
  build ts fault

end ApiDocs.Xml
