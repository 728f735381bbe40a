import ApiDocs.Xml.Attribute

namespace ApiDocs.Xml

inductive Content
  | nil
  | text (value : Text) (rest : Content)
  | element (name : Text) (attributes : List Attribute) (children rest : Content)
deriving DecidableEq, Repr

structure Element where
  name : Text
  attributes : List Attribute
  content : Content
deriving DecidableEq, Repr

namespace Content

def addElement : Content → Element → Content
  | nil, e => element e.name e.attributes e.content nil
  | text s rest, e => text s (rest.addElement e)
  | element n as cs rest, e => element n as cs (rest.addElement e)

def addText : Content → Text → Content
  | nil, t => text t nil
  | text s nil, t => text (s ++ t) nil
  | text s rest, t => text s (rest.addText t)
  | element n as cs rest, t => element n as cs (rest.addText t)

def elements : Content → List Element
  | nil => []
  | text _ rest => rest.elements
  | element n as cs rest => ⟨n, as, cs⟩ :: rest.elements

def named (name : Text) : Content → List Element
  | nil => []
  | text _ rest => rest.named name
  | element n as cs rest =>
    (if n = name then [⟨n, as, cs⟩] else []) ++ cs.named name ++ rest.named name

def flatText : Content → Text
  | nil => []
  | text s rest => s ++ rest.flatText
  | element _ _ cs rest => cs.flatText ++ rest.flatText

end Content

namespace Element

def attribute? (e : Element) (key : Text) : Option Text :=
  (e.attributes.find? (·.key = key)).map (·.value)

def elements (e : Element) : List Element := e.content.elements

def childrenNamed (e : Element) (name : Text) : List Element :=
  e.elements.filter (·.name = name)

def child? (e : Element) (name : Text) : Option Element := e.elements.find? (·.name = name)

/-- The element itself counts when it has the name. -/
def named (e : Element) (name : Text) : List Element :=
  (if e.name = name then [e] else []) ++ e.content.named name

def text (e : Element) : Text := e.content.flatText

end Element
end ApiDocs.Xml
