import ApiDocs.Text.Words
import ApiDocs.Xml.Element

namespace ApiDocs.Extract

open Xml

def code (s : Text) : Text := '\x60' :: (s ++ ['\x60'])

def phrase (e : Element) : Text :=
  if e.name = "paramref" ∨ e.name = "typeparamref" then
    match e.attribute? "name" with
    | some name => code name
    | none => []
  else if e.name = "see" then
    match e.attribute? "cref", e.attribute? "langword" with
    | some target, _ => "See " ++ target
    | none, some word => code word
    | none, none => []
  else if e.name = "c" then code e.text
  else if e.name = "code" then e.text
  else []

def line : Content → Text
  | .nil => []
  | .text s rest => s ++ line rest
  | .element n as cs rest => phrase ⟨n, as, cs⟩ ++ line rest

def inlineText (e : Element) : Text := line e.content

def prose (e : Element) : Text := Text.clean (inlineText e)

def childProse (e : Element) (name : Text) : Text :=
  match e.child? name with
  | some child => prose child
  | none => []

/-- An item of a list: its term and its description, or else its own prose. -/
def itemLine (item : Element) : Text :=
  let term := childProse item "term"
  let description := childProse item "description"
  if term = [] ∧ description = [] then prose item
  else if description = [] then term
  else if term = [] then description
  else term ++ ": " ++ description

def isItem (e : Element) : Bool := e.name = "listheader" || e.name = "item"

def listItems (list : Element) : List Text :=
  ((list.elements.filter isItem).map itemLine).filter (· ≠ [])

/-- A list in one line. A list without items is its own prose. -/
def listLine (list : Element) : Text :=
  match listItems list with
  | [] => prose list
  | items => Text.joinWith "; " items

end ApiDocs.Extract
