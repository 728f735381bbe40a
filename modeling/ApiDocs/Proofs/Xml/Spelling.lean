import ApiDocs.Proofs.Text.Digits
import ApiDocs.Proofs.Xml.Walk

namespace ApiDocs.Xml

def isNameChar (c : Char) : Bool := !isSpace c && !("<>/&='\"!?" : Text).contains c

structure IsName (s : Text) : Prop where
  ne_nil : s ≠ []
  chars : ∀ c ∈ s, isNameChar c = true

/-- Names can be written, keys are distinct, and a text is neither empty nor behind a text. -/
def Content.Spellable : Content → Prop
  | .nil => True
  | .text s rest => s ≠ [] ∧ rest.startsWithText = false ∧ rest.Spellable
  | .element name attributes children rest =>
      IsName name ∧ (∀ a ∈ attributes, IsName a.key) ∧ (attributes.map (·.key)).Nodup ∧
        children.Spellable ∧ rest.Spellable

def Element.Spellable (e : Element) : Prop := e.alone.Spellable

def Spaces (s : Text) : Prop := ∀ c ∈ s, isSpace c = true

/-- A reference to a character. `marks` are the letters that announce hexadecimal digits. -/
inductive SpellsChar (marks : Text) : Char → Text → Prop
  | named {c name} : Reference.predefined? name = some c → SpellsChar marks c ("&" ++ name ++ ";")
  | decimal {c digits} : Numeral.Denotes 10 digits c.toNat →
      SpellsChar marks c ("&#" ++ digits ++ ";")
  | hexadecimal {c mark digits} : mark ∈ marks → Numeral.Denotes 16 digits c.toNat →
      SpellsChar marks c ("&#" ++ mark :: digits ++ ";")

inductive SpellsValue (quote : Char) : Text → Text → Prop
  | nil : SpellsValue quote [] []
  | raw {c value s} : c ≠ '&' → c ≠ quote → SpellsValue quote value s →
      SpellsValue quote (c :: value) (c :: s)
  | reference {c r value s} : c ≠ '\x00' → SpellsChar "x" c r → SpellsValue quote value s →
      SpellsValue quote (c :: value) (r ++ s)

inductive SpellsAttributes : List Attribute → Text → Prop
  | nil : SpellsAttributes [] []
  | cons {gap quote key value v attributes s} : gap ≠ [] → Spaces gap → isQuote quote = true →
      SpellsValue quote value v → SpellsAttributes attributes s →
      SpellsAttributes (⟨key, value⟩ :: attributes)
        (gap ++ key ++ "=" ++ quote :: v ++ quote :: s)

/-- Markup that leaves no trace. -/
inductive Aside : Text → Prop
  | comment {body} : ¬ "-->".toList <:+: body → Aside ("<!--" ++ body ++ "-->")
  | instruction {body} : body.head? ≠ some '>' → ¬ "?>".toList <:+: body →
      Aside ("<?" ++ body ++ "?>")
  | doctype {body} : (∃ c ∈ body, isSpace c = false) →
      (∀ c ∈ body, c ≠ '>' ∧ c ≠ '[' ∧ isQuote c = false) → Aside ("<!DOCTYPE" ++ body ++ ">")

inductive SpellsText : Text → Text → Prop
  | nil : SpellsText [] []
  | raw {c t s} : Token.isTextChar c = true → SpellsText t s → SpellsText (c :: t) (c :: s)
  | reference {c r t s} : SpellsChar "xX" c r → SpellsText t s → SpellsText (c :: t) (r ++ s)
  | cdata {body t s} : ¬ "]]>".toList <:+: body → SpellsText t s →
      SpellsText (body ++ t) ("<![CDATA[" ++ body ++ "]]>" ++ s)
  | aside {a t s} : Aside a → SpellsText t s → SpellsText t (a ++ s)

/-- Content. An element without content may be written as one tag. -/
inductive SpellsContent : Content → Text → Prop
  | nil : SpellsContent .nil []
  | aside {a c s} : Aside a → SpellsContent c s → SpellsContent c (a ++ s)
  | text {t a rest s} : SpellsText t a → SpellsContent rest s → SpellsContent (.text t rest) (a ++ s)
  | pair {name attributes children rest a gap body gap' s} :
      SpellsAttributes attributes a → Spaces gap → SpellsContent children body → Spaces gap' →
      SpellsContent rest s →
      SpellsContent (.element name attributes children rest)
        ("<" ++ name ++ a ++ gap ++ ">" ++ body ++ "</" ++ name ++ gap' ++ ">" ++ s)
  | empty {name attributes rest a gap s} :
      SpellsAttributes attributes a → Spaces gap → SpellsContent rest s →
      SpellsContent (.element name attributes .nil rest)
        ("<" ++ name ++ a ++ gap ++ "/>" ++ s)

inductive Margin : Text → Prop
  | nil : Margin []
  | space {c s} : isSpace c = true → Margin s → Margin (c :: s)
  | aside {a s} : Aside a → Margin s → Margin (a ++ s)

inductive SpellsDocument (e : Element) : Text → Prop
  | mk {mark before s after} : mark = [] ∨ mark = ['\uFEFF'] → Margin before →
      SpellsContent e.alone s → Margin after → SpellsDocument e (mark ++ before ++ s ++ after)

end ApiDocs.Xml
