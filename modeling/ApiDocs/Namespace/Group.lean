import ApiDocs.Model.Class
import ApiDocs.Namespace.Forest

namespace ApiDocs

structure Group where
  nameSpace : Text
  classes : List Class
deriving DecidableEq, Repr

namespace Group

/-- A class goes to the end of its group. A new group goes to its place in the order. -/
def insert : List Group → Class → List Group
  | [], c => [⟨c.nameSpace, [c]⟩]
  | g :: gs, c =>
    if c.nameSpace = g.nameSpace then ⟨g.nameSpace, g.classes ++ [c]⟩ :: gs
    else if c.nameSpace < g.nameSpace then ⟨c.nameSpace, [c]⟩ :: g :: gs
    else g :: insert gs c

def ofClasses (classes : List Class) : List Group := classes.foldl insert []

def forest (groups : List Group) : Forest := Forest.ofNamespaces (groups.map (·.nameSpace))

end Group
end ApiDocs
