import ApiDocs.Text.Basic

namespace ApiDocs

structure Entry where
  name : Text
  description : Text
deriving DecidableEq, Repr

namespace Entry

/-- A known name keeps its place and gets the new description; a new name goes to the end. -/
def upsert : List Entry → Entry → List Entry
  | [], e => [e]
  | d :: ds, e => if d.name = e.name then e :: ds else d :: upsert ds e

def collect (entries : List Entry) : List Entry := entries.foldl upsert []

end Entry
end ApiDocs
