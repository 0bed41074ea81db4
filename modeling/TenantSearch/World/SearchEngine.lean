-- A search engine in memory: mappings and documents by index. The two are apart: a
-- document can be stored in an index without a mapping, and an index that lost its last
-- document is still there. The name of an index is an opaque key here: nothing reads it
-- as a list of names or as a wildcard.
import TenantSearch.Json.Value

namespace TenantSearch

/-- A document under its identifier, which is any scalar. -/
structure StoredDocument where
  id : Json
  fields : Fields

/-- The mappings and the documents that an engine has, each under the name of their index. Every
call about an index is about the one of exactly that name; only a search reads more than one name
out of a text. -/
structure SearchEngine where
  mappings : List (String × Json) := []
  documents : List (String × List StoredDocument) := []

namespace SearchEngine

def mapping? (e : SearchEngine) (index : String) : Option Json :=
  (e.mappings.find? (·.1 == index)).map (·.2)

/-- The documents of an index. -/
def stored (e : SearchEngine) (index : String) : List StoredDocument :=
  ((e.documents.find? (·.1 == index)).map (·.2)).getD []

/-- The pairs with this one in place of the one with its name, or at the end. -/
def place {α : Type} (name : String) (value : α) (pairs : List (String × α)) :
    List (String × α) :=
  if pairs.any (·.1 == name) then pairs.map fun p => if p.1 == name then (name, value) else p
  else pairs ++ [(name, value)]

def setMapping (e : SearchEngine) (index : String) (mapping : Json) : SearchEngine :=
  { e with mappings := place index mapping e.mappings }

/-- Whether a document is stored under an identifier. -/
def isUnder (key : Json.Key) (d : StoredDocument) : Bool := d.id.key? == some key

/-- The documents with this one stored: over the one with its identifier, which stays as it was
first written, or at the end. -/
def store (key : Json.Key) (id : Json) (fields : Fields) (documents : List StoredDocument) :
    List StoredDocument :=
  if documents.any (isUnder key) then
    documents.map fun d => if isUnder key d then { d with fields } else d
  else documents ++ [⟨id, fields⟩]

/-- A document stored in an index; lists and objects identify nothing. -/
def put? (e : SearchEngine) (index : String) (id : Json) (fields : Fields) :
    Option SearchEngine :=
  id.key?.map fun key =>
    { e with documents := place index (store key id fields (e.stored index)) e.documents }

/-- Whether an index holds a document under an identifier. -/
def holds (e : SearchEngine) (index : String) (key : Json.Key) : Bool :=
  (e.stored index).any (isUnder key)

def remove (e : SearchEngine) (index : String) (key : Json.Key) : SearchEngine :=
  { e with documents := place index ((e.stored index).filter (!isUnder key ·)) e.documents }

/-- The engine without the mapping of an index. -/
def dropMapping (e : SearchEngine) (index : String) : SearchEngine :=
  { e with mappings := e.mappings.filter (·.1 != index) }

/-- The engine without an index: neither mapping nor documents. -/
def drop (e : SearchEngine) (index : String) : SearchEngine where
  mappings := e.mappings.filter (·.1 != index)
  documents := e.documents.filter (·.1 != index)

end SearchEngine

end TenantSearch
