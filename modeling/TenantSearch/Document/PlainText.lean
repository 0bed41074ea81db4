-- A document is searched through two texts: one for display, one for content. Each is
-- put together from fields, as plain text: tags removed, character references replaced,
-- blanks collapsed.
import TenantSearch.Failure
import TenantSearch.Text.Blank
import TenantSearch.Text.CharacterReference

namespace TenantSearch

namespace PlainText

/-- The text with every tag replaced by a space. A tag goes from `<` to the next `>`, with something
in between. `inside` says that a tag is being passed over, `ends` how many `>` are still ahead, and
`done` holds what is finished, reversed. -/
def stripFrom : Bool → Nat → List Char → List Char → List Char
  | _, _, done, [] => done.reverse
  | inside, ends, done, c :: rest =>
    if inside then
      if c = '>' then stripFrom false (ends - 1) done rest else stripFrom true ends done rest
    else if c = '<' && ends != 0 && rest.head? != some '>' then
      stripFrom true ends (' ' :: done) rest
    else stripFrom false (if c = '>' then ends - 1 else ends) (c :: done) rest

/-- The text with every tag replaced by a space. -/
def stripTags (cs : List Char) : List Char := stripFrom false (cs.count '>') [] cs

/-- A text without tags, references and superfluous blanks. -/
def ofText (s : String) : Except Breakage String :=
  match unescape? (String.ofList (stripTags s.toList)) with
  | some s => .ok (collapse s)
  | none => .error .badNumber

/-- The texts that are not empty, with single spaces between. -/
def join (texts : List String) : String := " ".intercalate (texts.filter (!·.isEmpty))

mutual
/-- The plain text of a field: of a text, a number, or a list of them. -/
def ofValue : Json → Except Breakage String
  | .str s => ofText s
  | .int n => .ok (toString n)
  | .float d => .ok d.text
  | .arr items => (ofItems items).map join
  | .null => .ok ""
  | .bool _ => .ok ""
  | .obj _ => .ok ""

def ofItems : List Json → Except Breakage (List String)
  | [] => .ok []
  | item :: rest => do
    let text ← ofValue item
    let others ← ofItems rest
    pure (text :: others)
end

/-- The most characters that a merged text has. -/
def mostCharacters : Nat := 300000

/-- The plain text of a named field. A name that is no text names no field; a list or an object is
no name at all. -/
def ofField (document : Fields) (name : Json) : Except Breakage String :=
  match name with
  | .str name => ofValue (document.look name)
  | name => if name.key?.isSome then .ok "" else .error .wrongOperand

/-- The plain texts of the named fields, joined, up to the most characters. -/
def merge (document : Fields) (names : List Json) : Except Breakage String :=
  (names.mapM (ofField document)).map fun texts =>
    String.ofList ((join texts).toList.take mostCharacters)

end PlainText

/-- The fields that the two merged texts are put together from. -/
structure MergedText where
  display : List Json
  content : List Json

namespace MergedText

/-- What is merged unless an entity says otherwise. -/
def standard : MergedText where
  display := ["title", "name", "firstName", "lastName"].map .str
  content :=
    ["summary", "introduction", "abstract", "description", "note", "content", "tags"].map .str

def displayText (m : MergedText) (document : Fields) : Except Breakage String :=
  PlainText.merge document m.display

def contentText (m : MergedText) (document : Fields) : Except Breakage String :=
  PlainText.merge document m.content

end MergedText

end TenantSearch
