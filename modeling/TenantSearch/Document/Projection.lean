-- A document is indexed without the bookkeeping of the record store and without the
-- fields that its two merged texts already hold. Records of reserved entities are not
-- indexed at all.
import TenantSearch.Document.Definition

namespace TenantSearch

/-- The entities whose records never reach the search engine. -/
def reservedEntities : List String := ["Domain", "Secret"]

/-- The bookkeeping of the record store. -/
def storeFields : List String := ["_rid", "_attachments", "_self", "_etag", "_ts"]

/-- The fields that the merged texts hold. -/
def mergedFields : List String :=
  ["description", "note", "summary", "introduction", "title", "firstName", "lastName", "content",
    "name", "token", "url"]

namespace Projection

/-- Whether a document carries both merged texts. -/
def hasTexts (document : Fields) : Bool :=
  document.has "searchDisplay" && document.has "searchContent"

/-- The document with the merged texts that it does not carry itself. Both are put together in any
case. -/
def withTexts (merged : MergedText) (document : Fields) : Except Breakage Fields := do
  let display ← merged.displayText document
  let content ← merged.contentText document
  pure ((document.setDefault "searchDisplay" (.str display)).setDefault "searchContent"
    (.str content))

/-- The document without what search has no use for. -/
def strip (document : Fields) : Fields := document.without (storeFields ++ mergedFields)

end Projection

end TenantSearch
