import DocGraph.Text.Parts
/-!
# Document handles

A document is named by the collection it lies in and its key, with a slash between them.
-/

namespace DocGraph

def documentHandle (collection key : String) : String := collection ++ "/" ++ key

/-- Whether a text names a document: a collection and a key around the first slash. -/
def isDocumentHandle (handle : String) : Bool :=
  match Text.cut? '/' handle with
  | some (collection, key) => collection ≠ "" && key ≠ ""
  | none => false

end DocGraph
