import DocGraph.Text.Parts
import DocGraph.Text.Percent
/-!
# Paths of requests

A request addresses the interface of a database by segments.  A segment is escaped as a whole,
so no name can be taken for a separator.
-/

namespace DocGraph.Http

def isUnreserved (c : Char) : Bool :=
  c.isAlphanum || c = '-' || c = '_' || c = '.' || c = '~'

def encodeSegment (segment : String) : String := Text.percentEncode isUnreserved segment

def decodeSegment? (segment : String) : Option String := Text.percentDecode? segment

def apiPath (database : String) (segments : List String) : String :=
  "/".intercalate ("" :: "_db" :: encodeSegment database :: "_api" :: segments.map encodeSegment)

def parsePath? (path : String) : Option (String × List String) :=
  match Text.split '/' path with
  | "" :: "_db" :: database :: "_api" :: segments => do
    return (← decodeSegment? database, ← segments.mapM decodeSegment?)
  | _ => none

end DocGraph.Http
