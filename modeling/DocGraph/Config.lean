import DocGraph.Error
import DocGraph.Json.Reader
/-!
# Configuration

What a client is told about the database it works with and the cursors it opens.
-/

namespace DocGraph

structure Config where
  database : String
  batchSize : Option UInt32
  cursorTtl : Option UInt32
  count : Bool
deriving DecidableEq

namespace Config

def default : Config := ⟨"_system", none, none, false⟩

def numberJson : Option UInt32 → Json
  | some n => .ofUInt64 n.toUInt64
  | none => .null

def toJson (config : Config) : Json :=
  .ofMembers [
    ("database", .string config.database),
    ("batch_size", numberJson config.batchSize),
    ("cursor_ttl", numberJson config.cursorTtl),
    ("count", .bool config.count)]

open Json in
def read {σ : Type} [Readable σ] (s : σ) : Option Config := do
  let fields ← Read.fields ["database", "batch_size", "cursor_ttl", "count"] s
  return ⟨← fields.withDefault "database" default.database Read.string,
    ← fields.withDefault "batch_size" none (Read.nullable Read.uint32),
    ← fields.withDefault "cursor_ttl" none (Read.nullable Read.uint32),
    ← fields.withDefault "count" default.count Read.bool⟩

def ofText (text : String) : Except Error Config :=
  match Json.readText read text with
  | some config => .ok config
  | none => .error .unreadable

end Config

end DocGraph
