/-!
# Errors

Every failure is a value that names its cause; the wording stands in one function.  A failure
of a request keeps the answer or the breakdown that caused it.
-/

namespace DocGraph

structure ApiError where
  code : Nat
  errorNum : Nat
  message : String
deriving DecidableEq

def ApiError.text (error : ApiError) : String :=
  "[HTTP " ++ toString error.code ++ "][ERR " ++ toString error.errorNum ++ "] " ++ error.message

inductive TransportError where
  | connection (reason : String)
  | timeout (reason : String)
  | api (error : ApiError)
  | invalidResponse (reason : String)
deriving DecidableEq

def TransportError.message : TransportError → String
  | connection reason => "Connection error: " ++ reason
  | timeout reason => "Request timed out: " ++ reason
  | api error => "API error: " ++ error.text
  | invalidResponse reason => "Invalid response: " ++ reason

inductive Error where
  /-- A required field has no value. -/
  | missingField (name : String)
  /-- A value is not of the form its field asks for. -/
  | invalidValue (field expected got : String)
  /-- A name stands for no field of its scope. -/
  | unknownField (field scope : String)
  /-- An end of an edge names no document. -/
  | invalidReference (reason : String)
  /-- A document has changed since it was read. -/
  | conflict (id : String) (remoteRev : Option String) (cause : Option TransportError)
  | notFound (what : String) (cause : Option TransportError)
  | alreadyExists (what : String) (cause : Option TransportError)
  | unsupportedQuery (node reason : String)
  | entityDeleted (handle : String)
  | notPersisted (handle : String)
  | invalidSchema (reason : String)
  /-- A collection is of the other type than its schema. -/
  | collectionType (collection expected found : String)
  | unknownCollection (name : String)
  /-- A text or an answer is not of the form that is read from it. -/
  | unreadable
  | transport (error : TransportError)
deriving DecidableEq

namespace Error

def message : Error → String
  | missingField name => "Missing required field `" ++ name ++ "`"
  | invalidValue field expected got =>
    "Invalid value for field `" ++ field ++ "`: expected " ++ expected ++ ", got " ++ got
  | unknownField field scope => "Unknown field `" ++ field ++ "` in " ++ scope
  | invalidReference reason => "Invalid reference: " ++ reason
  | conflict id remoteRev _ =>
    "Conflict on " ++ id ++ ": remote revision is " ++ remoteRev.getD "unknown"
  | notFound what _ => "Not found: " ++ what
  | alreadyExists what _ => "Already exists: " ++ what
  | unsupportedQuery node reason => "Unsupported query at " ++ node ++ ": " ++ reason
  | entityDeleted handle => "Entity " ++ handle ++ " has been deleted"
  | notPersisted handle => "Entity of " ++ handle ++ " has not been persisted"
  | invalidSchema reason => "Schema error: " ++ reason
  | collectionType collection expected found =>
    "Collection " ++ collection ++ " is a " ++ found ++ " collection, expected " ++ expected
  | unknownCollection name => "No schema registered for collection " ++ name
  | unreadable => "Serialization error"
  | transport error => error.message

def transportCause? : Error → Option TransportError
  | conflict _ _ cause | notFound _ cause | alreadyExists _ cause => cause
  | transport error => some error
  | _ => none

end Error

end DocGraph
