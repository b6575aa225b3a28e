import DocGraph.Error
import DocGraph.Json.Basic
/-!
# Requests and responses

A response outside the range of success is an error; its status and the number in its body tell
which one.
-/

namespace DocGraph

inductive Method where
  | get
  | post
  | put
  | patch
  | delete
  | head
deriving DecidableEq

namespace Method

def text : Method → String
  | get => "GET"
  | post => "POST"
  | put => "PUT"
  | patch => "PATCH"
  | delete => "DELETE"
  | head => "HEAD"

def ofText? (text : String) : Option Method :=
  [get, post, put, patch, delete, head].find? fun method => method.text == text

end Method

structure Request where
  method : Method
  path : String
  query : List (String × String)
  body : Option Json
deriving DecidableEq

namespace Request

def plain (method : Method) (path : String) : Request := ⟨method, path, [], none⟩

def param? (request : Request) (name : String) : Option String := request.query.lookup name

end Request

structure Response where
  status : Nat
  body : Json
deriving DecidableEq

namespace Response

def isSuccess (response : Response) : Bool := 200 ≤ response.status && response.status < 300

/-- What the server says about a request that it refused; the number counts only if it fits
32 bits. -/
def apiError (response : Response) : ApiError where
  code := response.status
  errorNum :=
    match (response.body.member? "errorNum").bind Json.asUInt64? with
    | some n => if n.toNat < 2 ^ (32 : Nat) then n.toNat else 0
    | none => 0
  message := ((response.body.member? "errorMessage").bind Json.asString?).getD ""

def successBody (response : Response) : Except TransportError Json :=
  if response.isSuccess then .ok response.body else .error (.api response.apiError)

def check (response : Response) (what : String) : Except Error Json :=
  if response.isSuccess then .ok response.body
  else
    let api := response.apiError
    let cause := some (TransportError.api api)
    if api.code = 404 then .error (.notFound what cause)
    else if api.code = 412 ∨ api.errorNum = 1200 then
      .error (.conflict what ((response.body.member? "_rev").bind Json.asString?) cause)
    else if api.code = 409 ∧ api.errorNum = 1210 then .error (.alreadyExists what cause)
    else .error (.transport (.api api))

end Response

end DocGraph
