import NetworkConsole.Console.Dialogue
import NetworkConsole.Http.Endpoint
import NetworkConsole.Http.Status
import NetworkConsole.Text.Blank

/-!
# Exchanges with the backend

Commands and node lists are posted as forms; the newest image is fetched. A response
other than a success breaks the contract with the backend, and after a post its text is
part of the error.
-/

namespace NetworkConsole.Http

/-- The methods in use. -/
inductive Method
  | get
  | post
  deriving DecidableEq, Repr

/-- The name of a method. -/
def Method.name : Method → String
  | .get => "GET"
  | .post => "POST"

/-- A request as it is sent: its method, its path below the backend's address and its text. -/
structure Message where
  method : Method
  path : String
  body : String
  deriving DecidableEq, Repr

/-- The content type of a message; only forms have one. -/
def Message.contentType (message : Message) : Option String :=
  match message.method with
  | .get => none
  | .post => some "application/x-www-form-urlencoded"

/-- What every request asks of the caches on its way. -/
def cacheDirective : String := "no-cache"

/-- A response: its status code and its text. -/
structure Response where
  status : Nat
  body : String
  deriving DecidableEq, Repr

/-- The text of a response without the mark of its byte order. -/
def Response.text (response : Response) : String :=
  if isBodiless response.status then ""
  else
    match response.body.toList with
    | '\ufeff' :: rest => String.ofList rest
    | _ => response.body

end NetworkConsole.Http

namespace NetworkConsole

open Http

/-- The message that carries a request. -/
def Request.message : Request → Message
  | .command form => ⟨.post, "/command", encodeForm form⟩
  | .nodes list => ⟨.post, "/getnodes", encodeForm [("node_type", list.name)]⟩
  | .imageText => ⟨.get, "/txtlast", ""⟩
  | .image => ⟨.get, "/imglast", ""⟩

/-- The error for a response that is no success. -/
def Http.Message.violation (message : Message) (response : Response) : ContractViolation :=
  .answered message.path (statusText response.status)
    (match message.method with
      | .get => none
      | .post => some (Text.trimString response.text))

/-- The result of a request that was answered. The remark is on a response that is not the
last one to the request. -/
def Request.result
    (request : Request)
    (remark : String)
    (response : Response) : Except ConsoleError String :=
  if !isFinal response.status then .error (.transport remark [])
  else if isSuccess response.status then .ok response.text
  else .error (.contract (request.message.violation response))

end NetworkConsole
