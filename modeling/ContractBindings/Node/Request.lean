import ContractBindings.Json.Writer
import ContractBindings.Node.Answer
import ContractBindings.Node.Endpoint
import ContractBindings.Node.Status
import ContractBindings.ScriptHash
import ContractBindings.Url

/-!
# Requests to nodes

A node is asked for the state of a contract in one request. What comes of it is settled step by
step: whether anything was heard, whether the status is one of success, whether the body arrived
whole, and only then what the body says.

Left out is what the transport does by itself. It can always be set up, it follows no redirects, so
a status of that kind is one without success, and it has no clock: a node that takes too long has
been silent, or its body has broken off.
-/

namespace ContractBindings

/-- A question for the state of a contract. -/
structure NodeRequest where
  url : Url
  hash : ScriptHash
  deriving DecidableEq

namespace NodeRequest

/-- The method that is called on the node. -/
def method : String := "getcontractstate"

/-- How the program names itself to nodes. -/
def userAgent : String := "n3-typegen/0.1"

/-- The kind of the body. -/
def contentType : String := "application/json"

/-- The body of a request. -/
def body (request : NodeRequest) : String :=
  Json.text (.object [
    ("jsonrpc", .string "2.0"),
    ("id", .number (.integer 1)),
    ("method", .string method),
    ("params", .array [.string request.hash.text])])

end NodeRequest

/-- What came of a request. -/
inductive NodeReply where
  /-- Nothing was heard of the node. -/
  | silence
  /-- The node answered with a status and the text of a body, unless that broke off. -/
  | answered (status : Nat) (body : Option String)
  deriving DecidableEq, Repr

/-- A request to `endpoint` that failed before there was an answer. -/
def requestFailed (endpoint reason : String) : FetchError :=
  .http 0 ("Request to " ++ endpoint ++ " failed: " ++ reason)

/-- The body of the answer to a request that was sent to `url`, which `endpoint` writes. -/
def NodeReply.body (endpoint : String) (url : Url) : NodeReply → Except FetchError String
  | silence =>
    .error (requestFailed endpoint ("error sending request for url (" ++ url.text ++ ")"))
  | answered status body =>
    if !Status.isSuccess status then
      .error (.http status ("HTTP " ++ Status.text status ++ " for " ++ endpoint))
    else match body with
      | some text => .ok text
      | none => .error (.http 0 "Failed to read response body: error decoding response body")

end ContractBindings
