import DottedQuery.Json.Values
import DottedQuery.Query.Render
import DottedQuery.SearchError

/-!
# Replies

A reply is a status and the text of a body. Successes and failures have a body of JSON; the
status of a failed search follows from its category (`DottedQuery.Gateway.statusOf`). What a
client may not see is refused in the same words whatever it was, so that a refusal tells nothing
about the catalog.
-/

namespace DottedQuery

namespace Gateway

open Json (Document)

/-- What a request is answered with. -/
structure Reply where
  /-- The status. -/
  status : Nat
  /-- The body. -/
  body : String
deriving DecidableEq, Repr

/-- A reply without a body. -/
def Reply.bare (status : Nat) : Reply := ⟨status, ""⟩

/-- A reply with a body of JSON. -/
def Reply.json (status : Nat) (body : Document) : Reply := ⟨status, body.write⟩

/-! ### Failures -/

/-- The status and the code of a category of failures. -/
def statusOf : Category → Nat × String
  | .validation => (422, "VALIDATION_ERROR")
  | .permissionDenied => (401, "PERMISSION_DENIED")
  | .notFound => (404, "NOT_FOUND")
  | .internal => (500, "INTERNAL_ERROR")

/-- What is said about anything a client may not see. -/
def permissionMessage : String := "You do not have permission to view this resource."

/-- Messages as JSON: the messages of each place. -/
def messagesDocument (m : Messages) : Document :=
  .object (m.table.entries.map fun e => (e.1, .array (e.2.map .string)))

/-- The messages of a failure, for failures that have any. -/
def messages? : SearchError → Option Messages
  | .invalid m => some m
  | _ => none

/-- What a client is told about a failure. -/
def clientMessage (e : SearchError) : String :=
  if e.category = .permissionDenied then permissionMessage else e.message

/-- The body of a failure. -/
def failureBody (code message : String) (messages : Option Messages) : Document :=
  .object ([("error", .bool true), ("code", .string code), ("message", .string message)] ++
    (messages.map fun m => ("messages", messagesDocument m)).toList)

/-- The reply to a search that fails. -/
def Reply.ofError (e : SearchError) : Reply :=
  let (number, code) := statusOf e.category
  .json number (failureBody code (clientMessage e) (messages? e))

/-- The reply to a body that is not the JSON it should be. -/
def Reply.badRequest (detail : String) : Reply :=
  .json 400 (failureBody "BAD_REQUEST" ("JSON error: " ++ detail) none)

/-! ### Successes -/

/-- The body of a success. -/
def successBody (data : Document) : Document := .object [("success", .bool true), ("data", data)]

/-- A compiled search: the search key it was compiled for and its statement. -/
def compiledDocument (entity : String) (s : Statement) : Document :=
  .object [("entity", .string entity), ("sql", .string s.text),
    ("bindings", .array (Value.documents s.bindings))]

end Gateway

namespace Statement

/-- The text of a statement as JSON. -/
def json (s : Statement) : String :=
  (Json.Document.object [("text", .string s.text),
    ("bindings", .array (Value.documents s.bindings))]).write

end Statement

end DottedQuery
