import DottedQuery.Gateway.Arguments
import DottedQuery.Gateway.Reply
import DottedQuery.Gateway.Target
import DottedQuery.Search.Searcher

/-!
# The routes of the service

The service answers three paths: `/health` says how it is, `/entities` lists the search keys,
and `/search` compiles a search. `DottedQuery.Gateway.Service.answer` answers one request.

What every path has in common: a query string is not looked at; `HEAD` is answered like `GET`,
without the body; `OPTIONS` is answered before the path is looked at, for it asks about the
service and not about the path; another method of a path that is there is refused with 405, and
a path that is not there with 404.

Of the target of a request only the path counts:

* `DottedQuery.Gateway.Service.answer_of_address` – a request is answered alike with the whole
  address before the path and without it;
* `DottedQuery.Gateway.Service.answer_of_query` – it is answered alike whatever its query is.
-/

namespace DottedQuery

namespace Gateway

open Json (Decoder Document)

/-- The body of a search. -/
structure SearchBody where
  /-- The request. -/
  search : SearchRequest
  /-- The path of the order. -/
  orderBy : Option String
  /-- The direction of the order. -/
  orderAs : Option String

namespace SearchBody

/-- The decoder of search bodies. -/
def decoder : Decoder SearchBody := fun room s => do
  let f ← Decoder.fields ["search", "order_by", "order_as"] room s
  return {
    search := ← f.withDefault "search" ⟨[]⟩ SearchRequest.decoder
    orderBy := ← f.withDefault "order_by" none (.optional .text)
    orderAs := ← f.withDefault "order_as" none (.optional .text) }

/-- The search that a body holds. -/
def ofText? (s : String) : Option SearchBody := Decoder.decode? decoder s

/-- The search key that the reply names: the one of the last item, as it was sent. -/
def lastEntity (b : SearchBody) : String :=
  (b.search.items.getLast?.bind fun item => item.entity).getD ""

end SearchBody

/-- The service at work. -/
structure Service where
  /-- What compiles searches. -/
  searcher : Searcher
  /-- The address that the service listens on. -/
  listen : String

/-- A path of the service. -/
inductive Route where
  /-- How the service is. -/
  | health : Route
  /-- The search keys. -/
  | entities : Route
  /-- Compiling a search. -/
  | search : Route
deriving DecidableEq, Repr

namespace Route

/-- The route of a path; a path has to be written exactly so. -/
def ofPath? : String → Option Route
  | "/health" => some health
  | "/entities" => some entities
  | "/search" => some search
  | _ => none

/-- The route of a target. -/
def ofTarget? (target : String) : Option Route := (Target.path? target).bind ofPath?

end Route

/-- The version that the service reports. -/
def version : String := "0.1.0"

/-- The greatest size of a body, in bytes. -/
def bodyLimit : Nat := 2 * 1024 * 1024

namespace Service

/-- How the service is: healthy when there is something to search. -/
def health (s : Service) : Reply :=
  let count := s.searcher.catalog.keys.length
  .json 200 (.object [("status", .string (if 0 < count then "healthy" else "degraded")),
    ("version", .string version), ("entities", .int (Int64.ofNat count)),
    ("listen_addr", .string s.listen)])

/-- The search keys. -/
def entities (s : Service) : Reply :=
  .json 200 (successBody (.array (s.searcher.catalog.keys.map .string)))

/-- Compiles the search of a body. -/
def search (s : Service) (body : String) : Reply :=
  match SearchBody.ofText? body with
  | none => .badRequest "the body is not a search"
  | some b =>
    match s.searcher.compileWith b.search b.orderBy b.orderAs with
    | .error e => .ofError e
    | .ok q => .json 200 (successBody (compiledDocument b.lastEntity q.statement))

/-- The reply to a method that reads, on a path that is read. -/
def read (method : String) (reply : Reply) : Reply :=
  if method = "GET" then reply
  else if method = "HEAD" then .bare reply.status
  else .bare 405

/-- **The answer to a request.** -/
def answer (s : Service) (method target body : String) : Reply :=
  if method = "OPTIONS" then .bare 200
  else
    match Route.ofTarget? target with
    | none => .bare 404
    | some .health => read method s.health
    | some .entities => read method s.entities
    | some .search =>
      if method ≠ "POST" then .bare 405
      else if bodyLimit < body.utf8ByteSize then
        ⟨413, "Failed to buffer the request body: length limit exceeded"⟩
      else s.search body

/-- **The address before the path makes no difference to the answer**, where the scheme has no
colon and does not begin with `/`, and the authority is not empty and holds nothing that would end
it. -/
theorem answer_of_address (s : Service) (method body : String) {scheme authority : List Char}
    (hs : ':' ∉ scheme) (hslash : scheme.head? ≠ some '/') (hne : authority ≠ [])
    (ha : ∀ c ∈ authority, Target.endsAuthority c = false) (cs : List Char) :
    s.answer method
        (String.ofList (scheme ++ ':' :: '/' :: '/' :: (authority ++ '/' :: cs))) body =
      s.answer method (String.ofList ('/' :: cs)) body := by
  simp only [answer, Route.ofTarget?, Target.path?_of_address hs hslash hne ha]

/-- **The query and the fragment make no difference to the answer.** -/
theorem answer_of_query (s : Service) (method body : String) (cs : List Char) {d : Char}
    (hd : Target.endsPath d = true) (rest : List Char) :
    s.answer method (String.ofList ('/' :: (cs ++ d :: rest))) body =
      s.answer method (String.ofList ('/' :: cs)) body := by
  simp only [answer, Route.ofTarget?, Target.path?_of_query cs hd rest]

end Service

end Gateway

end DottedQuery
