import DottedQuery.Gateway.Routes
import DottedQuery.Proofs.Search.Failures
import Mathlib.Data.List.Permutation

/-!
# Answers by cause

A search is answered by a status, and this file says what each status stands for when the
configuration of the service has been accepted (`DottedQuery.Gateway.Service.answer_by_cause`).
A client can tell its causes apart:

| status | cause                                                                   |
|--------|-------------------------------------------------------------------------|
| 400    | the body is not the JSON of a search                                    |
| 200    | the search compiles                                                     |
| 404    | the order is acceptable and there is nothing to search                  |
| 401    | the search asks for an entity, a relation or a field it may not see     |
| 422    | anything else                                                           |

The status 500 is not among them: a service that has come up is never at fault
(`DottedQuery.SearchError.OfService`). Messages are sent along exactly when the order or the
request has the wrong shape, and the refusals with 401 are one and the same reply.
-/

namespace DottedQuery

/-! ### Faults of the service -/

/-- **A failure is the fault of the service**: something that was checked before is not so, or a
text that it relies on could not be read. -/
inductive SearchError.OfService : SearchError → Prop
  /-- An entity is missing that was there. -/
  | unknownEntity (name : String) : OfService (.unknownEntity name)
  /-- A part of a criterion is missing that was there. -/
  | malformedCriterion (item criterion : Nat) : OfService (.malformedCriterion item criterion)
  /-- The catalog is wrong. -/
  | config (fault : ConfigFault) : OfService (.config fault)
  /-- A file could not be read. -/
  | unreadable : OfService .unreadable
  /-- A text is not the JSON it should be. -/
  | undecodable : OfService .undecodable

namespace SearchError

/-- Refusals are not. -/
theorem Refusal.not_ofService {e : SearchError} (h : e.Refusal) : ¬e.OfService := by
  intro h'
  cases h <;> cases h'

theorem category_eq_permissionDenied_iff {e : SearchError} : e.category = .permissionDenied ↔
    (∃ key, e = .notSearchable key) ∨ ∃ entity field, e = .denied entity field := by
  cases e <;> simp [category]

/-- What is not found, and no fault of the service, is a request for nothing. -/
theorem category_eq_notFound_iff {e : SearchError} (h : ¬e.OfService) :
    e.category = .notFound ↔ e = .emptyRequest := by
  cases e with
  | unknownEntity name => exact absurd (.unknownEntity name) h
  | _ => simp [category]

theorem category_ne_internal {e : SearchError} (h : ¬e.OfService) : e.category ≠ .internal := by
  cases e with
  | config fault => exact absurd (.config fault) h
  | unreadable => exact absurd .unreadable h
  | undecodable => exact absurd .undecodable h
  | _ => simp [category]

end SearchError

namespace Gateway

/-! ### Replies to failures -/

/-- The reply to everything that a client may not see. -/
def Reply.refusal : Reply := .json 401 (failureBody "PERMISSION_DENIED" permissionMessage none)

/-- Categories have different statuses. -/
theorem statusOf_inj {c c' : Category} : (statusOf c).1 = (statusOf c').1 ↔ c = c' := by
  cases c <;> cases c' <;> simp [statusOf]

/-- The statuses of failures are none of success. -/
theorem statusOf_ne_ok (c : Category) : (statusOf c).1 ≠ 200 := by
  cases c <;> simp [statusOf]

theorem Reply.ofError_eq (e : SearchError) :
    Reply.ofError e = .json (statusOf e.category).1
      (failureBody (statusOf e.category).2 (clientMessage e) (messages? e)) := rfl

/-- What may not be seen is refused in the same words, whatever it is. -/
theorem Reply.ofError_of_permissionDenied {e : SearchError}
    (h : e.category = .permissionDenied) : Reply.ofError e = .refusal := by
  have hmessages : messages? e = none := by
    cases e <;> first | rfl | simp [SearchError.category] at h
  simp only [Reply.ofError, Reply.refusal, clientMessage, hmessages, h, statusOf, if_true]

theorem messages?_eq_some_iff {e : SearchError} {m : Messages} :
    messages? e = some m ↔ e = .invalid m := by
  cases e <;> simp [messages?]

/-- The member for messages is in the body of a failure exactly if there are any. -/
theorem mem_failureBody (code message : String) (messages : Option Messages) :
    ∃ members, failureBody code message messages = .object members ∧
      ∀ d, ("messages", d) ∈ members ↔ ∃ m, messages = some m ∧ d = messagesDocument m := by
  refine ⟨_, rfl, fun d => ?_⟩
  cases messages <;> simp

/-! ### Answers -/

/-- What the search of a body comes to. -/
def SearchBody.outcome (b : SearchBody) (s : Searcher) : Except SearchError Select :=
  s.compileWith b.search b.orderBy b.orderAs

/-- Whether the body asks for nothing, in an order that is acceptable or in none. -/
def SearchBody.AsksNothing (b : SearchBody) : Prop :=
  (∃ order, OrderPath.ofParams b.orderBy b.orderAs = .ok order) ∧ b.search.items = []

/-- **How a search is answered**, by what it comes to. -/
structure Answers (s : Searcher) (b : SearchBody) (reply : Reply) : Prop where
  /-- The service is not at fault. -/
  blameless : ∀ fault, b.outcome s = .error fault → ¬fault.OfService
  /-- It does not say so either. -/
  not_internal : reply.status ≠ 500
  /-- Success is what compiles. -/
  success : reply.status = 200 ↔ ∃ q, b.outcome s = .ok q
  /-- Nothing is found where nothing is asked for. -/
  notFound : reply.status = 404 ↔ b.AsksNothing
  /-- Access is denied to an entity, or to a field or relation on one. -/
  denied : reply.status = 401 ↔ (∃ key, b.outcome s = .error (.notSearchable key)) ∨
    ∃ entity field, b.outcome s = .error (.denied entity field)
  /-- The search cannot be processed in all other cases. -/
  unprocessable : reply.status = 422 ↔
    reply.status ≠ 200 ∧ reply.status ≠ 404 ∧ reply.status ≠ 401
  /-- There are messages exactly for what has the wrong shape. -/
  messages : ∃ members, reply = .json reply.status (.object members) ∧
    ∀ d, ("messages", d) ∈ members ↔ ∃ m, b.outcome s = .error (.invalid m) ∧
      d = messagesDocument m
  /-- All that is denied is denied by the same reply. -/
  uniform : reply.status = 401 → reply = .refusal

namespace Answers

variable {s : Searcher} {b : SearchBody}

/-- A search that compiles is answered by its statement. -/
theorem of_ok {q : Select} (h : b.outcome s = .ok q) (hasks : ¬b.AsksNothing) :
    Answers s b (.json 200 (successBody (compiledDocument b.lastEntity q.statement))) where
  blameless fault hfault := by simp [h] at hfault
  not_internal := by simp [Reply.json]
  success := by simp [Reply.json, h]
  notFound := by simp [Reply.json, hasks]
  denied := by simp [Reply.json, h]
  unprocessable := by simp [Reply.json]
  messages := ⟨_, rfl, fun d => by simp [h]⟩
  uniform hstatus := by simp [Reply.json] at hstatus

/-- **A search that fails is answered by its cause.** -/
theorem of_error {fault : SearchError} (h : b.outcome s = .error fault)
    (hfault : ¬fault.OfService) (hasks : fault = .emptyRequest ↔ b.AsksNothing) :
    Answers s b (.ofError fault) := by
  -- the status is that of the category, and the statuses tell the categories apart
  have hstatus : ∀ c, (Reply.ofError fault).status = (statusOf c).1 ↔ fault.category = c :=
    fun _ => statusOf_inj
  have hinternal : fault.category ≠ .internal := SearchError.category_ne_internal hfault
  constructor
  case blameless => exact fun fault' hfault' => Except.error.inj (h.symm.trans hfault') ▸ hfault
  case not_internal => exact mt (hstatus .internal).mp hinternal
  case success =>
    rw [h]
    exact ⟨fun hok => absurd hok (statusOf_ne_ok _), fun ⟨q, hq⟩ => by simp at hq⟩
  case notFound =>
    exact (hstatus .notFound).trans ((SearchError.category_eq_notFound_iff hfault).trans hasks)
  case denied =>
    rw [h]
    refine (hstatus .permissionDenied).trans ?_
    simp only [SearchError.category_eq_permissionDenied_iff, Except.error.injEq]
  case unprocessable =>
    refine (hstatus .validation).trans ⟨fun hc => ?_, fun hother => ?_⟩
    · simp [Reply.ofError_eq, Reply.json, hc, statusOf]
    · obtain ⟨-, hfound, hdenied⟩ := hother
      cases hc : fault.category with
      | validation => rfl
      | permissionDenied => exact absurd ((hstatus .permissionDenied).mpr hc) hdenied
      | notFound => exact absurd ((hstatus .notFound).mpr hc) hfound
      | internal => exact absurd hc hinternal
  case messages =>
    obtain ⟨members, hbody, hmem⟩ := mem_failureBody (statusOf fault.category).2
      (clientMessage fault) (messages? fault)
    refine ⟨members, hbody ▸ Reply.ofError_eq fault, fun d => ?_⟩
    simp only [hmem, messages?_eq_some_iff, h, Except.error.injEq]
  case uniform =>
    exact fun hdenied =>
      Reply.ofError_of_permissionDenied ((hstatus .permissionDenied).mp hdenied)

end Answers

namespace Service

variable {searcher : Searcher} {listen target body : String}

/-- A search that is posted is compiled. -/
theorem answer_of_search (s : Service) (htarget : Route.ofTarget? target = some .search)
    (hsize : body.utf8ByteSize ≤ bodyLimit) : s.answer "POST" target body = s.search body := by
  have hlimit : ¬bodyLimit < body.utf8ByteSize := Nat.not_lt.mpr hsize
  simp [answer, htarget, hlimit]

/-- A search that compiles is replied to with its statement. -/
theorem search_of_ok (s : Service) {b : SearchBody} (hb : SearchBody.ofText? body = some b)
    {q : Select} (h : b.outcome s.searcher = .ok q) :
    s.search body = .json 200 (successBody (compiledDocument b.lastEntity q.statement)) := by
  rw [SearchBody.outcome] at h
  simp only [search, hb, h]

/-- A search that fails is replied to with its failure. -/
theorem search_of_error (s : Service) {b : SearchBody} (hb : SearchBody.ofText? body = some b)
    {fault : SearchError} (h : b.outcome s.searcher = .error fault) :
    s.search body = .ofError fault := by
  rw [SearchBody.outcome] at h
  simp only [search, hb, h]

/-- **A body that holds a search is answered by what the search comes to.** -/
theorem answers_of_search (hc : searcher.catalog.Closed) {b : SearchBody}
    (hb : SearchBody.ofText? body = some b) :
    Answers searcher b ((Service.mk searcher listen).search body) := by
  -- what a search comes to decides the reply, whatever it is
  have herror : ∀ fault, b.outcome searcher = .error fault →
      (Service.mk searcher listen).search body = .ofError fault :=
    fun fault h => search_of_error (Service.mk searcher listen) hb h
  rcases Searcher.compileWith_cases hc b.search b.orderBy b.orderAs with
    ⟨m, horder, h⟩ | ⟨⟨order, horder⟩, hrest⟩
  · rw [herror _ h]
    refine .of_error h (fun hf => by cases hf) ?_
    simp [SearchBody.AsksNothing, horder]
  · rcases hrest with ⟨hnil, h⟩ | ⟨hne, ⟨m, h⟩ | ⟨q, h⟩ | ⟨fault, hrefusal, h⟩⟩
    · rw [herror _ h]
      refine .of_error h (fun hf => by cases hf) ?_
      simp [SearchBody.AsksNothing, horder, hnil]
    · rw [herror _ h]
      refine .of_error h (fun hf => by cases hf) ?_
      simp [SearchBody.AsksNothing, hne]
    · rw [search_of_ok (Service.mk searcher listen) hb h]
      exact .of_ok h fun hasks => hne hasks.2
    · rw [herror _ h]
      refine .of_error h hrefusal.not_ofService ⟨fun hf => ?_, fun hasks => absurd hasks.2 hne⟩
      subst hf
      cases hrefusal

/-- **A service with an accepted configuration answers by cause.** Every body that is posted to the
search path, within the limit, is answered by 400 exactly if it holds no search, and then without
messages; and otherwise as its search deserves (`DottedQuery.Gateway.Answers`). -/
theorem answer_by_cause {c : Configuration} (hs : Searcher.ofConfiguration c = .ok searcher)
    (htarget : Route.ofTarget? target = some .search) (hsize : body.utf8ByteSize ≤ bodyLimit) :
    (((Service.mk searcher listen).answer "POST" target body).status = 400 ↔
      SearchBody.ofText? body = none) ∧
    (SearchBody.ofText? body = none → ∃ members, (Service.mk searcher listen).answer "POST" target
      body = .json 400 (.object members) ∧ ∀ d, ("messages", d) ∉ members) ∧
    ∀ b, SearchBody.ofText? body = some b →
      Answers searcher b ((Service.mk searcher listen).answer "POST" target body) := by
  have hclosed : searcher.catalog.Closed := Searcher.closed_of_configuration hs
  rw [answer_of_search _ htarget hsize]
  cases hb : SearchBody.ofText? body with
  | none =>
    have hreply : (Service.mk searcher listen).search body =
        .badRequest "the body is not a search" := by
      simp only [search, hb]
    obtain ⟨members, hbody, hmem⟩ := mem_failureBody "BAD_REQUEST"
      ("JSON error: " ++ "the body is not a search") none
    rw [hreply, Reply.badRequest, hbody]
    refine ⟨by simp [Reply.json], fun _ => ⟨members, rfl, ?_⟩, fun b hb' => by simp at hb'⟩
    simp [hmem]
  | some b =>
    have h : Answers searcher b ((Service.mk searcher listen).search body) :=
      answers_of_search hclosed hb
    refine ⟨⟨fun hstatus => ?_, fun hnone => by simp at hnone⟩, fun hnone => by simp at hnone, ?_⟩
    · -- 400 is none of the statuses that a search is answered by
      have hother := h.unprocessable.mpr (by simp [hstatus])
      simp [hstatus] at hother
    · rintro b' hb'
      obtain rfl := Option.some.inj hb'
      exact h

end Service

end Gateway

namespace Blog

/-- The catalog as it is configured, with posts under a search key although they take no part in
searches. -/
def configuration : Configuration where
  searchModels := (Dict.empty.insert "user" "User").insert "post" "Post"
  entities := [user, post, profile, role, secret]
  policy := .drop

/-- The searcher for that configuration. -/
def configured : Searcher := ⟨configuration.uncheckedCatalog, configuration.policy⟩

end Blog

namespace Gateway

/-- The theorem at an empty body, at a search for nothing, and at a search for posts. -/
theorem Service.answer_by_cause_blog :
    let service := Service.mk Blog.configured "127.0.0.1:8080"
    Searcher.ofConfiguration Blog.configuration = .ok Blog.configured ∧
      (service.answer "POST" "/search" "").status = 400 ∧
      (service.answer "POST" "/search?page=2" "[[]]").status = 404 ∧
      service.answer "POST" "/search" "[[[\"post\"]]]" = .refusal := by
  intro service
  have haccepted : Searcher.ofConfiguration Blog.configuration = .ok Blog.configured := rfl
  have hsearch : Route.ofTarget? "/search" = some .search := by decide
  have hquery : Route.ofTarget? "/search?page=2" = some .search := by decide
  have hempty : SearchBody.ofText? "" = none := by cbv
  have hnothing : SearchBody.ofText? "[[]]" = some ⟨⟨[]⟩, none, none⟩ := by cbv
  have hposts : SearchBody.ofText? "[[[\"post\"]]]" =
      some ⟨⟨[⟨some "post", none⟩]⟩, none, none⟩ := by cbv
  refine ⟨haccepted, ?_, ?_, ?_⟩
  · exact (answer_by_cause haccepted hsearch (by decide)).1.mpr hempty
  · have h : Answers Blog.configured _ (service.answer "POST" "/search?page=2" "[[]]") :=
      (answer_by_cause haccepted hquery (by decide)).2.2 _ hnothing
    exact h.notFound.mpr ⟨⟨none, rfl⟩, rfl⟩
  · have h : Answers Blog.configured _ (service.answer "POST" "/search" "[[[\"post\"]]]") :=
      (answer_by_cause haccepted hsearch (by decide)).2.2 _ hposts
    exact h.uniform (h.denied.mpr (Or.inl ⟨"post", rfl⟩))

end Gateway

end DottedQuery
