import DottedQuery.Catalog.Decode
import DottedQuery.Proofs.Catalog.Accepted
import DottedQuery.Proofs.Gateway.Keys
import DottedQuery.Proofs.Search.Forms
import DottedQuery.Proofs.Search.Scalars

/-!
# Bindings as a client reads them

An answer of success holds the values that its statement binds, and a client that decodes them gets
these values back, unless there are floats among them
(`DottedQuery.Gateway.Service.bindings_survive`). A value by itself survives being written and read
(`DottedQuery.Value.decode?_json`); what is left is that there is room for it in the answer. Values
come from texts that put more arrays and objects around them than an answer does:

| a value in                 | what stands around it | proved as                               |
|----------------------------|-----------------------|-----------------------------------------|
| the body of a search       | 5                     | `DottedQuery.Gateway.SearchBody.leaves` |
| a configuration            | 7                     | `DottedQuery.Configuration.leaves`      |
| an answer                  | 3                     | `Gateway.Answer.decode?_bindings`       |

Between the two a value only becomes less deep: a comparison binds its value or the members of it
(`DottedQuery.Comparison.depth_of_operand`).

A catalog that is not made from a text may have constraints with deeper values. The list of the
bindings is then still a text that can be decoded, by itself, as long as its members are not nested
as deep as a text may be.
-/

namespace DottedQuery

open Json (Decoder Document)
open Json.Decoder (Leaves leaves_record leaves_value)

/-! ### The values of a request -/

namespace Criterion

/-- The values of a criterion: the one that it compares with, if there is one. -/
def values (c : Criterion) : List Value := c.value.toList

theorem eq_some_of_present {o : Option Value} {v : Value} (h : present o = some v) : o = some v :=
  (Option.filter_eq_some_iff.mp h).1

/-- The value of a criterion that is written as an object is one of the members. -/
theorem mem_of_ofMembers? {ms : List (String × Document)} {c : Criterion}
    (h : ofMembers? ms = some c) {v : Value} (hv : c.value = some v) :
    ("value", v.document) ∈ ms := by
  rw [ofMembers?_eq] at h
  split at h
  · simp only [Option.bind_eq_some_iff, Option.map_eq_some_iff] at h
    obtain ⟨field, -, op, -, value, hvalue, flag, -, rfl⟩ := h
    obtain rfl := eq_some_of_present hv
    rw [valueMember?] at hvalue
    split at hvalue
    · simp at hvalue
    · next d hd =>
      obtain ⟨v', hv', heq⟩ := Option.map_eq_some_iff.mp hvalue
      obtain rfl := Option.some.inj heq
      rw [← Value.eq_document_of_ofDocument? hv']
      exact (List.mem_filter.mp (Dict.mem_of_lookup hd)).1
  · simp at h

/-- Around the value of a criterion there is the criterion. -/
theorem leaves : decoder.Leaves values 1 := by
  intro room s c h v hv
  obtain ⟨d, hd, hc⟩ := Option.bind_eq_some_iff.mp h
  have hv : c.value = some v := Option.mem_toList.mp hv
  refine Nat.le_trans ?_ (Json.Source.depth_le_of_document? hd)
  rw [ofDocument?.eq_def] at hc
  split at hc
  · obtain ⟨vs, hvs, rfl⟩ := Option.map_eq_some_iff.mp hc
    have hmem : v ∈ vs := List.mem_of_getElem? (eq_some_of_present hv)
    rw [Value.eq_documents_of_ofDocuments? hvs, Document.depth, Value.depth_documents]
    exact Nat.succ_le_succ (Value.depth_le_of_mem hmem)
  · have hmem := mem_of_ofMembers? hc hv
    rw [← Value.depth_document, Document.depth]
    exact Nat.succ_le_succ (Document.depth_le_of_mem_members hmem)
  · simp at hc

end Criterion

/-- The values of the criteria of an item. -/
def SearchItem.values (i : SearchItem) : List Value :=
  i.criteria.elim [] (List.flatMap Criterion.values)

theorem SearchItem.leaves : decoder.Leaves values 3 := by
  refine leaves_record fun room s i h => ?_
  simp only [decoder, Option.bind_eq_bind, Option.bind_eq_some_iff] at h
  obtain ⟨f, hf, entity, -, criteria, hcriteria, hi⟩ := h
  obtain rfl := Option.some.inj hi
  exact ⟨f, Decoder.room_of_fields hf, Criterion.leaves.list.optional.withDefault hcriteria rfl⟩

/-- The values of the items of a request. -/
def SearchRequest.values (r : SearchRequest) : List Value := r.items.flatMap SearchItem.values

/-- The value of a criterion of a request is among them. -/
theorem SearchRequest.mem_values {r : SearchRequest} {i : SearchItem} {c : Criterion} {v : Value}
    (hi : i ∈ r.items) (hc : c ∈ i.criteriaList) (hv : c.value = some v) : v ∈ r.values := by
  refine List.mem_flatMap.mpr ⟨i, hi, ?_⟩
  rcases i with ⟨entity, _ | criteria⟩
  · exact absurd hc List.not_mem_nil
  · exact List.mem_flatMap.mpr ⟨c, hc, Option.mem_toList.mpr hv⟩

theorem SearchRequest.leaves : decoder.Leaves values 4 := by
  intro room s r h
  obtain ⟨items, hitems, rfl⟩ := Option.map_eq_some_iff.mp h
  exact SearchItem.leaves.list room s items hitems

theorem Gateway.SearchBody.leaves : decoder.Leaves (fun b => b.search.values) 5 := by
  refine leaves_record fun room s b h => ?_
  simp only [decoder, Option.bind_eq_bind, Option.bind_eq_some_iff] at h
  obtain ⟨f, hf, search, hsearch, orderBy, -, orderAs, -, hb⟩ := h
  obtain rfl := Option.some.inj hb
  exact ⟨f, Decoder.room_of_fields hf, SearchRequest.leaves.withDefault hsearch rfl⟩

/-! ### The values of a configuration -/

theorem RelationConstraint.leaves : decoder.Leaves (fun c => [c.value]) 1 := by
  refine leaves_record fun room s c h => ?_
  simp only [decoder, Option.bind_eq_bind, Option.bind_eq_some_iff] at h
  obtain ⟨f, hf, column, -, op, -, value, hvalue, hc⟩ := h
  obtain rfl := Option.some.inj hc
  exact ⟨f, Decoder.room_of_fields hf, leaves_value.required hvalue⟩

/-- The values of the constraints of a relation. -/
def Relation.values (r : Relation) : List Value := r.constraints.flatMap fun c => [c.value]

theorem Relation.leaves : decoder.Leaves values 3 := by
  refine leaves_record fun room s r h => ?_
  simp only [decoder, Option.bind_eq_bind, Option.bind_eq_some_iff] at h
  obtain ⟨f, hf, name, -, kind, -, related, -, foreignKey, -, ownerKey, -, pivot, -, searchable, -,
    constraints, hconstraints, hr⟩ := h
  obtain rfl := Option.some.inj hr
  exact ⟨f, Decoder.room_of_fields hf, RelationConstraint.leaves.list.withDefault hconstraints rfl⟩

/-- The values of the relations of an entity. -/
def Entity.values (e : Entity) : List Value := e.relations.flatMap Relation.values

theorem Entity.leaves : decoder.Leaves values 5 := by
  refine leaves_record fun room s e h => ?_
  simp only [decoder, Option.bind_eq_bind, Option.bind_eq_some_iff] at h
  obtain ⟨f, hf, name, -, table, -, searchable, -, allowed, -, hidden, -, relations, hrelations,
    he⟩ := h
  obtain rfl := Option.some.inj he
  exact ⟨f, Decoder.room_of_fields hf, Relation.leaves.list.withDefault hrelations rfl⟩

/-- The values of the entities of a configuration. -/
def Configuration.values (c : Configuration) : List Value := c.entities.flatMap Entity.values

theorem Configuration.leaves : decoder.Leaves values 7 := by
  refine leaves_record fun room s c h => ?_
  simp only [decoder, Option.bind_eq_bind, Option.bind_eq_some_iff] at h
  obtain ⟨f, hf, searchModels, -, entities, hentities, policy, -, hc⟩ := h
  obtain rfl := Option.some.inj hc
  exact ⟨f, Decoder.room_of_fields hf, Entity.leaves.list.withDefault hentities rfl⟩

/-! ### The depth of bindings -/

/-- What is compared with is nested no deeper than the value. -/
theorem Comparison.depth_of_operand {c : Comparison} {v : Value} (h : v ∈ c.operands) :
    v.depth ≤ c.value.depth := by
  obtain ⟨op, value⟩ := c
  rw [operands] at h
  split at h
  · cases value with
    | array vs => exact Nat.le_succ_of_le (Value.depth_le_of_mem h)
    | string s =>
      obtain ⟨part, -, rfl⟩ := List.mem_map.mp h
      exact Nat.zero_le _
    | _ => rw [List.mem_singleton.mp h]
  · rw [List.mem_singleton.mp h]

theorem Searcher.value_of_parts? {c : Criterion} {path : FieldPath} {op : Operator} {value : Value}
    (h : parts? c = some (path, op, value)) : c.value = some value := by
  simp only [parts?, Option.bind_eq_bind, Option.bind_eq_some_iff] at h
  obtain ⟨op', -, value', hvalue, path', -, heq⟩ := h
  obtain ⟨-, -, rfl⟩ : path' = path ∧ op' = op ∧ value' = value := by simpa using heq
  exact hvalue

/-- **The bindings of a search are nested no deeper** than the values of the request and those of
the constraints of the catalog. -/
theorem Searcher.depth_of_compile {s : Searcher} {request : SearchRequest}
    {order : Option OrderPath} {q : Select} {n : Nat} (h : s.compile request order = .ok q)
    (hrequest : ∀ v ∈ request.values, v.depth ≤ n)
    (hcatalog : ∀ e, s.catalog.Has e → ∀ v ∈ e.values, v.depth ≤ n) :
    ∀ v ∈ q.statement.bindings, v.depth ≤ n := by
  obtain ⟨index, item, p, filters, joins, hlast, hplan, rfl⟩ := written_of_compile h
  rw [p.bindings_query, comparisons_of_plan hplan]
  intro v hv
  obtain ⟨c, hc, hv⟩ := List.mem_flatMap.mp hv
  refine Nat.le_trans (Comparison.depth_of_operand hv) ?_
  refine Catalog.forall_comparisons (P := fun c => c.value.depth ≤ n) (fun e he r hr c hc => ?_)
    (entity_of_plan hplan) (fun c hc path op value hparts => ?_) order c hc
  · obtain ⟨constraint, hconstraint, rfl⟩ := List.mem_map.mp hc
    exact hcatalog e he _ (List.mem_flatMap.mpr ⟨r, hr, List.mem_flatMap.mpr
      ⟨constraint, hconstraint, List.mem_singleton_self _⟩⟩)
  · exact hrequest _ (SearchRequest.mem_values (List.mem_of_getLast? hlast) hc
      (value_of_parts? hparts))

/-- A searcher is made from the text of a configuration, as a service does at its start. -/
def Searcher.Configured (s : Searcher) : Prop :=
  ∃ text c, Configuration.ofText text = .ok c ∧ ofConfiguration c = .ok s

/-- The constraints of a configuration leave it seven places. -/
theorem Searcher.Configured.depth_le {s : Searcher} (h : s.Configured) {e : Entity}
    (he : s.catalog.Has e) {v : Value} (hv : v ∈ e.values) : v.depth + 7 ≤ Json.maxDepth := by
  obtain ⟨text, c, htext, hs⟩ := h
  obtain ⟨catalog, hcatalog, rfl⟩ := map_eq_ok_iff.mp hs
  obtain ⟨hsound, rfl⟩ := Configuration.catalog_eq_ok_iff.mp hcatalog
  obtain ⟨name, hname⟩ := he
  obtain ⟨hmem, -⟩ := (Configuration.entity?_uncheckedCatalog hsound.distinct).mp hname
  rw [Configuration.ofText] at htext
  split at htext
  · simp at htext
  · next c' hdecode =>
    obtain rfl := Except.ok.inj htext
    obtain ⟨source, -, hsource⟩ := Option.bind_eq_some_iff.mp hdecode
    exact Configuration.leaves _ _ _ hsource v (List.mem_flatMap.mpr ⟨e, hmem, hv⟩)

/-! ### Answers -/

namespace Json

/-- Values are decoded from the shape of their list. -/
theorem Decoder.list_sources {vs : List Value} {room : Nat} (h : ∀ v ∈ vs, v.Floatless)
    (hroom : ∀ v ∈ vs, v.depth ≤ room) :
    list Value.decoder (room + 1) (.array (Document.sources (Value.documents vs))) = some vs := by
  change (Document.sources (Value.documents vs)).mapM (Value.decoder room) = some vs
  induction vs with
  | nil => rfl
  | cons v vs ih =>
    obtain ⟨hv, hvs⟩ := List.forall_mem_cons.mp h
    obtain ⟨hvroom, hvsroom⟩ := List.forall_mem_cons.mp hroom
    rw [Value.documents, Document.sources, List.mapM_cons, Value.decoder_source hv hvroom,
      ih hvs hvsroom]
    rfl

end Json

namespace Gateway

/-- How a client decodes an answer for its bindings, where `d` is how it decodes their list. -/
def Answer.bindings {α : Type} (d : Decoder α) : Decoder α := fun room s => do
  let answer ← Decoder.fields ["success", "data"] room s
  answer.required "data" fun room s => do
    let search ← Decoder.fields ["entity", "sql", "bindings"] room s
    search.required "bindings" d

/-- **A client finds the list of the bindings**, in the room that two records have left. -/
theorem Answer.decode?_bindings {α : Type} (d : Decoder α) (entity : String) {s : Statement}
    (h : ∀ v ∈ s.bindings, v.Floatless) :
    Decoder.decode? (bindings d) (successBody (compiledDocument entity s)).write =
      d (Json.maxDepth - 2) (.array (Document.sources (Value.documents s.bindings))) := by
  have hfloatless : (successBody (compiledDocument entity s)).Floatless := by
    have hbindings := Value.floatless_documents _ (Value.floatlessMembers_iff.mpr h)
    simp [successBody, compiledDocument, Document.Floatless, Document.FloatlessMembers, hbindings]
  rw [Decoder.decode?, Document.read?_write hfloatless, Option.bind_some]
  simp [bindings, successBody, compiledDocument, Document.source, Document.memberSources,
    Json.maxDepth, Decoder.fields, Decoder.keyed?, Decoder.distinct, Json.Fields.required,
    Dict.lookup]

namespace Service

/-- **Values survive the way to a client.** A value without floats that is nested less deep than a
text may be is written as a text that is decoded as this value. So whenever a posted search is
answered with success and binds no floats, a client that decodes the bindings of the answer gets
the bindings of the statement, in their order. If the service has a configuration that was read
from a text, the answer is decoded as a whole; with any other catalog the list of the bindings is
decoded as a text of its own, for which they have to be nested less deep than a text may be. -/
theorem bindings_survive :
    (∀ v : Value, v.Floatless → v.depth < Json.maxDepth →
      Decoder.decode? Value.decoder v.json = some v) ∧
    ∀ (s : Service) (target body : String), Route.ofTarget? target = some .search →
      (s.answer "POST" target body).status = 200 →
        ∃ (b : SearchBody) (q : Select), SearchBody.ofText? body = some b ∧
          b.outcome s.searcher = .ok q ∧
          ((∀ v ∈ q.statement.bindings, v.Floatless) →
            (s.searcher.Configured →
              Decoder.decode? (Answer.bindings (.list Value.decoder))
                (s.answer "POST" target body).body = some q.statement.bindings) ∧
            ((∀ v ∈ q.statement.bindings, v.depth < Json.maxDepth) →
              Decoder.decode? (Answer.bindings fun _ => Decoder.list Value.decoder Json.maxDepth)
                (s.answer "POST" target body).body = some q.statement.bindings)) := by
  refine ⟨fun v hv hdepth => Value.decode?_json hv (Nat.le_of_lt hdepth),
    fun s target body htarget hstatus => ?_⟩
  obtain ⟨b, q, hb, hq, hanswer⟩ := compiled_of_status htarget hstatus
  refine ⟨b, q, hb, hq, fun hfloatless => ⟨fun hs => ?_, fun hdepth => ?_⟩⟩
  · obtain ⟨order, -, hcompile⟩ := Searcher.compile_of_compileWith hq
    obtain ⟨source, -, hsource⟩ := Option.bind_eq_some_iff.mp hb
    have hrequest := SearchBody.leaves _ _ _ hsource
    have hdepth : ∀ v ∈ q.statement.bindings, v.depth ≤ Json.maxDepth - 3 :=
      Searcher.depth_of_compile hcompile
        (fun v hv => Nat.le_sub_of_add_le (Nat.le_trans (by omega) (hrequest v hv)))
        fun e he v hv => Nat.le_sub_of_add_le (Nat.le_trans (by omega) (hs.depth_le he hv))
    rw [hanswer]
    exact (Answer.decode?_bindings _ _ hfloatless).trans (Decoder.list_sources hfloatless hdepth)
  · rw [hanswer]
    exact (Answer.decode?_bindings _ _ hfloatless).trans
      (Decoder.list_sources hfloatless fun v hv => Nat.le_of_lt_succ (hdepth v hv))

end Service

end Gateway

namespace Directory

/-- Users, and nothing behind them. -/
def configuration : Configuration :=
  ⟨Dict.ofList [("user", "User")], [(Entity.ofTable "User" "users").makeSearchable], .drop⟩

/-- The searcher for that configuration. -/
def searcher : Searcher := ⟨configuration.uncheckedCatalog, configuration.policy⟩

/-- The configuration is written as a text. -/
theorem configured : searcher.Configured := by
  refine ⟨"[\x7b\"user\":\"User\"\x7d,[[\"User\",\"users\",true]]]", configuration, ?_, rfl⟩
  cbv

/-- A search by a set with a line feed in it, and by a list with a list in it. -/
def body : String := "[[[\"user\",[[\"name\",\"in\",[\"\\n\",null]],[\"ids\",\"=\",[[],true]]]]]]"

/-- The request of that search. -/
def request : SearchRequest :=
  ⟨[⟨some "user", some [⟨some "name", some "in", some (.array [.string "\n", .null]), false⟩,
    ⟨some "ids", some "=", some (.array [.array [], .bool true]), false⟩]⟩]⟩

theorem ofText?_body : Gateway.SearchBody.ofText? body = some ⟨request, none, none⟩ := by cbv

end Directory

namespace Gateway

/-- The theorem at the least integer among other values, and at a search that binds the members of a
set and a list. -/
theorem Service.bindings_survive_directory :
    Decoder.decode? Value.decoder
        (Value.array [.int (-9223372036854775808), .string "\n\"", .null, .array []]).json =
      some (.array [.int (-9223372036854775808), .string "\n\"", .null, .array []]) ∧
    Decoder.decode? (Answer.bindings (.list Value.decoder))
        ((Service.mk Directory.searcher "").answer "POST" "/search" Directory.body).body =
      some [.string "\n", .null, .array [.array [], .bool true]] := by
  obtain ⟨hvalue, hanswer⟩ := Service.bindings_survive
  refine ⟨hvalue _ (by simp [Value.Floatless, Value.FloatlessMembers]) (by decide), ?_⟩
  have hsearch : Route.ofTarget? "/search" = some .search := by decide
  obtain ⟨q, hq⟩ : ∃ q, (SearchBody.mk Directory.request none none).outcome Directory.searcher =
      .ok q := ⟨_, rfl⟩
  have hstatus : ((Service.mk Directory.searcher "").answer "POST" "/search"
      Directory.body).status = 200 := by
    rw [answer_of_search _ hsearch (by decide), search_of_ok _ Directory.ofText?_body hq]
    rfl
  obtain ⟨b, q', hb, hq', hdecode⟩ := hanswer _ _ _ hsearch hstatus
  obtain rfl := Option.some.inj (Directory.ofText?_body.symm.trans hb)
  have hbindings : q'.statement.bindings =
      [.string "\n", .null, .array [.array [], .bool true]] := by
    obtain rfl := Except.ok.inj hq'
    rfl
  rw [hbindings] at hdecode
  exact (hdecode (by simp [Value.Floatless, Value.FloatlessMembers])).1 Directory.configured

end Gateway

end DottedQuery
