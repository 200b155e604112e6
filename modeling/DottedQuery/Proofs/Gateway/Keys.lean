import DottedQuery.Proofs.Gateway.Answers
import DottedQuery.Proofs.Search.Written

/-!
# The key in an answer

A search that succeeds is answered by a statement and a key. Three places look at the key of an
item: the rules and the compiler take the blanks around it away before they look it up, and the
reply repeats it as it was sent. So the key that was searched for is the one in the answer without
the blanks around it (`DottedQuery.Gateway.Service.key_of_answer`): it is among the keys that the
service lists, and it leads to the entity whose table the statement reads.

The text in the answer itself need not be a key of the service
(`DottedQuery.Gateway.Service.answers_with_blanks`).
-/

namespace DottedQuery

/-- A query that returns one table, which it reads under its own name, begins with that. -/
theorem Select.text_of_root {q : Select} {table : String} (hsource : q.source = ⟨table, none⟩)
    (hprojection : q.projection = [.allOf table]) :
    ∃ rest, q.statement.text =
      "select " ++ Text.quoteName table ++ ".* from " ++ Text.quoteName table ++ rest := by
  obtain ⟨projection, source, joins, wheres, orderBy⟩ := q
  obtain rfl : source = ⟨table, none⟩ := hsource
  obtain rfl : projection = [.allOf table] := hprojection
  refine ⟨String.join ((joinsPieces joins ++ wherePieces wheres ++ orderPieces orderBy).map
    Piece.placeholder), String.toList_inj.mp ?_⟩
  simp [statement, pieces, projectionPieces, Piece.separated, Projection.pieces, Source.pieces,
    Piece.placeholder, String.toList_join]

namespace Searcher

variable {s : Searcher}

/-- **What compiles is a search for the entity under the key of the last item**, which the item has
with blanks around it or without. -/
theorem key_of_compile {request : SearchRequest} {order : Option OrderPath} {q : Select}
    (h : s.compile request order = .ok q) :
    ∃ item text root, request.items.getLast? = some item ∧ item.entity = some text ∧
      Text.trim text ∈ s.catalog.keys ∧ s.catalog.resolve? (Text.trim text) = some root ∧
      q.source = ⟨root.table, none⟩ ∧ q.projection = [.allOf root.table] := by
  obtain ⟨index, item, p, filters, joins, hlast, hplan, rfl⟩ := written_of_compile h
  obtain ⟨key, hkey, hmem⟩ :=
    Rules.key_of_validate (validate_of_compile h) (List.mem_of_getLast? hlast)
  have hresolve := resolve?_of_entityOf (plan_cases hplan).1
  rw [hkey, Option.getD_some] at hresolve
  obtain ⟨text, htext, rfl⟩ := Option.map_eq_some_iff.mp hkey
  exact ⟨item, text, p.entity, hlast, htext, hmem, hresolve, rfl, rfl⟩

end Searcher

namespace Gateway

namespace Service

/-- An answer of success is that of a search that compiles. -/
theorem compiled_of_status {s : Service} {target body : String}
    (htarget : Route.ofTarget? target = some .search)
    (h : (s.answer "POST" target body).status = 200) :
    ∃ b q, SearchBody.ofText? body = some b ∧ b.outcome s.searcher = .ok q ∧
      s.answer "POST" target body =
        .json 200 (successBody (compiledDocument b.lastEntity q.statement)) := by
  by_cases hsize : body.utf8ByteSize ≤ bodyLimit
  · rw [answer_of_search s htarget hsize] at h ⊢
    rcases hb : SearchBody.ofText? body with _ | b
    · simp [search, hb, Reply.badRequest, Reply.json] at h
    · rcases hq : b.outcome s.searcher with fault | q
      · rw [search_of_error s hb hq] at h
        exact absurd h (statusOf_ne_ok fault.category)
      · exact ⟨b, q, rfl, hq, search_of_ok s hb hq⟩
  · simp [answer, htarget, Nat.lt_of_not_le hsize] at h

/-- **The key in an answer names the entity that was searched, once the blanks around it are
taken away.** Whenever a posted search is answered with success, the answer repeats the text that
the last item was sent with. Without the blanks around it this text is one of the keys that the
service lists, and the entity under that key is the one whose table the statement in the answer
reads. -/
theorem key_of_answer {s : Service} {target body : String}
    (htarget : Route.ofTarget? target = some .search)
    (h : (s.answer "POST" target body).status = 200) :
    ∃ (b : SearchBody) (text : String) (q : Select) (root : Entity) (keys : List String),
      SearchBody.ofText? body = some b ∧
      (b.search.items.getLast?.bind fun item => item.entity) = some text ∧
      s.answer "POST" target body =
        .json 200 (successBody (compiledDocument text q.statement)) ∧
      (∀ list body', Route.ofTarget? list = some .entities →
        s.answer "GET" list body' = .json 200 (successBody (.array (keys.map .string)))) ∧
      Text.trim text ∈ keys ∧ s.searcher.catalog.resolve? (Text.trim text) = some root ∧
      q.source = ⟨root.table, none⟩ ∧
      ∃ rest, q.statement.text =
        "select " ++ Text.quoteName root.table ++ ".* from " ++ Text.quoteName root.table ++
          rest := by
  obtain ⟨b, q, hb, hq, hanswer⟩ := compiled_of_status htarget h
  obtain ⟨order, -, hcompile⟩ := Searcher.compile_of_compileWith hq
  obtain ⟨item, text, root, hlast, htext, hmem, hresolve, hsource, hprojection⟩ :=
    Searcher.key_of_compile hcompile
  have hsent : (b.search.items.getLast?.bind fun item => item.entity) = some text := by
    rw [hlast, Option.bind_some, htext]
  rw [SearchBody.lastEntity, hsent, Option.getD_some] at hanswer
  refine ⟨b, text, q, root, s.searcher.catalog.keys, hb, hsent, hanswer, ?_, hmem, hresolve,
    hsource, Select.text_of_root hsource hprojection⟩
  intro list body' hlist
  simp [answer, hlist, read, entities]

/-- The theorem at a search for users. -/
theorem key_of_answer_blog :
    let service := Service.mk Blog.configured "127.0.0.1:8080"
    Route.ofTarget? "/search" = some .search ∧
      (service.answer "POST" "/search" "[[[\"user\"]]]").status = 200 ∧
      ∃ (text : String) (q : Select) (root : Entity),
        service.answer "POST" "/search" "[[[\"user\"]]]" =
            .json 200 (successBody (compiledDocument text q.statement)) ∧
          Blog.configured.catalog.resolve? (Text.trim text) = some root ∧
          q.source = ⟨root.table, none⟩ := by
  intro service
  have hsearch : Route.ofTarget? "/search" = some .search := by decide
  have hbody : SearchBody.ofText? "[[[\"user\"]]]" =
      some ⟨⟨[⟨some "user", none⟩]⟩, none, none⟩ := by cbv
  have hstatus : (service.answer "POST" "/search" "[[[\"user\"]]]").status = 200 := by
    obtain ⟨q, hq⟩ : ∃ q, (SearchBody.mk ⟨[⟨some "user", none⟩]⟩ none none).outcome
        Blog.configured = .ok q := ⟨_, rfl⟩
    rw [answer_of_search service hsearch (by decide), search_of_ok service hbody hq]
    rfl
  obtain ⟨b, text, q, root, keys, -, -, hanswer, -, -, hresolve, hsource, -⟩ :=
    key_of_answer hsearch hstatus
  exact ⟨hsearch, hstatus, text, q, root, hanswer, hresolve, hsource⟩

/-- **A text with blanks is repeated as it was sent.** The configuration is accepted and the search
succeeds, but the text in the answer is none of the keys that the service lists, and it leads to
no entity. -/
theorem answers_with_blanks :
    let service := Service.mk Blog.configured "127.0.0.1:8080"
    Searcher.ofConfiguration Blog.configuration = .ok Blog.configured ∧
      (∃ q : Select, service.answer "POST" "/search" "[[[\" user \"]]]" =
        .json 200 (successBody (compiledDocument " user " q.statement))) ∧
      service.answer "GET" "/entities" "" =
        .json 200 (successBody (.array (["post", "user"].map .string))) ∧
      Blog.configured.catalog.resolve? " user " = none := by
  intro service
  have hsearch : Route.ofTarget? "/search" = some .search := by decide
  have hbody : SearchBody.ofText? "[[[\" user \"]]]" =
      some ⟨⟨[⟨some " user ", none⟩]⟩, none, none⟩ := by cbv
  obtain ⟨q, hq⟩ : ∃ q, (SearchBody.mk ⟨[⟨some " user ", none⟩]⟩ none none).outcome
      Blog.configured = .ok q := ⟨_, rfl⟩
  have hlist : Route.ofTarget? "/entities" = some .entities := by decide
  refine ⟨rfl, ⟨q, ?_⟩, ?_, rfl⟩
  · rw [answer_of_search service hsearch (by decide), search_of_ok service hbody hq]
    rfl
  · have hkeys : service.searcher.catalog.keys = ["post", "user"] := rfl
    simp [answer, hlist, read, entities, hkeys]

end Service

end Gateway

end DottedQuery
