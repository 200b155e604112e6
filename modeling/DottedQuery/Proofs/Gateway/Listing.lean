import DottedQuery.Proofs.Catalog.Accepted
import DottedQuery.Proofs.Gateway.Answers
import DottedQuery.Proofs.Search.Defects

/-!
# The keys that are listed

A service lists its search keys, and a client that takes one of them from the list should be able
to search with it: the request that names the key and nothing else passes, and compiles to the
rows of the one entity that the configuration has under the key
(`DottedQuery.Searcher.Serves`), provided that entity takes part in searches.

The rules and the compiler look up what a request names without the blanks around it, while the
list shows the keys as they are configured. So a request is served under what is left of its text
when the blanks are taken away, if that is listed (`DottedQuery.Searcher.serves_of_mem`), and is
refused by the rules otherwise (`DottedQuery.Searcher.validate_forKey_iff`). A listed key serves as
itself if there are no blanks around it. If there are, it does so by coincidence only
(`DottedQuery.Searcher.serves_self_iff`); the configuration may well have such keys, and they are
listed all the same (`DottedQuery.Gateway.Service.lists_padded`).
-/

namespace DottedQuery

/-- The request for the rows of an entity, named by a text. -/
def SearchRequest.forKey (text : String) : SearchRequest := ⟨[⟨some text, none⟩]⟩

/-- All rows of an entity under a search key, or the refusal of the key if the entity takes no part
in searches. -/
def Entity.rowsUnder (e : Entity) (key : String) : Except SearchError Select :=
  if e.searchable = true then
    .ok { projection := [.allOf e.table], source := ⟨e.table, none⟩, joins := [], wheres := [],
          orderBy := [] }
  else .error (.notSearchable key)

/-- Rows show their table, and refusals show the key. -/
theorem Entity.rowsUnder_inj {e e' : Entity} {key key' : String} :
    e.rowsUnder key = e'.rowsUnder key' ↔
      (e.searchable = true ∧ e'.searchable = true ∧ e.table = e'.table) ∨
      (e.searchable = false ∧ e'.searchable = false ∧ key = key') := by
  rw [rowsUnder, rowsUnder]
  rcases e.searchable with _ | _ <;> rcases e'.searchable with _ | _ <;> simp

namespace Searcher

/-- **A text serves as a search key**: a request for it passes, and compiles to the rows of the one
entity whose name the configuration has under the key, or is refused because that entity takes no
part in searches. -/
structure Serves (s : Searcher) (c : Configuration) (text key : String) : Prop where
  /-- The request passes. -/
  passes : s.rules.validate (.forKey text) = .ok ()
  /-- It compiles to all rows of the entity, if that may be searched. -/
  compiles : ∃ name e, c.searchModels.get? key = some name ∧ (∀ e', c.Names name e' ↔ e' = e) ∧
    s.compile (.forKey text) none = e.rowsUnder key

variable {s : Searcher} {c : Configuration}

/-- A request for an entity passes exactly if its text is a key with blanks around it or without. -/
theorem validate_forKey_iff {text : String} :
    s.rules.validate (.forKey text) = .ok () ↔
      Text.trim text ≠ "" ∧ Text.trim text ∈ s.catalog.keys := by
  rw [Rules.validate_eq_ok_iff_defects, Rules.no_defect_iff]
  simp [SearchRequest.forKey, SearchItem.criteriaList, SearchItem.Names, rules]

/-- The entity that it searches is the one under the key, if that may be searched. -/
theorem entityOf_forKey {text : String} {e : Entity}
    (h : s.catalog.resolve? (Text.trim text) = some e) :
    s.entityOf ⟨some text, none⟩ =
      if e.searchable = true then .ok e else .error (.notSearchable (Text.trim text)) := by
  simp [entityOf, SearchItem.key?, h]

/-- Without criteria and order, it compiles to the rows of the entity. -/
theorem compile_forKey {text : String} {e : Entity}
    (hv : s.rules.validate (.forKey text) = .ok ())
    (h : s.catalog.resolve? (Text.trim text) = some e) :
    s.compile (.forKey text) none = e.rowsUnder (Text.trim text) := by
  rw [SearchRequest.forKey, compile_single_of_validated none hv, plan, entityOf_forKey h,
    Entity.rowsUnder]
  by_cases he : e.searchable = true
  · rw [if_pos he, if_pos he]
    rfl
  · rw [if_neg he, if_neg he]
    rfl

/-- An accepted configuration has one entity under each of its search keys. -/
theorem named_of_mem (hs : ofConfiguration c = .ok s) {key : String}
    (hkey : key ∈ s.catalog.keys) :
    ∃ name e, c.searchModels.get? key = some name ∧ (∀ e', c.Names name e' ↔ e' = e) ∧
      s.catalog.resolve? key = some e := by
  obtain ⟨catalog, hc, rfl⟩ := map_eq_ok_iff.mp hs
  obtain ⟨hsound, rfl⟩ := Configuration.catalog_eq_ok_iff.mp hc
  obtain ⟨name, hname⟩ := Configuration.mem_keys_uncheckedCatalog.mp hkey
  obtain ⟨e, he⟩ := hsound.exposes key name hname
  refine ⟨name, e, hname, fun e' => ⟨fun he' => ?_, fun heq => heq ▸ he⟩,
    (Configuration.resolve?_uncheckedCatalog hsound.distinct).mpr ⟨name, hname, he⟩⟩
  rw [← Configuration.entity?_uncheckedCatalog hsound.distinct] at he he'
  exact Option.some.inj (he'.symm.trans he)

/-- **When a text serves as a key.** The text without the blanks around it has to be a search key
itself, and what is under the two keys has to come to the same. -/
theorem serves_iff (hs : ofConfiguration c = .ok s) {text key : String}
    (hkey : key ∈ s.catalog.keys) :
    s.Serves c text key ↔ Text.trim text ≠ "" ∧ Text.trim text ∈ s.catalog.keys ∧
      ∃ e e', s.catalog.resolve? key = some e ∧ s.catalog.resolve? (Text.trim text) = some e' ∧
        e'.rowsUnder (Text.trim text) = e.rowsUnder key := by
  obtain ⟨name, e, hname, hone, hresolve⟩ := named_of_mem hs hkey
  constructor
  · rintro ⟨hv, name', e', hname', hone', hcompile⟩
    obtain rfl := Option.some.inj (hname.symm.trans hname')
    obtain rfl : e = e' := (hone' e).mp ((hone e).mpr rfl)
    obtain ⟨hne, hmem⟩ := validate_forKey_iff.mp hv
    obtain ⟨-, found, -, -, hfound⟩ := named_of_mem hs hmem
    exact ⟨hne, hmem, e, found, hresolve, hfound, (compile_forKey hv hfound).symm.trans hcompile⟩
  · rintro ⟨hne, hmem, e', found, he', hfound, hrows⟩
    obtain rfl := Option.some.inj (hresolve.symm.trans he')
    have hv := validate_forKey_iff.mpr ⟨hne, hmem⟩
    exact ⟨hv, name, e, hname, hone, (compile_forKey hv hfound).trans hrows⟩

/-- **A text with a key in it serves as that key.** -/
theorem serves_of_mem (hs : ofConfiguration c = .ok s) {text : String} (hne : Text.trim text ≠ "")
    (hkey : Text.trim text ∈ s.catalog.keys) : s.Serves c text (Text.trim text) := by
  obtain ⟨-, e, -, -, hresolve⟩ := named_of_mem hs hkey
  exact (serves_iff hs hkey).mpr ⟨hne, hkey, e, e, hresolve, hresolve, rfl⟩

/-- **When a key serves as itself**: it is not empty and has no blanks around it, or what is left of
it without them happens to be a key too, under which there is the same table. -/
theorem serves_self_iff (hs : ofConfiguration c = .ok s) {key : String}
    (hkey : key ∈ s.catalog.keys) :
    s.Serves c key key ↔ (key ≠ "" ∧ Text.trim key = key) ∨
      (Text.trim key ≠ "" ∧ Text.trim key ∈ s.catalog.keys ∧
        ∃ e e', s.catalog.resolve? key = some e ∧ s.catalog.resolve? (Text.trim key) = some e' ∧
          e.searchable = true ∧ e'.searchable = true ∧ e'.table = e.table) := by
  constructor
  · intro h
    obtain ⟨hne, hmem, e, e', he, he', hrows⟩ := (serves_iff hs hkey).mp h
    rcases Entity.rowsUnder_inj.mp hrows with ⟨hs', hs, htable⟩ | ⟨-, -, htrim⟩
    · exact Or.inr ⟨hne, hmem, e, e', he, he', hs, hs', htable⟩
    · -- a refusal names the key that was looked up, so the key has no blanks around it
      exact Or.inl ⟨htrim ▸ hne, htrim⟩
  · rintro (⟨hne, htrim⟩ | ⟨hne, hmem, e, e', he, he', hsearchable, hsearchable', htable⟩)
    · have h : s.Serves c key (Text.trim key) :=
        serves_of_mem hs (by rwa [htrim]) (by rwa [htrim])
      rwa [htrim] at h
    · exact (serves_iff hs hkey).mpr ⟨hne, hmem, e, e', he, he',
        Entity.rowsUnder_inj.mpr (Or.inl ⟨hsearchable', hsearchable, htable⟩)⟩

end Searcher

namespace Gateway

namespace Service

/-- The list is that of the search keys of the catalog. -/
theorem answer_of_entities (s : Service) {target : String}
    (htarget : Route.ofTarget? target = some .entities) (body : String) :
    s.answer "GET" target body =
      .json 200 (successBody (.array (s.searcher.catalog.keys.map .string))) := by
  simp [answer, htarget, read, entities]

/-- **The keys that are listed can be searched with, unless there are blanks around them.** A
service with an accepted configuration lists the search keys of the configuration. Each of them
that is not empty and has no blanks around it serves as itself; one that has blanks around it does
so only if it leads to the same table as what is left of it without them, which has to be listed as
well. In general a text serves as the key that is left of it without the blanks around it, and a
request for it passes only if this is one of the keys listed. -/
theorem serves_listed {c : Configuration} {s : Searcher}
    (hs : Searcher.ofConfiguration c = .ok s) {target : String}
    (htarget : Route.ofTarget? target = some .entities) (listen body : String) :
    ∃ keys : List String,
      (Service.mk s listen).answer "GET" target body =
        .json 200 (successBody (.array (keys.map .string))) ∧
      (∀ key, key ∈ keys ↔ ∃ name, c.searchModels.get? key = some name) ∧
      (∀ key ∈ keys, s.Serves c key key ↔ (key ≠ "" ∧ Text.trim key = key) ∨
        (Text.trim key ≠ "" ∧ Text.trim key ∈ keys ∧
          ∃ e e', s.catalog.resolve? key = some e ∧ s.catalog.resolve? (Text.trim key) = some e' ∧
            e.searchable = true ∧ e'.searchable = true ∧ e'.table = e.table)) ∧
      (∀ text, Text.trim text ≠ "" → Text.trim text ∈ keys → s.Serves c text (Text.trim text)) ∧
      ∀ text, s.rules.validate (.forKey text) = .ok () ↔
        Text.trim text ≠ "" ∧ Text.trim text ∈ keys := by
  refine ⟨s.catalog.keys, answer_of_entities (Service.mk s listen) htarget body, fun key => ?_,
    fun key hkey => Searcher.serves_self_iff hs hkey, fun text => Searcher.serves_of_mem hs,
    fun text => Searcher.validate_forKey_iff⟩
  obtain ⟨catalog, hc, rfl⟩ := map_eq_ok_iff.mp hs
  obtain ⟨-, rfl⟩ := Configuration.catalog_eq_ok_iff.mp hc
  exact Configuration.mem_keys_uncheckedCatalog

/-- The theorem at the key of users. -/
theorem serves_listed_blog :
    Searcher.ofConfiguration Blog.configuration = .ok Blog.configured ∧
      Route.ofTarget? "/entities" = some .entities ∧
      Blog.configured.Serves Blog.configuration "user" "user" ∧
      Blog.configured.Serves Blog.configuration " user " "user" := by
  have haccepted : Searcher.ofConfiguration Blog.configuration = .ok Blog.configured := rfl
  have hlist : Route.ofTarget? "/entities" = some .entities := by decide
  obtain ⟨keys, -, hkeys, hself, htrimmed, -⟩ := serves_listed haccepted hlist "127.0.0.1:8080" ""
  have hmem : "user" ∈ keys := (hkeys "user").mpr ⟨"User", rfl⟩
  have htrim : Text.trim " user " = "user" := by decide
  refine ⟨haccepted, hlist, (hself "user" hmem).mpr (Or.inl ⟨by decide, by decide⟩), ?_⟩
  have hserves := htrimmed " user " (by rw [htrim]; decide) (by rwa [htrim])
  rwa [htrim] at hserves

end Service

end Gateway

namespace Padded

/-- Users may be searched. -/
def user : Entity := (Entity.ofTable "User" "users").makeSearchable

/-- So may posts. -/
def post : Entity := (Entity.ofTable "Post" "posts").makeSearchable

/-- Posts are under two keys with blanks around them, and users are under what is left of one. -/
def configuration : Configuration where
  searchModels := Dict.ofList [(" post ", "Post"), (" user ", "Post"), ("user", "User")]
  entities := [user, post]
  policy := .drop

/-- The searcher for that configuration. -/
def configured : Searcher := ⟨configuration.uncheckedCatalog, configuration.policy⟩

end Padded

namespace Gateway

/-- **Keys with blanks around them are listed and cannot be used.** The configuration is accepted,
and two of the keys that are listed lead to posts. A request for the one is refused, and a request
for the other compiles to the rows of users. -/
theorem Service.lists_padded :
    let service := Service.mk Padded.configured "127.0.0.1:8080"
    Searcher.ofConfiguration Padded.configuration = .ok Padded.configured ∧
      service.answer "GET" "/entities" "" =
        .json 200 (successBody (.array ([" post ", " user ", "user"].map .string))) ∧
      Padded.configured.catalog.resolve? " post " = some Padded.post ∧
      (∃ m, Padded.configured.compile (.forKey " post ") none = .error (.invalid m)) ∧
      Padded.configured.catalog.resolve? " user " = some Padded.post ∧
      ∃ q, Padded.configured.compile (.forKey " user ") none = .ok q ∧
        q.source = ⟨"users", none⟩ := by
  intro service
  have hlist : Route.ofTarget? "/entities" = some .entities := by decide
  have hkeys : service.searcher.catalog.keys = [" post ", " user ", "user"] := rfl
  have hanswer := service.answer_of_entities hlist ""
  rw [hkeys] at hanswer
  exact ⟨rfl, hanswer, rfl, ⟨_, rfl⟩, rfl, _, rfl, rfl⟩

end Gateway

end DottedQuery
