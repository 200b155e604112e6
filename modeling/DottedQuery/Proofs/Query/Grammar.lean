import DottedQuery.Proofs.Query.Canonical
import DottedQuery.Proofs.Query.Reader

/-!
# The grammar of statements

Readers for the parts of a query (`DottedQuery.Grammar`), from the columns up to whole queries,
and what each of them reads back. They follow the way queries are written, part by part. A choice
is made only where a fixed text stands or a name begins, and for each part the texts are listed
that may stand behind it (`DottedQuery.Grammar.afterCondition` and those before it); all of them
begin with a blank, where no name goes on.

A predicate may hold a query, so the readers of conditions are given a reader of sub-queries, and
a reader of queries takes the depth up to which it is one (`DottedQuery.Grammar.select`). The parts
that need no sub-query are dealt with here.
-/

namespace DottedQuery

namespace Grammar

open Reader

/-! ### What may stand behind the parts of a query -/

/-- Behind the conditions of a query. -/
def afterWheres : List String := [" order by "]

/-- Behind the joined tables of a query. -/
def afterJoins : List String := [" where ", " order by "]

/-- Behind a joined table. -/
def afterJoin : List String := [" inner join ", " left join ", " where ", " order by "]

/-- Behind a table. -/
def afterSource : List String :=
  [" on ", " inner join ", " left join ", " where ", " order by "]

/-- Behind a condition. -/
def afterCondition : List String :=
  [" and ", " or ", " inner join ", " left join ", " where ", " order by "]

/-! ### Reading the parts of a query -/

/-- Reads a column. -/
def column : Reader Column := do
  let table ← name
  literal "."
  let c ← name
  return .named table c

/-- Reads an alias, if there is one. -/
def label : Reader (Option String) :=
  (do literal " as "; let l ← name; return some l) <|> pure none

/-- Reads a table and its alias. -/
def source : Reader Source := do
  let table ← name
  let l ← label
  return ⟨table, l⟩

/-- Reads what is returned. -/
def projection : Reader Projection :=
  (do literal "*"; return .all) <|> (do let table ← name; literal ".*"; return .allOf table)

/-- Reads a term of an order. -/
def orderTerm : Reader OrderTerm := do
  let c ← column
  let d ← choice [(" asc", .asc), (" desc", .desc)]
  return ⟨c, d⟩

/-- Reads the order of a query. -/
def orders : Reader (List OrderTerm) :=
  (do literal " order by "; separatedBy ", " orderTerm) <|> pure []

/-- The operators between a column and what it is compared with. -/
def operators : List (String × Operator) :=
  Operator.all.map fun o => (" " ++ o.sql ++ " ", o)

/-- Reads the members of a set between brackets. -/
def members (c : Column) (negated : Bool) : Reader Predicate := do
  literal "("
  let vs ← separatedBy ", " slot
  literal ")"
  return .inSet c negated vs

/-- Reads what a column is compared with: a value, a column, or a set. -/
def operand (c : Column) (op : Operator) : Reader Predicate :=
  (do let v ← slot; return .compare c op v) <|>
    (do let r ← column; return .columns c op r) <|> members c (op = .notIn)

/-- Reads what stands behind the column of a predicate. -/
def comparison (c : Column) : Reader Predicate := do
  let op ← choice operators
  operand c op

/-- Reads a predicate, with a reader of sub-queries. -/
def predicate (sub : Reader Select) : Reader Predicate :=
  (do let c ← column; comparison c) <|>
    (do literal "exists ("; let q ← sub; literal ")"; return .exists q) <|>
    choice [("1 = 1", .inSet .absent true []), ("0 = 1", .inSet .absent false [])]

/-- Reads a condition after the first one. -/
def further (sub : Reader Select) : Reader Condition := do
  let b ← choice [(" and ", Combinator.and), (" or ", .or)]
  let p ← predicate sub
  return ⟨b, p⟩

/-- Reads one or more conditions. -/
def someConditions (sub : Reader Select) : Reader (List Condition) := do
  let p ← predicate sub
  let cs ← many (further sub)
  return .and p :: cs

/-- Reads conditions. -/
def conditions (sub : Reader Select) : Reader (List Condition) := someConditions sub <|> pure []

/-- Reads a joined table. -/
def join (sub : Reader Select) : Reader Join := do
  let kind ← choice [(" inner join ", JoinKind.inner), (" left join ", .left)]
  let s ← source
  literal " on "
  let on ← conditions sub
  return ⟨kind, s, on⟩

/-- Reads the conditions of a query, if there are any. -/
def wheres (sub : Reader Select) : Reader (List Condition) :=
  (do literal " where "; someConditions sub) <|> pure []

/-- Reads a query that is nested no deeper than the given number. -/
def select : Nat → Reader Select
  | 0 => failure
  | depth + 1 => do
    literal "select "
    let ps ← separatedBy ", " projection
    literal " from "
    let s ← source
    let js ← many (join (select depth))
    let ws ← wheres (select depth)
    let os ← orders
    return ⟨ps, s, js, ws, os⟩

/-! ### The parts without conditions -/

/-- A column is read back, up to its scope. -/
theorem reads_column (c : Column) : Reads column c.pieces c.canonical Breaks :=
  (reads_name c.table).bind ((reads_literal "." Anything).bind
    ((reads_name c.name).bind (reads_pure c.canonical Breaks) fun _ h => h) fun _ _ => trivial)
    fun cs _ => breaks_text (by decide) _ cs

/-- No column begins with a sign. -/
theorem refuses_column {w : String}
    (hw : Begins w fun c => Text.isNameStart c = false ∧ c ≠ '"') (ps : List Piece)
    (F : List Char → Prop) : Refuses column (.text w :: ps) F := by
  refine (refuses_name fun cs _ c hc => ?_).bind
  obtain ⟨d, hd, hsign⟩ := hw
  have hne : w.toList ≠ [] := by
    intro hnil
    simp [hnil] at hd
  rw [head?_text hne] at hc
  rwa [← Option.mem_unique hd hc]

/-- A table and its alias are read back. -/
theorem reads_source (s : Source) : Reads source s.pieces s (Follows afterSource) := by
  have hbreaks : ∀ cs, Follows afterSource cs → Breaks cs := fun cs h => h.breaks (by decide)
  obtain ⟨table, l⟩ := s
  cases l with
  | none =>
    have hlabel : Reads label [] none (Follows afterSource) :=
      (reads_pure none _).orElse_right (refuses_literal_of_apart (by decide)).bind
    exact (reads_name table).bind (hlabel.bind (reads_pure _ _) fun _ h => h) hbreaks
  | some l =>
    have hlabel : Reads label [.text " as ", .name l] (some l) (Follows afterSource) :=
      ((reads_literal " as " Anything).bind
        ((reads_name l).bind (reads_pure (some l) (Follows afterSource)) hbreaks)
        fun _ _ => trivial).orElse_left
    exact (reads_name table).bind (hlabel.bind (reads_pure _ _) fun _ h => h)
      fun cs _ => breaks_text (by decide) _ cs

/-- What is returned is read back. -/
theorem reads_projection (p : Projection) : Reads projection p.pieces p Anything := by
  cases p with
  | all =>
    exact ((reads_literal "*" Anything).bind (reads_pure Projection.all Anything)
      fun _ h => h).orElse_left
  | allOf table =>
    have hname : Reads (do let table ← name; literal ".*"; return Projection.allOf table)
        [.name table, .text ".*"] (.allOf table) Anything :=
      (reads_name table).bind ((reads_literal ".*" Anything).bind (reads_pure _ _) fun _ h => h)
        fun cs _ => breaks_text (by decide) _ cs
    refine hname.orElse_right (refuses_literal fun cs _ => ?_).bind
    -- a name does not begin with a star
    obtain ⟨c, hc, hstart⟩ := head?_name table [.text ".*"] cs
    refine not_prefix_of_head (c := '*') (by decide) hc ?_
    rintro rfl
    rcases hstart with h | h
    · exact absurd h (by decide)
    · exact absurd h (by decide)

/-- Everything that is returned is read back. -/
theorem reads_projections (ps : List Projection) :
    Reads (separatedBy ", " projection) (projectionPieces ps) (canonicalProjection ps)
      (Follows [" from "]) := by
  have hlist : ∀ (p : Projection) (ps : List Projection),
      Reads (separatedBy ", " projection)
        (Piece.separated ", " (p.pieces :: ps.map Projection.pieces)) (p :: ps)
        (Follows [" from "]) := by
    intro p ps
    have h := reads_separatedBy ", " (g := id) reads_projection p ps (G := Follows [" from "])
      (fun _ => trivial) (fun _ _ => trivial)
      (fun cs h => h.not_prefix (by decide)) (by decide)
    rwa [List.map_id] at h
  cases ps with
  | nil => exact hlist .all []
  | cons p ps => exact hlist p ps

/-- A term of an order is read back, up to its scope. -/
theorem reads_orderTerm (o : OrderTerm) : Reads orderTerm o.pieces o.canonical Anything := by
  have hdir : Reads (choice [(" asc", Direction.asc), (" desc", .desc)])
      [.text (" " ++ o.direction.sql)] o.direction Anything := by
    cases o.direction with
    | asc => exact reads_choice (by decide) (by decide) _
    | desc => exact reads_choice (by decide) (by decide) _
  refine (reads_column o.column).bind (hdir.bind (reads_pure _ _) fun _ h => h) fun cs _ => ?_
  cases o.direction with
  | asc => exact breaks_text (by decide) _ cs
  | desc => exact breaks_text (by decide) _ cs

/-- The order of a query is read back. -/
theorem reads_orders (os : List OrderTerm) :
    Reads orders (orderPieces os) (os.map OrderTerm.canonical) (Follows []) := by
  cases os with
  | nil =>
    exact (reads_pure _ _).orElse_right (refuses_literal_of_apart (by decide)).bind
  | cons o os =>
    have hterms := reads_separatedBy ", " reads_orderTerm o os (G := Follows [])
      (fun _ => trivial) (fun _ _ => trivial) (fun cs h => h.not_prefix (by decide)) (by decide)
    exact ((reads_literal " order by " Anything).bind hterms fun _ _ => trivial).orElse_left

/-! ### Comparisons -/

/-- The text of an operator is read back. -/
theorem reads_operator (op : Operator) (F : List Char → Prop) :
    Reads (choice operators) [.text (" " ++ op.sql ++ " ")] op F :=
  reads_choice (by cases op <;> decide) (by decide) F

/-- What a column is compared with ends its name. -/
theorem breaks_operator (op : Operator) (ps : List Piece) (cs : List Char) :
    Breaks (Piece.chars (.text (" " ++ op.sql ++ " ") :: ps) ++ cs) :=
  breaks_text (by cases op <;> decide) ps cs

/-- A comparison with a value is read back. -/
theorem reads_compare (c : Column) (op : Operator) (v : Value) (F : List Char → Prop) :
    Reads (comparison c.canonical) [.text (" " ++ op.sql ++ " "), .slot v]
      (.compare c.canonical op v) F :=
  (reads_operator op Anything).bind
    ((reads_slot v Anything).bind (reads_pure (Predicate.compare c.canonical op v) F)
      fun _ _ => trivial).orElse_left fun _ _ => trivial

/-- A comparison with a column is read back. -/
theorem reads_columns (c : Column) (op : Operator) (r : Column) :
    Reads (comparison c.canonical) (.text (" " ++ op.sql ++ " ") :: r.pieces)
      (.columns c.canonical op r.canonical) Breaks := by
  have hslot : Refuses slot r.pieces Breaks := by
    refine refuses_slot fun cs _ h => ?_
    obtain ⟨d, hd, hstart⟩ := head?_name r.table [.text ".", .name r.name] cs
    obtain rfl := Option.some.inj (h.symm.trans hd)
    rcases hstart with h | h
    · exact absurd h (by decide)
    · exact absurd h (by decide)
  have hright : Reads (do let r ← column; return Predicate.columns c.canonical op r) r.pieces
      (.columns c.canonical op r.canonical) Breaks := by
    have h : Reads (do let r ← column; return Predicate.columns c.canonical op r)
        (r.pieces ++ []) (.columns c.canonical op r.canonical) Breaks :=
      (reads_column r).bind (reads_pure _ Breaks) fun _ h => h
    rwa [List.append_nil] at h
  exact (reads_operator op Anything).bind (hright.orElse_left.orElse_right hslot.bind)
    fun _ _ => trivial

/-- Membership of a set with members is read back. -/
theorem reads_inSet (c : Column) (negated : Bool) (v : Value) (vs : List Value)
    (F : List Char → Prop) :
    Reads (comparison c.canonical)
      (.text (if negated then " not in (" else " in (") ::
        (Piece.separated ", " ((v :: vs).map fun v => [Piece.slot v]) ++ [.text ")"]))
      (.inSet c.canonical negated (v :: vs)) F := by
  have hvalues : Reads (separatedBy ", " slot)
      (Piece.separated ", " ([.slot v] :: vs.map fun v => [Piece.slot v])) (v :: vs)
      (Follows []) := by
    have h := reads_separatedBy ", " (f := fun v => [Piece.slot v]) (g := id)
      (fun v => reads_slot v Anything) v vs (G := Follows [])
      (fun _ => trivial) (fun _ _ => trivial) (fun cs h => h.not_prefix (by decide)) (by decide)
    rwa [List.map_id] at h
  have hset : Reads (members c.canonical negated)
      (.text "(" :: (Piece.separated ", " ([.slot v] :: vs.map fun v => [Piece.slot v]) ++
        [.text ")"])) (.inSet c.canonical negated (v :: vs)) F :=
    (reads_literal "(" Anything).bind (hvalues.bind ((reads_literal ")" Anything).bind
      (reads_pure _ F) fun _ _ => trivial) fun cs _ => Or.inr (Or.inl rfl)) fun _ _ => trivial
  -- the text before the members is that of an operator and the bracket
  obtain ⟨op, hop, htext⟩ : ∃ op : Operator, decide (op = .notIn) = negated ∧
      (if negated then " not in (" else " in (").toList =
        (" " ++ op.sql ++ " ").toList ++ "(".toList := by
    cases negated with
    | false => exact ⟨.isIn, rfl, by decide⟩
    | true => exact ⟨.notIn, rfl, by decide⟩
  have hoperand : Reads (operand c.canonical op)
      (.text "(" :: (Piece.separated ", " ([.slot v] :: vs.map fun v => [Piece.slot v]) ++
        [.text ")"])) (.inSet c.canonical negated (v :: vs)) F := by
    have hslot : Refuses slot (.text "(" :: (Piece.separated ", "
        ([.slot v] :: vs.map fun v => [Piece.slot v]) ++ [.text ")"])) F :=
      refuses_slot fun cs _ => by
        rw [head?_text (by decide)]
        decide
    rw [← hop] at hset
    rw [← hop]
    exact (hset.orElse_right (refuses_column (by decide) _ F).bind).orElse_right hslot.bind
  refine ((reads_operator op Anything).bind hoperand fun _ _ => trivial).congr ?_ rfl
  rw [List.singleton_append, Piece.chars_text, Piece.chars_text, Piece.chars_text, htext,
    List.append_assoc]
  rfl

/-! ### Predicates -/

/-- What is not of the form of a column is not taken for one. -/
theorem refuses_exists (ps : List Piece) (F : List Char → Prop) :
    Refuses column (.text "exists (" :: ps) F := by
  have hpoint : Refuses (literal ".") (.text " (" :: ps) F := by
    have hhead : ∀ cs, (Piece.chars (.text " (" :: ps) ++ cs).head? = some ' ' :=
      head?_text (by decide) ps
    exact refuses_literal fun cs _ =>
      not_prefix_of_head (c := '.') (by decide) (hhead cs) (by decide)
  have hname : Text.quoteName "exists" = "exists" := Text.quoteName_of_isPlain (by decide)
  refine ((reads_name "exists").refuses hpoint.bind (fun cs _ => breaks_text (by decide) ps cs)
    rfl).congr ?_
  rw [List.singleton_append, Piece.chars_name, Piece.chars_text, Piece.chars_text, hname,
    ← List.append_assoc]
  rfl

section Predicate

variable {sub : Reader Select} {F : List Char → Prop}

/-- What begins with a column is read as a comparison. -/
theorem reads_comparison {c : Column} {ps : List Piece} {p : Predicate}
    (h : Reads (comparison c.canonical) ps p F)
    (hstop : ∀ cs, F cs → Breaks (Piece.chars ps ++ cs)) :
    Reads (predicate sub) (c.pieces ++ ps) p F :=
  ((reads_column c).bind h hstop).orElse_left

/-- What stands for a membership of the set without members is read back. -/
theorem reads_inEmpty (negated : Bool) :
    Reads (predicate sub) [.text (if negated then "1 = 1" else "0 = 1")]
      (.inSet .absent negated []) F := by
  have hchoice : Reads (choice [("1 = 1", Predicate.inSet .absent true []),
      ("0 = 1", .inSet .absent false [])]) [.text (if negated then "1 = 1" else "0 = 1")]
      (.inSet .absent negated []) F := by
    cases negated with
    | false => exact reads_choice (List.mem_cons_of_mem _ List.mem_cons_self) (by decide) F
    | true => exact reads_choice List.mem_cons_self (by decide) F
  have hcolumn : Refuses column [.text (if negated then "1 = 1" else "0 = 1")] F :=
    refuses_column (by cases negated <;> decide) [] F
  have hexists : Refuses (literal "exists (")
      [.text (if negated then "1 = 1" else "0 = 1")] F := by
    refine refuses_literal fun cs _ => ?_
    cases negated with
    | false =>
      exact not_prefix_of_head (c := 'e') (d := '0') (by decide) (head?_text (by decide) [] cs)
        (by decide)
    | true =>
      exact not_prefix_of_head (c := 'e') (d := '1') (by decide) (head?_text (by decide) [] cs)
        (by decide)
  exact (hchoice.orElse_right hexists.bind).orElse_right hcolumn.bind

/-- A predicate of existence is read back if its sub-query is. -/
theorem reads_exists {q : Select} {q' : Select} (h : Reads sub q.pieces q' (Follows [])) :
    Reads (predicate sub) (.text "exists (" :: q.pieces ++ [.text ")"]) (.exists q') F := by
  have hexists : Reads (do literal "exists ("; let q ← sub; literal ")"; return Predicate.exists q)
      ([.text "exists ("] ++ (q.pieces ++ [.text ")"])) (.exists q') F :=
    (reads_literal "exists (" Anything).bind (h.bind ((reads_literal ")" Anything).bind
      (reads_pure (Predicate.exists q') F) fun _ _ => trivial)
      fun cs _ => Or.inr (Or.inl rfl)) fun _ _ => trivial
  exact hexists.orElse_left.orElse_right (refuses_exists _ F).bind

/-- No predicate begins where a text with a blank does, or where a query ends. -/
theorem refuses_predicate {ws : List String} (hws : ∀ w ∈ ws, w.toList.head? = some ' ') :
    Refuses (predicate sub) [] (Follows ws) := by
  -- the first character, if there is one, is a blank or a bracket
  have hhead : ∀ cs, Follows ws cs → ∀ c ∈ cs.head?, c = ' ' ∨ c = ')' := by
    intro cs hcs c hc
    rcases hcs with rfl | h | ⟨w, hw, rest, rfl⟩
    · simp at hc
    · exact Or.inr (Option.some.inj (hc.symm.trans h))
    · rw [List.head?_append, hws w hw, Option.some_or] at hc
      exact Or.inl (Option.some.inj hc).symm
  have hliteral : ∀ (w : String) (c : Char), w.toList.head? = some c → c ≠ ' ' → c ≠ ')' →
      ∀ cs, Follows ws cs → ¬w.toList <+: cs := by
    rintro w c hc hblank hbracket cs hcs ⟨rest, rfl⟩
    have h := hhead _ hcs c (by rw [List.head?_append, hc, Option.some_or]; rfl)
    rcases h with h | h
    · exact hblank h
    · exact hbracket h
  have hcolumn : Refuses column [] (Follows ws) := by
    refine (refuses_name fun cs hcs c hc => ?_).bind
    rcases hhead cs hcs c hc with rfl | rfl
    · decide
    · decide
  refine hcolumn.bind.orElse (Refuses.orElse (refuses_literal ?_).bind (refuses_choice ?_))
  · exact hliteral "exists (" 'e' (by decide) (by decide) (by decide)
  · intro w hw
    rcases List.mem_cons.mp hw with rfl | hw
    · exact hliteral "1 = 1" '1' (by decide) (by decide) (by decide)
    · obtain rfl := List.mem_singleton.mp hw
      exact hliteral "0 = 1" '0' (by decide) (by decide) (by decide)

end Predicate

end Grammar

end DottedQuery
