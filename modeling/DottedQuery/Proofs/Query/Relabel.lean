import DottedQuery.Query.Alias
import DottedQuery.Query.Select

/-!
# Relabelling queries

A query is relabelled by a function on names: it is applied to the aliases of the tables that are
read and joined and to the qualifiers of columns, at every depth, and to nothing else
(`DottedQuery.Select.relabel`).

The function of interest shifts the numbers of aliases (`DottedQuery.AliasSupply.renumber`): it
reads the number of an alias back and leaves every other name as it is. The aliases that a
compilation takes for sub-queries are as many as there are sub-queries, so they are counted here
as well (`DottedQuery.Select.existsNodes`).
-/

namespace DottedQuery

/-! ### Relabelling -/

/-- A column whose qualifier is relabelled. -/
def Column.relabel (f : String → String) (c : Column) : Column := { c with table := f c.table }

/-- A table whose alias is relabelled. -/
def Source.relabel (f : String → String) (s : Source) : Source := { s with label := s.label.map f }

/-- A term of an order whose column is relabelled. -/
def OrderTerm.relabel (f : String → String) (o : OrderTerm) : OrderTerm :=
  { o with column := o.column.relabel f }

mutual

/-- **A query that is relabelled.** -/
def Select.relabel (f : String → String) : Select → Select
  | ⟨projection, source, joins, wheres, orderBy⟩ =>
    ⟨projection, source.relabel f, relabelJoins f joins, relabelConditions f wheres,
      orderBy.map (OrderTerm.relabel f)⟩

/-- Joined tables that are relabelled. -/
def relabelJoins (f : String → String) : List Join → List Join
  | [] => []
  | j :: js => j.relabel f :: relabelJoins f js

/-- A joined table that is relabelled. -/
def Join.relabel (f : String → String) : Join → Join
  | ⟨kind, source, on⟩ => ⟨kind, source.relabel f, relabelConditions f on⟩

/-- Conditions that are relabelled. -/
def relabelConditions (f : String → String) : List Condition → List Condition
  | [] => []
  | c :: cs => c.relabel f :: relabelConditions f cs

/-- A condition that is relabelled. -/
def Condition.relabel (f : String → String) : Condition → Condition
  | ⟨combinator, p⟩ => ⟨combinator, p.relabel f⟩

/-- A predicate that is relabelled. -/
def Predicate.relabel (f : String → String) : Predicate → Predicate
  | .compare column op value => .compare (column.relabel f) op value
  | .inSet column negated values => .inSet (column.relabel f) negated values
  | .columns left op right => .columns (left.relabel f) op (right.relabel f)
  | .exists sub => .exists (sub.relabel f)

end

section

variable (f : String → String)

theorem relabelJoins_eq_map (js : List Join) : relabelJoins f js = js.map (Join.relabel f) := by
  induction js with
  | nil => rfl
  | cons j js ih => rw [relabelJoins, ih, List.map_cons]

theorem relabelConditions_eq_map (cs : List Condition) :
    relabelConditions f cs = cs.map (Condition.relabel f) := by
  induction cs with
  | nil => rfl
  | cons c cs ih => rw [relabelConditions, ih, List.map_cons]

theorem relabelConditions_append (cs ds : List Condition) :
    relabelConditions f (cs ++ ds) = relabelConditions f cs ++ relabelConditions f ds := by
  simp only [relabelConditions_eq_map, List.map_append]

/-- A criterion on a column is relabelled at the column. -/
theorem Predicate.relabel_forOperator (c : Column) (op : Operator) (value : Value) :
    (forOperator c op value).relabel f = forOperator (c.relabel f) op value := by
  unfold forOperator
  split <;> rfl

end

/-! ### Counting sub-queries -/

mutual

/-- **The number of sub-queries** of a query, at any depth. -/
def Select.existsNodes : Select → Nat
  | ⟨_, _, joins, wheres, _⟩ => existsNodesOfJoins joins + existsNodesOfConditions wheres

/-- The number of sub-queries in joined tables. -/
def existsNodesOfJoins : List Join → Nat
  | [] => 0
  | j :: js => j.existsNodes + existsNodesOfJoins js

/-- The number of sub-queries in a joined table. -/
def Join.existsNodes : Join → Nat
  | ⟨_, _, on⟩ => existsNodesOfConditions on

/-- The number of sub-queries in conditions. -/
def existsNodesOfConditions : List Condition → Nat
  | [] => 0
  | c :: cs => c.existsNodes + existsNodesOfConditions cs

/-- The number of sub-queries in a condition. -/
def Condition.existsNodes : Condition → Nat
  | ⟨_, p⟩ => p.existsNodes

/-- The number of sub-queries in a predicate. -/
def Predicate.existsNodes : Predicate → Nat
  | .compare .. => 0
  | .inSet .. => 0
  | .columns .. => 0
  | .exists sub => sub.existsNodes + 1

end

theorem existsNodesOfConditions_append (cs ds : List Condition) :
    existsNodesOfConditions (cs ++ ds) =
      existsNodesOfConditions cs + existsNodesOfConditions ds := by
  induction cs with
  | nil => rw [List.nil_append, existsNodesOfConditions, Nat.zero_add]
  | cons c cs ih =>
    rw [List.cons_append, existsNodesOfConditions, existsNodesOfConditions, ih, Nat.add_assoc]

/-- A criterion on a column has no sub-queries. -/
theorem Predicate.existsNodes_forOperator (c : Column) (op : Operator) (value : Value) :
    (forOperator c op value).existsNodes = 0 := by
  unfold forOperator
  split <;> rfl

/-! ### Renumbering aliases -/

namespace AliasSupply

/-- The number of an alias of a stem. -/
def number? (stem s : String) : Option Nat :=
  let n := Nat.ofDigitChars 10 (s.toList.drop stem.toList.length) 0
  if name stem n = s then some n else none

/-- The number of an alias is read back. -/
theorem number?_name (stem : String) (n : Nat) : number? stem (name stem n) = some n := by
  have hdigits : (name stem n).toList.drop stem.toList.length = Nat.toDigits 10 n := by
    rw [name, String.toList_append, List.drop_left, Decimal.toList_natText]
  simp [number?, hdigits]

/-- What is no alias of the stem has no number. -/
theorem number?_eq_none {stem s : String} (h : ∀ n, s ≠ name stem n) : number? stem s = none := by
  simp only [number?]
  rw [if_neg fun heq => h _ heq.symm]

/-- **The numbers of aliases shifted**, those of sub-queries and those of joined tables. -/
def renumber (filters joins : Nat) (s : String) : String :=
  match number? existsStem s with
  | some n => name existsStem (n + filters)
  | none =>
    match number? joinStem s with
    | some n => name joinStem (n + joins)
    | none => s

theorem renumber_exists (filters joins n : Nat) :
    renumber filters joins (name existsStem n) = name existsStem (n + filters) := by
  simp only [renumber, number?_name]

/-- No alias of a joined table is one of a sub-query. -/
theorem name_joinStem_ne (m n : Nat) : name joinStem m ≠ name existsStem n := by
  intro h
  -- the two stems begin with different letters
  have hhead := congrArg (fun s => s.toList.head?) h
  simp [name, joinStem, existsStem] at hhead

theorem renumber_join (filters joins n : Nat) :
    renumber filters joins (name joinStem n) = name joinStem (n + joins) := by
  simp only [renumber, number?_eq_none (name_joinStem_ne n), number?_name]

/-- A name that is no alias stays as it is. -/
theorem renumber_of_ne {s : String} (he : ∀ n, s ≠ name existsStem n)
    (hj : ∀ n, s ≠ name joinStem n) (filters joins : Nat) : renumber filters joins s = s := by
  simp only [renumber, number?_eq_none he, number?_eq_none hj]

end AliasSupply

end DottedQuery
