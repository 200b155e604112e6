import DottedQuery.Query.Select
import DottedQuery.Dict
import Mathlib.Data.List.SplitBy

/-!
# What a query means

A query is given a meaning over an arbitrary database: tables of rows, rows of cells, and three
tests about which nothing is assumed – how a cell compares with a value, whether it is a member
of a set of values, and how two cells compare.

A query binds rows to the names that its tables go by. A **frame** is one such binding, and the
frames of a query (`DottedQuery.Select.frames`) are the choices of a row from its table and of
partners from the joined tables that satisfy its conditions. A sub-query sees the frame of the
query around it behind its own, so a column is looked up by its qualifier alone, from the inside
out: the scope of a column is not written in a statement and plays no part in its meaning.

Conditions stand in a flat list without brackets, where *and* binds tighter than *or* and the
combinator of the first one says nothing (`DottedQuery.combine`).
-/

namespace DottedQuery

/-! ### Databases -/

/-- A database, and what comparing means in it. -/
structure Database where
  /-- The rows of its tables. -/
  Row : Type
  /-- What stands in a column of a row. -/
  Cell : Type
  /-- The rows of a table. -/
  rows : String → List Row
  /-- The cell of a row in a column. -/
  cell : Row → String → Cell
  /-- What stands in every column of a row that is not there. -/
  null : Cell
  /-- Whether a cell compares with a value. -/
  compares : Operator → Cell → Value → Bool
  /-- Whether a cell is a member of a set of values, or is not, if so asked. -/
  isMember : Bool → Cell → List Value → Bool
  /-- Whether two cells compare. -/
  relates : Operator → Cell → Cell → Bool

namespace Database

variable (db : Database)

/-- The rows that go by names, the names of inner queries first. A left join that finds no partner
binds its name to no row. -/
abbrev Frame := List (String × Option db.Row)

/-- What stands in a column: its qualifier is looked up from the inside out. -/
def value (f : db.Frame) (c : Column) : db.Cell :=
  match Dict.lookup c.table f with
  | some (some row) => db.cell row c.name
  | _ => db.null

/-- Whether a cell passes an operator with a value: a set operator asks for the members of the
value, any other compares with the value itself. -/
def tests (op : Operator) (cell : db.Cell) (value : Value) : Bool :=
  if op.isSet then db.isMember (op = .notIn) cell value.members else db.compares op cell value

/-- The column of a row that goes by its qualifier. -/
theorem value_of_lookup {db : Database} {f : db.Frame} {c : Column} {row : db.Row}
    (h : Dict.lookup c.table f = some (some row)) : db.value f c = db.cell row c.name := by
  simp only [value, h]

end Database

/-! ### Combining -/

/-- The truth of the conditions after the first, where `group` is that of the ones that were tied
together by *and* so far. -/
def combineFurther (group : Bool) : List (Combinator × Bool) → Bool
  | [] => group
  | (.and, b) :: bs => combineFurther (group && b) bs
  | (.or, b) :: bs => group || combineFurther b bs

/-- **The truth of a flat list of conditions.** The empty list is true. -/
def combine : List (Combinator × Bool) → Bool
  | [] => true
  | (_, b) :: bs => combineFurther b bs

/-! ### The meaning of queries -/

mutual

/-- **The frames of a query** inside a frame. -/
def Select.frames (db : Database) (outer : db.Frame) : Select → List db.Frame
  | ⟨_, source, joins, wheres, _⟩ =>
    (joinedFrames db outer joins
      ((db.rows source.table).map fun row => [(source.qualifier, some row)])).filter
      fun f => combine (verdicts db (f ++ outer) wheres)

/-- Frames with the rows of further tables. -/
def joinedFrames (db : Database) (outer : db.Frame) : List Join → List db.Frame → List db.Frame
  | [], fs => fs
  | j :: js, fs => joinedFrames db outer js (fs.flatMap (j.extensions db outer))

/-- A frame with each partner that a joined table has for it; a left join keeps it when there is
none. -/
def Join.extensions (db : Database) (outer : db.Frame) : Join → db.Frame → List db.Frame
  | ⟨kind, source, on⟩, f =>
    let partners := ((db.rows source.table).map fun row => f ++ [(source.qualifier, some row)]).filter
      fun f' => combine (verdicts db (f' ++ outer) on)
    if kind = .left ∧ partners = [] then [f ++ [(source.qualifier, none)]] else partners

/-- The combinators and the truth of conditions. -/
def verdicts (db : Database) (f : db.Frame) : List Condition → List (Combinator × Bool)
  | [] => []
  | c :: cs => c.verdict db f :: verdicts db f cs

/-- The combinator and the truth of a condition. -/
def Condition.verdict (db : Database) (f : db.Frame) : Condition → Combinator × Bool
  | ⟨combinator, p⟩ => (combinator, p.holds db f)

/-- The truth of a predicate. -/
def Predicate.holds (db : Database) (f : db.Frame) : Predicate → Bool
  | .compare column op value => db.compares op (db.value f column) value
  | .inSet column negated values => db.isMember negated (db.value f column) values
  | .columns left op right => db.relates op (db.value f left) (db.value f right)
  | .exists sub => !(sub.frames db f).isEmpty

end

/-- **Whether the conditions of a query hold of a row** of the table it reads. -/
def Select.accepts (db : Database) (q : Select) (row : db.Row) : Bool :=
  combine (verdicts db [(q.source.qualifier, some row)] q.wheres)

/-! ### Truth of lists -/

/-- Where every combinator is *and*, a list is true if all of it is. -/
theorem combine_of_and {bs : List (Combinator × Bool)} (h : ∀ b ∈ bs, b.1 = .and) :
    combine bs = bs.all Prod.snd := by
  have further : ∀ group, combineFurther group bs = (group && bs.all Prod.snd) := by
    induction bs with
    | nil => simp [combineFurther]
    | cons b bs ih =>
      intro group
      obtain ⟨c, b⟩ := b
      obtain rfl : c = .and := h _ List.mem_cons_self
      rw [combineFurther, ih fun b hb => h b (List.mem_cons_of_mem _ hb), List.all_cons,
        Bool.and_assoc]
  cases bs with
  | nil => rfl
  | cons b bs =>
    have htrue : combine (b :: bs) = combineFurther true (b :: bs) := by
      obtain ⟨c, b⟩ := b
      obtain rfl : c = .and := h _ List.mem_cons_self
      rw [combine, combineFurther, Bool.true_and]
    rw [htrue, further, Bool.true_and]

/-- **A flat list is an alternative of groups**: a group goes on up to the next *or*, and one of
the groups has to be true in all its parts. -/
theorem combine_eq_groups {α : Type} (or : α → Bool) (holds : α → Bool) (as : List α) (a : α)
    (c : Combinator) :
    combine ((c, holds a) :: as.map fun a => (.ofOr (or a), holds a)) =
      ((a :: as).splitBy fun _ a => !or a).any fun g => g.all holds := by
  -- the groups that are closed, and the one that is open, in reverse, as they are collected
  have key : ∀ (as : List α) (a : α) (g : List α) (gs : List (List α)),
      (List.splitBy.loop (fun _ a => !or a) as a g gs).any (fun g => g.all holds) =
        (gs.any (fun g => g.all holds) ||
          combineFurther ((a :: g).all holds)
            (as.map fun a => (Combinator.ofOr (or a), holds a))) := by
    intro as
    induction as with
    | nil => simp [List.splitBy.loop, combineFurther, Bool.or_comm, Bool.and_comm]
    | cons b as ih =>
      intro a g gs
      cases hb : or b with
      | false =>
        simp [List.splitBy.loop, hb, ih, combineFurther, Combinator.ofOr, Bool.and_comm]
      | true =>
        simp [List.splitBy.loop, hb, ih, combineFurther, Combinator.ofOr, Bool.and_comm,
          Bool.or_left_comm, Bool.or_assoc]
  simp only [combine, List.splitBy, key, List.any_nil, Bool.false_or, List.all_cons, List.all_nil,
    Bool.and_true]

/-- The verdicts of a list are those of its conditions. -/
theorem verdicts_eq_map (db : Database) (f : db.Frame) (cs : List Condition) :
    verdicts db f cs = cs.map fun c => (c.combinator, c.predicate.holds db f) := by
  induction cs with
  | nil => rfl
  | cons c cs ih =>
    obtain ⟨b, p⟩ := c
    rw [verdicts, ih]
    rfl

/-- Conditions that are tied together by *and* hold if all of them do. -/
theorem combine_verdicts_of_and {db : Database} {f : db.Frame} {cs : List Condition}
    (h : ∀ c ∈ cs, c.combinator = .and) :
    combine (verdicts db f cs) = cs.all fun c => c.predicate.holds db f := by
  rw [verdicts_eq_map, combine_of_and (by simpa using h), List.all_map]
  rfl

namespace Predicate

/-! ### Truth of predicates -/

/-- A criterion on a column tests what stands there. -/
theorem holds_forOperator (db : Database) (f : db.Frame) (c : Column) (op : Operator)
    (value : Value) :
    (forOperator c op value).holds db f = db.tests op (db.value f c) value := by
  unfold forOperator Database.tests
  split <;> rfl

/-- A sub-query of one table has a row if one of the table satisfies its conditions. -/
theorem holds_exists (db : Database) (f : db.Frame) (ps : List Projection) (source : Source)
    (wheres : List Condition) (os : List OrderTerm) :
    (Predicate.exists ⟨ps, source, [], wheres, os⟩).holds db f =
      (db.rows source.table).any fun row =>
        combine (verdicts db ((source.qualifier, some row) :: f) wheres) := by
  simp only [holds, Select.frames, joinedFrames]
  rw [Bool.eq_iff_iff]
  simp [List.filter_eq_nil_iff]

/-- A sub-query that joins a second table has a row if the two tables have partners that satisfy
its conditions. -/
theorem holds_exists_joined (db : Database) (f : db.Frame) (ps : List Projection)
    (source second : Source) (on wheres : List Condition) (os : List OrderTerm) :
    (Predicate.exists ⟨ps, source, [⟨.inner, second, on⟩], wheres, os⟩).holds db f =
      (db.rows source.table).any fun row => (db.rows second.table).any fun row' =>
        combine (verdicts db
            ((source.qualifier, some row) :: (second.qualifier, some row') :: f) on) &&
          combine (verdicts db
            ((source.qualifier, some row) :: (second.qualifier, some row') :: f) wheres) := by
  simp only [holds, Select.frames, joinedFrames, Join.extensions]
  rw [Bool.eq_iff_iff]
  simp only [reduceCtorEq, List.filter_eq_nil_iff, List.mem_map, Bool.not_eq_true,
    forall_exists_index, and_imp, forall_apply_eq_imp_iff₂, List.append_assoc, List.cons_append,
    List.nil_append, false_and, if_false, Bool.not_eq_true', List.isEmpty_eq_false_iff, ne_eq,
    List.mem_flatMap, List.mem_filter, Classical.not_forall, Bool.not_eq_false,
    List.any_eq_true, Bool.and_eq_true]
  constructor
  · rintro ⟨f, row, hrow, row', hrow', rfl, hon, hwheres⟩
    exact ⟨row, hrow, row', hrow', hon, hwheres⟩
  · rintro ⟨row, hrow, row', hrow', hon, hwheres⟩
    exact ⟨_, row, hrow, row', hrow', rfl, hon, hwheres⟩

end Predicate

end DottedQuery
