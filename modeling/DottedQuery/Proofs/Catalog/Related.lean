import DottedQuery.Catalog.Relation
import DottedQuery.Query.Repoint

/-!
# The sub-query of a relation

The sub-query of the related rows has one form for every kind of relation
(`DottedQuery.Relation.existsQuery_form`): it reads the related table, joins the pivot table if
the relation goes through one (`DottedQuery.Relation.through?`), and its conditions are the key of
the relation and then its constraints. Pointing it elsewhere changes the names in that form and
nothing else.
-/

namespace DottedQuery

namespace Relation

/-- The pivot table that a relation goes through, if it does. -/
def through? (r : Relation) : Option Pivot := if r.kind.isManyToMany then r.pivot else none

/-- The table that holds the keys of the related side: the pivot table, if there is one. -/
def tiedTable (r : Relation) (relatedTable : String) : String :=
  r.through?.elim relatedTable Pivot.table

/-- The join of a pivot table that goes by `name` to a related table that goes by `label`. -/
def pivotJoin (p : Pivot) (label name : String) : Join :=
  ⟨.inner, ⟨p.table, none⟩,
    [.and (.columnsEq (.named label p.relatedKey) (.named name p.relatedPivotKey))]⟩

/-- **The sub-query of the related rows**, on the names of the tables. -/
theorem existsQuery_form {r : Relation} {parentTable relatedTable : String} {rows : Select}
    (h : r.existsQuery parentTable relatedTable = .ok rows) :
    rows = ⟨[], ⟨relatedTable, none⟩,
      (r.through?.map fun p => pivotJoin p relatedTable p.table).toList,
      .and (r.keyCondition (.outer parentTable) (.named (r.tiedTable relatedTable))) ::
        r.constraintConditions relatedTable, []⟩ := by
  unfold existsQuery at h
  cases hk : r.kind.isManyToMany with
  | false =>
    simp only [hk, Bool.false_eq_true, if_false] at h
    simp only [← Except.ok.inj h, tiedTable, through?, hk, Bool.false_eq_true, if_false]
    rfl
  | true =>
    cases hp : r.pivot with
    | none => simp [hk, hp] at h
    | some p =>
      simp only [hk, if_true, hp] at h
      simp only [← Except.ok.inj h, tiedTable, through?, hk, if_true, hp]
      rfl

end Relation

namespace Repointing

/-! ### What is pointed elsewhere -/

/-- A comparison with a value is pointed elsewhere at its column. -/
theorem predicate_forOperator (ρ : Repointing) (c : Column) (op : Operator) (value : Value) :
    ρ.predicate (.forOperator c op value) = .forOperator (ρ.column c) op value := by
  unfold Predicate.forOperator
  cases op.isSet <;> rfl

/-- The key of a relation is pointed elsewhere at both of its sides. -/
theorem predicate_keyCondition (ρ : Repointing) (r : Relation) (parent child : String) :
    ρ.predicate (r.keyCondition (.outer parent) (.named child)) =
      r.keyCondition (.outer (ρ.qualifier .outer parent))
        (.named (ρ.qualifier .named child)) := by
  unfold Relation.keyCondition
  cases r.kind <;> rfl

/-- The constraints of a relation are pointed elsewhere at their table. -/
theorem map_constraintConditions (ρ : Repointing) (r : Relation) (table : String) :
    (r.constraintConditions table).map ρ.condition =
      r.constraintConditions (ρ.qualifier .named table) := by
  simp only [Relation.constraintConditions, List.map_map]
  refine List.map_congr_left fun c _ => ?_
  exact congrArg Condition.and (predicate_forOperator ρ _ _ _)

end Repointing

end DottedQuery
