import DottedQuery.Proofs.Catalog.Related
import DottedQuery.Proofs.Search.Route

/-!
# The levels of a filter

A level of a filter is built on the names of its tables and pointed at the aliases afterwards.
Here it is written down as it stands in the query: the related table under its alias, the join of
the pivot table for a relation that has one, the key that ties the rows to the table around, and
the constraints of the relation (`DottedQuery.Filter.Step.level_form`).

The pivot table keeps its own name – unless it is the related table itself: then its columns
cannot be told from those of the related table and are pointed at the alias together with them
(`DottedQuery.Filter.Step.tied`).
-/

namespace DottedQuery

namespace Filter

namespace Step

/-! ### The form of a level -/

/-- The name of the table that a key ties to the table around: the alias of the related table, or
what the pivot table goes by. -/
def tied (st : Step) (label : String) : String :=
  if st.relation.tiedTable st.related.table = st.related.table then label
  else st.relation.tiedTable st.related.table

/-- The joins of a level. -/
def pivotJoins (st : Step) (label : String) : List Join :=
  (st.relation.through?.map fun p => Relation.pivotJoin p label (st.tied label)).toList

/-- The conditions of a level. -/
def demands (st : Step) (qualifier label : String) : List Condition :=
  .and (st.relation.keyCondition (.outer qualifier) (.named (st.tied label))) ::
    st.relation.constraintConditions label

/-- **The form of a level.** -/
theorem level_form (st : Step) (qualifier label : String) :
    st.level qualifier label =
      ⟨[], ⟨st.related.table, some label⟩, st.pivotJoins label, st.demands qualifier label, []⟩ := by
  -- where the names of the parent, of the related table and of the pivot table are pointed
  have houter : Repointing.qualifier
      ⟨st.related.table, label, some (st.parent.table, qualifier)⟩ .outer st.parent.table =
        qualifier := if_pos rfl
  have hnamed : Repointing.qualifier
      ⟨st.related.table, label, some (st.parent.table, qualifier)⟩ .named st.related.table =
        label := if_pos rfl
  have htied : Repointing.qualifier
      ⟨st.related.table, label, some (st.parent.table, qualifier)⟩ .named
        (st.relation.tiedTable st.related.table) = st.tied label := rfl
  have hkey := Repointing.predicate_keyCondition
    ⟨st.related.table, label, some (st.parent.table, qualifier)⟩ st.relation st.parent.table
    (st.relation.tiedTable st.related.table)
  rw [houter, htied] at hkey
  have hjoins : (st.relation.through?.map fun p =>
      Relation.pivotJoin p st.related.table p.table).toList.map
        (Repointing.join ⟨st.related.table, label, some (st.parent.table, qualifier)⟩) =
      st.pivotJoins label := by
    unfold pivotJoins
    cases hp : st.relation.through? with
    | none => rfl
    | some p =>
      have htable : st.relation.tiedTable st.related.table = p.table := by
        simp only [Relation.tiedTable, hp, Option.elim_some]
      rw [htable] at htied
      simp only [Option.map_some, Option.toList_some, List.map_cons, List.map_nil,
        Relation.pivotJoin, Repointing.join, Repointing.condition, Repointing.predicate,
        Repointing.column, Condition.and, Predicate.columnsEq, Column.named, hnamed, htied]
  simp only [level, Relation.existsQuery_form st.rows_eq, Repointing.select, Select.aliased,
    hjoins, List.map_cons, Repointing.map_constraintConditions, hnamed]
  exact congrArg (fun p => Select.mk _ _ _ (Condition.mk .and p :: _) _) hkey

/-- A pivot table other than the related table keeps its name. -/
theorem tied_of_through {st : Step} {p : Pivot} (hp : st.relation.through? = some p)
    (hne : p.table ≠ st.related.table) (label : String) : st.tied label = p.table := by
  simp only [tied, Relation.tiedTable, hp, Option.elim_some, hne, if_false]

/-- Without a pivot table the key stands on the related table. -/
theorem tied_of_direct {st : Step} (hp : st.relation.through? = none) (label : String) :
    st.tied label = label := by
  simp only [tied, Relation.tiedTable, hp, Option.elim_none, if_true]

end Step

/-- What a level is with something nested inside. -/
theorem level_addPredicate? (st : Step) (qualifier label : String) (inner : Option Predicate) :
    (st.level qualifier label).addPredicate? .and inner =
      ⟨[], ⟨st.related.table, some label⟩, st.pivotJoins label,
        st.demands qualifier label ++ (inner.map (Condition.mk .and)).toList, []⟩ := by
  rw [st.level_form]
  cases inner with
  | none => simp [Select.addPredicate?]
  | some p => rfl

end Filter

end DottedQuery
