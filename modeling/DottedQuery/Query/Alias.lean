import DottedQuery.Decimal.Integer

/-!
# Aliases

The tables that a search adds to a query are given aliases: a stem and a number that grows with
every alias taken. A supply belongs to one compilation, and an alias is never given twice, so
one that is taken and then not used leaves a gap.
-/

namespace DottedQuery

/-- A supply of aliases. -/
structure AliasSupply where
  /-- What every alias of the supply begins with. -/
  stem : String
  /-- The number of the next alias, which is also the number of aliases taken. -/
  next : Nat
deriving DecidableEq, Repr

namespace AliasSupply

/-- The alias of a stem with a number. -/
def name (stem : String) (n : Nat) : String := stem ++ Decimal.natText n

/-- What the aliases of `exists` sub-queries begin with. -/
def existsStem : String := "wherehas_"

/-- What the aliases of joined tables begin with. -/
def joinStem : String := "joined_"

/-- The supply for `exists` sub-queries. -/
def forExists : AliasSupply := ⟨existsStem, 0⟩

/-- The supply for joined tables. -/
def forJoins : AliasSupply := ⟨joinStem, 0⟩

/-- The next alias. -/
def current (a : AliasSupply) : String := name a.stem a.next

/-- The supply after its next alias is taken. -/
def taken (a : AliasSupply) : AliasSupply := { a with next := a.next + 1 }

/-- Different numbers make different aliases. -/
theorem name_inj {stem : String} {m n : Nat} : name stem m = name stem n ↔ m = n := by
  refine ⟨fun h => Decimal.natText_inj.1 (String.toList_inj.1 ?_), fun h => by rw [h]⟩
  simpa [name] using congrArg String.toList h

end AliasSupply

end DottedQuery
