import DottedQuery.Query.Select

/-!
# Equality of queries

Two queries are equal when they are built alike from equal parts. Their values are compared as
values are, so a float that is no number makes a query differ from itself.
-/

namespace DottedQuery

mutual

/-- **Equality of queries.** -/
def Select.equal : Select → Select → Bool
  | ⟨p, s, js, ws, os⟩, ⟨p', s', js', ws', os'⟩ =>
    p = p' && s = s' && equalJoins js js' && equalConditions ws ws' && os = os'

/-- Equality of lists of joined tables. -/
def equalJoins : List Join → List Join → Bool
  | [], [] => true
  | j :: js, j' :: js' => j.equal j' && equalJoins js js'
  | _, _ => false

/-- Equality of joined tables. -/
def Join.equal : Join → Join → Bool
  | ⟨k, s, on⟩, ⟨k', s', on'⟩ => k = k' && s = s' && equalConditions on on'

/-- Equality of lists of conditions. -/
def equalConditions : List Condition → List Condition → Bool
  | [], [] => true
  | c :: cs, c' :: cs' => c.equal c' && equalConditions cs cs'
  | _, _ => false

/-- Equality of conditions. -/
def Condition.equal : Condition → Condition → Bool
  | ⟨b, p⟩, ⟨b', p'⟩ => b = b' && p.equal p'

/-- Equality of predicates. -/
def Predicate.equal : Predicate → Predicate → Bool
  | .compare c o v, .compare c' o' v' => c = c' && o = o' && v.equal v'
  | .inSet c n vs, .inSet c' n' vs' => c = c' && n = n' && Value.equalLists vs vs'
  | .columns l o r, .columns l' o' r' => l = l' && o = o' && r = r'
  | .exists q, .exists q' => q.equal q'
  | _, _ => false

end

end DottedQuery
