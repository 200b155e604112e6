import DottedQuery.Dict

/-!
# Validation messages

What is wrong with a request is said in messages, each under the place of the request that it is
about (`0.entity`, `1.criteria.0.where`). `DottedQuery.Messages` is the table of them: the
places are listed sorted, and the messages of one place in the order in which they were added.
-/

namespace DottedQuery

/-- Messages under the places of a request. -/
structure Messages where
  /-- The messages of each place, never none. -/
  table : Dict (List String)

namespace Messages

/-- No messages. -/
def empty : Messages := ⟨Dict.empty⟩

/-- The messages of a place. -/
def get (m : Messages) (place : String) : List String := (m.table.get? place).getD []

/-- Adds a message after those of its place. -/
def add (m : Messages) (place message : String) : Messages :=
  ⟨m.table.insert place (m.get place ++ [message])⟩

/-- Whether there are no messages. -/
def isEmpty (m : Messages) : Bool := m.table.isEmpty

/-- The number of places with messages. -/
def size (m : Messages) : Nat := m.table.size

/-- Whether the place has messages. -/
def has (m : Messages) (place : String) : Bool := m.table.contains place

/-- The places with messages, sorted. -/
def places (m : Messages) : List String := m.table.keys

/-- All messages, in the order of their places. -/
def all (m : Messages) : List String := m.table.values.flatten

/-- All messages in one text. -/
def display (m : Messages) : String := "; ".intercalate m.all

/-- Nothing when there are no messages, and otherwise the messages as a failure. -/
def result (m : Messages) : Except Messages Unit :=
  if m.isEmpty then .ok () else .error m

theorem get_add (m : Messages) (place p message : String) :
    (m.add place message).get p = if place = p then m.get p ++ [message] else m.get p := by
  unfold get add
  by_cases h : place = p
  · subst h
    simp [Dict.get?_insert, get]
  · simp [Dict.get?_insert, h]

end Messages

end DottedQuery
