import DottedQuery.Query.Select
import DottedQuery.Text.Name

/-!
# The text of a query

A query is written in pieces (`DottedQuery.Piece`): fixed words and signs, names, and slots for
values. Both texts of a query come from the one list `DottedQuery.Select.pieces`:

* the **statement** writes a `?` for each slot and lists the values of the slots as bindings, in
  the order of the slots (`DottedQuery.Select.statement`);
* the text **in line** writes the literal of the value into the slot
  (`DottedQuery.Select.inlineText`).

So a value has no part in a statement but its place, and bindings cannot be out of order. Names
are quoted unless they are plain, so none ends early.
-/

namespace DottedQuery

/-- A piece of the text of a query. -/
inductive Piece where
  /-- Fixed words and signs. -/
  | text (s : String) : Piece
  /-- The name of a table, an alias or a column. -/
  | name (s : String) : Piece
  /-- The place of a value. -/
  | slot (v : Value) : Piece

namespace Piece

/-- The piece in a statement. -/
def placeholder : Piece → String
  | text s => s
  | name s => Text.quoteName s
  | slot _ => "?"

/-- The piece in a text with literals. -/
def inLine : Piece → String
  | text s => s
  | name s => Text.quoteName s
  | slot v => v.literal

/-- The value of a slot. -/
def value? : Piece → Option Value
  | slot v => some v
  | _ => none

/-- Lists of pieces one after another, with a fixed text between them. -/
def separated (sep : String) : List (List Piece) → List Piece
  | [] => []
  | [ps] => ps
  | ps :: rest => ps ++ text sep :: separated sep rest

end Piece

open Piece (separated)

/-! ### The pieces of the parts -/

namespace Column

/-- A column: its qualifier, a point, its name. -/
def pieces (c : Column) : List Piece := [.name c.table, .text ".", .name c.name]

/-- The column for a reader. -/
def display (c : Column) : String := Text.quoteName c.table ++ "." ++ Text.quoteName c.name

end Column

namespace Source

/-- A table and its alias. -/
def pieces (s : Source) : List Piece :=
  .name s.table :: match s.label with
    | none => []
    | some label => [.text " as ", .name label]

end Source

namespace Projection

/-- What is returned. -/
def pieces : Projection → List Piece
  | all => [.text "*"]
  | allOf table => [.name table, .text ".*"]

end Projection

namespace OrderTerm

/-- A term of an order. -/
def pieces (o : OrderTerm) : List Piece := o.column.pieces ++ [.text (" " ++ o.direction.sql)]

end OrderTerm

/-- The values of a set, between brackets. -/
def setPieces (column : Column) (negated : Bool) (values : List Value) : List Piece :=
  column.pieces ++ .text (if negated then " not in (" else " in (") ::
    (separated ", " (values.map fun v => [Piece.slot v]) ++ [.text ")"])

/-- What is returned by a query, everything when nothing is said. -/
def projectionPieces (ps : List Projection) : List Piece :=
  if ps.isEmpty then [.text "*"] else separated ", " (ps.map Projection.pieces)

/-- The order of a query. -/
def orderPieces (os : List OrderTerm) : List Piece :=
  if os.isEmpty then [] else .text " order by " :: separated ", " (os.map OrderTerm.pieces)

/-! ### The pieces of a query -/

mutual

/-- **The pieces of a query.** -/
def Select.pieces : Select → List Piece
  | ⟨projection, source, joins, wheres, orderBy⟩ =>
    .text "select " :: projectionPieces projection ++ .text " from " :: source.pieces ++
      joinsPieces joins ++ wherePieces wheres ++ orderPieces orderBy

/-- The joined tables, one after another. -/
def joinsPieces : List Join → List Piece
  | [] => []
  | j :: js => j.pieces ++ joinsPieces js

/-- A joined table and its conditions. -/
def Join.pieces : Join → List Piece
  | ⟨kind, source, on⟩ =>
    .text (" " ++ kind.sql ++ " ") :: source.pieces ++ .text " on " :: conditionsPieces on

/-- The conditions of a query with the word before them, if there are any. -/
def wherePieces : List Condition → List Piece
  | [] => []
  | c :: cs => .text " where " :: c.pieces ++ furtherPieces cs

/-- Conditions; the combinator of the first one is left out. -/
def conditionsPieces : List Condition → List Piece
  | [] => []
  | c :: cs => c.pieces ++ furtherPieces cs

/-- The conditions after the first one, each with its combinator. -/
def furtherPieces : List Condition → List Piece
  | [] => []
  | c :: cs => .text (" " ++ c.combinator.sql ++ " ") :: c.pieces ++ furtherPieces cs

/-- A condition without its combinator. -/
def Condition.pieces : Condition → List Piece
  | ⟨_, p⟩ => p.pieces

/-- A predicate. No column is asked for a set without members: membership of it is always false,
and its negation is always true. -/
def Predicate.pieces : Predicate → List Piece
  | .compare column op value => column.pieces ++ [.text (" " ++ op.sql ++ " "), .slot value]
  | .inSet column negated values =>
    if values.isEmpty then [.text (if negated then "1 = 1" else "0 = 1")]
    else setPieces column negated values
  | .columns left op right => left.pieces ++ .text (" " ++ op.sql ++ " ") :: right.pieces
  | .exists sub => .text "exists (" :: sub.pieces ++ [.text ")"]

end

/-! ### The texts of a query -/

/-- A statement with the values of its placeholders. -/
structure Statement where
  /-- The text, a `?` for each value. -/
  text : String
  /-- The values, in the order of the placeholders. -/
  bindings : List Value

namespace Select

/-- **The statement of a query.** -/
def statement (q : Select) : Statement where
  text := String.join (q.pieces.map Piece.placeholder)
  bindings := q.pieces.filterMap Piece.value?

/-- The text of a query with its values as literals. -/
def inlineText (q : Select) : String := String.join (q.pieces.map Piece.inLine)

end Select

end DottedQuery
