import DottedQuery.Dict
import DottedQuery.Json.Document

/-!
# Decoding JSON

A `DottedQuery.Json.Decoder` takes a thing of some type out of the shape of a JSON text, where
`room` arrays and objects may stand around one another, and fails when the shape is not the one
it expects. Records are decoded through `DottedQuery.Json.Decoder.fields`, which finds the
values of their fields:

* in an object, under the names of the fields; a name may not occur twice, and keys that name no
  field are passed over together with their values, whatever these hold;
* in an array, in the order in which the fields are declared; fields may be missing at the end.

A field that is missing either has a default (`DottedQuery.Json.Fields.withDefault`) or makes
the record fail (`DottedQuery.Json.Fields.required`).
-/

namespace DottedQuery

namespace Json

/-- A way to take a thing out of the shape of a JSON text. -/
abbrev Decoder (α : Type) := (room : Nat) → Source → Option α

/-- The values of the fields of a record that are there. -/
structure Fields where
  /-- How many arrays and objects may stand around one another in the values. -/
  room : Nat
  /-- The fields that are there, with their values. -/
  known : List (String × Source)

namespace Fields

variable {α : Type}

/-- The value of a field that has to be there. -/
def required (f : Fields) (name : String) (d : Decoder α) : Option α :=
  (Dict.lookup name f.known).bind (d f.room)

/-- The value of a field that may be missing. -/
def withDefault (f : Fields) (name : String) (missing : α) (d : Decoder α) : Option α :=
  match Dict.lookup name f.known with
  | none => some missing
  | some s => d f.room s

end Fields

namespace Decoder

variable {α : Type}

/-- A text. -/
def text : Decoder String
  | _, .string ls => text? ls
  | _, _ => none

/-- A truth value. -/
def truth : Decoder Bool
  | _, .bool b => some b
  | _, _ => none

/-- Something, or `null` for nothing. -/
def optional (d : Decoder α) : Decoder (Option α)
  | _, .null => some none
  | room, s => (d room s).map some

/-- One of a few words; it may also be the only key of an object, with `null` for its value. -/
def word (ofSpelling? : String → Option α) : Decoder α
  | _, .string ls => (text? ls).bind ofSpelling?
  | _ + 1, .object [(k, .null)] => (text? k).bind ofSpelling?
  | _, _ => none

/-- A text that is read further. -/
def parsed (parse? : String → Option α) : Decoder α := fun room s => (text room s).bind parse?

/-- The whole value, to be looked at afterwards. -/
def whole (ofDocument? : Document → Option α) : Decoder α := fun room s =>
  (s.document? room).bind ofDocument?

/-- A list. -/
def list (d : Decoder α) : Decoder (List α)
  | room + 1, .array xs => xs.mapM (d room)
  | _, _ => none

/-- The members of an object, with their keys as texts. -/
def keyed? (ms : List (List Letter × Source)) : Option (List (String × Source)) :=
  ms.mapM fun m => (text? m.1).map (·, m.2)

/-- A table; of two members with one key the later counts. -/
def dict (d : Decoder α) : Decoder (Dict α)
  | room + 1, .object ms => do
    let ms ← keyed? ms
    let es ← ms.mapM fun m => (d room m.2).map (m.1, ·)
    return Dict.ofList es
  | _, _ => none

/-- Whether no text stands in the list twice. -/
def distinct : List String → Bool
  | [] => true
  | s :: ss => !ss.contains s && distinct ss

/-- **The values of the fields** of a record with the given names, in their order. -/
def fields (names : List String) : Decoder Fields
  | room + 1, .array xs => if xs.length ≤ names.length then some ⟨room, names.zip xs⟩ else none
  | room + 1, .object ms => do
    let ms ← keyed? ms
    let known := ms.filter fun m => names.contains m.1
    if distinct (known.map Prod.fst) then some ⟨room, known⟩ else none
  | _, _ => none

/-- **Decoding a text**: it is one JSON value, and the decoder accepts it. -/
def decode? (d : Decoder α) (s : String) : Option α := (Source.read? s).bind (d maxDepth)

end Decoder

end Json

end DottedQuery
