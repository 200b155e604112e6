import DottedQuery.Json.Values
import DottedQuery.Proofs.Json.Leaves

/-!
# What is written is read back

A document without floats is written as a text, and the text is read as that document: first its
shape (`DottedQuery.Json.Source.read?_write`), then what the shape stands for, if there is room for
its nesting (`DottedQuery.Json.Document.document?_source`). For values there is nothing else to be
told apart – the shape of a text shows what kind of value it is – so a value that has no floats
and is nested at most `DottedQuery.Json.maxDepth` arrays deep is the value that its text holds
(`DottedQuery.Value.decode?_json`).

The way leads over tokens. A shape is spelled by tokens (`DottedQuery.Json.Source.spelled`); the
reader takes the tokens of a shape in any state that waits for a value and is then in the state that
has it (`DottedQuery.Json.State.run_spelled`), and the text of a document is cut into the tokens of
its shape (`DottedQuery.Json.Document.tokens_write`). Both are inductions over the nesting, with
whatever follows left open.

Floats are left out. The digits that are written for a float are the fewest that lead back to it
when they are rounded once, but they are read in two roundings
(`DottedQuery.Json.NumberText.number?`), which may miss it.
-/

namespace DottedQuery

namespace Json

/-! ### The tokens of a shape -/

namespace Source

mutual

/-- **The tokens that spell a shape.** -/
def spelled : Source → List Token
  | null => [.null]
  | bool b => [.bool b]
  | number n => [.number n]
  | string ls => [.string ls]
  | array xs => .openArray :: elements xs
  | object ms => .openObject :: members ms

/-- The tokens of the elements of an array, up to its end. -/
def elements : List Source → List Token
  | [] => [.closeArray]
  | x :: xs => x.spelled ++ furtherElements xs

/-- The tokens of further elements of an array, up to its end. -/
def furtherElements : List Source → List Token
  | [] => [.closeArray]
  | x :: xs => .comma :: (x.spelled ++ furtherElements xs)

/-- The tokens of the members of an object, up to its end. -/
def members : List (List Letter × Source) → List Token
  | [] => [.closeObject]
  | (k, x) :: ms => .string k :: .colon :: (x.spelled ++ furtherMembers ms)

/-- The tokens of further members of an object, up to its end. -/
def furtherMembers : List (List Letter × Source) → List Token
  | [] => [.closeObject]
  | (k, x) :: ms => .comma :: .string k :: .colon :: (x.spelled ++ furtherMembers ms)

end

end Source

namespace State

/-- The reader after some tokens. -/
def run (s : State) (ts : List Token) : Option State := ts.foldlM step s

theorem run_cons (s : State) (t : Token) (ts : List Token) :
    s.run (t :: ts) = (s.step t).bind fun s => s.run ts := rfl

/-- The first element of an array is read like any value. -/
theorem run_firstElement (x : Source) (stack : List Frame) (ts : List Token) :
    (firstElement stack).run (x.spelled ++ ts) =
      (value (.array [] :: stack)).run (x.spelled ++ ts) := by
  cases x <;> rfl

mutual

/-- **The tokens of a shape are read as that shape**, whatever is unfinished around it and whatever
follows. -/
theorem run_spelled : ∀ (x : Source) (stack : List Frame) (ts : List Token),
    (value stack).run (x.spelled ++ ts) = (complete x stack).run ts
  | .null, _, _ | .bool _, _, _ | .number _, _, _ | .string _, _, _ => rfl
  | .array xs, stack, ts => run_elements xs stack ts
  | .object ms, stack, ts => run_members ms stack ts

theorem run_elements : ∀ (xs : List Source) (stack : List Frame) (ts : List Token),
    (firstElement stack).run (Source.elements xs ++ ts) = (complete (.array xs) stack).run ts
  | [], _, _ => rfl
  | x :: xs, stack, ts => by
    rw [Source.elements, List.append_assoc, run_firstElement, run_spelled x,
      run_furtherElements xs]
    rfl

theorem run_furtherElements : ∀ (xs done : List Source) (v : Source) (stack : List Frame)
    (ts : List Token), (complete v (.array done :: stack)).run (Source.furtherElements xs ++ ts) =
      (complete (.array ((v :: done).reverse ++ xs)) stack).run ts
  | [], done, v, stack, ts => by
    rw [List.append_nil]
    rfl
  | x :: xs, done, v, stack, ts => by
    rw [Source.furtherElements, List.cons_append, run_cons, List.append_assoc]
    change (value (.array (v :: done) :: stack)).run (x.spelled ++ _) = _
    rw [run_spelled x, run_furtherElements xs, List.reverse_cons, List.append_assoc]
    rfl

theorem run_members : ∀ (ms : List (List Letter × Source)) (stack : List Frame)
    (ts : List Token),
    (firstKey stack).run (Source.members ms ++ ts) = (complete (.object ms) stack).run ts
  | [], _, _ => rfl
  | (k, x) :: ms, stack, ts => by
    rw [Source.members, List.cons_append, run_cons, List.cons_append, List.append_assoc]
    change (value (.object [] k :: stack)).run (x.spelled ++ _) = _
    rw [run_spelled x, run_furtherMembers ms]
    rfl

theorem run_furtherMembers : ∀ (ms done : List (List Letter × Source)) (k : List Letter)
    (v : Source) (stack : List Frame) (ts : List Token),
    (complete v (.object done k :: stack)).run (Source.furtherMembers ms ++ ts) =
      (complete (.object (((k, v) :: done).reverse ++ ms)) stack).run ts
  | [], done, k, v, stack, ts => by
    rw [List.append_nil]
    rfl
  | (k', x) :: ms, done, k, v, stack, ts => by
    rw [Source.furtherMembers, List.cons_append, run_cons, List.cons_append, List.cons_append,
      List.append_assoc]
    change (value (.object ((k, v) :: done) k' :: stack)).run (x.spelled ++ _) = _
    rw [run_spelled x, run_furtherMembers ms, List.reverse_cons, List.append_assoc]
    rfl

end

end State

/-- **The tokens of a shape spell it.** -/
theorem Source.ofTokens?_spelled (x : Source) : Source.ofTokens? x.spelled = some x := by
  have h := State.run_spelled x [] []
  rw [List.append_nil] at h
  rw [Source.ofTokens?]
  change ((State.value []).run x.spelled).bind State.result? = some x
  rw [h]
  rfl

/-! ### The tokens of a text -/

theorem tokens_nil : tokens [] = some [] := by
  rw [tokens]

/-- A token is cut off the text that begins with it. -/
theorem tokens_of_scan {c : Char} {cs rest : List Char} {t : Token} (hspace : isSpace c = false)
    (h : scan c cs = some (t, rest)) : tokens (c :: cs) = (tokens rest).map (t :: ·) := by
  rw [tokens, hspace]
  simp only [Bool.false_eq_true, if_false]
  split
  · next hnone => simp [h] at hnone
  · next t' rest' hsome =>
    obtain ⟨rfl, rfl⟩ := Prod.mk.inj (Option.some.inj (h.symm.trans hsome))
    rfl

theorem ne_of_isDigit {c d : Char} (hc : c.isDigit = true) (hd : d.isDigit = false) : c ≠ d := by
  rintro rfl
  rw [hc] at hd
  exact Bool.noConfusion hd

/-- What begins with a digit is a number. -/
theorem scan_digit {c : Char} (h : c.isDigit = true) (cs : List Char) :
    scan c cs = (scanUnsigned false (c :: cs)).map fun p => (.number p.1, p.2) := by
  unfold scan
  split
  case h_12 => rfl
  all_goals exact absurd rfl (ne_of_isDigit h (by decide))

theorem isSpace_of_isDigit {c : Char} (h : c.isDigit = true) : isSpace c = false := by
  have hne : ∀ d : Char, d.isDigit = false → c ≠ d := fun _ => ne_of_isDigit h
  simp [isSpace, hne ' ' rfl, hne '\t' rfl, hne '\n' rfl, hne '\r' rfl]

/-- **The text of an integer is one token.** -/
theorem tokens_intText (i : Int) {rest : List Char} (hrest : EndsNumber rest) :
    tokens ((Decimal.intText i).toList ++ rest) =
      (tokens rest).map (.number (NumberText.ofInt i) :: ·) := by
  rcases i with n | n
  · have hdigits : (Decimal.intText (.ofNat n)).toList = Nat.toDigits 10 n :=
      Decimal.toList_natText n
    obtain ⟨d, ds, hds⟩ := List.exists_cons_of_ne_nil (@Nat.toDigits_ne_nil n 10)
    have hd : d.isDigit = true :=
      Nat.isDigit_of_mem_toDigits (by omega) (by omega) (hds ▸ List.mem_cons_self)
    have hscan := scanUnsigned_toDigits false n hrest
    rw [hds, List.cons_append] at hscan
    rw [hdigits, hds, List.cons_append]
    refine tokens_of_scan (isSpace_of_isDigit hd) ?_
    rw [scan_digit hd, hscan, NumberText.ofInt, hds]
    rfl
  · have hdigits : (Decimal.intText (.negSucc n)).toList = '-' :: Nat.toDigits 10 (n + 1) := by
      simp [Decimal.intText]
    rw [hdigits]
    refine tokens_of_scan (by decide) ?_
    change (scanUnsigned true (Nat.toDigits 10 (n + 1) ++ rest)).map _ = _
    rw [scanUnsigned_toDigits true (n + 1) hrest]
    rfl

/-- **The text of a string is one token.** -/
theorem tokens_writeString (s : String) (rest : List Char) :
    tokens ((writeString s).toList ++ rest) = (tokens rest).map (.string (letters s) :: ·) := by
  have hchars : (writeString s).toList ++ rest =
      '"' :: (s.toList.flatMap escape ++ '"' :: rest) := by
    simp [writeString]
  rw [hchars]
  refine tokens_of_scan (by decide) ?_
  change (scanString (s.toList.flatMap escape ++ '"' :: rest)).map _ = _
  rw [scanString_escapes]
  rfl

namespace Document

/-! ### The shape of a document -/

mutual

/-- No float is in a document. -/
def Floatless : Document → Prop
  | float _ => False
  | array xs => FloatlessElements xs
  | object ms => FloatlessMembers ms
  | _ => True

/-- No float is in the elements of an array. -/
def FloatlessElements : List Document → Prop
  | [] => True
  | x :: xs => x.Floatless ∧ FloatlessElements xs

/-- No float is in the members of an object. -/
def FloatlessMembers : List (String × Document) → Prop
  | [] => True
  | (_, x) :: ms => x.Floatless ∧ FloatlessMembers ms

end

mutual

/-- How many arrays and objects stand around one another in a document. -/
def depth : Document → Nat
  | array xs => depthOfElements xs + 1
  | object ms => depthOfMembers ms + 1
  | _ => 0

/-- How many stand around one another in the elements of an array. -/
def depthOfElements : List Document → Nat
  | [] => 0
  | x :: xs => max x.depth (depthOfElements xs)

/-- How many stand around one another in the members of an object. -/
def depthOfMembers : List (String × Document) → Nat
  | [] => 0
  | (_, x) :: ms => max x.depth (depthOfMembers ms)

end

mutual

/-- **The shape of the text of a document.** For a float, of which nothing is said here, it is
`null`. -/
def source : Document → Source
  | null => .null
  | bool b => .bool b
  | int n => .number (NumberText.ofInt n.toInt)
  | float _ => .null
  | string s => .string (letters s)
  | array xs => .array (sources xs)
  | object ms => .object (memberSources ms)

/-- The shapes of the elements of an array. -/
def sources : List Document → List Source
  | [] => []
  | x :: xs => x.source :: sources xs

/-- The shapes of the members of an object. -/
def memberSources : List (String × Document) → List (List Letter × Source)
  | [] => []
  | (k, x) :: ms => (letters k, x.source) :: memberSources ms

end

/-! ### The text of a document -/

/-- Texts with commas between them: the first, and each other one behind a comma. -/
theorem toList_intercalate_comma (w : String) (ws : List String) :
    (",".intercalate (w :: ws)).toList = w.toList ++ ws.flatMap fun v => ',' :: v.toList := by
  induction ws generalizing w with
  | nil => simp
  | cons v ws ih =>
    have hcons := ih v
    rw [String.toList_intercalate] at hcons ⊢
    rw [List.map_cons, List.map_cons, List.intercalate_cons_cons, ← List.map_cons, hcons]
    simp

theorem toList_colon : ":".toList = [':'] := rfl

/-- What stands behind a value in an array or an object could not belong to a number. -/
theorem endsNumber_further {ws : List String} {close : Char} {rest : List Char}
    (hclose : EndsNumber (close :: rest)) :
    EndsNumber ((ws.flatMap fun w => ',' :: w.toList) ++ close :: rest) := by
  cases ws with
  | nil => exact hclose
  | cons w ws => exact endsNumber_cons (by decide) _

mutual

/-- **The text of a document is cut into the tokens of its shape**, whatever follows that could not
belong to a number. -/
theorem tokens_write : ∀ (d : Document), d.Floatless → ∀ rest, EndsNumber rest →
    tokens (d.write.toList ++ rest) = (tokens rest).map (d.source.spelled ++ ·)
  | null, _, _, _ => tokens_of_scan (by decide) rfl
  | bool true, _, _, _ => tokens_of_scan (by decide) rfl
  | bool false, _, _, _ => tokens_of_scan (by decide) rfl
  | int n, _, _, hrest => tokens_intText n.toInt hrest
  | string s, _, rest, _ => tokens_writeString s rest
  | array xs, h, rest, _ => by
    have hchars : (array xs).write.toList ++ rest =
        '[' :: ((",".intercalate (writeElements xs)).toList ++ ']' :: rest) := by
      simp [write]
    rw [hchars, tokens_of_scan (by decide) (show scan '[' _ = some (.openArray, _) from rfl),
      tokens_elements xs h rest, Option.map_map]
    rfl
  | object ms, h, rest, _ => by
    have hchars : (object ms).write.toList ++ rest =
        '\x7b' :: ((",".intercalate (writeMembers ms)).toList ++ '\x7d' :: rest) := by
      simp [write]
    rw [hchars, tokens_of_scan (by decide) (show scan '\x7b' _ = some (.openObject, _) from rfl),
      tokens_members ms h rest, Option.map_map]
    rfl

theorem tokens_elements : ∀ (xs : List Document), FloatlessElements xs → ∀ rest,
    tokens ((",".intercalate (writeElements xs)).toList ++ ']' :: rest) =
      (tokens rest).map (Source.elements (sources xs) ++ ·)
  | [], _, _ => tokens_of_scan (by decide) rfl
  | x :: xs, ⟨hx, hxs⟩, rest => by
    rw [writeElements, toList_intercalate_comma, List.append_assoc,
      tokens_write x hx _ (endsNumber_further (endsNumber_cons (by decide) rest)),
      tokens_furtherElements xs hxs rest, Option.map_map]
    refine congrArg (Option.map · _) (funext fun ts => ?_)
    rw [Function.comp_apply, ← List.append_assoc]
    rfl

theorem tokens_furtherElements : ∀ (xs : List Document), FloatlessElements xs → ∀ rest,
    tokens (((writeElements xs).flatMap fun w => ',' :: w.toList) ++ ']' :: rest) =
      (tokens rest).map (Source.furtherElements (sources xs) ++ ·)
  | [], _, _ => tokens_of_scan (by decide) rfl
  | x :: xs, ⟨hx, hxs⟩, rest => by
    rw [writeElements, List.flatMap_cons, List.append_assoc, List.cons_append,
      tokens_of_scan (by decide) (show scan ',' _ = some (.comma, _) from rfl),
      tokens_write x hx _ (endsNumber_further (endsNumber_cons (by decide) rest)),
      tokens_furtherElements xs hxs rest, Option.map_map, Option.map_map]
    refine congrArg (Option.map · _) (funext fun ts => ?_)
    simp [sources, Source.furtherElements]

theorem tokens_members : ∀ (ms : List (String × Document)), FloatlessMembers ms → ∀ rest,
    tokens ((",".intercalate (writeMembers ms)).toList ++ '\x7d' :: rest) =
      (tokens rest).map (Source.members (memberSources ms) ++ ·)
  | [], _, _ => tokens_of_scan (by decide) rfl
  | (k, x) :: ms, ⟨hx, hms⟩, rest => by
    rw [writeMembers, toList_intercalate_comma, String.toList_append, String.toList_append,
      List.append_assoc, List.append_assoc, List.append_assoc, tokens_writeString, toList_colon,
      List.cons_append, List.nil_append,
      tokens_of_scan (by decide) (show scan ':' _ = some (.colon, _) from rfl),
      tokens_write x hx _ (endsNumber_further (endsNumber_cons (by decide) rest)),
      tokens_furtherMembers ms hms rest, Option.map_map, Option.map_map, Option.map_map]
    refine congrArg (Option.map · _) (funext fun ts => ?_)
    simp [memberSources, Source.members]

theorem tokens_furtherMembers : ∀ (ms : List (String × Document)), FloatlessMembers ms →
    ∀ rest, tokens (((writeMembers ms).flatMap fun w => ',' :: w.toList) ++ '\x7d' :: rest) =
      (tokens rest).map (Source.furtherMembers (memberSources ms) ++ ·)
  | [], _, _ => tokens_of_scan (by decide) rfl
  | (k, x) :: ms, ⟨hx, hms⟩, rest => by
    rw [writeMembers, List.flatMap_cons, List.append_assoc, List.cons_append,
      tokens_of_scan (by decide) (show scan ',' _ = some (.comma, _) from rfl),
      String.toList_append, String.toList_append, List.append_assoc, List.append_assoc,
      tokens_writeString, toList_colon, List.cons_append, List.nil_append,
      tokens_of_scan (by decide) (show scan ':' _ = some (.colon, _) from rfl),
      tokens_write x hx _ (endsNumber_further (endsNumber_cons (by decide) rest)),
      tokens_furtherMembers ms hms rest, Option.map_map, Option.map_map, Option.map_map,
      Option.map_map]
    refine congrArg (Option.map · _) (funext fun ts => ?_)
    simp [memberSources, Source.furtherMembers]

end

/-- **The text of a document is read as its shape.** -/
theorem read?_write {d : Document} (h : d.Floatless) : Source.read? d.write = some d.source := by
  have htokens := tokens_write d h [] endsNumber_nil
  rw [List.append_nil, tokens_nil, Option.map_some, List.append_nil] at htokens
  rw [Source.read?, htokens, Option.bind_some, Source.ofTokens?_spelled]

/-! ### What the shape stands for -/

mutual

/-- **The shape of a document stands for the document**, if there is room for it. -/
theorem document?_source : ∀ (d : Document) (room : Nat), d.Floatless → d.depth ≤ room →
    d.source.document? room = some d
  | null, _, _, _ | bool _, _, _, _ => rfl
  | int n, _, _, _ => by
    rw [source, Source.document?, number?_ofInt]
    rfl
  | string s, _, _, _ => by
    rw [source, Source.document?, text?_letters]
    rfl
  | array _, 0, _, hroom | object _, 0, _, hroom => absurd hroom (Nat.not_succ_le_zero _)
  | array xs, room + 1, h, hroom => by
    rw [source, Source.document?, elements?_sources xs room h (Nat.le_of_succ_le_succ hroom)]
    rfl
  | object ms, room + 1, h, hroom => by
    rw [source, Source.document?, members?_sources ms room h (Nat.le_of_succ_le_succ hroom)]
    rfl

theorem elements?_sources : ∀ (xs : List Document) (room : Nat), FloatlessElements xs →
    depthOfElements xs ≤ room → Source.elements? room (sources xs) = some xs
  | [], _, _, _ => rfl
  | x :: xs, room, ⟨hx, hxs⟩, hroom => by
    obtain ⟨hfirst, hrest⟩ := Nat.max_le.mp hroom
    rw [sources, Source.elements?, document?_source x room hx hfirst,
      elements?_sources xs room hxs hrest]
    rfl

theorem members?_sources : ∀ (ms : List (String × Document)) (room : Nat),
    FloatlessMembers ms → depthOfMembers ms ≤ room →
      Source.members? room (memberSources ms) = some ms
  | [], _, _, _ => rfl
  | (k, x) :: ms, room, ⟨hx, hms⟩, hroom => by
    obtain ⟨hfirst, hrest⟩ := Nat.max_le.mp hroom
    rw [memberSources, Source.members?, text?_letters, document?_source x room hx hfirst,
      members?_sources ms room hms hrest]
    rfl

end

end Document

end Json

/-! ### Values -/

namespace Value

open Json (Decoder Document)

mutual

/-- No float is in a value. -/
def Floatless : Value → Prop
  | float _ => False
  | array vs => FloatlessMembers vs
  | _ => True

/-- No float is in the members of a list. -/
def FloatlessMembers : List Value → Prop
  | [] => True
  | v :: vs => v.Floatless ∧ FloatlessMembers vs

end

theorem floatlessMembers_iff {vs : List Value} : FloatlessMembers vs ↔ ∀ v ∈ vs, v.Floatless := by
  induction vs with
  | nil => simp [FloatlessMembers]
  | cons v vs ih => rw [FloatlessMembers, ih, List.forall_mem_cons]

mutual

/-- How many lists stand around one another in a value. -/
def depth : Value → Nat
  | array vs => depthOfMembers vs + 1
  | _ => 0

/-- How many stand around one another in the members of a list. -/
def depthOfMembers : List Value → Nat
  | [] => 0
  | v :: vs => max v.depth (depthOfMembers vs)

end

mutual

theorem depth_document : ∀ v : Value, v.document.depth = v.depth
  | null | bool _ | int _ | float _ | string _ => rfl
  | array vs => congrArg (· + 1) (depth_documents vs)

theorem depth_documents : ∀ vs : List Value,
    Document.depthOfElements (documents vs) = depthOfMembers vs
  | [] => rfl
  | v :: vs => by
    rw [documents, Document.depthOfElements, depthOfMembers, depth_document v, depth_documents vs]

end

mutual

theorem floatless_document : ∀ v : Value, v.Floatless → v.document.Floatless
  | null, _ | bool _, _ | int _, _ | string _, _ => trivial
  | array vs, h => floatless_documents vs h

theorem floatless_documents : ∀ vs : List Value, FloatlessMembers vs →
    Document.FloatlessElements (documents vs)
  | [], _ => trivial
  | v :: vs, ⟨hv, hvs⟩ => ⟨floatless_document v hv, floatless_documents vs hvs⟩

end

mutual

/-- The JSON of a value is the JSON of this value and of no other. -/
theorem ofDocument?_document : ∀ v : Value, ofDocument? v.document = some v
  | null | bool _ | int _ | float _ | string _ => rfl
  | array vs => by
    rw [document, ofDocument?, ofDocuments?_documents vs]
    rfl

theorem ofDocuments?_documents : ∀ vs : List Value, ofDocuments? (documents vs) = some vs
  | [] => rfl
  | v :: vs => by
    rw [documents, ofDocuments?, ofDocument?_document v, ofDocuments?_documents vs]
    rfl

end

/-- **The shape of a value is decoded as the value**, if there is room for it. -/
theorem decoder_source {v : Value} (h : v.Floatless) {room : Nat} (hroom : v.depth ≤ room) :
    decoder room v.document.source = some v := by
  have hdepth : v.document.depth ≤ room := (depth_document v).symm ▸ hroom
  rw [decoder, Decoder.whole,
    Document.document?_source v.document room (floatless_document v h) hdepth, Option.bind_some,
    ofDocument?_document]

/-- **A value survives being written and read.** -/
theorem decode?_json {v : Value} (h : v.Floatless) (hdepth : v.depth ≤ Json.maxDepth) :
    Decoder.decode? decoder v.json = some v := by
  rw [Decoder.decode?, json, Document.read?_write (floatless_document v h), Option.bind_some,
    decoder_source h hdepth]

end Value

end DottedQuery
