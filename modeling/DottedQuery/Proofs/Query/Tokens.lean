import DottedQuery.Proofs.Query.Reader
import DottedQuery.Proofs.Text.Plain
import DottedQuery.Search.Searcher

/-!
# Names among the tokens of a statement

A database reads a statement token by token before it knows anything about queries. Its tokenizer
takes a run between double quotes for one name, in which a doubled quote stands for a quote, and a
word as long as it can be for a name too – unless the word is *reserved*
(`DottedQuery.Text.reserved`): then it is a keyword, in whatever letters it is spelled. This file
says what such a tokenizer (`DottedQuery.Text.tokens`) makes of the text of a statement.

The text is made of pieces, and a token never reaches from one piece into the next: a fixed text
ends between two tokens, or something follows that ends its last word, and behind a name there is
always a sign or a blank (`DottedQuery.Breaks`). So the tokens of a statement are those of its
pieces, one after another (`DottedQuery.Select.tokens_statement`). A name is one token among them.
It is an identifier with the name for its value, unless the name is plain and reserved: plain names
are written as they are, and a column `order` is read as the keyword
(`DottedQuery.Shop.order_not_ident`).
-/

namespace DottedQuery

namespace Text

/-! ### The tokenizer -/

/-- The words that a statement uses itself. -/
def reserved : List String :=
  ["select", "from", "as", "inner", "left", "join", "on", "where", "and", "or", "order", "by",
    "asc", "desc", "exists", "in", "not", "like"]

/-- A token of a statement. -/
inductive Token where
  /-- A name, quoted or not, by its value. -/
  | ident (name : String) : Token
  /-- A reserved word, as it is spelled. -/
  | keyword (word : String) : Token
  /-- A word that begins with a digit. -/
  | number (word : String) : Token
  /-- Any other character. -/
  | sign (c : Char) : Token
  /-- A name that lacks its closing quote. -/
  | unclosed (name : String) : Token
deriving DecidableEq, Repr

/-- The token that a word is. -/
def Token.ofWord (word : String) : Token :=
  if word.toList.head?.any Char.isDigit then .number word
  else if reserved.contains (lower word) then .keyword word
  else .ident word

/-- What the tokenizer is in the middle of. -/
inductive Scan where
  /-- Nothing: the next character begins a token. -/
  | between : Scan
  /-- A word, with these characters so far. -/
  | word (cs : List Char) : Scan
  /-- A quoted name, with these characters so far. -/
  | quoted (cs : List Char) : Scan
  /-- A quoted name behind a quote, which ends the name unless another quote follows. -/
  | closing (cs : List Char) : Scan
deriving DecidableEq, Repr

namespace Scan

/-- A character that begins a token, or stands between two. -/
def start (c : Char) : List Token × Scan :=
  if c = '"' then ([], quoted [])
  else if isNamePart c then ([], word [c])
  else if isBlank c then ([], between)
  else ([.sign c], between)

/-- What a character ends, and what the tokenizer is in the middle of behind it. -/
def step : Scan → Char → List Token × Scan
  | between, c => start c
  | word cs, c =>
    if isNamePart c then ([], word (cs ++ [c]))
    else (.ofWord (String.ofList cs) :: (start c).1, (start c).2)
  | quoted cs, c => if c = '"' then ([], closing cs) else ([], quoted (cs ++ [c]))
  | closing cs, c =>
    if c = '"' then ([], quoted (cs ++ ['"']))
    else (.ident (String.ofList cs) :: (start c).1, (start c).2)

/-- What the end of the text ends. -/
def finish : Scan → List Token
  | between => []
  | word cs => [.ofWord (String.ofList cs)]
  | quoted cs => [.unclosed (String.ofList cs)]
  | closing cs => [.ident (String.ofList cs)]

/-- The tokens that characters end, and what the tokenizer is in the middle of behind them. -/
def through : Scan → List Char → List Token × Scan
  | st, [] => ([], st)
  | st, c :: cs => ((st.step c).1 ++ ((st.step c).2.through cs).1, ((st.step c).2.through cs).2)

/-- The tokens up to the end of the text. -/
def run (st : Scan) (cs : List Char) : List Token :=
  (st.through cs).1 ++ (st.through cs).2.finish

end Scan

/-- **The tokens of a text.** -/
def tokens (s : String) : List Token := Scan.between.run s.toList

namespace Scan

@[simp] theorem through_nil (st : Scan) : st.through [] = ([], st) := rfl

@[simp] theorem run_nil (st : Scan) : st.run [] = st.finish := rfl

theorem run_cons (st : Scan) (c : Char) (cs : List Char) :
    st.run (c :: cs) = (st.step c).1 ++ (st.step c).2.run cs := by
  rw [run, through, run, List.append_assoc]

/-- A text is read on from where the one before it ends. -/
theorem run_append (st : Scan) (cs ds : List Char) :
    st.run (cs ++ ds) = (st.through cs).1 ++ (st.through cs).2.run ds := by
  induction cs generalizing st with
  | nil => rfl
  | cons c cs ih => rw [List.cons_append, run_cons, ih, through, List.append_assoc]

/-- What the tokenizer is in the middle of ends here: it is nothing, or what stands behind breaks a
name. -/
def Ends : Scan → List Char → Prop
  | between, _ => True
  | word _, rest | closing _, rest => Breaks rest
  | quoted _, _ => False

/-- **Where a token ends, the next one is begun.** -/
theorem run_of_ends {st : Scan} {rest : List Char} (h : st.Ends rest) :
    st.run rest = st.finish ++ between.run rest := by
  cases st with
  | between => rfl
  | quoted cs => exact h.elim
  | word cs =>
    cases rest with
    | nil => rfl
    | cons c rest =>
      obtain ⟨hpart, -⟩ : isNamePart c = false ∧ c ≠ '"' := h c rfl
      have hstep : (word cs).step c = (.ofWord (String.ofList cs) :: (start c).1, (start c).2) := by
        simp [step, hpart]
      rw [run_cons, run_cons, hstep]
      rfl
  | closing cs =>
    cases rest with
    | nil => rfl
    | cons c rest =>
      obtain ⟨-, hquote⟩ : isNamePart c = false ∧ c ≠ '"' := h c rfl
      have hstep : (closing cs).step c = (.ident (String.ofList cs) :: (start c).1, (start c).2) :=
        if_neg hquote
      rw [run_cons, run_cons, hstep]
      rfl

/-- **Texts are read one after the other**, if no token reaches from the first into the second. -/
theorem run_append_of_ends {cs ds : List Char} (h : (between.through cs).2.Ends ds) :
    between.run (cs ++ ds) = between.run cs ++ between.run ds := by
  rw [run_append, run_of_ends h, ← List.append_assoc]
  rfl

/-! ### Names -/

/-- A word goes on as far as its characters do. -/
theorem through_word {cs : List Char} (h : ∀ c ∈ cs, isNamePart c = true) (ds : List Char) :
    (word ds).through cs = ([], word (ds ++ cs)) := by
  induction cs generalizing ds with
  | nil => simp
  | cons c cs ih =>
    have hc : isNamePart c = true := h c List.mem_cons_self
    rw [through, step, if_pos hc, ih fun d hd => h d (List.mem_cons_of_mem _ hd)]
    simp

/-- A quoted name goes on up to its last quote. -/
theorem through_quoted (cs ds : List Char) :
    (quoted ds).through (double '"' cs ++ ['"']) = ([], closing (ds ++ cs)) := by
  induction cs generalizing ds with
  | nil => simp [double, through, step]
  | cons c cs ih =>
    rw [double]
    split
    · next hc =>
      -- the first of two quotes might be the last one, and the second says that it is not
      subst hc
      simp [through, step, ih]
    · next hc => simp [through, step, hc, ih]

/-- The tokenizer is at the end of a name behind it, and nowhere else. -/
theorem through_quoteName (s : String) :
    between.through (quoteName s).toList =
      ([], if isPlain s then word s.toList else closing s.toList) := by
  cases hplain : isPlain s with
  | false =>
    rw [quoteName_of_not_isPlain hplain, Text.quoted, String.toList_ofList, through]
    simp [step, start, through_quoted]
  | true =>
    obtain ⟨c, cs, hs, hc, hcs⟩ := isPlain_iff.mp hplain
    have hstart : start c = ([], word [c]) := by
      have hquote : c ≠ '"' := by
        rintro rfl
        exact absurd (isNameStart_iff.mpr hc) (by decide)
      simp [start, hquote, isNamePart_iff.mpr (Or.inl hc)]
    rw [quoteName_of_isPlain hplain, hs, through, step, hstart,
      through_word fun d hd => isNamePart_iff.mpr (hcs d hd)]
    rfl

end Scan

/-- The token of a name: the keyword, if the name is plain and reserved, and else the identifier. -/
def Token.ofName (s : String) : Token :=
  if isPlain s && reserved.contains (lower s) then .keyword s else .ident s

/-- **A name is one token.** -/
theorem tokens_quoteName (s : String) : tokens (quoteName s) = [.ofName s] := by
  rw [tokens, Scan.run, Scan.through_quoteName, Token.ofName]
  cases hplain : isPlain s with
  | false => simp [Scan.finish]
  | true =>
    obtain ⟨c, cs, hs, hc, -⟩ := isPlain_iff.mp hplain
    have hdigit : s.toList.head?.any Char.isDigit = false := by
      simp [hs, not_isDigit_of_nameLetter hc]
    simp [Scan.finish, Token.ofWord, hdigit]

/-- A quote in a name is doubled in the text, and read for one. -/
example : tokens (quoteName "a\"b") = [.ident "a\"b"] := by decide

/-- A token that is not read for a name of the query. `ilike` is not reserved, so it is read for an
identifier although it is an operator. -/
def Token.isOwn : Token → Bool
  | .keyword _ | .number _ | .sign _ => true
  | .ident word => word = "ilike"
  | .unclosed _ => false

end Text

open Text (Scan Token tokens)

/-! ### The tokens of pieces -/

namespace Piece

/-- The tokens of a piece in a statement. -/
def tokens (p : Piece) : List Token := Text.tokens p.placeholder

/-- The name that a piece is. -/
def name? : Piece → Option String
  | name s => some s
  | _ => none

/-- **Pieces spell names**: before anything that ends a name their tokens are read one after
another; the names among them are these, in this order; and their fixed texts hold none. -/
structure Spell (ps : List Piece) (ns : List String) : Prop where
  /-- The tokens are read one after another. -/
  run : ∀ cs, Breaks cs →
    Scan.between.run (chars ps ++ cs) = ps.flatMap tokens ++ Scan.between.run cs
  /-- The names. -/
  names : ps.filterMap name? = ns
  /-- A fixed text has no other identifiers. -/
  own : ∀ w, .text w ∈ ps → (Text.tokens w).all Token.isOwn = true

theorem spell_nil : Spell [] [] := ⟨fun _ _ => rfl, rfl, by simp⟩

/-- A fixed text that ends between two tokens may stand before anything. -/
theorem Spell.text {ps : List Piece} {ns : List String} {w : String} (h : Spell ps ns)
    (hends : (Scan.between.through w.toList).2 = .between)
    (hown : (Text.tokens w).all Token.isOwn = true) : Spell (.text w :: ps) ns where
  run cs hcs := by
    have hw : (Scan.between.through w.toList).2.Ends (chars ps ++ cs) := by
      rw [hends]
      trivial
    rw [chars_text, List.append_assoc, Scan.run_append_of_ends hw, h.run cs hcs,
      List.flatMap_cons, List.append_assoc]
    rfl
  names := h.names
  own w' hw' := by
    rcases List.mem_cons.mp hw' with heq | hw'
    · obtain rfl := Piece.text.inj heq
      exact hown
    · exact h.own w' hw'

/-- Pieces spell names one after the other, if the second ones end a name before them. -/
theorem Spell.append {ps qs : List Piece} {ns ms : List String} (h : Spell ps ns)
    (h' : Spell qs ms) (hbreaks : ∀ cs, Breaks cs → Breaks (chars qs ++ cs)) :
    Spell (ps ++ qs) (ns ++ ms) where
  run cs hcs := by
    rw [chars_append, List.append_assoc, h.run _ (hbreaks cs hcs), h'.run cs hcs,
      List.flatMap_append, List.append_assoc]
  names := by rw [List.filterMap_append, h.names, h'.names]
  own w hw := (List.mem_append.mp hw).elim (h.own w) (h'.own w)

/-- A piece whose last token is ended by what ends a name. -/
theorem spell_single {p : Piece} {ns : List String}
    (hends : ∀ cs, Breaks cs → (Scan.between.through p.placeholder.toList).2.Ends cs)
    (hnames : [p].filterMap name? = ns)
    (hown : ∀ w, p = .text w → (Text.tokens w).all Token.isOwn = true) : Spell [p] ns where
  run cs hcs := by
    rw [chars, List.flatMap_singleton, List.flatMap_singleton,
      Scan.run_append_of_ends (hends cs hcs)]
    rfl
  names := hnames
  own w hw := hown w (List.mem_singleton.mp hw).symm

/-- A name spells itself. -/
theorem spell_name (s : String) : Spell [.name s] [s] := by
  refine spell_single (fun cs hcs => ?_) rfl (by simp)
  rw [placeholder, Scan.through_quoteName]
  cases Text.isPlain s <;> exact hcs

/-- A placeholder is a sign. -/
theorem spell_slot (v : Value) : Spell [.slot v] [] := by
  refine spell_single (fun cs _ => ?_) rfl (by simp)
  rw [placeholder, show (Scan.between.through "?".toList).2 = .between by decide]
  trivial

/-- The last word of a fixed text is ended by what ends a name. -/
theorem spell_word {w : String} {u : List Char}
    (hends : (Scan.between.through w.toList).2 = .word u)
    (hown : (Text.tokens w).all Token.isOwn = true) : Spell [.text w] [] := by
  refine spell_single (fun cs hcs => ?_) rfl fun w' hw' => Piece.text.inj hw' ▸ hown
  rw [placeholder, hends]
  exact hcs

/-- An operator stands between blanks. -/
theorem Spell.operator {ps : List Piece} {ns : List String} (h : Spell ps ns) (op : Operator) :
    Spell (.text (" " ++ op.sql ++ " ") :: ps) ns :=
  h.text (w := " " ++ op.sql ++ " ") (by cases op <;> decide) (by cases op <;> decide)

theorem breaks_operatorText (op : Operator) (ps : List Piece) (cs : List Char) :
    Breaks (chars (.text (" " ++ op.sql ++ " ") :: ps) ++ cs) := by
  cases op <;> exact breaks_text (by decide) ps cs

/-- A bracket may close anything. -/
theorem Spell.closed {ps : List Piece} {ns : List String} (h : Spell ps ns) :
    Spell (ps ++ [.text ")"]) ns := by
  have hclosed := h.append (spell_nil.text (w := ")") (by decide) (by decide)) fun cs _ =>
    breaks_text (by decide) _ cs
  rwa [List.append_nil] at hclosed

/-- Lists of pieces with a comma between them spell their names. -/
theorem spell_separated {α : Type} {f : α → List Piece} {g : α → List String} (as : List α)
    (h : ∀ a ∈ as, Spell (f a) (g a)) : Spell (separated ", " (as.map f)) (as.flatMap g) := by
  induction as with
  | nil => exact spell_nil
  | cons a as ih =>
    have hhead := h a List.mem_cons_self
    have ih := ih fun b hb => h b (List.mem_cons_of_mem _ hb)
    cases as with
    | nil => simpa [separated] using hhead
    | cons b bs =>
      rw [List.map_cons, List.flatMap_cons]
      exact hhead.append (ih.text (by decide) (by decide)) fun cs _ => breaks_text (by decide) _ cs

end Piece

/-! ### The names of a query -/

namespace Column

/-- The names of a column. -/
def names (c : Column) : List String := [c.table, c.name]

end Column

namespace Source

/-- The names of a table. -/
def names (s : Source) : List String := s.table :: s.label.toList

end Source

namespace Projection

/-- The names of what is returned. -/
def names : Projection → List String
  | all => []
  | allOf table => [table]

end Projection

mutual

/-- **The names of a query**, in the order of the text: those of tables and aliases, of what is
returned, and of columns. -/
def Select.allNames : Select → List String
  | ⟨projection, source, joins, wheres, orderBy⟩ =>
    projection.flatMap Projection.names ++ source.names ++ namesOfJoins joins ++
      namesOfConditions wheres ++ orderBy.flatMap fun o => o.column.names

/-- The names of joined tables. -/
def namesOfJoins : List Join → List String
  | [] => []
  | j :: js => j.allNames ++ namesOfJoins js

/-- The names of a joined table and of its conditions. -/
def Join.allNames : Join → List String
  | ⟨_, source, on⟩ => source.names ++ namesOfConditions on

/-- The names of conditions. -/
def namesOfConditions : List Condition → List String
  | [] => []
  | c :: cs => c.allNames ++ namesOfConditions cs

/-- The names of a condition. -/
def Condition.allNames : Condition → List String
  | ⟨_, p⟩ => p.allNames

/-- The names of a predicate. Membership of a set without members names no column. -/
def Predicate.allNames : Predicate → List String
  | .compare column _ _ => column.names
  | .inSet column _ values => if values.isEmpty then [] else column.names
  | .columns left _ right => left.names ++ right.names
  | .exists sub => sub.allNames

end

open Piece (Spell spell_nil spell_name spell_slot spell_word)

/-! ### What the parts of a query spell -/

/-- A column ends a name before it, being a name behind a sign or a blank. -/
theorem Column.spell (c : Column) : Spell c.pieces c.names :=
  (spell_name c.table).append (((spell_name c.name)).text (by decide) (by decide)) fun cs _ =>
    breaks_text (by decide) _ cs

theorem Source.spell (s : Source) : Spell s.pieces s.names := by
  obtain ⟨table, label⟩ := s
  cases label with
  | none => exact spell_name table
  | some label =>
    exact (spell_name table).append ((spell_name label).text (by decide) (by decide)) fun cs _ =>
      breaks_text (by decide) _ cs

theorem Projection.spell (p : Projection) : Spell p.pieces p.names := by
  cases p with
  | all => exact spell_nil.text (by decide) (by decide)
  | allOf table =>
    exact (spell_name table).append (spell_nil.text (by decide) (by decide)) fun cs _ =>
      breaks_text (by decide) _ cs

theorem spell_projectionPieces (ps : List Projection) :
    Spell (projectionPieces ps) (ps.flatMap Projection.names) := by
  unfold projectionPieces
  cases ps with
  | nil => exact spell_nil.text (by decide) (by decide)
  | cons p ps => exact Piece.spell_separated (p :: ps) fun p _ => p.spell

theorem OrderTerm.spell (o : OrderTerm) : Spell o.pieces o.column.names := by
  have hdirection : Spell [.text (" " ++ o.direction.sql)] [] := by
    cases o.direction
    · exact spell_word (u := "asc".toList) (by decide) (by decide)
    · exact spell_word (u := "desc".toList) (by decide) (by decide)
  have hbreaks : ∀ cs, Breaks (Piece.chars [.text (" " ++ o.direction.sql)] ++ cs) := by
    cases o.direction <;> exact fun cs => breaks_text (by decide) _ cs
  have h := o.column.spell.append hdirection fun cs _ => hbreaks cs
  rwa [List.append_nil] at h

theorem spell_orderPieces (os : List OrderTerm) :
    Spell (orderPieces os) (os.flatMap fun o => o.column.names) := by
  unfold orderPieces
  cases os with
  | nil => exact spell_nil
  | cons o os =>
    exact (Piece.spell_separated (o :: os) fun o _ => o.spell).text (by decide) (by decide)

theorem spell_setPieces (c : Column) (negated : Bool) (vs : List Value) :
    Spell (setPieces c negated vs) c.names := by
  have hslots : Spell (Piece.separated ", " (vs.map fun v => [Piece.slot v])) [] := by
    have h := Piece.spell_separated (g := fun _ => []) vs fun v _ => spell_slot v
    rwa [List.flatMap_eq_nil_iff.mpr fun _ _ => rfl] at h
  have hopen := hslots.closed.text (w := if negated then " not in (" else " in (")
    (by cases negated <;> decide) (by cases negated <;> decide)
  have h := c.spell.append hopen fun cs _ => by
    cases negated <;> exact breaks_text (by decide) _ cs
  rwa [List.append_nil] at h

/-! ### What stands behind a part of a query ends a name -/

theorem breaks_joinsPieces (js : List Join) {cs : List Char} (h : Breaks cs) :
    Breaks (Piece.chars (joinsPieces js) ++ cs) := by
  cases js with
  | nil => exact h
  | cons j js =>
    obtain ⟨kind, source, on⟩ := j
    cases kind <;> exact breaks_text (by decide) _ cs

theorem breaks_wherePieces (ws : List Condition) {cs : List Char} (h : Breaks cs) :
    Breaks (Piece.chars (wherePieces ws) ++ cs) := by
  cases ws with
  | nil => exact h
  | cons w ws => exact breaks_text (by decide) _ cs

theorem breaks_furtherPieces (ws : List Condition) {cs : List Char} (h : Breaks cs) :
    Breaks (Piece.chars (furtherPieces ws) ++ cs) := by
  cases ws with
  | nil => exact h
  | cons w ws =>
    have hcombinator : Begins (" " ++ w.combinator.sql ++ " ") fun c =>
        Text.isNamePart c = false ∧ c ≠ '"' := by
      cases w.combinator <;> decide
    exact breaks_text hcombinator _ cs

theorem breaks_orderPieces (os : List OrderTerm) {cs : List Char} (h : Breaks cs) :
    Breaks (Piece.chars (orderPieces os) ++ cs) := by
  cases os with
  | nil => exact h
  | cons o os => exact breaks_text (by decide) _ cs

mutual

/-- **A query spells its names.** -/
theorem Select.spell : ∀ q : Select, Spell q.pieces q.allNames
  | ⟨projection, source, joins, wheres, orderBy⟩ => by
    have hfrom := source.spell.text (w := " from ") (by decide) (by decide)
    have h := ((((spell_projectionPieces projection).append hfrom fun cs _ =>
      breaks_text (by decide) _ cs).append (spell_joinsPieces joins) fun cs hcs =>
      breaks_joinsPieces joins hcs).append (spell_wherePieces wheres) fun cs hcs =>
      breaks_wherePieces wheres hcs).append (spell_orderPieces orderBy) fun cs hcs =>
      breaks_orderPieces orderBy hcs
    rw [Select.pieces, Select.allNames]
    exact Spell.text (by simpa using h) (by decide) (by decide)

theorem spell_joinsPieces : ∀ js : List Join, Spell (joinsPieces js) (namesOfJoins js)
  | [] => spell_nil
  | ⟨kind, source, on⟩ :: js => by
    have hon := (spell_conditionsPieces on).text (w := " on ") (by decide) (by decide)
    have hsource := source.spell.append hon fun cs _ => breaks_text (by decide) _ cs
    have hjoin := hsource.text (w := " " ++ kind.sql ++ " ") (by cases kind <;> decide)
      (by cases kind <;> decide)
    have h := hjoin.append (spell_joinsPieces js) fun cs hcs => breaks_joinsPieces js hcs
    rw [joinsPieces, Join.pieces, namesOfJoins, Join.allNames]
    simpa using h

theorem spell_wherePieces : ∀ cs : List Condition, Spell (wherePieces cs) (namesOfConditions cs)
  | [] => spell_nil
  | ⟨b, p⟩ :: cs => by
    have h := p.spell.append (spell_furtherPieces cs) fun _ hcs => breaks_furtherPieces cs hcs
    rw [wherePieces, Condition.pieces, namesOfConditions, Condition.allNames]
    exact h.text (by decide) (by decide)

theorem spell_conditionsPieces : ∀ cs : List Condition,
    Spell (conditionsPieces cs) (namesOfConditions cs)
  | [] => spell_nil
  | ⟨b, p⟩ :: cs => by
    rw [conditionsPieces, Condition.pieces, namesOfConditions, Condition.allNames]
    exact p.spell.append (spell_furtherPieces cs) fun _ hcs => breaks_furtherPieces cs hcs

theorem spell_furtherPieces : ∀ cs : List Condition,
    Spell (furtherPieces cs) (namesOfConditions cs)
  | [] => spell_nil
  | ⟨b, p⟩ :: cs => by
    have h := p.spell.append (spell_furtherPieces cs) fun _ hcs => breaks_furtherPieces cs hcs
    rw [furtherPieces, Condition.pieces, namesOfConditions, Condition.allNames]
    exact h.text (w := " " ++ b.sql ++ " ") (by cases b <;> decide) (by cases b <;> decide)

theorem Predicate.spell : ∀ p : Predicate, Spell p.pieces p.allNames
  | .compare column op value => by
    have h := column.spell.append ((spell_slot value).operator op) fun cs _ =>
      Piece.breaks_operatorText op _ cs
    rwa [List.append_nil] at h
  | .inSet column negated values => by
    rw [Predicate.pieces, Predicate.allNames]
    cases values with
    | nil =>
      cases negated
      · exact spell_word (u := ['1']) (by decide) (by decide)
      · exact spell_word (u := ['1']) (by decide) (by decide)
    | cons v vs => exact spell_setPieces column negated (v :: vs)
  | .columns left op right =>
    left.spell.append (right.spell.operator op) fun cs _ => Piece.breaks_operatorText op _ cs
  | .exists sub => by
    rw [Predicate.pieces, Predicate.allNames]
    exact sub.spell.closed.text (by decide) (by decide)

end

/-- **A statement is read name by name.** Its tokens are those of its pieces, one after another; the
names among the pieces are the names of the query, in the order of the text. A name is one token:
the identifier whose value it is, unless it is plain and reserved, whatever the case of its
letters, and then the keyword. All other keywords are those of the fixed texts, which hold no
identifier but `ilike`, and of a value there is nothing but its placeholder. -/
theorem Select.tokens_statement (q : Select) :
    tokens q.statement.text = q.pieces.flatMap Piece.tokens ∧
      q.pieces.filterMap Piece.name? = q.allNames ∧
      (∀ s, (Piece.name s).tokens =
        [if Text.isPlain s = true ∧ Text.lower s ∈ Text.reserved then .keyword s else .ident s]) ∧
      (∀ w, .text w ∈ q.pieces → ∀ t ∈ (Piece.text w).tokens, t.isOwn = true) ∧
      ∀ v, (Piece.slot v).tokens = [.sign '?'] := by
  refine ⟨?_, q.spell.names, fun s => ?_, fun w hw => ?_, fun v => ?_⟩
  · have hrun := q.spell.run [] (by simp [Breaks])
    rwa [List.append_nil, Scan.run_nil, Scan.finish, List.append_nil,
      ← q.toList_text_statement] at hrun
  · rw [Piece.tokens, Piece.placeholder, Text.tokens_quoteName, Token.ofName]
    simp
  · exact List.all_eq_true.mp (q.spell.own w hw)
  · rw [Piece.tokens, Piece.placeholder]
    decide

namespace Shop

/-- A configuration with one entity. -/
def configuration : Configuration :=
  ⟨Dict.ofList [("user", "User")], [(Entity.ofTable "User" "users").makeSearchable], .drop⟩

/-- A search by the column `order`. -/
def byOrder : SearchRequest :=
  ⟨[⟨some "user", some [⟨some "order", some "=", some (.int 1), false⟩]⟩]⟩

/-- The query that the search is compiled to. -/
def query : Select :=
  ⟨[.allOf "users"], ⟨"users", none⟩, [], [.and (.compare (.named "users" "order") .eq (.int 1))],
    []⟩

/-- **A column `order` is read as a keyword.** The configuration is accepted and the search
compiles, but no token of its statement is an identifier with the name of the column. -/
theorem order_not_ident :
    ∃ s, Searcher.ofConfiguration configuration = .ok s ∧
      s.compileWith byOrder none none = .ok query ∧ "order" ∈ query.allNames ∧
      Token.ident "order" ∉ tokens query.statement.text ∧
      Token.keyword "order" ∈ tokens query.statement.text ∧ query.orderBy = [] :=
  ⟨_, rfl, rfl, by decide, by decide, by decide, rfl⟩

end Shop

end DottedQuery
