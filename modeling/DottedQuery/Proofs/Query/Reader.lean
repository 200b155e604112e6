import DottedQuery.Query.Render

/-!
# Reading statements

A statement is read by small readers that are put together. A reader takes what it reads from the
front of a text, and a value from the front of the bindings for every `?` it comes across
(`DottedQuery.Reader`).

What is proved of a reader is that it reads certain pieces back, whatever stands behind them – up
to a condition on that (`DottedQuery.Reader.Reads`), for a reader that goes on as long as it can
has to be stopped. What stops it is either the end of a sub-query or one of some fixed texts
(`DottedQuery.Follows`), and a text that is *apart* from those is not mistaken for any of them.
-/

namespace DottedQuery

/-! ### Texts and bindings of pieces -/

namespace Piece

/-- The characters of pieces in a statement. -/
def chars (ps : List Piece) : List Char := ps.flatMap fun p => p.placeholder.toList

/-- The values of the slots among pieces. -/
def values (ps : List Piece) : List Value := ps.filterMap Piece.value?

@[simp] theorem chars_nil : chars [] = [] := rfl

@[simp] theorem chars_text (w : String) (ps : List Piece) :
    chars (text w :: ps) = w.toList ++ chars ps := rfl

@[simp] theorem chars_name (s : String) (ps : List Piece) :
    chars (name s :: ps) = (Text.quoteName s).toList ++ chars ps := rfl

@[simp] theorem chars_slot (v : Value) (ps : List Piece) :
    chars (slot v :: ps) = '?' :: chars ps := by
  have hmark : "?".toList = ['?'] := by decide
  simp only [chars, List.flatMap_cons, placeholder, hmark, List.singleton_append]

@[simp] theorem chars_append (ps qs : List Piece) : chars (ps ++ qs) = chars ps ++ chars qs :=
  List.flatMap_append

@[simp] theorem values_append (ps qs : List Piece) :
    values (ps ++ qs) = values ps ++ values qs := List.filterMap_append

/-- Lists of pieces with a fixed text between them: the first one, and each further one behind
that text. -/
theorem separated_cons (sep : String) (ps : List Piece) (pss : List (List Piece)) :
    separated sep (ps :: pss) = ps ++ pss.flatMap fun qs => text sep :: qs := by
  induction pss generalizing ps with
  | nil => simp [separated]
  | cons qs pss ih =>
    rw [separated, ih, List.flatMap_cons, List.cons_append]
    simp

end Piece

/-- The text of a statement is that of its pieces. -/
theorem Select.toList_text_statement (q : Select) :
    q.statement.text.toList = Piece.chars q.pieces := by
  rw [statement, String.toList_join, List.flatMap_map]
  rfl

/-! ### What stands behind -/

/-- Behind this, a query ends or one of the given texts stands. -/
def Follows (ws : List String) (rest : List Char) : Prop :=
  rest = [] ∨ rest.head? = some ')' ∨ ∃ w ∈ ws, w.toList <+: rest

/-- A text begins with a character of some kind. -/
def Begins (t : String) (p : Char → Prop) : Prop := ∃ c ∈ t.toList.head?, p c

instance (t : String) (p : Char → Prop) [DecidablePred p] : Decidable (Begins t p) :=
  match h : t.toList.head? with
  | none => isFalse fun ⟨_, hc, _⟩ => nomatch h.symm.trans hc
  | some c => decidable_of_iff (p c) (by simp [Begins, h])

/-- A text cannot be taken for one of some texts or for the end of a query, nor they for it. -/
def Apart (t : String) (ws : List String) : Prop :=
  Begins t (· ≠ ')') ∧ ∀ w ∈ ws, ¬t.toList <+: w.toList ∧ ¬w.toList <+: t.toList

instance (t : String) (ws : List String) : Decidable (Apart t ws) :=
  inferInstanceAs (Decidable (_ ∧ _))

/-- A name has ended before this. -/
def Breaks (rest : List Char) : Prop := ∀ c ∈ rest.head?, Text.isNamePart c = false ∧ c ≠ '"'

/-- What stands before other pieces begins as they do. -/
theorem head?_text {w : String} (hw : w.toList ≠ []) (ps : List Piece) (cs : List Char) :
    (Piece.chars (.text w :: ps) ++ cs).head? = w.toList.head? := by
  obtain ⟨c, rest, hc⟩ := List.exists_cons_of_ne_nil hw
  rw [Piece.chars_text, hc]
  rfl

/-- A text does not stand where another character does. -/
theorem not_prefix_of_head {t : String} {cs : List Char} {c d : Char}
    (ht : t.toList.head? = some c) (hcs : cs.head? = some d) (hne : c ≠ d) :
    ¬t.toList <+: cs := by
  rintro ⟨rest, rfl⟩
  rw [List.head?_append, ht, Option.some_or] at hcs
  exact hne (Option.some.inj hcs)

/-- A name begins like a plain one or with a quote. -/
theorem head?_name (s : String) (ps : List Piece) (cs : List Char) :
    ∃ c, (Piece.chars (.name s :: ps) ++ cs).head? = some c ∧
      (Text.isNameStart c = true ∨ c = '"') := by
  rw [Piece.chars_name]
  cases hplain : Text.isPlain s with
  | false =>
    rw [Text.quoteName_of_not_isPlain hplain]
    exact ⟨'"', by simp [Text.quoted], Or.inr rfl⟩
  | true =>
    rw [Text.quoteName_of_isPlain hplain]
    unfold Text.isPlain Text.isPlainChars at hplain
    cases hs : s.toList with
    | nil => simp [hs] at hplain
    | cons c rest =>
      rw [hs, Bool.and_eq_true] at hplain
      exact ⟨c, rfl, Or.inl hplain.1⟩

/-- A name ends before a text that begins with a sign. -/
theorem breaks_text {w : String}
    (h : Begins w fun c => Text.isNamePart c = false ∧ c ≠ '"') (ps : List Piece)
    (cs : List Char) : Breaks (Piece.chars (.text w :: ps) ++ cs) := by
  obtain ⟨c, hc, hsign⟩ := h
  intro d hd
  have hw : w.toList ≠ [] := by
    rintro hw
    simp [hw] at hc
  rw [head?_text hw] at hd
  rwa [← Option.mem_unique hc hd]

namespace Follows

variable {ws ws' : List String} {rest : List Char}

theorem text {w : String} (h : w ∈ ws) (ps : List Piece) (cs : List Char) :
    Follows ws (Piece.chars (.text w :: ps) ++ cs) := by
  rw [Piece.chars_text, List.append_assoc]
  exact Or.inr (Or.inr ⟨w, h, List.prefix_append _ _⟩)

theorem mono (h : Follows ws rest) (hws : ws ⊆ ws') : Follows ws' rest := by
  rcases h with h | h | ⟨w, hw, hpre⟩
  · exact Or.inl h
  · exact Or.inr (Or.inl h)
  · exact Or.inr (Or.inr ⟨w, hws hw, hpre⟩)

/-- What is apart from everything that may stand here does not stand here. -/
theorem not_prefix (h : Follows ws rest) {t : String} (ht : Apart t ws) :
    ¬t.toList <+: rest := by
  obtain ⟨⟨c, hc, hne⟩, hws⟩ := ht
  intro hpre
  have hhead : rest.head? = some c := by
    obtain ⟨cs, rfl⟩ := hpre
    rw [List.head?_append, Option.mem_def.mp hc, Option.some_or]
  rcases h with rfl | h | ⟨w, hw, hwpre⟩
  · simp at hhead
  · exact hne (Option.some.inj (hhead.symm.trans h))
  · rcases List.prefix_or_prefix_of_prefix hpre hwpre with h | h
    · exact (hws w hw).1 h
    · exact (hws w hw).2 h

/-- A name ends before what begins with a blank. -/
theorem breaks (h : Follows ws rest) (hws : ∀ w ∈ ws, w.toList.head? = some ' ') :
    Breaks rest := by
  intro c hc
  rcases h with rfl | h | ⟨w, hw, cs, rfl⟩
  · simp at hc
  · obtain rfl := Option.some.inj (h.symm.trans hc)
    decide
  · rw [List.head?_append, hws w hw, Option.some_or] at hc
    obtain rfl := Option.some.inj hc
    decide

end Follows

/-! ### Readers -/

/-- What is still to be read: a text and the values of its placeholders. -/
structure Input where
  /-- The characters. -/
  chars : List Char
  /-- The values. -/
  values : List Value

/-- A reader takes something from the front of the input, or refuses it. -/
abbrev Reader := StateT Input Option

namespace Reader

variable {α β : Type}

/-- Reads a fixed text. -/
def literal (w : String) : Reader Unit := fun s =>
  if w.toList <+: s.chars then some ((), ⟨s.chars.drop w.toList.length, s.values⟩) else none

/-- Reads one of some fixed texts, and tells which. -/
def choice : List (String × α) → Reader α
  | [] => failure
  | w :: ws => (do literal w.1; pure w.2) <|> choice ws

/-- Takes the next value. -/
def value : Reader Value := fun s => s.values.head?.map fun v => (v, ⟨s.chars, s.values.tail⟩)

/-- Reads a placeholder, and its value. -/
def slot : Reader Value := do
  literal "?"
  value

/-- The characters up to the quote that ends them, with doubled quotes read as one, and what
stands behind. -/
def unquote (quote : Char) : List Char → Option (List Char × List Char)
  | [] => none
  | [c] => if c = quote then some ([], []) else none
  | c :: d :: cs =>
    if c = quote then
      if d = quote then (unquote quote cs).map fun r => (quote :: r.1, r.2)
      else some ([], d :: cs)
    else (unquote quote (d :: cs)).map fun r => (c :: r.1, r.2)

/-- Reads a name: everything up to the closing quote, if it is quoted, and as far as a plain name
goes otherwise. -/
def name : Reader String := fun s =>
  match s.chars with
  | [] => none
  | c :: cs =>
    if c = '"' then (unquote '"' cs).map fun r => (String.ofList r.1, ⟨r.2, s.values⟩)
    else if Text.isNameStart c then
      some (String.ofList (c :: cs.takeWhile Text.isNamePart),
        ⟨cs.dropWhile Text.isNamePart, s.values⟩)
    else none

/-- Reads as many as there are. One that takes nothing from the input is the last. -/
def many (p : Reader α) (s : Input) : Option (List α × Input) :=
  match p s with
  | none => some ([], s)
  | some (a, s') =>
    if s'.chars.length < s.chars.length then (many p s').map fun r => (a :: r.1, r.2)
    else some ([a], s')
termination_by s.chars.length

/-- Reads one or more with a fixed text between them. -/
def separatedBy (sep : String) (p : Reader α) : Reader (List α) := do
  let a ← p
  let as ← many (do literal sep; p)
  return a :: as

/-! ### What readers read -/

/-- **A reader reads pieces back**, whatever stands behind them, within a condition on that. -/
def Reads (p : Reader α) (ps : List Piece) (a : α) (F : List Char → Prop) : Prop :=
  ∀ cs vs, F cs → p ⟨Piece.chars ps ++ cs, Piece.values ps ++ vs⟩ = some (a, ⟨cs, vs⟩)

/-- A reader refuses pieces, whatever stands behind them, within a condition on that. -/
def Refuses (p : Reader α) (ps : List Piece) (F : List Char → Prop) : Prop :=
  ∀ cs vs, F cs → p ⟨Piece.chars ps ++ cs, vs⟩ = none

/-- Any text may stand behind. -/
def Anything (_ : List Char) : Prop := True

variable {p q : Reader α} {k : α → Reader β} {ps qs : List Piece} {a : α} {b : β}
  {F G : List Char → Prop}

theorem Reads.weaken (h : Reads p ps a F) (hFG : ∀ cs, G cs → F cs) : Reads p ps a G :=
  fun cs vs hcs => h cs vs (hFG cs hcs)

theorem reads_pure (a : α) (F : List Char → Prop) : Reads (pure a) [] a F := fun _ _ _ => rfl

/-- Pieces are read one after another, if the first reader is stopped by the second pieces. -/
theorem Reads.bind (hp : Reads p ps a F) (hk : Reads (k a) qs b G)
    (hstop : ∀ cs, G cs → F (Piece.chars qs ++ cs)) : Reads (p >>= k) (ps ++ qs) b G := by
  intro cs vs hcs
  have hp := hp (Piece.chars qs ++ cs) (Piece.values qs ++ vs) (hstop cs hcs)
  have hk := hk cs vs hcs
  change (p _).bind (fun r => k r.1 r.2) = _
  rw [Piece.chars_append, Piece.values_append, List.append_assoc, List.append_assoc, hp]
  exact hk

/-- What the first of two readers reads, both of them do. -/
theorem Reads.orElse_left (hp : Reads p ps a F) : Reads (p <|> q) ps a F := by
  intro cs vs hcs
  change ((p _).orElse fun _ => q _) = _
  rw [hp cs vs hcs]
  rfl

/-- What the first of two readers refuses is for the second. -/
theorem Reads.orElse_right (hq : Reads q ps a F) (hp : Refuses p ps F) :
    Reads (p <|> q) ps a F := by
  intro cs vs hcs
  change ((p _).orElse fun _ => q _) = _
  rw [hp cs _ hcs]
  exact hq cs vs hcs

/-- A reader does not see how its text is made up of pieces. -/
theorem Reads.congr (h : Reads p ps a F) (hchars : Piece.chars ps = Piece.chars qs)
    (hvalues : Piece.values ps = Piece.values qs) : Reads p qs a F := by
  intro cs vs hcs
  rw [← hchars, ← hvalues]
  exact h cs vs hcs

/-- What is read may be refused further on. -/
theorem Reads.refuses (hp : Reads p ps a F) (hk : Refuses (k a) qs G)
    (hstop : ∀ cs, G cs → F (Piece.chars qs ++ cs)) (hvalues : Piece.values ps = []) :
    Refuses (p >>= k) (ps ++ qs) G := by
  intro cs vs hcs
  have hp := hp (Piece.chars qs ++ cs) vs (hstop cs hcs)
  rw [hvalues, List.nil_append] at hp
  change (p _).bind (fun r => k r.1 r.2) = _
  rw [Piece.chars_append, List.append_assoc, hp]
  exact hk cs vs hcs

theorem Refuses.congr (h : Refuses p ps F) (hchars : Piece.chars ps = Piece.chars qs) :
    Refuses p qs F := by
  intro cs vs hcs
  rw [← hchars]
  exact h cs vs hcs

theorem Refuses.bind (hp : Refuses p ps F) : Refuses (p >>= k) ps F := by
  intro cs vs hcs
  change (p _).bind (fun r => k r.1 r.2) = _
  rw [hp cs vs hcs]
  rfl

theorem Refuses.orElse (hp : Refuses p ps F) (hq : Refuses q ps F) : Refuses (p <|> q) ps F := by
  intro cs vs hcs
  change ((p _).orElse fun _ => q _) = _
  rw [hp cs vs hcs]
  exact hq cs vs hcs

/-! ### Fixed texts -/

theorem reads_literal (w : String) (F : List Char → Prop) :
    Reads (literal w) [.text w] () F := by
  intro cs vs _
  have hpre : w.toList <+: w.toList ++ cs := List.prefix_append _ _
  simp [literal, Piece.values, Piece.value?, hpre]

/-- A fixed text is refused where it does not stand. -/
theorem refuses_literal {w : String} (h : ∀ cs, F cs → ¬w.toList <+: Piece.chars ps ++ cs) :
    Refuses (literal w) ps F := by
  intro cs vs hcs
  simp only [literal, h cs hcs, if_false]

/-- Fixed texts are refused where none of them stands. -/
theorem refuses_choice {ws : List (String × α)}
    (h : ∀ w ∈ ws, ∀ cs, F cs → ¬w.1.toList <+: Piece.chars ps ++ cs) :
    Refuses (choice ws) ps F := by
  induction ws with
  | nil => exact fun _ _ _ => rfl
  | cons w ws ih =>
    exact (refuses_literal (h w List.mem_cons_self)).bind.orElse
      (ih fun w hw => h w (List.mem_cons_of_mem _ hw))

/-- A fixed text is refused where everything that may stand is apart from it. -/
theorem refuses_literal_of_apart {w : String} {ts : List String} (h : Apart w ts) :
    Refuses (literal w) [] (Follows ts) :=
  refuses_literal fun _ hcs => hcs.not_prefix h

/-- Fixed texts are refused where everything that may stand is apart from them. -/
theorem refuses_choice_of_apart {ws : List (String × α)} {ts : List String}
    (h : ∀ w ∈ ws, Apart w.1 ts) : Refuses (choice ws) [] (Follows ts) :=
  refuses_choice fun w hw _ hcs => hcs.not_prefix (h w hw)

/-- Texts none of which begins another are told apart. -/
theorem reads_choice {ws : List (String × α)} {w : String} (h : (w, a) ∈ ws)
    (hws : ws.Pairwise fun x y => ¬x.1.toList <+: y.1.toList ∧ ¬y.1.toList <+: x.1.toList)
    (F : List Char → Prop) : Reads (choice ws) [.text w] a F := by
  induction ws with
  | nil => simp at h
  | cons x ws ih =>
    obtain ⟨hx, hws⟩ := List.pairwise_cons.mp hws
    rcases List.mem_cons.mp h with rfl | h
    · exact ((reads_literal w F).bind (reads_pure a F) fun _ h => h).orElse_left
    · refine (ih h hws).orElse_right (refuses_literal fun cs _ hpre => ?_).bind
      -- both texts would stand at the same place, so one would begin the other
      have hw : w.toList <+: Piece.chars [.text w] ++ cs := by simp
      rcases List.prefix_or_prefix_of_prefix hpre hw with hxw | hwx
      · exact (hx _ h).1 hxw
      · exact (hx _ h).2 hwx

/-! ### Placeholders and names -/

theorem reads_slot (v : Value) (F : List Char → Prop) : Reads slot [.slot v] v F := by
  have hmark : "?".toList = ['?'] := by decide
  intro cs vs _
  change (literal "?" _).bind (fun r => value r.2) = _
  simp [literal, hmark, value, Piece.values, Piece.value?]

/-- Nothing but a placeholder is read for one. -/
theorem refuses_slot (h : ∀ cs, F cs → (Piece.chars ps ++ cs).head? ≠ some '?') :
    Refuses slot ps F := by
  refine (refuses_literal fun cs hcs hpre => h cs hcs ?_).bind
  obtain ⟨rest, hrest⟩ := hpre
  rw [← hrest, List.head?_append]
  rfl

/-- A quoted text is read up to its last quote. -/
theorem unquote_double {quote : Char} {rest : List Char} (hrest : rest.head? ≠ some quote)
    (cs : List Char) : unquote quote (Text.double quote cs ++ quote :: rest) = some (cs, rest) := by
  induction cs with
  | nil =>
    cases rest with
    | nil => simp [Text.double, unquote]
    | cons d rest =>
      have hd : d ≠ quote := fun h => hrest (by rw [h]; rfl)
      simp [Text.double, unquote, hd]
  | cons c cs ih =>
    rw [Text.double]
    split
    · next hc => simp [unquote, ih, hc]
    · next hc =>
      obtain ⟨d, ds, hds⟩ := List.exists_cons_of_ne_nil
        (show Text.double quote cs ++ quote :: rest ≠ [] by simp)
      rw [List.cons_append, hds, unquote, if_neg hc, ← hds, ih]
      rfl

/-- **A name is read back**, whatever it is made of. -/
theorem reads_name (s : String) : Reads name [.name s] s Breaks := by
  intro cs vs hcs
  simp only [Piece.chars_name, Piece.chars_nil, List.append_nil]
  cases hplain : Text.isPlain s with
  | false =>
    have hhead : cs.head? ≠ some '"' := fun h => (hcs '"' h).2 rfl
    rw [Text.quoteName_of_not_isPlain hplain]
    simp [Text.quoted, name, unquote_double hhead, Piece.values, Piece.value?]
  | true =>
    rw [Text.quoteName_of_isPlain hplain]
    unfold Text.isPlain Text.isPlainChars at hplain
    cases hs : s.toList with
    | nil => simp [hs] at hplain
    | cons c rest =>
      rw [hs, Bool.and_eq_true] at hplain
      obtain ⟨hstart, hparts⟩ := hplain
      have hquote : c ≠ '"' := by
        rintro rfl
        exact absurd hstart (by decide)
      have htake : (rest ++ cs).takeWhile Text.isNamePart = rest := by
        rw [List.takeWhile_append_of_pos (by simpa using hparts)]
        cases cs with
        | nil => simp
        | cons d ds => simp [(hcs d rfl).1]
      have hdrop : (rest ++ cs).dropWhile Text.isNamePart = cs := by
        rw [List.dropWhile_append_of_pos (by simpa using hparts)]
        cases cs with
        | nil => simp
        | cons d ds => simp [(hcs d rfl).1]
      have hname : String.ofList (c :: rest) = s := by rw [← hs, String.ofList_toList]
      simp only [List.cons_append, name, hquote, if_false, hstart, if_true, htake, hdrop, hname]
      rfl

/-- No name begins with what neither begins a plain name nor is a quote. -/
theorem refuses_name (h : ∀ cs, F cs → ∀ c ∈ (Piece.chars ps ++ cs).head?,
    Text.isNameStart c = false ∧ c ≠ '"') : Refuses name ps F := by
  intro cs vs hcs
  have h := h cs hcs
  simp only [name]
  cases hchars : Piece.chars ps ++ cs with
  | nil => rfl
  | cons c rest =>
    rw [hchars] at h
    obtain ⟨hstart, hquote⟩ := h c rfl
    simp [hquote, hstart]

/-! ### Repetition -/

theorem many_eq (p : Reader α) (s : Input) :
    many p s =
      match p s with
      | none => some ([], s)
      | some (a, s') =>
        if s'.chars.length < s.chars.length then (many p s').map fun r => (a :: r.1, r.2)
        else some ([a], s') := by
  rw [many]

/-- Where the reader refuses what follows, there are none. -/
theorem reads_many_nil (h : Refuses p [] F) : Reads (many p) [] [] F := by
  intro cs vs hcs
  have h := h cs vs hcs
  change many p ⟨cs, vs⟩ = _
  simp only [Piece.chars_nil, List.nil_append] at h
  rw [many_eq, h]

/-- One more is read, if it takes something and is stopped by the others. -/
theorem reads_many_cons {as : List α} (hp : Reads p ps a F) (hmany : Reads (many p) qs as G)
    (hstop : ∀ cs, G cs → F (Piece.chars qs ++ cs)) (hne : Piece.chars ps ≠ []) :
    Reads (many p) (ps ++ qs) (a :: as) G := by
  intro cs vs hcs
  have hp := hp (Piece.chars qs ++ cs) (Piece.values qs ++ vs) (hstop cs hcs)
  have hlen : 0 < (Piece.chars ps).length := List.length_pos_iff.mpr hne
  rw [Piece.chars_append, Piece.values_append, List.append_assoc, List.append_assoc, many_eq, hp]
  simp only [List.length_append]
  rw [if_pos (by omega), hmany cs vs hcs]
  rfl

/-- **A list with a fixed text between its members is read back**, if that text does not follow
the list and stops the reader of a member. -/
theorem reads_separatedBy (sep : String) {f : β → List Piece} {g : β → α}
    (hf : ∀ b, Reads p (f b) (g b) F) (b : β) (bs : List β)
    (hsep : ∀ cs, F (sep.toList ++ cs)) (hG : ∀ cs, G cs → F cs)
    (hstop : ∀ cs, G cs → ¬sep.toList <+: cs) (hne : sep.toList ≠ []) :
    Reads (separatedBy sep p) (Piece.separated sep (f b :: bs.map f)) (g b :: bs.map g) G := by
  have hmember : ∀ b, Reads (do literal sep; p) (.text sep :: f b) (g b) F := fun b =>
    (reads_literal sep Anything).bind (hf b) fun _ _ => trivial
  have hF : ∀ (bs : List β) cs, G cs →
      F (Piece.chars (bs.flatMap fun b => .text sep :: f b) ++ cs) := by
    intro bs cs hcs
    cases bs with
    | nil => exact hG cs hcs
    | cons b bs =>
      rw [List.flatMap_cons, List.cons_append, Piece.chars_text, List.append_assoc]
      exact hsep _
  have hmany : Reads (many (do literal sep; p)) (bs.flatMap fun b => .text sep :: f b)
      (bs.map g) G := by
    induction bs with
    | nil => exact reads_many_nil (refuses_literal hstop).bind
    | cons b bs ih => exact reads_many_cons (hmember b) ih (hF bs) (by simp [hne])
  have hpieces : Piece.separated sep (f b :: bs.map f) =
      f b ++ ((bs.flatMap fun b => .text sep :: f b) ++ []) := by
    rw [Piece.separated_cons, List.flatMap_map, List.append_nil]
  rw [hpieces]
  refine (hf b).bind (hmany.bind (reads_pure _ G) fun cs hcs => hcs) fun cs hcs => ?_
  rw [List.append_nil]
  exact hF bs cs hcs

end Reader

end DottedQuery
