import DottedQuery.Proofs.Json.Nesting
import DottedQuery.Proofs.Search.Defects
import Mathlib.Data.List.Nodup
import Mathlib.Data.List.Perm.Basic

/-!
# Two ways to write a criterion

A criterion is an object that names its parts, or an array that has them at their places. The two
forms say the same (`DottedQuery.SearchRequest.forms_agree`): an object with a field, a word and a
value may be rewritten to an array of the three, and to one of four if its flag is on, whatever the
fourth element is. Any number of criteria of a request may be rewritten, in items of either form
(`DottedQuery.SearchItem.Rewritten`), and the request stays the same.

| object                                 | array             |
|----------------------------------------|-------------------|
| `field`, `where`, `value`              | `[f, w, v]`       |
| `field`, `where`, `value`, `or: false` | `[f, w, v]`       |
| `field`, `where`, `value`, `or: true`  | `[f, w, v, x]`    |

There is one condition: the fourth element is a value that there is room for. An object with a flag
has nothing in its place that could be nested, so a fourth element may be what takes a request past
the depth that is read (`DottedQuery.SearchRequest.fourth_too_deep`).

The forms differ in what they do to an element of the wrong kind. In an array a field or a word that
is no text, and an element that is not there, make a criterion that lacks the part; the rules report
it at its place like any part that is missing (`DottedQuery.Rules.validate_of_lacks`).
-/

namespace DottedQuery

open Json (Decoder Document Fields Letter)

/-! ### Members in any order -/

/-- Where no key stands twice, the order makes no difference to what is found. -/
theorem Dict.lookup_perm {α : Type} {es es' : List (String × α)} (h : es.Perm es')
    (hes : (es.map Prod.fst).Nodup) (key : String) : lookup key es = lookup key es' := by
  refine Option.ext fun value => ?_
  rw [lookup_eq_some_iff_of_nodup hes, h.mem_iff,
    lookup_eq_some_iff_of_nodup ((h.map Prod.fst).nodup hes)]

namespace Json.Decoder

theorem distinct_iff_nodup {ss : List String} : distinct ss = true ↔ ss.Nodup := by
  induction ss with
  | nil => simp [distinct]
  | cons s ss ih => simp [distinct, ih, List.nodup_cons]

/-- What is decoded from members in another order is the same, in another order. -/
theorem mapM_perm {α β : Type} {f : α → Option β} {xs ys : List α} {bs : List β}
    (h : xs.Perm ys) (hys : ys.mapM f = some bs) : ∃ as, xs.mapM f = some as ∧ as.Perm bs := by
  obtain ⟨as, has, hperm⟩ := List.perm_comp_forall₂ h (mapM_eq_some_iff.mp hys)
  exact ⟨as, mapM_eq_some_iff.mpr has, hperm⟩

/-- What does not look at the order comes to the same. -/
theorem bind_mapM_perm {α β γ : Type} {f : α → Option β} {g : List β → Option γ}
    (hg : ∀ as bs, as.Perm bs → g as = g bs) {xs ys : List α} (h : xs.Perm ys) :
    (xs.mapM f).bind g = (ys.mapM f).bind g := by
  rcases hys : ys.mapM f with _ | bs
  · rcases hxs : xs.mapM f with _ | as
    · rfl
    · obtain ⟨bs, hbs, -⟩ := mapM_perm h.symm hxs
      simp [hys] at hbs
  · obtain ⟨as, has, hperm⟩ := mapM_perm h hys
    rw [has, Option.bind_some, Option.bind_some, hg as bs hperm]

/-- Members whose keys are texts are read one by one. -/
theorem members?_of_keyed? {room : Nat} {ms : List (List Letter × Source)}
    {kms : List (String × Source)} (h : keyed? ms = some kms) :
    Source.members? room ms = kms.mapM fun m => (m.2.document? room).map (m.1, ·) := by
  have hall := mapM_eq_some_iff.mp h
  clear h
  induction hall with
  | nil => rfl
  | cons hm _ ih =>
    obtain ⟨k, hk, rfl⟩ := Option.map_eq_some_iff.mp hm
    rw [Source.members?, hk, ih, List.mapM_cons]
    rcases Source.document? room _ with _ | d
    · rfl
    · simp only [Option.bind_eq_bind, Option.bind_some, Option.pure_def,
        Option.map_eq_bind]
      rfl

/-- A list of values is decoded one by one. -/
theorem ofDocuments?_elements? (room : Nat) (xs : List Source) :
    (Source.elements? room xs).bind Value.ofDocuments? = xs.mapM (Value.decoder room) := by
  induction xs with
  | nil => rfl
  | cons x xs ih =>
    rw [List.mapM_cons, ← ih, Source.elements?, Value.decoder, whole]
    rcases x.document? room with _ | d
    · rfl
    · rcases Source.elements? room xs with _ | ds <;> rcases hd : Value.ofDocument? d with _ | v <;>
        simp only [Value.ofDocuments?, hd, Option.map_eq_bind, Function.comp_def, Option.bind_none,
          Option.bind_some, Option.bind_fun_none, Option.bind_eq_bind, Option.pure_def]

end Json.Decoder

namespace Criterion

/-- The member for the value; there may be none. -/
def valueMember? (ms : List (String × Document)) : Option (Option Value) :=
  match Dict.lookup "value" ms with
  | none => some none
  | some d => (Value.ofDocument? d).map some

/-- The member for the flag; without it the flag is off. -/
def flagMember? (ms : List (String × Document)) : Option Bool :=
  match Dict.lookup "or" ms with
  | none => some false
  | some (.bool b) => some b
  | some _ => none

/-- The members that are keys of a criterion. -/
def known (ms : List (String × Document)) : List (String × Document) :=
  ms.filter fun m => keys.contains m.1

/-- The criterion written as an object is read member by member. -/
theorem ofMembers?_eq (ms : List (String × Document)) : ofMembers? ms =
    if Decoder.distinct ((known ms).map Prod.fst) then
      (textMember? (known ms) "field").bind fun field =>
        (textMember? (known ms) "where").bind fun op =>
          (valueMember? (known ms)).bind fun value =>
            (flagMember? (known ms)).map fun or => ⟨field, op, present value, or⟩
    else none := by
  have hknown : ms.filter (fun m => keys.contains m.1) = known ms := rfl
  simp only [ofMembers?, hknown, valueMember?, flagMember?, Option.bind_eq_bind]
  generalize known ms = ms
  rcases Decoder.distinct (ms.map Prod.fst) with _ | _
  · rfl
  · rcases Dict.lookup "value" ms with _ | d
    all_goals
      rcases Dict.lookup "or" ms with _ | flag
      · rfl
      · cases flag <;> rfl

/-- **The order of the members makes no difference.** -/
theorem ofMembers?_perm {ms ms' : List (String × Document)} (h : ms.Perm ms') :
    ofMembers? ms = ofMembers? ms' := by
  have hknown : (known ms).Perm (known ms') := h.filter _
  have hkeys := hknown.map Prod.fst
  rw [ofMembers?_eq, ofMembers?_eq]
  by_cases hnodup : ((known ms).map Prod.fst).Nodup
  · have hlookup := Dict.lookup_perm hknown hnodup
    rw [if_pos (Decoder.distinct_iff_nodup.mpr hnodup),
      if_pos (Decoder.distinct_iff_nodup.mpr (hkeys.nodup hnodup))]
    simp only [textMember?, valueMember?, flagMember?, hlookup]
  · rw [if_neg (mt Decoder.distinct_iff_nodup.mp hnodup),
      if_neg (mt Decoder.distinct_iff_nodup.mp (mt hkeys.nodup_iff.mpr hnodup))]

/-! ### A criterion in both forms -/

/-- A criterion written as an object is read from the members. -/
theorem decoder_object (room : Nat) (ms : List (List Letter × Json.Source)) :
    decoder (room + 1) (.object ms) = (Json.Source.members? room ms).bind ofMembers? := by
  rw [decoder, Decoder.whole, Json.Source.document?, Option.bind_map]
  rfl

/-- A criterion written as an array is read from the values of its elements. -/
theorem decoder_array (room : Nat) (xs : List Json.Source) :
    decoder (room + 1) (.array xs) = (xs.mapM (Value.decoder room)).map ofElements := by
  rw [decoder, Decoder.whole, Json.Source.document?, Option.bind_map,
    ← Decoder.ofDocuments?_elements?, Option.map_bind]
  rfl

end Criterion

/-- A shape is a string or `null`. -/
def Json.Source.IsTextOrNull : Json.Source → Prop
  | .string _ | .null => True
  | _ => False

/-- A document is a text or `null`. -/
def Json.Document.IsTextOrNull : Document → Prop
  | .string _ | .null => True
  | _ => False

/-- What such a shape stands for is a text or `null`. -/
theorem Json.Source.IsTextOrNull.document {x : Json.Source} (h : x.IsTextOrNull) {room : Nat}
    {d : Document} (hd : x.document? room = some d) : d.IsTextOrNull := by
  cases x with
  | null =>
    obtain rfl := Option.some.inj hd
    trivial
  | string ls =>
    obtain ⟨s, -, rfl⟩ := Option.map_eq_some_iff.mp hd
    trivial
  | _ => exact h.elim

/-- The members of an object that names the parts of a criterion; there may be no flag. -/
def Criterion.parts {α : Type} (f w v : α) (flag : Option α) : List (String × α) :=
  [("field", f), ("where", w), ("value", v)] ++ (flag.map ("or", ·)).toList

/-- **An object names the parts of a criterion**: a field and a word that are strings or `null`, a
value, and a flag or none. The members may stand in any order. -/
structure Criterion.Named (ms : List (List Letter × Json.Source)) (f w v : Json.Source)
    (flag : Option Bool) : Prop where
  /-- The field. -/
  field : f.IsTextOrNull
  /-- The word for the operator. -/
  op : w.IsTextOrNull
  /-- The members. -/
  members : ∃ kms, Decoder.keyed? ms = some kms ∧ kms.Perm (parts f w v (flag.map .bool))

namespace Criterion

/-- A member that is a text or `null` is read as the text of its value. -/
theorem textMember?_of_lookup {ms : List (String × Document)} {key : String} {d : Document}
    (h : Dict.lookup key ms = some d) (hd : d.IsTextOrNull) :
    ∃ value, Value.ofDocument? d = some value ∧ textMember? ms key = some value.text? := by
  rw [textMember?, h]
  cases d with
  | null => exact ⟨.null, rfl, rfl⟩
  | string s => exact ⟨.string s, rfl, rfl⟩
  | _ => exact hd.elim

/-- The members for the parts of a criterion are read like its elements, but for the flag. -/
theorem ofMembers?_parts {f w : Document} (hf : f.IsTextOrNull) (hw : w.IsTextOrNull)
    (v : Document) (flag : Option Bool) :
    ofMembers? (parts f w v (flag.map .bool)) =
      (Value.ofDocuments? [f, w, v]).map fun vs =>
        { ofElements vs with or := flag.getD false } := by
  have hknown : known (parts f w v (flag.map .bool)) = parts f w v (flag.map .bool) := by
    rcases flag with _ | b <;> rfl
  have hdistinct : Decoder.distinct ((parts f w v (flag.map .bool)).map Prod.fst) = true := by
    rcases flag with _ | b <;> rfl
  have hvalue : valueMember? (parts f w v (flag.map .bool)) = (Value.ofDocument? v).map some := rfl
  have hflag : flagMember? (parts f w v (flag.map .bool)) = some (flag.getD false) := by
    rcases flag with _ | b <;> rfl
  obtain ⟨field, hfield, hfield'⟩ :=
    textMember?_of_lookup (show Dict.lookup "field" (parts f w v (flag.map .bool)) = _ from rfl) hf
  obtain ⟨op, hop, hop'⟩ :=
    textMember?_of_lookup (show Dict.lookup "where" (parts f w v (flag.map .bool)) = _ from rfl) hw
  rw [ofMembers?_eq, hknown, if_pos hdistinct, hfield', hop', hvalue, hflag]
  simp only [Value.ofDocuments?, hfield, hop]
  rcases Value.ofDocument? v with _ | value <;> rfl

/-- **A criterion that names its parts is the one of their values**, but for the flag. -/
theorem decoder_named {ms : List (List Letter × Json.Source)} {f w v : Json.Source}
    {flag : Option Bool} (h : Named ms f w v flag) (room : Nat) :
    decoder (room + 1) (.object ms) =
      ([f, w, v].mapM (Value.decoder room)).map fun vs =>
        { ofElements vs with or := flag.getD false } := by
  obtain ⟨kms, hkms, hperm⟩ := h.members
  rw [decoder_object, Decoder.members?_of_keyed? hkms,
    Decoder.bind_mapM_perm (fun _ _ => ofMembers?_perm) hperm, ← Decoder.ofDocuments?_elements?]
  rcases hf : f.document? room with _ | f'
  · simp [parts, Json.Source.elements?, hf]
  rcases hw : w.document? room with _ | w'
  · simp [parts, Json.Source.elements?, hf, hw]
  rcases hv : v.document? room with _ | v'
  · simp [parts, Json.Source.elements?, hf, hw, hv]
  have helements : Json.Source.elements? room [f, w, v] = some [f', w', v'] := by
    simp [Json.Source.elements?, hf, hw, hv]
  have hmembers : (parts f w v (flag.map .bool)).mapM
      (fun m => (m.2.document? room).map (m.1, ·)) = some (parts f' w' v' (flag.map .bool)) := by
    rcases flag with _ | b <;> simp [parts, hf, hw, hv, Json.Source.document?]
  rw [helements, hmembers, Option.bind_some, Option.bind_some,
    ofMembers?_parts (h.field.document hf) (h.op.document hw)]

/-- Three values are decoded one by one. -/
theorem eq_of_mapM_three {room : Nat} {f w v : Json.Source} {vs : List Value}
    (h : [f, w, v].mapM (Value.decoder room) = some vs) : ∃ a b c, vs = [a, b, c] := by
  have hlength := (Decoder.mapM_eq_some_iff.mp h).length_eq
  exact List.length_eq_three.mp hlength.symm

/-- **A criterion in its other form**, for elements with room for `room` arrays and objects. -/
inductive Rewritten (room : Nat) : Json.Source → Json.Source → Prop
  /-- It is left as it is. -/
  | same (x : Json.Source) : Rewritten room x x
  /-- The flag is off or not there: the other three parts become elements. -/
  | three {ms : List (List Letter × Json.Source)} {f w v : Json.Source} {flag : Option Bool}
      (named : Named ms f w v flag) (off : flag.getD false = false) :
      Rewritten room (.object ms) (.array [f, w, v])
  /-- The flag is on: there is a fourth element, whatever value it is. -/
  | four {ms : List (List Letter × Json.Source)} {f w v x : Json.Source} {value : Value}
      (named : Named ms f w v (some true)) (fourth : Value.decoder room x = some value) :
      Rewritten room (.object ms) (.array [f, w, v, x])

/-- **A criterion in its other form is the same criterion.** -/
theorem Rewritten.decoder_eq {room : Nat} {x x' : Json.Source} (h : Rewritten room x x') :
    decoder (room + 1) x' = decoder (room + 1) x := by
  cases h with
  | same => rfl
  | three named off =>
    rw [decoder_named named, decoder_array, off]
    refine Option.map_congr fun vs hvs => ?_
    obtain ⟨a, b, c, rfl⟩ := eq_of_mapM_three hvs
    rfl
  | @four ms f w v x value named fourth =>
    have happend : [f, w, v, x].mapM (Value.decoder room) =
        ([f, w, v].mapM (Value.decoder room)).map (· ++ [value]) := by
      rw [show [f, w, v, x] = [f, w, v] ++ [x] from rfl, List.mapM_append]
      simp only [List.mapM_cons, List.mapM_nil, fourth, Option.map_eq_bind, Function.comp_def,
        Option.bind_some, Option.bind_eq_bind, Option.pure_def]
    rw [decoder_named named, decoder_array, happend, Option.map_map]
    refine Option.map_congr fun vs hvs => ?_
    obtain ⟨a, b, c, rfl⟩ := eq_of_mapM_three hvs
    rfl

end Criterion

/-! ### Requests in both forms -/

/-- Two arrays whose elements are related, each to the one at its place. -/
def Json.Source.Elementwise (r : Json.Source → Json.Source → Prop) (x x' : Json.Source) : Prop :=
  ∃ xs xs', x = .array xs ∧ x' = .array xs' ∧ List.Forall₂ r xs xs'

/-- Lists whose members are decoded alike are decoded alike. -/
theorem Json.Source.Elementwise.list_eq {α : Type} {d : Decoder α} {room : Nat}
    {r : Json.Source → Json.Source → Prop} (hr : ∀ x x', r x x' → d room x' = d room x)
    {x x' : Json.Source} (h : Elementwise r x x') :
    Decoder.list d (room + 1) x' = Decoder.list d (room + 1) x := by
  obtain ⟨xs, xs', rfl, rfl, h⟩ := h
  change xs'.mapM (d room) = xs.mapM (d room)
  induction h with
  | nil => rfl
  | cons hx _ ih => rw [List.mapM_cons, List.mapM_cons, hr _ _ hx, ih]

namespace SearchItem

/-- **An item whose criteria are in other forms**, in either form of the item. -/
inductive Rewritten (room : Nat) : Json.Source → Json.Source → Prop
  /-- It is left as it is. -/
  | same (x : Json.Source) : Rewritten room x x
  /-- The criteria are the second element. -/
  | element {e c c' : Json.Source}
      (criteria : Json.Source.Elementwise (Criterion.Rewritten room) c c') :
      Rewritten room (.array [e, c]) (.array [e, c'])
  /-- The criteria are the member with their name. -/
  | member {before after : List (List Letter × Json.Source)} {key : List Letter}
      {c c' : Json.Source} (named : Json.text? key = some "criteria")
      (criteria : Json.Source.Elementwise (Criterion.Rewritten room) c c') :
      Rewritten room (.object (before ++ (key, c) :: after))
        (.object (before ++ (key, c') :: after))

/-- The item that fields hold. -/
def ofFields? (f : Fields) : Option SearchItem := do
  return {
    entity := ← f.withDefault "entity" none (.optional .text)
    criteria := ← f.withDefault "criteria" none (.optional (.list Criterion.decoder)) }

theorem decoder_eq (room : Nat) (x : Json.Source) :
    decoder room x = (Decoder.fields ["entity", "criteria"] room x).bind ofFields? := rfl

/-- Only what the criteria are decoded as matters. -/
theorem ofFields?_congr {room : Nat} {before after : List (String × Json.Source)}
    {c c' : Json.Source}
    (h : Decoder.optional (.list Criterion.decoder) room c' =
      Decoder.optional (.list Criterion.decoder) room c) :
    ofFields? ⟨room, before ++ ("criteria", c') :: after⟩ =
      ofFields? ⟨room, before ++ ("criteria", c) :: after⟩ := by
  have hentity : ∀ x : Json.Source, Dict.lookup "entity" (before ++ ("criteria", x) :: after) =
      (Dict.lookup "entity" before).or (Dict.lookup "entity" after) :=
    fun x => Dict.lookup_append "entity" before _
  have hcriteria : ∀ x : Json.Source, Dict.lookup "criteria" (before ++ ("criteria", x) :: after) =
      (Dict.lookup "criteria" before).or (some x) :=
    fun x => Dict.lookup_append "criteria" before _
  simp only [ofFields?, Fields.withDefault, hentity, hcriteria]
  rcases Dict.lookup "criteria" before with _ | x
  · simp only [Option.none_or, h]
  · rfl

/-- The members that are fields of an item. -/
def own (ms : List (String × Json.Source)) : List (String × Json.Source) :=
  ms.filter fun m => ["entity", "criteria"].contains m.1

/-- The fields of an item that is written as an object, if no name stands twice. -/
def fieldsOf (room : Nat) (ms : List (String × Json.Source)) : Option Fields :=
  if Decoder.distinct ((own ms).map Prod.fst) then some ⟨room, own ms⟩ else none

theorem fields_object (room : Nat) (ms : List (List Letter × Json.Source)) :
    Decoder.fields ["entity", "criteria"] (room + 1) (.object ms) =
      (Decoder.keyed? ms).bind (fieldsOf room) := rfl

/-- The keys of members around one of them. -/
theorem keyed?_around {before after : List (List Letter × Json.Source)} {key : List Letter}
    {name : String} (hkey : Json.text? key = some name) (x : Json.Source) :
    Decoder.keyed? (before ++ (key, x) :: after) =
      (Decoder.keyed? before).bind fun b => (Decoder.keyed? after).map fun a =>
        b ++ (name, x) :: a := by
  simp only [Decoder.keyed?, List.mapM_append, List.mapM_cons, hkey, Option.map_eq_bind,
    Function.comp_def, Option.bind_some, Option.bind_assoc, Option.bind_eq_bind, Option.pure_def]

/-- **An item whose criteria are in other forms is the same item.** -/
theorem Rewritten.decoder_eq {room : Nat} {x x' : Json.Source} (h : Rewritten room x x') :
    decoder (room + 3) x' = decoder (room + 3) x := by
  have hcriteria : ∀ {c c'}, Json.Source.Elementwise (Criterion.Rewritten room) c c' →
      Decoder.optional (.list Criterion.decoder) (room + 2) c' =
        Decoder.optional (.list Criterion.decoder) (room + 2) c := by
    intro c c' hc
    have hlist := hc.list_eq fun _ _ => Criterion.Rewritten.decoder_eq
    obtain ⟨xs, xs', rfl, rfl, -⟩ := hc
    exact congrArg (Option.map some) hlist
  rw [SearchItem.decoder_eq, SearchItem.decoder_eq]
  cases h with
  | same => rfl
  | @element e c c' criteria =>
    exact @ofFields?_congr (room + 2) [("entity", e)] [] c c' (hcriteria criteria)
  | @member before after key c c' named criteria =>
    -- what is told of the fields does not depend on the criteria
    have hfields : ∀ (x : Json.Source) (b a : List (String × Json.Source)),
        fieldsOf (room + 2) (b ++ ("criteria", x) :: a) =
          if Decoder.distinct ((own b).map Prod.fst ++ "criteria" :: (own a).map Prod.fst) then
            some ⟨room + 2, own b ++ ("criteria", x) :: own a⟩
          else none := by
      intro x b a
      simp [fieldsOf, own, List.filter_append]
    rw [fields_object, fields_object, keyed?_around named, keyed?_around named]
    simp only [Option.bind_assoc, Option.bind_map]
    refine congrArg _ (funext fun b => congrArg _ (funext fun a => ?_))
    simp only [Function.comp_apply, hfields]
    split
    · exact ofFields?_congr (hcriteria criteria)
    · rfl

end SearchItem

namespace SearchRequest

/-- **A request whose criteria are in other forms**, for elements of criteria with room for `room`
arrays and objects. -/
def Rewritten (room : Nat) : Json.Source → Json.Source → Prop :=
  Json.Source.Elementwise (SearchItem.Rewritten room)

/-- **A request whose criteria are in other forms is the same request.** -/
theorem Rewritten.decoder_eq {room : Nat} {x x' : Json.Source} (h : Rewritten room x x') :
    decoder (room + 4) x' = decoder (room + 4) x :=
  congrArg (Option.map SearchRequest.mk)
    (Json.Source.Elementwise.list_eq (fun _ _ => SearchItem.Rewritten.decoder_eq) h)

/-- So is its text. -/
theorem Rewritten.ofText_eq {t t' : String} {x x' : Json.Source}
    (ht : Json.Source.read? t = some x) (ht' : Json.Source.read? t' = some x')
    (h : Rewritten (Json.maxDepth - 4) x x') : ofText t' = ofText t := by
  have hdecode : Decoder.decode? decoder t' = Decoder.decode? decoder t := by
    rw [Decoder.decode?, Decoder.decode?, ht, ht', Option.bind_some, Option.bind_some]
    exact h.decoder_eq
  rw [ofText, ofText, hdecode]

end SearchRequest

/-! ### Parts that are missing -/

/-- What the elements of a criterion lack: a field or a word if there is no text at its place, and a
value if there is none or `null`. -/
def Criterion.ElementsLack (vs : List Value) : CriterionPart → Prop
  | .field => ∀ s, vs[0]? ≠ some (.string s)
  | .operator => ∀ s, vs[1]? ≠ some (.string s)
  | .value => ∀ v, vs[2]? = some v → v.isNull = true

/-- A criterion lacks a part altogether. -/
def Criterion.Lacks (c : Criterion) : CriterionPart → Prop
  | .field => c.field = none
  | .operator => c.op = none
  | .value => c.value = none

namespace Criterion

theorem bind_text?_eq_none {o : Option Value} (h : ∀ s, o ≠ some (.string s)) :
    o.bind Value.text? = none := by
  rcases o with _ | v
  · rfl
  · cases v with
    | string s => exact absurd rfl (h s)
    | _ => rfl

/-- What its elements lack, a criterion lacks. -/
theorem lacks_ofElements {vs : List Value} {p : CriterionPart} (h : ElementsLack vs p) :
    (ofElements vs).Lacks p := by
  cases p with
  | field => exact bind_text?_eq_none h
  | operator => exact bind_text?_eq_none h
  | value =>
    refine Option.filter_eq_none_iff.mpr fun v hv => ?_
    simp [h v hv]

end Criterion

namespace Rules

/-- A part that is lacking is missing. -/
theorem partComplaint?_of_lacks {c : Criterion} {p : CriterionPart} (h : c.Lacks p) (item : Nat) :
    partComplaint? item c p = some (missing item p.text) := by
  cases p with
  | field | operator | value =>
    obtain ⟨field, op, value, or⟩ := c
    cases h
    rfl

/-- **A part that is lacking is reported**, at its place and with no other message. -/
theorem validate_of_lacks (r : Rules) {request : SearchRequest} {item criterion : Nat}
    {i : SearchItem} {c : Criterion} (hi : request.items[item]? = some i)
    (hc : i.criteriaList[criterion]? = some c) {p : CriterionPart} (h : c.Lacks p) :
    ∃ m, r.validate request = .error m ∧
      m.get (criterionPlace item criterion p.text) = [missing item p.text] := by
  have hmessage : (Defect.part item criterion p).message? r request =
      some (missing item p.text) := by
    simp [Defect.message?, Defect.item, Defect.check?, hi, hc, partComplaint?_of_lacks h]
  rcases hv : r.validate request with m | _
  · refine ⟨m, rfl, ?_⟩
    have hget := get_messages r request (.part item criterion p)
    rw [hmessage, ← validate_eq_error hv] at hget
    exact hget
  · have hpasses := (validate_eq_ok_iff_defects r request).mp hv (.part item criterion p)
    rw [← Defect.isSome_message_iff, hmessage] at hpasses
    exact absurd rfl hpasses

end Rules

/-- **The two forms of a criterion say the same.** A request some of whose criteria are in their
other form is decoded as the same request, and its text holds the same request, so it passes or
fails, and compiles, alike. What an object that names its parts is decoded as is told by the values
of the parts. An array whose elements are values is always decoded as a criterion; what its elements
lack, the criterion lacks, and every request with this criterion is refused with one message at the
place of that part, which says that it is missing. -/
theorem SearchRequest.forms_agree :
    (∀ (room : Nat) (x x' : Json.Source), Rewritten room x x' →
      decoder (room + 4) x' = decoder (room + 4) x) ∧
    (∀ (t t' : String) (x x' : Json.Source), Json.Source.read? t = some x →
      Json.Source.read? t' = some x' → Rewritten (Json.maxDepth - 4) x x' →
        ofText t' = ofText t) ∧
    (∀ (room : Nat) (ms : List (List Letter × Json.Source)) (f w v : Json.Source)
      (flag : Option Bool) (vs : List Value), Criterion.Named ms f w v flag →
        [f, w, v].mapM (Value.decoder room) = some vs →
          Criterion.decoder (room + 1) (.object ms) =
            some { Criterion.ofElements vs with or := flag.getD false }) ∧
    ∀ (room : Nat) (xs : List Json.Source) (vs : List Value),
      xs.mapM (Value.decoder room) = some vs →
        ∃ c, Criterion.decoder (room + 1) (.array xs) = some c ∧
          ∀ p, Criterion.ElementsLack vs p → c.Lacks p ∧
            ∀ (r : Rules) (request : SearchRequest) (item criterion : Nat) (i : SearchItem),
              request.items[item]? = some i → i.criteriaList[criterion]? = some c →
                ∃ m, r.validate request = .error m ∧
                  m.get (Rules.criterionPlace item criterion p.text) =
                    [Rules.missing item p.text] := by
  refine ⟨fun room x x' => Rewritten.decoder_eq, fun t t' x x' => Rewritten.ofText_eq,
    fun room ms f w v flag vs hnamed hvs => ?_,
    fun room xs vs hvs => ⟨.ofElements vs, ?_, fun p hp => ?_⟩⟩
  · rw [Criterion.decoder_named hnamed, hvs, Option.map_some]
  · rw [Criterion.decoder_array, hvs, Option.map_some]
  · have hlacks := Criterion.lacks_ofElements hp
    exact ⟨hlacks, fun r request item criterion i hi hc => r.validate_of_lacks hi hc hlacks⟩

/-- An empty list inside `n` lists. -/
def Value.nested : Nat → Value
  | 0 => .array []
  | n + 1 => .array [nested n]

theorem Value.floatless_nested : ∀ n, (nested n).Floatless
  | 0 => trivial
  | n + 1 => ⟨floatless_nested n, trivial⟩

theorem Value.depth_nested : ∀ n, (nested n).depth = n + 1
  | 0 => rfl
  | n + 1 => by
    rw [nested, depth, depthOfMembers, depthOfMembers, depth_nested n, Nat.max_zero]

namespace Blog

/-- A search for users by one criterion, as JSON. -/
def searchFor (criterion : Document) : Document :=
  .array [.object [("entity", .string "user"), ("criteria", .array [criterion])]]

/-- A criterion as an object; its flag is on. -/
def namedCriterion : Document :=
  .object [("where", .string "="), ("field", .string "name"), ("value", .int 1), ("or", .bool true)]

/-- The criterion as an array, with a fourth element. -/
def positionalCriterion (fourth : Document) : Document :=
  .array [.string "name", .string "=", .int 1, fourth]

theorem floatless_named : (searchFor namedCriterion).Floatless := by
  simp [searchFor, namedCriterion, Document.Floatless, Document.FloatlessElements,
    Document.FloatlessMembers]

theorem floatless_positional {d : Document} (h : d.Floatless) :
    (searchFor (positionalCriterion d)).Floatless := by
  simp [searchFor, positionalCriterion, Document.Floatless, Document.FloatlessElements,
    Document.FloatlessMembers, h]

/-- The fourth element may be any value that there is room for. -/
theorem rewritten_positional {room : Nat} {v : Value} (h : v.Floatless) (hroom : v.depth ≤ room) :
    SearchRequest.Rewritten room (searchFor namedCriterion).source
      (searchFor (positionalCriterion v.document)).source := by
  have hnamed : Criterion.Named
      [(Json.letters "where", (Document.string "=").source),
        (Json.letters "field", (Document.string "name").source),
        (Json.letters "value", (Document.int 1).source), (Json.letters "or", .bool true)]
      (Document.string "name").source (Document.string "=").source (Document.int 1).source
      (some true) :=
    ⟨trivial, trivial, _, by simp [Decoder.keyed?], .swap _ _ _⟩
  refine ⟨_, _, rfl, rfl, .cons ?_ .nil⟩
  refine @SearchItem.Rewritten.member _ [(Json.letters "entity", (Document.string "user").source)]
    [] _ _ _ (Json.text?_letters _) ⟨_, _, rfl, rfl, .cons ?_ .nil⟩
  exact .four hnamed (Value.decoder_source h hroom)

end Blog

/-- The theorem at a search for users: the flag is on, and a fourth element that is `false` stands
for it. An array with one element that is no text lacks all three parts, each of which is reported
for a search by it. -/
theorem SearchRequest.forms_agree_blog :
    ofText (Blog.searchFor (Blog.positionalCriterion (.bool false))).write =
        ofText (Blog.searchFor Blog.namedCriterion).write ∧
      ∃ c, Criterion.decoder 1 (.array [.null]) = some c ∧ ∀ p : CriterionPart,
        ∃ m, Blog.searcher.rules.validate ⟨[⟨some "user", some [c]⟩]⟩ = .error m ∧
          m.get (Rules.criterionPlace 0 0 p.text) = [Rules.missing 0 p.text] := by
  have hrewritten :=
    @Blog.rewritten_positional (Json.maxDepth - 4) (.bool false) trivial (by decide)
  refine ⟨forms_agree.2.1 _ _ _ _ (Document.read?_write Blog.floatless_named)
    (Document.read?_write (Blog.floatless_positional trivial)) hrewritten, ?_⟩
  obtain ⟨c, hc, hlacks⟩ := forms_agree.2.2.2 0 [.null] [.null] rfl
  refine ⟨c, hc, fun p => (hlacks p ?_).2 _ _ 0 0 _ rfl rfl⟩
  cases p <;> simp [Criterion.ElementsLack]

/-- **A fourth element that is nested too deep.** The criterion in the first text has its flag on,
and the fourth element in the second text is a value, but only the first text is a request: the
arrays around the value take places that it needs. -/
theorem SearchRequest.fourth_too_deep :
    Decoder.decode? Value.decoder (Value.nested 123).json = some (Value.nested 123) ∧
      ofText (Blog.searchFor Blog.namedCriterion).write =
        .ok ⟨[⟨some "user", some [⟨some "name", some "=", some (.int 1), true⟩]⟩]⟩ ∧
      ofText (Blog.searchFor (Blog.positionalCriterion (Value.nested 123).document)).write =
        .error .undecodable := by
  have hfloatless := Value.floatless_nested 123
  have hdepth := Value.depth_nested 123
  refine ⟨Value.decode?_json hfloatless (by rw [hdepth]; decide), ?_, ?_⟩
  · rw [ofText, Decoder.decode?, Document.read?_write Blog.floatless_named]
    rfl
  · have hvalue := Value.decoder_source_eq_none hfloatless (show 123 < _ by rw [hdepth]; decide)
    rw [ofText, Decoder.decode?, Document.read?_write
      (Blog.floatless_positional (Value.floatless_document _ hfloatless))]
    simp [Blog.searchFor, Blog.positionalCriterion, Document.source, Document.sources,
      Document.memberSources, Json.maxDepth, decoder, Decoder.list, SearchItem.decoder_eq,
      SearchItem.fields_object, Decoder.keyed?, SearchItem.fieldsOf, SearchItem.own,
      Decoder.distinct, SearchItem.ofFields?, Fields.withDefault, Dict.lookup, Decoder.optional,
      Criterion.decoder_array, hvalue]

end DottedQuery
