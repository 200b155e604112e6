import DottedQuery.Proofs.Json.RoundTrip
import Mathlib.Data.List.Forall2

/-!
# The room for nesting

Arrays and objects stand around one another only so deep: what is decoded from a text has a room,
and every array and object on the way takes a place of it. The room decides nothing but whether a
document is there (`DottedQuery.Json.Source.document?_iff_depth_le`), and the values in what has
been decoded are nested no deeper than the room that was left for them.

The latter is said of a decoder (`DottedQuery.Json.Decoder.Leaves`): there are `n` places around
every value in what it decodes. A list adds a place to those of its members, and so does a record
to those of its fields, so the places around the values of a large thing are counted by following
its decoder.
-/

namespace DottedQuery

namespace Json

/-! ### Documents -/

namespace Source

/-- A list of documents is read from its first document and from the others. -/
theorem elements?_cons_eq_some_iff {room : Nat} {x : Source} {xs : List Source} {d : Document}
    {ds : List Document} : elements? room (x :: xs) = some (d :: ds) ↔
      x.document? room = some d ∧ elements? room xs = some ds := by
  rw [elements?]
  rcases x.document? room with _ | d' <;> simp [and_comm]

/-- A list of members is read from its first member and from the others. -/
theorem members?_cons_eq_some_iff {room : Nat} {l : List Letter} {k : String} {x : Source}
    {ms : List (List Letter × Source)} {d : Document} {ds : List (String × Document)} :
    members? room ((l, x) :: ms) = some ((k, d) :: ds) ↔
      text? l = some k ∧ x.document? room = some d ∧ members? room ms = some ds := by
  rw [members?]
  rcases text? l with _ | k'
  · simp
  · rcases x.document? room with _ | d' <;> simp [and_comm, and_assoc]

theorem exists_of_elements?_cons {room : Nat} {x : Source} {xs : List Source}
    {ds : List Document} (h : elements? room (x :: xs) = some ds) : ∃ d ds', ds = d :: ds' := by
  rw [elements?] at h
  split at h
  · simp at h
  · obtain ⟨ds', -, rfl⟩ := Option.map_eq_some_iff.mp h
    exact ⟨_, ds', rfl⟩

theorem exists_of_members?_cons {room : Nat} {l : List Letter} {x : Source}
    {ms : List (List Letter × Source)} {ds : List (String × Document)}
    (h : members? room ((l, x) :: ms) = some ds) : ∃ k d ds', ds = (k, d) :: ds' := by
  rw [members?] at h
  split at h
  · simp at h
  · split at h
    · simp at h
    · obtain ⟨ds', -, rfl⟩ := Option.map_eq_some_iff.mp h
      exact ⟨_, _, ds', rfl⟩

mutual

/-- **The room decides only whether there is a document**: a shape that stands for a document in
one room stands for it in every room that has its depth, and in no other. -/
theorem document?_iff_depth_le : ∀ {x : Source} {room : Nat} {d : Document},
    x.document? room = some d → ∀ room', x.document? room' = some d ↔ d.depth ≤ room'
  | .null, _, _, h, _ | .bool _, _, _, h, _ => by
    obtain rfl := Option.some.inj h
    exact iff_of_true rfl (Nat.zero_le _)
  | .number n, _, d, h, _ => by
    refine iff_of_true h ?_
    obtain ⟨n, -, rfl⟩ := Option.map_eq_some_iff.mp h
    rcases n with n | x <;> exact Nat.zero_le _
  | .string ls, _, d, h, _ => by
    refine iff_of_true h ?_
    obtain ⟨s, -, rfl⟩ := Option.map_eq_some_iff.mp h
    exact Nat.zero_le _
  | .array xs, 0, _, h, _ | .object ms, 0, _, h, _ => by simp [document?] at h
  | .array xs, room + 1, d, h, room' => by
    obtain ⟨ds, hds, rfl⟩ := Option.map_eq_some_iff.mp h
    rcases room' with _ | room'
    · simp [document?, Document.depth]
    · rw [document?, Document.depth, Nat.add_le_add_iff_right,
        ← elements?_iff_depth_le hds room']
      simp
  | .object ms, room + 1, d, h, room' => by
    obtain ⟨ds, hds, rfl⟩ := Option.map_eq_some_iff.mp h
    rcases room' with _ | room'
    · simp [document?, Document.depth]
    · rw [document?, Document.depth, Nat.add_le_add_iff_right,
        ← members?_iff_depth_le hds room']
      simp

theorem elements?_iff_depth_le : ∀ {xs : List Source} {room : Nat} {ds : List Document},
    elements? room xs = some ds →
      ∀ room', elements? room' xs = some ds ↔ Document.depthOfElements ds ≤ room'
  | [], _, _, h, _ => by
    obtain rfl := Option.some.inj h
    exact iff_of_true rfl (Nat.zero_le _)
  | x :: xs, _, _, h, room' => by
    obtain ⟨d, ds, rfl⟩ := exists_of_elements?_cons h
    obtain ⟨hd, hds⟩ := elements?_cons_eq_some_iff.mp h
    rw [elements?_cons_eq_some_iff, document?_iff_depth_le hd room',
      elements?_iff_depth_le hds room', Document.depthOfElements, Nat.max_le]

theorem members?_iff_depth_le : ∀ {ms : List (List Letter × Source)} {room : Nat}
    {ds : List (String × Document)}, members? room ms = some ds →
      ∀ room', members? room' ms = some ds ↔ Document.depthOfMembers ds ≤ room'
  | [], _, _, h, _ => by
    obtain rfl := Option.some.inj h
    exact iff_of_true rfl (Nat.zero_le _)
  | (l, x) :: ms, _, _, h, room' => by
    obtain ⟨k, d, ds, rfl⟩ := exists_of_members?_cons h
    obtain ⟨hk, hd, hds⟩ := members?_cons_eq_some_iff.mp h
    rw [members?_cons_eq_some_iff, document?_iff_depth_le hd room',
      members?_iff_depth_le hds room', Document.depthOfMembers, Nat.max_le]
    exact and_iff_right hk

end

/-- A document is nested no deeper than there was room for. -/
theorem depth_le_of_document? {x : Source} {room : Nat} {d : Document}
    (h : x.document? room = some d) : d.depth ≤ room := (document?_iff_depth_le h room).mp h

end Source

theorem Document.depth_le_of_mem_members {k : String} {x : Document}
    {ms : List (String × Document)} (h : (k, x) ∈ ms) : x.depth ≤ depthOfMembers ms := by
  induction ms with
  | nil => exact absurd h List.not_mem_nil
  | cons m ms ih =>
    rw [depthOfMembers]
    rcases List.mem_cons.mp h with rfl | h
    · exact Nat.le_max_left _ _
    · exact Nat.le_trans (ih h) (Nat.le_max_right _ _)

end Json

/-! ### Values -/

namespace Value

open Json (Decoder Document Source)

mutual

/-- **A value is read from its own JSON only.** -/
theorem eq_document_of_ofDocument? : ∀ {d : Document} {v : Value},
    ofDocument? d = some v → d = v.document
  | .null, _, h | .bool _, _, h | .int _, _, h | .float _, _, h | .string _, _, h => by
    obtain rfl := Option.some.inj h
    rfl
  | .array xs, _, h => by
    obtain ⟨vs, hvs, rfl⟩ := Option.map_eq_some_iff.mp h
    exact congrArg Document.array (eq_documents_of_ofDocuments? hvs)
  | .object _, _, h => by simp [ofDocument?] at h

theorem eq_documents_of_ofDocuments? : ∀ {ds : List Document} {vs : List Value},
    ofDocuments? ds = some vs → ds = documents vs
  | [], _, h => by
    obtain rfl := Option.some.inj h
    rfl
  | d :: ds, _, h => by
    rw [ofDocuments?] at h
    split at h
    · simp at h
    · next v hv =>
      obtain ⟨vs, hvs, rfl⟩ := Option.map_eq_some_iff.mp h
      rw [documents, eq_document_of_ofDocument? hv, eq_documents_of_ofDocuments? hvs]

end

/-- The member of a list is nested less deep than the list. -/
theorem depth_le_of_mem {v : Value} {vs : List Value} (h : v ∈ vs) :
    v.depth ≤ depthOfMembers vs := by
  induction vs with
  | nil => exact absurd h List.not_mem_nil
  | cons w ws ih =>
    rw [depthOfMembers]
    rcases List.mem_cons.mp h with rfl | h
    · exact Nat.le_max_left _ _
    · exact Nat.le_trans (ih h) (Nat.le_max_right _ _)

/-- What a shape is decoded as, it is decoded as in every room that has the depth. -/
theorem decoder_iff_depth_le {x : Source} {room : Nat} {v : Value} (h : decoder room x = some v)
    (room' : Nat) : decoder room' x = some v ↔ v.depth ≤ room' := by
  obtain ⟨d, hd, hv⟩ := Option.bind_eq_some_iff.mp h
  obtain rfl := eq_document_of_ofDocument? hv
  rw [← depth_document, ← Source.document?_iff_depth_le hd room', decoder, Decoder.whole,
    Option.bind_eq_some_iff]
  constructor
  · rintro ⟨d, hd', hv'⟩
    rwa [eq_document_of_ofDocument? hv'] at hd'
  · exact fun hd' => ⟨_, hd', hv⟩

/-- Where there is no room for a value, its shape is decoded as nothing. -/
theorem decoder_source_eq_none {v : Value} (h : v.Floatless) {room : Nat} (hroom : room < v.depth) :
    decoder room v.document.source = none := by
  refine Option.eq_none_iff_forall_ne_some.mpr fun w hw => ?_
  -- with more room it would be decoded as two values
  have hdepth : w.depth ≤ room := (decoder_iff_depth_le hw room).mp hw
  have hw' := (decoder_iff_depth_le hw v.depth).mpr (by omega)
  rw [decoder_source h (Nat.le_refl _)] at hw'
  obtain rfl := Option.some.inj hw'
  omega

end Value

/-! ### Decoders -/

namespace Json.Decoder

variable {α β : Type}

/-- **A decoder leaves `n` places**: around every value in what it decodes there are `n` of the
arrays and objects for which there was room. -/
def Leaves (d : Decoder α) (values : α → List Value) (n : Nat) : Prop :=
  ∀ room s a, d room s = some a → ∀ v ∈ values a, v.depth + n ≤ room

variable {d : Decoder α} {values : α → List Value} {n : Nat}

theorem leaves_value : Leaves Value.decoder (fun v => [v]) 0 := by
  intro room s v h w hw
  obtain rfl := List.mem_singleton.mp hw
  exact (Value.decoder_iff_depth_le h room).mp h

/-- What may be `null` leaves the places that it leaves when it is not. -/
theorem Leaves.optional (h : d.Leaves values n) :
    (optional d).Leaves (fun o => o.elim [] values) n := by
  intro room s o ho v hv
  rcases o with _ | a
  · simp at hv
  · rw [Decoder.optional.eq_def] at ho
    split at ho
    · simp at ho
    · obtain ⟨a', ha, heq⟩ := Option.map_eq_some_iff.mp ho
      obtain rfl := Option.some.inj heq
      exact h _ _ _ ha v hv

/-- The members of a list are decoded one by one. -/
theorem mapM_eq_some_iff {f : α → Option β} {xs : List α} {ys : List β} :
    xs.mapM f = some ys ↔ List.Forall₂ (fun x y => f x = some y) xs ys := by
  induction xs generalizing ys with
  | nil => simp [eq_comm]
  | cons x xs ih =>
    simp only [List.mapM_cons, Option.bind_eq_bind, Option.bind_eq_some_iff, Option.pure_def,
      Option.some.injEq, ih, List.forall₂_cons_left_iff]
    constructor
    · rintro ⟨y, hy, ys, hys, rfl⟩
      exact ⟨y, ys, hy, hys, rfl⟩
    · rintro ⟨y, ys, hy, hys, rfl⟩
      exact ⟨y, hy, ys, hys, rfl⟩

/-- A list takes a place. -/
theorem Leaves.list (h : d.Leaves values n) : (list d).Leaves (List.flatMap values) (n + 1) := by
  intro room s as has v hv
  rw [Decoder.list.eq_def] at has
  split at has
  · next room xs =>
    have hall := mapM_eq_some_iff.mp has
    clear has
    induction hall with
    | nil => simp at hv
    | cons ha _ ih =>
      rw [List.flatMap_cons, List.mem_append] at hv
      rcases hv with hv | hv
      · exact Nat.succ_le_succ (h _ _ _ ha v hv)
      · exact ih hv
  · simp at has

/-- A record takes a place from its fields. -/
theorem room_of_fields {names : List String} {room : Nat} {s : Source} {f : Fields}
    (h : fields names room s = some f) : f.room + 1 = room := by
  rw [fields.eq_def] at h
  split at h
  · split at h
    · rw [← Option.some.inj h]
    · simp at h
  · simp only [Option.bind_eq_bind, Option.bind_eq_some_iff] at h
    obtain ⟨ms, -, h⟩ := h
    split at h
    · rw [← Option.some.inj h]
    · simp at h
  · simp at h

/-- What is decoded from the fields of a record has one more place around it. -/
theorem leaves_record (h : ∀ room s a, d room s = some a →
      ∃ f : Fields, f.room + 1 = room ∧ ∀ v ∈ values a, v.depth + n ≤ f.room) :
    d.Leaves values (n + 1) := by
  intro room s a ha v hv
  obtain ⟨f, rfl, hleaves⟩ := h room s a ha
  exact Nat.succ_le_succ (hleaves v hv)

theorem Leaves.required (h : d.Leaves values n) {f : Fields} {name : String} {a : α}
    (ha : f.required name d = some a) : ∀ v ∈ values a, v.depth + n ≤ f.room := by
  obtain ⟨s, -, hs⟩ := Option.bind_eq_some_iff.mp ha
  exact h _ _ _ hs

theorem Leaves.withDefault (h : d.Leaves values n) {f : Fields} {name : String} {missing a : α}
    (ha : f.withDefault name missing d = some a) (hmissing : values missing = []) :
    ∀ v ∈ values a, v.depth + n ≤ f.room := by
  rw [Fields.withDefault] at ha
  split at ha
  · obtain rfl := Option.some.inj ha
    simp [hmissing]
  · exact h _ _ _ ha

end Json.Decoder

end DottedQuery
