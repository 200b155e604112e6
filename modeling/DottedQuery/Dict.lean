/-!
# Tables sorted by their keys

A `DottedQuery.Dict` holds at most one value under each text and keeps its entries in the order
of the keys, by code points. Search keys, entities, allow-lists and messages are tables of this
kind: whatever order they are written in, they are listed sorted, and a key written twice has
its last value.

* `DottedQuery.Dict.get?_eq_some_iff` – what is read is what the entries say;
* `DottedQuery.Dict.get?_insert` – **reading after a write**;
* `DottedQuery.Dict.mem_keys_insert` – the keys after a write;
* `DottedQuery.Dict.keys_sorted` – the keys come strictly sorted.

A `DottedQuery.NameSet` is a table without values.
-/

namespace DottedQuery

/-- A table from texts to values, its entries strictly sorted by key. -/
structure Dict (α : Type) where
  /-- The entries, in the order of their keys. -/
  entries : List (String × α)
  /-- Every key comes before the keys after it. -/
  sorted : entries.Pairwise fun a b => a.1 < b.1

namespace Dict

variable {α β : Type}

/-! ### Lists of entries -/

/-- The value of the first entry with the key. -/
def lookup (key : String) : List (String × α) → Option α
  | [] => none
  | e :: es => if e.1 = key then some e.2 else lookup key es

/-- Writes an entry at its place, in the stead of one with the same key. -/
def insertEntry (key : String) (value : α) : List (String × α) → List (String × α)
  | [] => [(key, value)]
  | e :: es =>
    if key < e.1 then (key, value) :: e :: es
    else if e.1 = key then (key, value) :: es
    else e :: insertEntry key value es

/-- Of two texts that differ, one that is not smaller is larger. -/
theorem lt_of_not_lt_of_ne {a b : String} (h : ¬a < b) (hne : b ≠ a) : b < a :=
  Std.lt_of_le_of_ne (Std.not_lt.1 h) hne

theorem key_mem_insertEntry {key k : String} {value : α} {es : List (String × α)} :
    k ∈ (insertEntry key value es).map Prod.fst ↔ k = key ∨ k ∈ es.map Prod.fst := by
  induction es with
  | nil => simp [insertEntry]
  | cons e es ih =>
    rw [insertEntry]
    split
    · simp
    · split
      · next h => simp [h]
      · simp only [List.map_cons, List.mem_cons, ih]
        exact or_left_comm

theorem pairwise_keys {es : List (String × α)} :
    (es.Pairwise fun a b => a.1 < b.1) ↔ (es.map Prod.fst).Pairwise (· < ·) := by
  rw [List.pairwise_map]

theorem sorted_insertEntry {key : String} {value : α} {es : List (String × α)}
    (h : es.Pairwise fun a b => a.1 < b.1) :
    (insertEntry key value es).Pairwise fun a b => a.1 < b.1 := by
  induction es with
  | nil => simp [insertEntry]
  | cons e es ih =>
    obtain ⟨he, hes⟩ := List.pairwise_cons.1 h
    rw [insertEntry]
    split
    · next hlt =>
      refine List.pairwise_cons.2 ⟨fun x hx => ?_, h⟩
      rcases List.mem_cons.1 hx with rfl | hx
      · exact hlt
      · exact String.lt_trans hlt (he x hx)
    · next hlt =>
      split
      · next heq => exact List.pairwise_cons.2 ⟨fun x hx => heq ▸ he x hx, hes⟩
      · next hne =>
        refine List.pairwise_cons.2 ⟨fun x hx => ?_, ih hes⟩
        have hx : x.1 ∈ (insertEntry key value es).map Prod.fst := List.mem_map_of_mem hx
        rcases key_mem_insertEntry.1 hx with hx | hx
        · exact hx ▸ lt_of_not_lt_of_ne hlt hne
        · obtain ⟨y, hy, hyx⟩ := List.mem_map.1 hx
          exact hyx ▸ he y hy

theorem lookup_insertEntry {key k : String} {value : α} {es : List (String × α)}
    (h : es.Pairwise fun a b => a.1 < b.1) :
    lookup k (insertEntry key value es) = if key = k then some value else lookup k es := by
  induction es with
  | nil => simp [insertEntry, lookup]
  | cons e es ih =>
    obtain ⟨-, hes⟩ := List.pairwise_cons.1 h
    rw [insertEntry]
    split
    · simp [lookup]
    · split
      · next heq => by_cases hk : key = k <;> simp [lookup, heq, hk]
      · next hne =>
        simp only [lookup, ih hes]
        by_cases hk : key = k
        · have : e.1 ≠ k := fun he => hne (he.trans hk.symm)
          simp [hk, this]
        · simp [hk]

theorem lookup_isSome {k : String} {es : List (String × α)} :
    (lookup k es).isSome = true ↔ k ∈ es.map Prod.fst := by
  induction es with
  | nil => simp [lookup]
  | cons e es ih =>
    rw [lookup]
    split
    · next h => simp [h]
    · next h => simp [ih, Ne.symm h]

/-- In entries one after another, what is found is found in the first ones or in the last. -/
theorem lookup_append (key : String) (es fs : List (String × α)) :
    lookup key (es ++ fs) = (lookup key es).or (lookup key fs) := by
  induction es with
  | nil => rfl
  | cons e es ih =>
    rw [List.cons_append, lookup, lookup]
    split
    · rfl
    · exact ih

/-- What is found under a key is an entry. -/
theorem mem_of_lookup {key : String} {value : α} {es : List (String × α)}
    (h : lookup key es = some value) : (key, value) ∈ es := by
  induction es with
  | nil => simp [lookup] at h
  | cons e es ih =>
    rw [lookup] at h
    split at h
    · next hkey =>
      obtain rfl := Option.some.inj h
      rw [← hkey]
      exact List.mem_cons_self
    · exact List.mem_cons_of_mem e (ih h)

/-- Where no key stands twice, every entry is the first one with its key. -/
theorem lookup_eq_some_iff_of_nodup {key : String} {value : α} {es : List (String × α)}
    (h : (es.map Prod.fst).Nodup) : lookup key es = some value ↔ (key, value) ∈ es := by
  refine ⟨mem_of_lookup, fun hmem => ?_⟩
  induction es with
  | nil => exact absurd hmem List.not_mem_nil
  | cons e es ih =>
    obtain ⟨hfirst, hes⟩ := List.nodup_cons.1 h
    rcases List.mem_cons.1 hmem with rfl | hmem
    · simp [lookup]
    · have hne : e.1 ≠ key := fun heq => hfirst (heq ▸ List.mem_map.2 ⟨_, hmem, rfl⟩)
      rw [lookup, if_neg hne, ih hes hmem]

/-- So it is in a sorted list of entries. -/
theorem lookup_eq_some_iff {key : String} {value : α} {es : List (String × α)}
    (h : es.Pairwise fun a b => a.1 < b.1) : lookup key es = some value ↔ (key, value) ∈ es :=
  lookup_eq_some_iff_of_nodup ((pairwise_keys.1 h).imp Std.ne_of_lt)

/-- An entry with a new key is written beside the others. -/
theorem perm_insertEntry {key : String} {value : α} {es : List (String × α)}
    (h : key ∉ es.map Prod.fst) : (insertEntry key value es).Perm ((key, value) :: es) := by
  induction es with
  | nil => exact .refl _
  | cons e es ih =>
    obtain ⟨hne, hes⟩ := not_or.1 (mt List.mem_cons.2 h)
    rw [insertEntry]
    split
    · exact .refl _
    · rw [if_neg fun heq => hne heq.symm]
      exact ((ih hes).cons e).trans (.swap _ _ _)

/-! ### Tables -/

/-- The table without entries. -/
def empty : Dict α := ⟨[], List.Pairwise.nil⟩

/-- The value under a key. -/
def get? (d : Dict α) (key : String) : Option α := lookup key d.entries

/-- Writes a value under a key, in the stead of an earlier one. -/
def insert (d : Dict α) (key : String) (value : α) : Dict α :=
  ⟨insertEntry key value d.entries, sorted_insertEntry d.sorted⟩

/-- The table with the given entries, of two with one key the later. -/
def ofList (es : List (String × α)) : Dict α :=
  es.foldl (fun d e => d.insert e.1 e.2) empty

/-- Whether the key has a value. -/
def contains (d : Dict α) (key : String) : Bool := (d.get? key).isSome

/-- The keys, sorted. -/
def keys (d : Dict α) : List String := d.entries.map Prod.fst

/-- The values, in the order of their keys. -/
def values (d : Dict α) : List α := d.entries.map Prod.snd

/-- The number of keys. -/
def size (d : Dict α) : Nat := d.entries.length

/-- Whether there is no entry. -/
def isEmpty (d : Dict α) : Bool := d.entries.isEmpty

@[simp] theorem keys_empty : (empty : Dict α).keys = [] := rfl

/-- What is read under a key is what an entry says. -/
theorem get?_eq_some_iff {d : Dict α} {key : String} {value : α} :
    d.get? key = some value ↔ (key, value) ∈ d.entries :=
  lookup_eq_some_iff d.sorted

/-- **Reading after a write.** -/
theorem get?_insert (d : Dict α) (key k : String) (value : α) :
    (d.insert key value).get? k = if key = k then some value else d.get? k :=
  lookup_insertEntry d.sorted

@[simp] theorem mem_keys_insert {d : Dict α} {key k : String} {value : α} :
    k ∈ (d.insert key value).keys ↔ k = key ∨ k ∈ d.keys :=
  key_mem_insertEntry

/-- A new key adds an entry and leaves the others. -/
theorem perm_entries_insert {d : Dict α} {key : String} (h : key ∉ d.keys) (value : α) :
    (d.insert key value).entries.Perm ((key, value) :: d.entries) :=
  perm_insertEntry h

/-- The keys come strictly sorted. -/
theorem keys_sorted (d : Dict α) : d.keys.Pairwise (· < ·) := pairwise_keys.1 d.sorted

theorem contains_iff_mem_keys {d : Dict α} {k : String} : d.contains k = true ↔ k ∈ d.keys :=
  lookup_isSome

end Dict

/-- A set of texts, listed sorted. -/
abbrev NameSet := Dict Unit

namespace NameSet

/-- The set of the given texts. -/
def ofNames (names : List String) : NameSet := Dict.ofList (names.map (·, ()))

end NameSet

end DottedQuery
