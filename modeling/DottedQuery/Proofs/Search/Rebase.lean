import DottedQuery.Proofs.Search.Validated

/-!
# Complaints about single items

What is wrong with an item does not depend on the items around it; only its number occurs in the
places and in the messages. So the complaints about an item in a request are those about the item
alone, with the number put in (`DottedQuery.Rules.itemComplaints_eq_rebased`), and the messages of a
request are those of its items alone, side by side: under different numbers they never share a
place (`DottedQuery.Rules.unites_messages`).
-/

namespace DottedQuery

open Decimal (natText)

namespace Rules

/-! ### Numbers put in -/

/-- The place of an item with number zero, with another number. -/
def rebasedPlace (item : Nat) (place : String) : String :=
  natText item ++ String.ofList (place.toList.drop 1)

/-- The message about an item with number zero, with another number: it stands behind the first
`#`. -/
def rebasedMessage (item : Nat) (message : String) : String :=
  String.ofList (message.toList.takeWhile (· ≠ '#')) ++ "#" ++ natText item ++
    String.ofList ((message.toList.dropWhile (· ≠ '#')).drop 2)

/-- A complaint about an item with number zero, with another number. -/
def rebased (item : Nat) (c : Complaint) : Complaint :=
  (rebasedPlace item c.1, rebasedMessage item c.2)

theorem toList_natText_zero : (natText 0).toList = ['0'] := by decide

theorem rebasedPlace_natText (item : Nat) (rest : String) :
    rebasedPlace item (natText 0 ++ rest) = natText item ++ rest := by
  rw [rebasedPlace, String.toList_append, toList_natText_zero]
  simp

/-- A text up to its first `#`. -/
def EndsInMark (head : String) : Prop := ∃ start, head.toList = start ++ ['#'] ∧ '#' ∉ start

theorem rebasedMessage_natText (item : Nat) {head : String} (hhead : EndsInMark head)
    (rest : String) :
    rebasedMessage item (head ++ (natText 0 ++ rest)) = head ++ (natText item ++ rest) := by
  obtain ⟨start, hsplit, hstart⟩ := hhead
  have hall : ∀ c ∈ start, (decide (c ≠ '#')) = true := by
    intro c hc
    rw [decide_eq_true_eq]
    rintro rfl
    exact hstart hc
  -- the number of the item stands right behind the first mark
  have hchars : (head ++ (natText 0 ++ rest)).toList = start ++ '#' :: '0' :: rest.toList := by
    rw [String.toList_append, String.toList_append, toList_natText_zero, hsplit,
      List.append_assoc]
    rfl
  have htake : (start ++ '#' :: '0' :: rest.toList).takeWhile (· ≠ '#') = start := by
    rw [List.takeWhile_append_of_pos hall]
    simp
  have hdrop : (start ++ '#' :: '0' :: rest.toList).dropWhile (· ≠ '#') =
      '#' :: '0' :: rest.toList := by
    rw [List.dropWhile_append_of_pos hall]
    simp
  have hback : String.ofList start ++ "#" = head := by
    refine String.toList_inj.mp ?_
    rw [String.toList_append, String.toList_ofList, hsplit]
    rfl
  rw [rebasedMessage, hchars, htake, hdrop, hback, String.append_assoc]
  simp

theorem endsInMark_entity : EndsInMark "Entity at #" :=
  ⟨"Entity at ".toList, by decide, by decide⟩

theorem endsInMark_criteria : EndsInMark "Criteria List at #" :=
  ⟨"Criteria List at ".toList, by decide, by decide⟩

/-! ### Complaints about an item -/

theorem missing_eq_rebased (item : Nat) (part : String) :
    missing item part = rebasedMessage item (missing 0 part) := by
  unfold missing
  simp only [String.append_assoc, rebasedMessage_natText item endsInMark_criteria]

theorem badPath_eq_rebased (item : Nat) : badPath item = rebasedMessage item (badPath 0) := by
  unfold badPath
  simp only [String.append_assoc, rebasedMessage_natText item endsInMark_criteria]

theorem badOperator_eq_rebased (item : Nat) (op : String) :
    badOperator item op = rebasedMessage item (badOperator 0 op) := by
  unfold badOperator
  simp only [String.append_assoc, rebasedMessage_natText item endsInMark_criteria]

theorem entityComplaint_eq_rebased (r : Rules) (item : Nat) (key : Option String) :
    r.entityComplaint? item key = (r.entityComplaint? 0 key).map (rebasedMessage item) := by
  have hpresent : "Entity at #" ++ natText item ++ " Must be present" =
      rebasedMessage item ("Entity at #" ++ natText 0 ++ " Must be present") := by
    simp only [String.append_assoc, rebasedMessage_natText item endsInMark_entity]
  have hvalid : "Entity at #" ++ natText item ++ " is not a valid entity reference" =
      rebasedMessage item ("Entity at #" ++ natText 0 ++ " is not a valid entity reference") := by
    simp only [String.append_assoc, rebasedMessage_natText item endsInMark_entity]
  unfold entityComplaint?
  rw [hpresent, hvalid]
  cases key with
  | none => rfl
  | some key =>
    simp only
    split
    · rfl
    · split <;> rfl

theorem fieldComplaint_eq_rebased (item : Nat) (field : Option String) :
    fieldComplaint? item field = (fieldComplaint? 0 field).map (rebasedMessage item) := by
  unfold fieldComplaint?
  rw [missing_eq_rebased item, badPath_eq_rebased item]
  cases field with
  | none => rfl
  | some field =>
    simp only
    split
    · rfl
    · split <;> rfl

theorem operatorComplaint_eq_rebased (item : Nat) (op : Option String) :
    operatorComplaint? item op = (operatorComplaint? 0 op).map (rebasedMessage item) := by
  unfold operatorComplaint?
  cases op with
  | none => exact congrArg some (missing_eq_rebased item _)
  | some op =>
    simp only
    rw [missing_eq_rebased item, badOperator_eq_rebased item]
    split
    · rfl
    · split <;> rfl

theorem valueComplaint_eq_rebased (item : Nat) (value : Option Value) :
    valueComplaint? item value = (valueComplaint? 0 value).map (rebasedMessage item) := by
  cases value with
  | none => exact congrArg some (missing_eq_rebased item _)
  | some v => rfl

theorem entityPlace_eq_rebased (item : Nat) :
    entityPlace item = rebasedPlace item (entityPlace 0) :=
  (rebasedPlace_natText item ".entity").symm

theorem criterionPlace_eq_rebased (item criterion : Nat) (part : String) :
    criterionPlace item criterion part = rebasedPlace item (criterionPlace 0 criterion part) := by
  simp only [criterionPlace, String.append_assoc]
  rw [rebasedPlace_natText]

/-- A list of at most one complaint, with the number put in. -/
theorem toList_rebased {item : Nat} {message message₀ : Option String} {place place₀ : String}
    (hmessage : message = message₀.map (rebasedMessage item))
    (hplace : place = rebasedPlace item place₀) :
    (message.map (place, ·)).toList = (message₀.map (place₀, ·)).toList.map (rebased item) := by
  rw [hmessage, hplace]
  cases message₀ <;> rfl

theorem criterionComplaints_eq_rebased (item : Nat) (c : Criterion) (criterion : Nat) :
    criterionComplaints item c criterion =
      (criterionComplaints 0 c criterion).map (rebased item) := by
  simp only [criterionComplaints, List.map_append]
  rw [toList_rebased (fieldComplaint_eq_rebased item c.field)
      (criterionPlace_eq_rebased item criterion "field"),
    toList_rebased (operatorComplaint_eq_rebased item c.op)
      (criterionPlace_eq_rebased item criterion "where"),
    toList_rebased (valueComplaint_eq_rebased item c.value)
      (criterionPlace_eq_rebased item criterion "value")]

/-- **Complaints about an item are those about it alone**, with its number put in. -/
theorem itemComplaints_eq_rebased (r : Rules) (i : SearchItem) (item : Nat) :
    r.itemComplaints i item = (r.itemComplaints i 0).map (rebased item) := by
  simp only [itemComplaints, List.map_append, List.map_flatMap]
  rw [toList_rebased (entityComplaint_eq_rebased r item i.key?) (entityPlace_eq_rebased item)]
  have hcriteria : (fun cj : Criterion × Nat => criterionComplaints item cj.1 cj.2) =
      fun cj => (criterionComplaints 0 cj.1 cj.2).map (rebased item) :=
    funext fun cj => criterionComplaints_eq_rebased item cj.1 cj.2
  rw [hcriteria]

/-! ### Places of different items -/

theorem criterionPlace_form (item criterion : Nat) (part : String) :
    criterionPlace item criterion part =
      natText item ++ ("." ++ ("criteria." ++ (natText criterion ++ ("." ++ part)))) := by
  have hpoint : ".criteria." = "." ++ "criteria." := by decide
  unfold criterionPlace
  rw [hpoint]
  simp only [String.append_assoc]

/-- A place of an item begins with its number and a point. -/
theorem place_of_mem {r : Rules} {i : SearchItem} {item : Nat} {c : Complaint}
    (h : c ∈ r.itemComplaints i item) : ∃ rest, c.1 = natText item ++ ("." ++ rest) := by
  simp only [itemComplaints, List.mem_append, Option.mem_toList, Option.map_eq_some_iff,
    List.mem_flatMap, criterionComplaints] at h
  rcases h with ⟨m, -, rfl⟩ | ⟨⟨d, j⟩, -, (⟨m, -, rfl⟩ | ⟨m, -, rfl⟩) | ⟨m, -, rfl⟩⟩
  · exact ⟨"entity", rfl⟩
  · exact ⟨_, criterionPlace_form item j "field"⟩
  · exact ⟨_, criterionPlace_form item j "where"⟩
  · exact ⟨_, criterionPlace_form item j "value"⟩

/-- A number ends before a point. -/
theorem takeWhile_natText (n : Nat) (rest : List Char) :
    ((natText n).toList ++ '.' :: rest).takeWhile (· ≠ '.') = (natText n).toList := by
  have hdigits : ∀ c ∈ (natText n).toList, (decide (c ≠ '.')) = true := by
    intro c hc
    rw [Decimal.toList_natText] at hc
    have hdigit : c.isDigit = true := Nat.isDigit_of_mem_toDigits (by decide) (by decide) hc
    rw [decide_eq_true_eq]
    rintro rfl
    exact absurd hdigit (by decide)
  rw [List.takeWhile_append_of_pos hdigits]
  simp

/-- Places of items tell their numbers. -/
theorem place_inj {j k : Nat} {a b : String}
    (h : natText j ++ ("." ++ a) = natText k ++ ("." ++ b)) : j = k ∧ a = b := by
  have hchars : (natText j).toList ++ '.' :: a.toList = (natText k).toList ++ '.' :: b.toList := by
    have h := congrArg String.toList h
    simp only [String.toList_append] at h
    exact h
  have hnumbers := congrArg (List.takeWhile (· ≠ '.')) hchars
  rw [takeWhile_natText, takeWhile_natText] at hnumbers
  obtain rfl : j = k := Decimal.natText_inj.mp (String.toList_inj.mp hnumbers)
  refine ⟨rfl, String.toList_inj.mp ?_⟩
  exact (List.cons.inj (List.append_cancel_left hchars)).2

/-! ### The messages of a request -/

/-- The messages of a request, none if it passes. -/
def messages (r : Rules) (request : SearchRequest) : Messages :=
  match r.validate request with
  | .ok () => .empty
  | .error m => m

theorem messages_eq (r : Rules) (request : SearchRequest) :
    r.messages request = Messages.empty.collect (r.complaints request) := by
  unfold messages
  rw [validate_eq]
  split
  · next h =>
    split at h
    · next hnil => rw [hnil]; rfl
    · simp at h
  · next m h =>
    split at h
    · simp at h
    · exact (Except.error.inj h).symm

/-- A request fails with its messages. -/
theorem validate_eq_error {r : Rules} {request : SearchRequest} {m : Messages}
    (h : r.validate request = .error m) : m = r.messages request := by
  simp only [messages, h]

/-- **Messages of several items side by side**, each with the number of the item put in, and
nothing else. -/
structure Unites (m : Messages) (own : List Messages) : Prop where
  /-- The messages of an item are there. -/
  get_rebased : ∀ {k : Nat} {b : Messages}, own[k]? = some b → ∀ place ∈ b.places,
    m.get (rebasedPlace k place) = (b.get place).map (rebasedMessage k)
  /-- There are no others. -/
  mem_places : ∀ place, place ∈ m.places ↔
    ∃ k b, own[k]? = some b ∧ ∃ p ∈ b.places, place = rebasedPlace k p

/-- Complaints about an item are about no other item. -/
theorem filter_itemComplaints (r : Rules) (i j : SearchItem) (item other : Nat)
    {place : String} (hplace : ∃ c ∈ r.itemComplaints i 0, c.1 = place) :
    (r.itemComplaints j other).filter (fun c => c.1 = rebasedPlace item place) =
      if other = item then
        ((r.itemComplaints j 0).filter fun c => c.1 = place).map (rebased item)
      else [] := by
  obtain ⟨c, hc, rfl⟩ := hplace
  obtain ⟨rest, hrest⟩ := place_of_mem hc
  -- a place tells both the number of its item and what stands behind the number
  have hkey : ∀ d ∈ r.itemComplaints j 0,
      (rebased other d).1 = rebasedPlace item c.1 ↔ other = item ∧ d.1 = c.1 := by
    intro d hd
    obtain ⟨rest', hrest'⟩ := place_of_mem hd
    change rebasedPlace other d.1 = rebasedPlace item c.1 ↔ _
    rw [hrest, hrest', rebasedPlace_natText, rebasedPlace_natText]
    constructor
    · intro h
      obtain ⟨hnumber, rfl⟩ := place_inj h
      exact ⟨hnumber, rfl⟩
    · rintro ⟨rfl, h⟩
      rw [(place_inj h).2]
  rw [itemComplaints_eq_rebased, List.filter_map]
  split
  · next hitem =>
    subst hitem
    refine congrArg (List.map _) (List.filter_congr fun d hd => ?_)
    simpa using hkey d hd
  · next hitem =>
    rw [List.map_eq_nil_iff, List.filter_eq_nil_iff]
    intro d hd h
    exact hitem ((hkey d hd).mp (by simpa using h)).1

/-- What is collected about the members of a list, if only one of them contributes. -/
theorem flatMap_zipIdx_eq {α β : Type} {g : α × Nat → List β} {as : List α} {k : Nat} {a : α}
    (ha : as[k]? = some a) (hg : ∀ b j, j ≠ k → g (b, j) = []) :
    as.zipIdx.flatMap g = g (a, k) := by
  obtain ⟨hk, rfl⟩ := List.getElem?_eq_some_iff.mp ha
  -- the members before it and those behind it have other numbers
  have hsplit : as = as.take k ++ as[k] :: as.drop (k + 1) := by
    rw [← List.drop_eq_getElem_cons, List.take_append_drop]
  have hlength : (as.take k).length = k := List.length_take_of_le (Nat.le_of_lt hk)
  have hbefore : (as.take k).zipIdx.flatMap g = [] := by
    refine List.flatMap_eq_nil_iff.mpr fun b hb => hg b.1 b.2 (Nat.ne_of_lt ?_)
    have hlt := List.snd_lt_of_mem_zipIdx hb
    omega
  have hbehind : ((as.drop (k + 1)).zipIdx (k + 1)).flatMap g = [] := by
    refine List.flatMap_eq_nil_iff.mpr fun b hb => hg b.1 b.2 (Nat.ne_of_gt ?_)
    have hle := List.le_snd_of_mem_zipIdx hb
    omega
  have hzip : as.zipIdx =
      (as.take k).zipIdx ++ (as[k], k) :: (as.drop (k + 1)).zipIdx (k + 1) :=
    calc as.zipIdx = (as.take k ++ as[k] :: as.drop (k + 1)).zipIdx :=
          congrArg (fun l => l.zipIdx) hsplit
      _ = _ := by rw [List.zipIdx_append, List.zipIdx_cons, hlength, Nat.zero_add]
  rw [hzip, List.flatMap_append, List.flatMap_cons, hbefore, hbehind, List.append_nil,
    List.nil_append]

/-- The complaints about a single item. -/
theorem complaints_single (r : Rules) (i : SearchItem) :
    r.complaints ⟨[i]⟩ = r.itemComplaints i 0 := by
  simp [complaints]

/-- **A request passes exactly when each of its items does.** -/
theorem validate_eq_ok_iff_items (r : Rules) (items : List SearchItem) :
    r.validate ⟨items⟩ = .ok () ↔ ∀ i ∈ items, r.validate ⟨[i]⟩ = .ok () := by
  have hitem : ∀ i k, r.itemComplaints i k = [] ↔ r.validate ⟨[i]⟩ = .ok () := by
    intro i k
    rw [validate_eq_ok_iff, complaints_single, itemComplaints_eq_rebased, List.map_eq_nil_iff]
  rw [validate_eq_ok_iff, complaints_eq_nil_iff]
  constructor
  · intro h i hi
    obtain ⟨k, hk, rfl⟩ := List.mem_iff_getElem.mp hi
    exact (hitem _ k).mp (h k _ (List.getElem?_eq_getElem hk))
  · intro h k i hi
    exact (hitem i k).mpr (h i (List.mem_of_getElem? hi))

/-- What is complained about in a request is so in one of its items. -/
theorem mem_complaints {r : Rules} {items : List SearchItem} {c : Complaint} :
    c ∈ r.complaints ⟨items⟩ ↔ ∃ k i, items[k]? = some i ∧ c ∈ r.itemComplaints i k := by
  simp only [complaints, List.mem_flatMap, Prod.exists, List.mk_mem_zipIdx_iff_getElem?]
  exact exists_comm

/-- There are messages where something is complained about. -/
theorem mem_places_messages {r : Rules} {items : List SearchItem} {place : String} :
    place ∈ (r.messages ⟨items⟩).places ↔ ∃ c ∈ r.complaints ⟨items⟩, c.1 = place := by
  rw [messages_eq, Messages.mem_places_collect]
  exact or_iff_right List.not_mem_nil

/-- **The messages of a request are those of its items**, each with its number put in. -/
theorem unites_messages (r : Rules) (items : List SearchItem) :
    Unites (r.messages ⟨items⟩) (items.map fun i => r.messages ⟨[i]⟩) where
  get_rebased := by
    intro k b hb place hplace
    rw [List.getElem?_map, Option.map_eq_some_iff] at hb
    obtain ⟨i, hi, rfl⟩ := hb
    rw [mem_places_messages, complaints_single] at hplace
    have hother : ∀ (j : SearchItem) (other : Nat), other ≠ k →
        (r.itemComplaints j other).filter (fun c => c.1 = rebasedPlace k place) = [] := by
      intro j other hne
      rw [filter_itemComplaints r i j k other hplace, if_neg hne]
    have hcomplaints : (r.complaints ⟨items⟩).filter (fun c => c.1 = rebasedPlace k place) =
        ((r.itemComplaints i 0).filter fun c => c.1 = place).map (rebased k) := by
      have hown := filter_itemComplaints r i i k k hplace
      rw [if_pos rfl] at hown
      rw [complaints, List.filter_flatMap, ← hown]
      exact flatMap_zipIdx_eq hi hother
    rw [messages_eq, messages_eq, complaints_single, Messages.get_collect, Messages.get_collect,
      hcomplaints, List.map_append, List.map_map, List.map_map]
    rfl
  mem_places := by
    intro place
    rw [mem_places_messages]
    constructor
    · rintro ⟨c, hc, rfl⟩
      obtain ⟨k, i, hi, hc⟩ := mem_complaints.mp hc
      rw [itemComplaints_eq_rebased] at hc
      obtain ⟨d, hd, rfl⟩ := List.mem_map.mp hc
      refine ⟨k, r.messages ⟨[i]⟩, by rw [List.getElem?_map, hi]; rfl, d.1, ?_, rfl⟩
      rw [mem_places_messages, complaints_single]
      exact ⟨d, hd, rfl⟩
    · rintro ⟨k, b, hb, p, hp, rfl⟩
      rw [List.getElem?_map, Option.map_eq_some_iff] at hb
      obtain ⟨i, hi, rfl⟩ := hb
      rw [mem_places_messages, complaints_single] at hp
      obtain ⟨d, hd, rfl⟩ := hp
      refine ⟨rebased k d, mem_complaints.mpr ⟨k, i, hi, ?_⟩, rfl⟩
      rw [itemComplaints_eq_rebased]
      exact List.mem_map_of_mem hd

end Rules

end DottedQuery
