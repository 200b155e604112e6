import DottedQuery.Proofs.Search.Rebase
import DottedQuery.Proofs.Text.Plain

/-!
# What a request fails for

A request can be wrong in an item, which names no search key, and in a criterion, which can lack
its field, its operator and its value: these are its *defects* (`DottedQuery.Rules.Defect`). Each
has a place of its own, for a place tells both numbers in it and the part it ends with
(`DottedQuery.Rules.Defect.place_inj`).

What is said at the place of a defect comes from one check only
(`DottedQuery.Rules.filter_complaints`), and the check speaks up exactly if there is the defect
(`DottedQuery.Rules.Defect.isSome_message_iff`). So a request that has no defect passes, and any
other fails with one message for each of its defects and with no more
(`DottedQuery.Rules.validate_reports_defects`).
-/

namespace DottedQuery

open Decimal (natText)

/-- The path of a text is plain if the parts between its points are plain names. -/
theorem FieldPath.isPlain_ofText_iff {path : String} :
    (ofText path).isPlain = true ↔ ∀ segment ∈ Text.split '.' path, Text.Plain segment := by
  rw [isPlain, segments_ofText, List.all_eq_true]
  exact forall₂_congr fun _ _ => Text.isPlain_iff

/-! ### What a request should have -/

/-- The parts of a criterion without which it cannot be compiled. -/
inductive CriterionPart where
  /-- A path of plain names. -/
  | field : CriterionPart
  /-- An operator that is known. -/
  | operator : CriterionPart
  /-- A value. -/
  | value : CriterionPart
deriving DecidableEq, Repr

/-- The part at the end of a place. -/
def CriterionPart.text : CriterionPart → String
  | .field => "field"
  | .operator => "where"
  | .value => "value"

theorem CriterionPart.text_inj {p p' : CriterionPart} : p.text = p'.text ↔ p = p' := by
  cases p <;> cases p' <;> decide

/-- A criterion has a part. -/
def Criterion.Has (c : Criterion) : CriterionPart → Prop
  | .field => ∃ field, c.field = some field ∧ ∀ segment ∈ Text.split '.' field, Text.Plain segment
  | .operator => ∃ word o, c.op = some word ∧ Operator.parse? word = some o
  | .value => ∃ v, c.value = some v

/-- An item names one of the keys, with blanks around it or without. -/
def SearchItem.Names (i : SearchItem) (keys : List String) : Prop :=
  ∃ text, i.entity = some text ∧ Text.trim text ≠ "" ∧ Text.trim text ∈ keys

namespace Rules

/-- Something that can be wrong with a request. -/
inductive Defect where
  /-- An item names no search key. -/
  | entity (item : Nat) : Defect
  /-- A criterion of an item lacks a part. -/
  | part (item criterion : Nat) (p : CriterionPart) : Defect
deriving DecidableEq, Repr

namespace Defect

/-- The place of a defect. -/
def place : Defect → String
  | entity item => natText item ++ ".entity"
  | part item criterion p => natText item ++ ".criteria." ++ natText criterion ++ "." ++ p.text

/-- A request has a defect. -/
def In (keys : List String) (request : SearchRequest) : Defect → Prop
  | entity item => ∃ i, request.items[item]? = some i ∧ ¬i.Names keys
  | part item criterion p =>
    ∃ i c, request.items[item]? = some i ∧ i.criteriaList[criterion]? = some c ∧ ¬c.Has p

/-! ### Places -/

theorem place_entity (item : Nat) : (entity item).place = natText item ++ ("." ++ "entity") := rfl

theorem place_part (item criterion : Nat) (p : CriterionPart) :
    (part item criterion p).place =
      natText item ++ ("." ++ ("criteria." ++ (natText criterion ++ ("." ++ p.text)))) :=
  criterionPlace_form item criterion p.text

theorem entity_ne_criteria (rest : String) : "entity" ≠ "criteria." ++ rest := by
  intro h
  have hchars := congrArg String.toList h
  rw [String.toList_append] at hchars
  exact absurd (List.cons.inj hchars).1 (by decide)

/-- **Defects have places of their own.** -/
theorem place_inj {d e : Defect} : d.place = e.place ↔ d = e := by
  refine ⟨fun h => ?_, congrArg place⟩
  cases d with
  | entity i =>
    cases e with
    | entity j =>
      rw [place_entity, place_entity] at h
      rw [(Rules.place_inj h).1]
    | part j c p =>
      rw [place_entity, place_part] at h
      exact absurd (Rules.place_inj h).2 (entity_ne_criteria _)
  | part i c p =>
    cases e with
    | entity j =>
      rw [place_entity, place_part] at h
      exact absurd (Rules.place_inj h).2.symm (entity_ne_criteria _)
    | part j c' p' =>
      rw [place_part, place_part] at h
      obtain ⟨rfl, hrest⟩ := Rules.place_inj h
      obtain ⟨rfl, htext⟩ := Rules.place_inj (String.append_right_inj _ |>.mp hrest)
      rw [CriterionPart.text_inj.mp htext]

end Defect

/-! ### The check of a part -/

/-- What is wrong with a part of a criterion. -/
def partComplaint? (item : Nat) (c : Criterion) : CriterionPart → Option String
  | .field => fieldComplaint? item c.field
  | .operator => operatorComplaint? item c.op
  | .value => valueComplaint? item c.value

/-- A word of blanks stands for no operator. -/
theorem parse?_eq_none_of_trim_eq {word : String} (h : Text.trim word = "") :
    Operator.parse? word = none := by
  rw [Operator.parse?, h]
  decide

/-- **A part is complained about exactly if it is lacking.** -/
theorem isSome_partComplaint_iff (item : Nat) (c : Criterion) (p : CriterionPart) :
    (partComplaint? item c p).isSome = true ↔ ¬c.Has p := by
  cases p with
  | field =>
    unfold partComplaint? fieldComplaint? Criterion.Has
    cases c.field with
    | none => simp
    | some field =>
      simp only [Option.some.injEq, exists_eq_left', ← FieldPath.isPlain_ofText_iff]
      split
      · next hblank =>
        -- a text of blanks has segments, none of which is plain
        refine iff_of_true rfl fun h => ?_
        have hne : Text.split '.' field ≠ [] := by simp [Text.split, Text.cut_ne_nil]
        obtain ⟨segment, segments, hsplit⟩ := List.exists_cons_of_ne_nil hne
        have hmem : segment ∈ Text.split '.' field := by
          rw [hsplit]
          exact List.mem_cons_self
        exact Text.not_plain_of_trim_eq hblank hmem (FieldPath.isPlain_ofText_iff.mp h segment hmem)
      · split <;> simp [*]
  | operator =>
    unfold partComplaint? operatorComplaint? Criterion.Has
    cases c.op with
    | none => simp
    | some word =>
      simp only [Option.some.injEq, exists_and_left, exists_eq_left', ← Option.isSome_iff_exists]
      split
      · next hblank => simp [parse?_eq_none_of_trim_eq hblank]
      · split <;> simp_all
  | value =>
    unfold partComplaint? valueComplaint? Criterion.Has
    cases c.value <;> simp

/-- **The key of an item is complained about exactly if it is none.** -/
theorem isSome_entityComplaint_iff (r : Rules) (item : Nat) (i : SearchItem) :
    (r.entityComplaint? item i.key?).isSome = true ↔ ¬i.Names r.keys := by
  unfold entityComplaint? SearchItem.key? SearchItem.Names
  cases i.entity with
  | none => simp
  | some text =>
    simp only [Option.map_some, Option.some.injEq, exists_eq_left', List.contains_iff_mem]
    split
    · next hblank => simp [hblank]
    · split <;> simp_all

/-! ### What is said at a place -/

namespace Defect

/-- The item that a defect is in. -/
def item : Defect → Nat
  | entity item | part item _ _ => item

/-- What the check for a defect says about the item it is in. -/
def check? (r : Rules) (i : SearchItem) : Defect → Option String
  | entity item => r.entityComplaint? item i.key?
  | part item criterion p => i.criteriaList[criterion]?.bind fun c => partComplaint? item c p

/-- What the check for a defect says about a request. -/
def message? (r : Rules) (request : SearchRequest) (d : Defect) : Option String :=
  request.items[d.item]?.bind fun i => d.check? r i

/-- **A defect is complained about exactly if the request has it.** -/
theorem isSome_message_iff (r : Rules) (request : SearchRequest) (d : Defect) :
    (d.message? r request).isSome = true ↔ d.In r.keys request := by
  cases d with
  | entity item =>
    simp only [message?, Defect.item, check?, In, ← isSome_entityComplaint_iff r item]
    cases request.items[item]? <;> simp
  | part item criterion p =>
    simp only [message?, Defect.item, check?, In, ← isSome_partComplaint_iff item]
    cases request.items[item]? with
    | none => simp
    | some i => cases hc : i.criteriaList[criterion]? <;> simp [hc]

/-- The complaint about a defect, if there is one. -/
def complaint (d : Defect) (message : Option String) : List Complaint :=
  (message.map (d.place, ·)).toList

/-- A complaint stands at the place of its defect and nowhere else. -/
theorem filter_complaint (d e : Defect) (message : Option String) :
    (d.complaint message).filter (fun c => c.1 = e.place) =
      if d = e then d.complaint message else [] := by
  unfold complaint
  cases message with
  | none => simp
  | some m => by_cases h : d = e <;> simp [place_inj, h]

end Defect

/-- What is collected about the members of a list, if it comes from the one at a position. -/
theorem flatMap_zipIdx_elim {α β : Type} {g : α × Nat → List β} {as : List α} {k : Nat}
    (hg : ∀ b j, j ≠ k → g (b, j) = []) :
    as.zipIdx.flatMap g = as[k]?.elim [] fun a => g (a, k) := by
  cases ha : as[k]? with
  | some a => exact flatMap_zipIdx_eq ha hg
  | none =>
    refine List.flatMap_eq_nil_iff.mpr fun b hb => hg b.1 b.2 fun hk => ?_
    rw [List.mem_zipIdx_iff_getElem?, hk, ha] at hb
    simp at hb

/-- The checks of a criterion, one after the other. -/
theorem criterionComplaints_eq (item : Nat) (c : Criterion) (criterion : Nat) :
    criterionComplaints item c criterion =
      (Defect.part item criterion .field).complaint (partComplaint? item c .field) ++
        (Defect.part item criterion .operator).complaint (partComplaint? item c .operator) ++
        (Defect.part item criterion .value).complaint (partComplaint? item c .value) :=
  rfl

/-- The checks of an item, one after the other. -/
theorem itemComplaints_eq (r : Rules) (i : SearchItem) (item : Nat) :
    r.itemComplaints i item =
      (Defect.entity item).complaint (r.entityComplaint? item i.key?) ++
        i.criteriaList.zipIdx.flatMap fun cj => criterionComplaints item cj.1 cj.2 :=
  rfl

/-- What the checks of a criterion say at the place of one of its parts. -/
theorem filter_criterionComplaints_part (item : Nat) (c : Criterion) (criterion : Nat)
    (p : CriterionPart) :
    (criterionComplaints item c criterion).filter
        (fun c => c.1 = (Defect.part item criterion p).place) =
      (Defect.part item criterion p).complaint (partComplaint? item c p) := by
  rw [criterionComplaints_eq, List.filter_append, List.filter_append, Defect.filter_complaint,
    Defect.filter_complaint, Defect.filter_complaint]
  cases p <;> simp

/-- The checks of a criterion say nothing at another place. -/
theorem filter_criterionComplaints_of_ne {item criterion : Nat} (c : Criterion) {d : Defect}
    (hd : ∀ p, Defect.part item criterion p ≠ d) :
    (criterionComplaints item c criterion).filter (fun c => c.1 = d.place) = [] := by
  rw [criterionComplaints_eq, List.filter_append, List.filter_append, Defect.filter_complaint,
    Defect.filter_complaint, Defect.filter_complaint, if_neg (hd _), if_neg (hd _),
    if_neg (hd _)]
  rfl

/-- What the checks of an item say at the place of a defect in it. -/
theorem filter_itemComplaints_item (r : Rules) (i : SearchItem) (d : Defect) :
    (r.itemComplaints i d.item).filter (fun c => c.1 = d.place) = d.complaint (d.check? r i) := by
  rw [itemComplaints_eq, List.filter_append, Defect.filter_complaint, List.filter_flatMap]
  cases d with
  | entity item =>
    have hcriteria : (i.criteriaList.zipIdx.flatMap fun cj =>
        (criterionComplaints item cj.1 cj.2).filter fun c => c.1 = (Defect.entity item).place) =
          [] :=
      List.flatMap_eq_nil_iff.mpr fun cj _ =>
        filter_criterionComplaints_of_ne cj.1 fun p => Defect.noConfusion
    simp only [Defect.item, hcriteria, if_true, List.append_nil, Defect.check?]
  | part item criterion p =>
    have hother : ∀ (c : Criterion) (j : Nat), j ≠ criterion →
        (criterionComplaints item c j).filter
          (fun c => c.1 = (Defect.part item criterion p).place) = [] := by
      intro c j hne
      refine filter_criterionComplaints_of_ne c fun p' heq => hne ?_
      exact (Defect.part.inj heq).2.1
    rw [if_neg Defect.noConfusion, List.nil_append]
    simp only [Defect.item]
    rw [flatMap_zipIdx_elim hother, Defect.check?]
    cases i.criteriaList[criterion]? with
    | none => rfl
    | some c => exact filter_criterionComplaints_part item c criterion p

/-- The checks of an item say nothing at the place of a defect in another one. -/
theorem filter_itemComplaints_of_ne (r : Rules) (i : SearchItem) {item : Nat} {d : Defect}
    (hne : item ≠ d.item) : (r.itemComplaints i item).filter (fun c => c.1 = d.place) = [] := by
  have hkey : Defect.entity item ≠ d := by
    rintro rfl
    exact hne rfl
  have hcriteria : (i.criteriaList.zipIdx.flatMap fun cj =>
      (criterionComplaints item cj.1 cj.2).filter fun c => c.1 = d.place) = [] := by
    refine List.flatMap_eq_nil_iff.mpr fun cj _ =>
      filter_criterionComplaints_of_ne cj.1 fun p => ?_
    rintro rfl
    exact hne rfl
  rw [itemComplaints_eq, List.filter_append, Defect.filter_complaint, if_neg hkey,
    List.filter_flatMap, hcriteria]
  rfl

/-- **At the place of a defect stands what its check says.** -/
theorem filter_complaints (r : Rules) (request : SearchRequest) (d : Defect) :
    (r.complaints request).filter (fun c => c.1 = d.place) =
      d.complaint (d.message? r request) := by
  rw [complaints, List.filter_flatMap,
    flatMap_zipIdx_elim fun i item hne => filter_itemComplaints_of_ne r i hne, Defect.message?]
  cases request.items[d.item]? with
  | none => rfl
  | some i => exact filter_itemComplaints_item r i d

/-- A request has the messages of its defects, one for each. -/
theorem get_messages (r : Rules) (request : SearchRequest) (d : Defect) :
    (r.messages request).get d.place = (d.message? r request).toList := by
  rw [messages_eq, Messages.get_collect, filter_complaints, Defect.complaint]
  cases d.message? r request <;> rfl

/-! ### The messages of a request -/

/-- What is complained about in an item is a defect. -/
theorem exists_defect_of_mem {r : Rules} {i : SearchItem} {item : Nat} {c : Complaint}
    (h : c ∈ r.itemComplaints i item) : ∃ d : Defect, d.place = c.1 := by
  simp only [itemComplaints_eq, criterionComplaints_eq, Defect.complaint, List.mem_append,
    Option.mem_toList, Option.map_eq_some_iff, List.mem_flatMap] at h
  rcases h with ⟨m, -, rfl⟩ | ⟨⟨c, j⟩, -, (⟨m, -, rfl⟩ | ⟨m, -, rfl⟩) | ⟨m, -, rfl⟩⟩
  · exact ⟨.entity item, rfl⟩
  · exact ⟨.part item j .field, rfl⟩
  · exact ⟨.part item j .operator, rfl⟩
  · exact ⟨.part item j .value, rfl⟩

/-- Something is complained about at the place of a defect exactly if the request has it. -/
theorem exists_complaint_iff (r : Rules) (request : SearchRequest) (d : Defect) :
    (∃ c ∈ r.complaints request, c.1 = d.place) ↔ d.In r.keys request := by
  have hfilter : (∃ c ∈ r.complaints request, c.1 = d.place) ↔
      (r.complaints request).filter (fun c => c.1 = d.place) ≠ [] := by
    simp [List.filter_eq_nil_iff]
  rw [hfilter, filter_complaints, Defect.complaint, ← Defect.isSome_message_iff,
    ne_eq, Option.toList_eq_nil_iff, Option.map_eq_none_iff, ← ne_eq, Option.ne_none_iff_isSome]

/-- **The places of the messages are those of the defects.** -/
theorem mem_places_iff (r : Rules) (request : SearchRequest) (place : String) :
    place ∈ (r.messages request).places ↔ ∃ d : Defect, d.In r.keys request ∧ d.place = place := by
  rw [show request = ⟨request.items⟩ from rfl, mem_places_messages]
  constructor
  · rintro ⟨c, hc, rfl⟩
    obtain ⟨k, i, -, hitem⟩ := mem_complaints.mp hc
    obtain ⟨d, hd⟩ := exists_defect_of_mem hitem
    exact ⟨d, (exists_complaint_iff r request d).mp ⟨c, hc, hd.symm⟩, hd⟩
  · rintro ⟨d, hd, rfl⟩
    exact (exists_complaint_iff r request d).mpr hd

/-- A request without defects passes, and no other. -/
theorem validate_eq_ok_iff_defects (r : Rules) (request : SearchRequest) :
    r.validate request = .ok () ↔ ∀ d : Defect, ¬d.In r.keys request := by
  rw [validate_eq_ok_iff, List.eq_nil_iff_forall_not_mem]
  constructor
  · intro h d hd
    obtain ⟨c, hc, -⟩ := (exists_complaint_iff r request d).mpr hd
    exact h c hc
  · intro h c hc
    obtain ⟨k, i, -, hitem⟩ := mem_complaints.mp hc
    obtain ⟨d, hd⟩ := exists_defect_of_mem hitem
    exact h d ((exists_complaint_iff r request d).mp ⟨c, hc, hd.symm⟩)

/-- A request has no defects if its items and their criteria have what they should have. -/
theorem no_defect_iff (keys : List String) (request : SearchRequest) :
    (∀ d : Defect, ¬d.In keys request) ↔
      ∀ i ∈ request.items, i.Names keys ∧ ∀ c ∈ i.criteriaList, ∀ p, c.Has p := by
  constructor
  · intro h i hi
    obtain ⟨k, hk⟩ := List.mem_iff_getElem?.mp hi
    refine ⟨not_not.mp fun hn => h (.entity k) ⟨i, hk, hn⟩, fun c hc p => ?_⟩
    obtain ⟨j, hj⟩ := List.mem_iff_getElem?.mp hc
    exact not_not.mp fun hn => h (.part k j p) ⟨i, c, hk, hj, hn⟩
  · intro h d hd
    cases d with
    | entity k =>
      obtain ⟨i, hk, hn⟩ := hd
      exact hn (h i (List.mem_of_getElem? hk)).1
    | part k j p =>
      obtain ⟨i, c, hk, hj, hn⟩ := hd
      exact hn ((h i (List.mem_of_getElem? hk)).2 c (List.mem_of_getElem? hj) p)

/-- **The rules report the defects of a request, and nothing else.** A request passes if each of
its items names a search key and each of its criteria has a path of plain names, an operator that
is known and a value. Any other fails with messages whose places are those of its defects, one
message at each; and no two defects have a place in common. -/
theorem validate_reports_defects (s : Searcher) (request : SearchRequest) :
    (s.rules.validate request = .ok () ↔
      ∀ i ∈ request.items, i.Names s.catalog.keys ∧ ∀ c ∈ i.criteriaList, ∀ p, c.Has p) ∧
    (∀ m, s.rules.validate request = .error m →
      (∀ place, place ∈ m.places ↔
        ∃ d : Defect, d.In s.catalog.keys request ∧ d.place = place) ∧
      ∀ d : Defect, d.In s.catalog.keys request → ∃ message, m.get d.place = [message]) ∧
    ∀ d e : Defect, d ≠ e → d.place ≠ e.place := by
  refine ⟨?_, ?_, ?_⟩
  · rw [validate_eq_ok_iff_defects]
    exact no_defect_iff _ request
  · intro m hm
    obtain rfl := validate_eq_error hm
    refine ⟨mem_places_iff _ request, fun d hd => ?_⟩
    obtain ⟨message, hmessage⟩ :=
      Option.isSome_iff_exists.mp ((Defect.isSome_message_iff s.rules request d).mpr hd)
    exact ⟨message, by rw [get_messages, hmessage]; rfl⟩
  · intro d e hne h
    exact hne (Defect.place_inj.mp h)

end Rules

/-- A request with two defects: a criterion without an operator, and a key that is none. -/
def Blog.crooked : SearchRequest :=
  ⟨[Blog.search [Blog.criterion "name" "=" (.int 1), ⟨some "profile.city", some " ", some (.int 1),
    false⟩], ⟨some "  nobody ", none⟩]⟩

namespace Rules

/-- The request does not pass. The missing operator is reported once, and nothing is said about
the field before it. -/
theorem validate_reports_defects_blog :
    ∃ m, Blog.searcher.rules.validate Blog.crooked = .error m ∧
      (∃ message, m.get "0.criteria.1.where" = [message]) ∧ "0.criteria.1.field" ∉ m.places := by
  have hfails : Blog.searcher.rules.validate Blog.crooked ≠ .ok () := by
    intro h
    have hitems := (validate_reports_defects Blog.searcher Blog.crooked).1.mp h
    obtain ⟨text, htext, -, hkey⟩ := (hitems ⟨some "  nobody ", none⟩ (by simp [Blog.crooked])).1
    obtain rfl := Option.some.inj htext
    exact absurd hkey (by decide)
  cases hv : Blog.searcher.rules.validate Blog.crooked with
  | ok u => exact absurd hv hfails
  | error m =>
    have hdefects := (validate_reports_defects Blog.searcher Blog.crooked).2.1 m hv
    refine ⟨m, rfl, hdefects.2 (.part 0 1 .operator) ?_, fun hplace => ?_⟩
    · refine ⟨_, _, rfl, rfl, ?_⟩
      rintro ⟨word, o, hword, ho⟩
      obtain rfl := Option.some.inj hword
      rw [parse?_eq_none_of_trim_eq (by decide)] at ho
      simp at ho
    · obtain ⟨d, hd, hplace⟩ := (hdefects.1 _).mp hplace
      obtain rfl : d = .part 0 1 .field := Defect.place_inj.mp hplace
      obtain ⟨i, c, hi, hc, hn⟩ := hd
      obtain rfl := Option.some.inj hi
      obtain rfl := Option.some.inj hc
      refine hn ⟨_, rfl, fun segment hsegment => Text.isPlain_iff.mp ?_⟩
      revert segment
      decide

end Rules

end DottedQuery
