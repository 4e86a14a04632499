import ServiceCall.Proofs.Json.Members
import ServiceCall.Proofs.Message.Nesting
import ServiceCall.Proofs.Message.Scalar
import ServiceCall.WellKnown.Basic
import ServiceCall.WellKnown.Held
/-!
# Held JSON values are read back

The JSON form of a held value has no integers, finite numbers only and its members in order
(`Held.isHeld_of_toJson?`). Its raw record is one that the well-known types admit, as far as records
may be nested (`Json.fieldsFit_toRaw`), and what that record holds has the same JSON form again
(`Json.toJson?_putAll`).
-/

namespace ServiceCall

open Wire (Raw RawRecord)

/-- A JSON value that is the form of a held one. -/
inductive Json.IsHeld : Json → Prop where
  | null : Json.IsHeld .null
  | bool (b : Bool) : Json.IsHeld (.bool b)
  | string (s : String) : Json.IsHeld (.string s)
  | float {x : Double} (hfinite : x.isFinite = true) : Json.IsHeld (.float x)
  | array {items : List Json} (h : ∀ v ∈ items, Json.IsHeld v) : Json.IsHeld (.array items)
  | object {members : List (String × Json)} (hascending : Json.Ascending members)
      (h : ∀ x ∈ members, Json.IsHeld x.2) : Json.IsHeld (.object members)

namespace Held

mutual

/-- What the JSON form of a held value is. -/
theorem isHeld_of_toJson? {j : Json} : (v : Held) → v.toJson? = some j → j.IsHeld
  | .null, h => by
    obtain rfl := Option.some.inj h
    exact .null
  | .double x, h => by
    rw [toJson?] at h
    split_ifs at h with hfinite
    obtain rfl := Option.some.inj h
    exact .float hfinite
  | .text s, h => by
    obtain rfl := Option.some.inj h
    exact .string s
  | .bool b, h => by
    obtain rfl := Option.some.inj h
    exact .bool b
  | .object members, h => by
    rw [toJson?] at h
    obtain ⟨ms, hms, rfl⟩ := Option.map_eq_some_iff.1 h
    obtain ⟨hascending, hheld⟩ := isHeld_of_membersToJson? members hms
    exact .object hascending hheld
  | .list items, h => by
    rw [toJson?] at h
    obtain ⟨js, hjs, rfl⟩ := Option.map_eq_some_iff.1 h
    exact .array (isHeld_of_itemsToJson? items hjs)

theorem isHeld_of_membersToJson? {ms : List (String × Json)} :
    (members : List (String × Held)) → membersToJson? members = some ms →
      Json.Ascending ms ∧ ∀ x ∈ ms, x.2.IsHeld
  | [], h => by
    obtain rfl := Option.some.inj h
    exact ⟨.nil, fun x hx => nomatch hx⟩
  | (key, v) :: rest, h => by
    obtain ⟨j, hj, h⟩ := Option.bind_eq_some_iff.1 h
    obtain ⟨more, hmore, h⟩ := Option.bind_eq_some_iff.1 h
    obtain rfl := Option.some.inj h
    obtain ⟨hascending, hheld⟩ := isHeld_of_membersToJson? rest hmore
    refine ⟨hascending.insertMember key j, fun x hx => ?_⟩
    obtain rfl | hx := Json.mem_of_mem_insertMember hx
    · exact isHeld_of_toJson? v hj
    · exact hheld x hx

theorem isHeld_of_itemsToJson? {js : List Json} :
    (items : List Held) → itemsToJson? items = some js → ∀ v ∈ js, v.IsHeld
  | [], h => by
    obtain rfl := Option.some.inj h
    exact fun v hv => nomatch hv
  | item :: rest, h => by
    obtain ⟨j, hj, h⟩ := Option.bind_eq_some_iff.1 h
    obtain ⟨more, hmore, h⟩ := Option.bind_eq_some_iff.1 h
    obtain rfl := Option.some.inj h
    intro v hv
    obtain rfl | hv := List.mem_cons.1 hv
    · exact isHeld_of_toJson? item hj
    · exact isHeld_of_itemsToJson? rest hmore v hv

end

/-! ## Records of objects and lists -/

theorem insert_of_not_mem {key : String} {v : Held} {members : List (String × Held)}
    (h : key ∉ members.map (·.1)) : insert key v members = members ++ [(key, v)] := by
  induction members with
  | nil => rfl
  | cons x rest ih =>
    obtain ⟨hne, hrest⟩ := List.ne_and_not_mem_of_not_mem_cons h
    rw [insert, if_neg hne.symm, ih hrest, List.cons_append]

/-- The key and the value of an entry as it is written. -/
theorem entry_toRaw (key : String) (r : RawRecord) :
    entryKey ((if key.isEmpty then [] else [(1, Raw.text key)]) ++ [(2, Raw.record r)]) = key ∧
      entryValue null ((if key.isEmpty then [] else [(1, Raw.text key)]) ++ [(2, Raw.record r)]) =
        putAll null r := by
  split_ifs with hempty
  · exact ⟨(String.isEmpty_iff.1 hempty).symm, rfl⟩
  · exact ⟨rfl, rfl⟩

/-- An object is read back member by member. -/
theorem putMembers_membersToRaw {members : List (String × Json)} {before : List (String × Held)}
    (h : (before.map (·.1) ++ members.map (·.1)).Nodup) :
    putMembers before (Json.membersToRaw members) =
      before ++ members.map fun x => (x.1, putAll null x.2.toRaw) := by
  induction members generalizing before with
  | nil => rw [Json.membersToRaw, putMembers, List.map_nil, List.append_nil]
  | cons x rest ih =>
    obtain ⟨key, v⟩ := x
    obtain ⟨hkey, hvalue⟩ := entry_toRaw key v.toRaw
    rw [List.map_cons] at h
    have hnew : key ∉ before.map (·.1) := fun hmem =>
      (List.nodup_append.1 h).2.2 key hmem key List.mem_cons_self rfl
    rw [Json.membersToRaw, putMembers, putMember, if_pos rfl, hkey, hvalue, insert_of_not_mem hnew,
      ih (by simpa using h), List.map_cons, List.append_assoc, List.singleton_append]

/-- A list is read back item by item. -/
theorem putItems_itemsToRaw (items : List Json) (before : List Held) :
    putItems before (Json.itemsToRaw items) = before ++ items.map fun v => putAll null v.toRaw := by
  induction items generalizing before with
  | nil => rw [Json.itemsToRaw, putItems, List.map_nil, List.append_nil]
  | cons v rest ih =>
    rw [Json.itemsToRaw, putItems, if_pos rfl, nested, ih, List.map_cons, List.append_assoc,
      List.singleton_append]

end Held

namespace Json

/-- A member that comes before all others is put first. -/
theorem insertMember_of_lt {α : Type} {key : String} {value : α} {members : List (String × α)}
    (h : ∀ x ∈ members, key < x.1) : insertMember key value members = (key, value) :: members := by
  cases members with
  | nil => rfl
  | cons x rest => rw [insertMember, if_pos (h x List.mem_cons_self)]

mutual

/-- What the record of a JSON value holds has that JSON form. -/
theorem toJson?_putAll : (j : Json) → j.IsHeld → (Held.putAll .null j.toRaw).toJson? = some j
  | .null, _ => rfl
  | .bool b, _ => by cases b <;> rfl
  | .integer i, h => nomatch h
  | .float x, h => by
    cases h with
    | float hfinite =>
      have hx : Floating.ofBits _ x.toBits = x :=
        Floating.ofBits_toBits (Floating.hasBits_of_isFinite hfinite)
      rw [toRaw, Held.putAll, Held.putAll, Held.put, if_pos rfl, hx, Held.toJson?, if_pos hfinite]
  | .string s, _ => rfl
  | .array items, h => by
    cases h with
    | array h =>
      have hitems : Held.items .null = [] := rfl
      rw [toRaw, Held.putAll, Held.putAll, Held.put, if_neg (by decide), if_pos rfl, hitems,
        Held.putItems_itemsToRaw, List.nil_append, Held.toJson?, itemsToJson?_map items h]
      rfl
  | .object members, h => by
    cases h with
    | object hascending h =>
      have hmembers : Held.members .null = [] := rfl
      rw [toRaw, Held.putAll, Held.putAll, Held.put, if_pos rfl, hmembers,
        Held.putMembers_membersToRaw (by simpa using hascending.nodup_keys), List.nil_append,
        Held.toJson?, membersToJson?_map members hascending h]
      rfl

theorem itemsToJson?_map : (items : List Json) → (∀ v ∈ items, v.IsHeld) →
    Held.itemsToJson? (items.map fun v => Held.putAll .null v.toRaw) = some items
  | [], _ => rfl
  | v :: rest, h => by
    rw [List.map_cons, Held.itemsToJson?, toJson?_putAll v (h v List.mem_cons_self),
      itemsToJson?_map rest fun w hw => h w (.tail _ hw)]
    rfl

theorem membersToJson?_map : (members : List (String × Json)) → Ascending members →
    (∀ x ∈ members, x.2.IsHeld) →
    Held.membersToJson? (members.map fun x => (x.1, Held.putAll .null x.2.toRaw)) = some members
  | [], _, _ => rfl
  | (key, v) :: rest, hascending, h => by
    obtain ⟨hfirst, hrest⟩ := List.pairwise_cons.1 hascending
    rw [List.map_cons, Held.membersToJson?, toJson?_putAll v (h _ List.mem_cons_self),
      membersToJson?_map rest hrest fun x hx => h x (.tail _ hx)]
    exact congrArg some (insertMember_of_lt hfirst)

end

end Json

/-! ## Levels -/

namespace WellKnown

variable {depth number : Nat} {fields : RawRecord} {place : Wire.Within} {type : String}
  {slot : Wire.Slot} {name : Option String} {v : Raw}

/-- A field that is known may hold what its slot takes. -/
theorem fieldFits_of_takes (hslot : place.slot? layout number = some ⟨slot, false, name⟩)
    (hv : slot.Takes v) : Wire.FieldFits layout place depth number v :=
  .plain hslot (fun h => absurd h.1 Bool.false_ne_true) (.plain hv)

/-- A field that takes a record may hold one of a level less. -/
theorem fieldFits_record (hslot : place.slot? layout number = some ⟨.record type, false, name⟩)
    (h : Wire.FieldsFit layout (.record type) depth fields) :
    Wire.FieldFits layout place (depth + 1) number (.record fields) :=
  .plain hslot (fun h => absurd h.1 Bool.false_ne_true) (.record h)

theorem fieldsFit_singleton (hpos : 1 ≤ number) (hlt : number < 2 ^ 29)
    (h : Wire.FieldFits layout place depth number v) :
    Wire.FieldsFit layout place depth [(number, v)] :=
  .cons hpos hlt h (.nil ..)

end WellKnown

namespace Json

open Wire WellKnown

mutual

/-- The record of a JSON value may be nested as deep as it is. -/
theorem fieldsFit_toRaw {depth : Nat} : (j : Json) → j.IsHeld → Raw.levelsOf j.toRaw ≤ depth →
    FieldsFit layout (.record valueName) depth j.toRaw
  | .null, _, _ => fieldsFit_singleton (by decide) (by decide)
      (fieldFits_of_takes rfl (Scalar.takes_toRaw (s := .uint64) (v := .integer 0) rfl))
  | .bool b, _, _ => fieldsFit_singleton (by decide) (by decide)
      (fieldFits_of_takes rfl (Scalar.takes_toRaw (s := .bool) (v := .bool b) trivial))
  | .integer i, h, _ => nomatch h
  | .float x, h, _ => by
    cases h with
    | float hfinite =>
      exact fieldsFit_singleton (by decide) (by decide) (fieldFits_of_takes rfl
        (Scalar.takes_toRaw (s := .double) (v := .double x) (Floating.hasBits_of_isFinite hfinite)))
  | .string s, _, _ => fieldsFit_singleton (by decide) (by decide)
      (fieldFits_of_takes rfl (Scalar.takes_toRaw (s := .string) (v := .text s) trivial))
  | .array items, h, hl => by
    cases h with
    | array h =>
      rw [toRaw, Raw.levelsOf, Raw.levels] at hl
      obtain ⟨d, rfl⟩ : ∃ d, depth = d + 1 := ⟨depth - 1, by omega⟩
      exact fieldsFit_singleton (by decide) (by decide)
        (fieldFits_record rfl (fieldsFit_itemsToRaw items h (by omega)))
  | .object members, h, hl => by
    cases h with
    | object _ h =>
      rw [toRaw, Raw.levelsOf, Raw.levels] at hl
      obtain ⟨d, rfl⟩ : ∃ d, depth = d + 1 := ⟨depth - 1, by omega⟩
      exact fieldsFit_singleton (by decide) (by decide)
        (fieldFits_record rfl (fieldsFit_membersToRaw members h (by omega)))

theorem fieldsFit_itemsToRaw {depth : Nat} : (items : List Json) → (∀ v ∈ items, v.IsHeld) →
    Raw.levelsOf (itemsToRaw items) ≤ depth →
    FieldsFit layout (.record listName) depth (itemsToRaw items)
  | [], _, _ => .nil ..
  | v :: rest, h, hl => by
    rw [itemsToRaw, Raw.levelsOf, Raw.levels] at hl
    obtain ⟨d, rfl⟩ : ∃ d, depth = d + 1 := ⟨depth - 1, by omega⟩
    exact .cons (by decide) (by decide)
      (fieldFits_record rfl (fieldsFit_toRaw v (h v List.mem_cons_self) (by omega)))
      (fieldsFit_itemsToRaw rest (fun w hw => h w (.tail _ hw)) (by omega))

theorem fieldsFit_membersToRaw {depth : Nat} : (members : List (String × Json)) →
    (∀ x ∈ members, x.2.IsHeld) → Raw.levelsOf (membersToRaw members) ≤ depth →
    FieldsFit layout (.record structName) depth (membersToRaw members)
  | [], _, _ => .nil ..
  | (key, v) :: rest, h, hl => by
    rw [membersToRaw, Raw.levelsOf, Raw.levels] at hl
    have hentry : Raw.levelsOf v.toRaw + 1 ≤
        Raw.levelsOf ((if key.isEmpty then [] else [(1, Raw.text key)]) ++
          [(2, Raw.record v.toRaw)]) := by
      split_ifs <;> simp [Raw.levelsOf, Raw.levels]
    obtain ⟨d, rfl⟩ : ∃ d, depth = d + 2 := ⟨depth - 2, by omega⟩
    have hvalue : FieldsFit layout (.entry entryName) (d + 1) [(2, .record v.toRaw)] :=
      fieldsFit_singleton (by decide) (by decide)
        (fieldFits_record rfl (fieldsFit_toRaw v (h _ List.mem_cons_self) (by omega)))
    have hfields : FieldsFit layout (.entry entryName) (d + 1)
        ((if key.isEmpty then [] else [(1, Raw.text key)]) ++ [(2, Raw.record v.toRaw)]) := by
      split_ifs
      · exact hvalue
      · exact .cons (by decide) (by decide) (fieldFits_of_takes rfl
          (Scalar.takes_toRaw (s := .string) (v := .text key) trivial)) hvalue
    exact .cons (by decide) (by decide)
      (.plain rfl (fun h => absurd h.1 Bool.false_ne_true)
        (.entry (by simp) hfields))
      (fieldsFit_membersToRaw rest (fun x hx => h x (.tail _ hx)) (by omega))

end

end Json

end ServiceCall
