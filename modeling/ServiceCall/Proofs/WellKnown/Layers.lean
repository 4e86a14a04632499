import ServiceCall.Proofs.WellKnown.Held
/-!
# Layers of held JSON values

The lists and objects that a JSON value holds in one another take levels on the wire, two for each
of them and one more for each member if entries count as levels. What comes of a raw record has no
more layers than the record (`Held.layers_putAll`), its JSON form no more than itself
(`Held.layers_of_toJson?`), and the record of that form no more again
(`Json.levelsOf_toRaw`).
-/

namespace ServiceCall

open Wire (Raw RawRecord)

/-! ## The layers of records -/

namespace Held

mutual

/-- The layers of a record that holds a value, where an entry takes `cost` levels. -/
def rawLayers (cost : Nat) : List (Nat × Raw) → Nat
  | [] => 0
  | (number, v) :: rest => max (fieldLayers cost number v) (rawLayers cost rest)

def fieldLayers (cost number : Nat) : Raw → Nat
  | .record fields =>
    if number = 5 then memberLayers cost fields + 1
    else if number = 6 then itemLayers cost fields + 1
    else 0
  | .varint _ | .fixed64 _ | .fixed32 _ | .text _ | .bytes _ | .packed _ | .group _ => 0

/-- The layers of a record that holds the members of an object. -/
def memberLayers (cost : Nat) : List (Nat × Raw) → Nat
  | [] => 0
  | (number, v) :: rest =>
    max (if number = 1 then contentLayers cost v + cost + 1 else 0) (memberLayers cost rest)

/-- The layers of the value in an entry. -/
def contentLayers (cost : Nat) : Raw → Nat
  | .record entry => entryLayers cost entry
  | .varint _ | .fixed64 _ | .fixed32 _ | .text _ | .bytes _ | .packed _ | .group _ => 0

def entryLayers (cost : Nat) : List (Nat × Raw) → Nat
  | [] => 0
  | (number, v) :: rest =>
    max (if number = 2 then nestedLayers cost v else 0) (entryLayers cost rest)

/-- The layers of a value that a message holds. -/
def nestedLayers (cost : Nat) : Raw → Nat
  | .record fields => rawLayers cost fields
  | .varint _ | .fixed64 _ | .fixed32 _ | .text _ | .bytes _ | .packed _ | .group _ => 0

/-- The layers of a record that holds the items of a list. -/
def itemLayers (cost : Nat) : List (Nat × Raw) → Nat
  | [] => 0
  | (number, v) :: rest =>
    max (if number = 1 then nestedLayers cost v + 1 else 0) (itemLayers cost rest)

end

/-! ## The layers of values -/

mutual

/-- The layers of a held value. -/
def layers (cost : Nat) : Held → Nat
  | object members => layersOfMembers cost members + 1
  | list items => layersOfItems cost items + 1
  | null | double _ | text _ | bool _ => 0

def layersOfMembers (cost : Nat) : List (String × Held) → Nat
  | [] => 0
  | (_, v) :: rest => max (v.layers cost + cost + 1) (layersOfMembers cost rest)

def layersOfItems (cost : Nat) : List Held → Nat
  | [] => 0
  | v :: rest => max (v.layers cost + 1) (layersOfItems cost rest)

end

theorem layersOfMembers_insert (cost : Nat) (key : String) (v : Held)
    (members : List (String × Held)) : layersOfMembers cost (insert key v members) ≤
      max (v.layers cost + cost + 1) (layersOfMembers cost members) := by
  induction members with
  | nil => simp [insert, layersOfMembers]
  | cons x rest ih =>
    obtain ⟨k, w⟩ := x
    rw [insert]
    split_ifs <;> simp only [layersOfMembers] <;> omega

theorem layersOfItems_append (cost : Nat) (items more : List Held) :
    layersOfItems cost (items ++ more) =
      max (layersOfItems cost items) (layersOfItems cost more) := by
  induction items with
  | nil => simp [layersOfItems]
  | cons v rest ih => rw [List.cons_append, layersOfItems, layersOfItems, ih, Nat.max_assoc]

theorem layersOfMembers_members (cost : Nat) (v : Held) :
    layersOfMembers cost v.members + 1 ≤ max (v.layers cost) 1 := by
  cases v <;> simp [members, layers, layersOfMembers]

theorem layersOfItems_items (cost : Nat) (v : Held) :
    layersOfItems cost v.items + 1 ≤ max (v.layers cost) 1 := by
  cases v <;> simp [items, layers, layersOfItems]

mutual

theorem layers_put (cost : Nat) (old : Held) (number : Nat) : (v : Raw) →
    (put old number v).layers cost ≤ max (old.layers cost) (fieldLayers cost number v)
  | .varint n => by
    rw [put]
    split_ifs <;> simp [layers]
  | .fixed64 n => by
    rw [put]
    split_ifs <;> simp [layers]
  | .text s => by
    rw [put]
    split_ifs <;> simp [layers]
  | .record fields => by
    have hmembers := layers_putMembers cost old.members fields
    have hitems := layers_putItems cost old.items fields
    have hold := layersOfMembers_members cost old
    have hold' := layersOfItems_items cost old
    rw [put, fieldLayers]
    split_ifs
    · rw [layers]
      omega
    · rw [layers]
      omega
    · exact Nat.le_max_left ..
  | .fixed32 n => by simp [put]
  | .bytes b => by simp [put]
  | .packed items => by simp [put]
  | .group fields => by simp [put]

/-- What a raw record makes of a value has no more layers than both. -/
theorem layers_putAll (cost : Nat) (old : Held) : (r : List (Nat × Raw)) →
    (putAll old r).layers cost ≤ max (old.layers cost) (rawLayers cost r)
  | [] => by simp [putAll]
  | (number, v) :: rest => by
    have hfirst := layers_put cost old number v
    have hrest := layers_putAll cost (put old number v) rest
    rw [putAll, rawLayers]
    omega

theorem layers_putMembers (cost : Nat) (members : List (String × Held)) :
    (r : List (Nat × Raw)) → layersOfMembers cost (putMembers members r) ≤
      max (layersOfMembers cost members) (memberLayers cost r)
  | [] => by simp [putMembers]
  | (number, v) :: rest => by
    have hfirst := layers_putMember cost members number v
    have hrest := layers_putMembers cost (putMember members number v) rest
    rw [putMembers, memberLayers]
    omega

theorem layers_putMember (cost : Nat) (members : List (String × Held)) (number : Nat) :
    (v : Raw) → layersOfMembers cost (putMember members number v) ≤
      max (layersOfMembers cost members)
        (if number = 1 then contentLayers cost v + cost + 1 else 0)
  | .record entry => by
    have hentry := layers_entryValue cost null entry
    have hinsert := layersOfMembers_insert cost (entryKey entry) (entryValue null entry) members
    have hnull : (null : Held).layers cost = 0 := rfl
    rw [putMember, contentLayers]
    split_ifs <;> omega
  | .varint n => by simp [putMember]
  | .fixed64 n => by simp [putMember]
  | .fixed32 n => by simp [putMember]
  | .text s => by simp [putMember]
  | .bytes b => by simp [putMember]
  | .packed items => by simp [putMember]
  | .group fields => by simp [putMember]

theorem layers_entryValue (cost : Nat) (old : Held) : (r : List (Nat × Raw)) →
    (entryValue old r).layers cost ≤ max (old.layers cost) (entryLayers cost r)
  | [] => by simp [entryValue]
  | (number, v) :: rest => by
    have hfirst := layers_nested cost old v
    have hrest := layers_entryValue cost (if number = 2 then nested old v else old) rest
    rw [entryValue, entryLayers]
    split_ifs at hrest ⊢ <;> omega

theorem layers_nested (cost : Nat) (old : Held) : (v : Raw) →
    (nested old v).layers cost ≤ max (old.layers cost) (nestedLayers cost v)
  | .record fields => by
    rw [nested, nestedLayers]
    exact layers_putAll cost old fields
  | .varint n => by simp [nested]
  | .fixed64 n => by simp [nested]
  | .fixed32 n => by simp [nested]
  | .text s => by simp [nested]
  | .bytes b => by simp [nested]
  | .packed items => by simp [nested]
  | .group fields => by simp [nested]

theorem layers_putItems (cost : Nat) (items : List Held) : (r : List (Nat × Raw)) →
    layersOfItems cost (putItems items r) ≤
      max (layersOfItems cost items) (itemLayers cost r)
  | [] => by simp [putItems]
  | (number, v) :: rest => by
    have hfirst := layers_nested cost null v
    have hnull : (null : Held).layers cost = 0 := rfl
    have happend := layersOfItems_append cost items [nested null v]
    have hone : layersOfItems cost [nested null v] = (nested null v).layers cost + 1 := by
      simp [layersOfItems]
    have hrest := layers_putItems cost (if number = 1 then items ++ [nested null v] else items) rest
    rw [putItems, itemLayers]
    split_ifs at hrest ⊢ <;> omega

end

end Held

/-! ## The layers of JSON values -/

namespace Json

mutual

/-- The layers of a JSON value. -/
def layers (cost : Nat) : Json → Nat
  | object members => layersOfMembers cost members + 1
  | array items => layersOfItems cost items + 1
  | null | bool _ | integer _ | float _ | string _ => 0

def layersOfMembers (cost : Nat) : List (String × Json) → Nat
  | [] => 0
  | (_, v) :: rest => max (v.layers cost + cost + 1) (layersOfMembers cost rest)

def layersOfItems (cost : Nat) : List Json → Nat
  | [] => 0
  | v :: rest => max (v.layers cost + 1) (layersOfItems cost rest)

end

theorem layersOfMembers_insertMember (cost : Nat) (key : String) (v : Json)
    (members : List (String × Json)) : layersOfMembers cost (insertMember key v members) ≤
      max (v.layers cost + cost + 1) (layersOfMembers cost members) := by
  induction members with
  | nil => simp [insertMember, layersOfMembers]
  | cons x rest ih =>
    obtain ⟨k, w⟩ := x
    rw [insertMember]
    split_ifs <;> simp only [layersOfMembers] <;> omega

mutual

/-- With entries counted, the record of a JSON value takes as many levels as the value has layers. -/
theorem levelsOf_toRaw : (j : Json) → Raw.levelsOf j.toRaw = j.layers 1
  | .null => rfl
  | .bool b => rfl
  | .integer i => rfl
  | .float x => rfl
  | .string s => rfl
  | .array items => by
    rw [toRaw, Raw.levelsOf, Raw.levels, levelsOf_itemsToRaw items, layers, Raw.levelsOf,
      Nat.max_zero]
  | .object members => by
    rw [toRaw, Raw.levelsOf, Raw.levels, levelsOf_membersToRaw members, layers, Raw.levelsOf,
      Nat.max_zero]

theorem levelsOf_itemsToRaw : (items : List Json) →
    Raw.levelsOf (itemsToRaw items) = layersOfItems 1 items
  | [] => rfl
  | v :: rest => by
    rw [itemsToRaw, Raw.levelsOf, Raw.levels, levelsOf_toRaw v, levelsOf_itemsToRaw rest,
      layersOfItems]

theorem levelsOf_membersToRaw : (members : List (String × Json)) →
    Raw.levelsOf (membersToRaw members) = layersOfMembers 1 members
  | [] => rfl
  | (key, v) :: rest => by
    have hvalue := levelsOf_toRaw v
    have hentry : Raw.levelsOf ((if key.isEmpty then [] else [(1, Raw.text key)]) ++
        [(2, Raw.record v.toRaw)]) = v.layers 1 + 1 := by
      split_ifs <;> simp [Raw.levelsOf, Raw.levels, hvalue]
    rw [membersToRaw, Raw.levelsOf, Raw.levels, hentry, levelsOf_membersToRaw rest,
      layersOfMembers]

end

end Json

namespace Held

mutual

/-- The JSON form of a held value has no more layers. -/
theorem layers_of_toJson? (cost : Nat) {j : Json} : (v : Held) → v.toJson? = some j →
    j.layers cost ≤ v.layers cost
  | .null, h => by
    obtain rfl := Option.some.inj h
    exact Nat.le_refl _
  | .double x, h => by
    rw [toJson?] at h
    split_ifs at h
    obtain rfl := Option.some.inj h
    exact Nat.le_refl _
  | .text s, h => by
    obtain rfl := Option.some.inj h
    exact Nat.le_refl _
  | .bool b, h => by
    obtain rfl := Option.some.inj h
    exact Nat.le_refl _
  | .object members, h => by
    rw [toJson?] at h
    obtain ⟨ms, hms, rfl⟩ := Option.map_eq_some_iff.1 h
    exact Nat.succ_le_succ (layers_of_membersToJson? cost members hms)
  | .list items, h => by
    rw [toJson?] at h
    obtain ⟨js, hjs, rfl⟩ := Option.map_eq_some_iff.1 h
    exact Nat.succ_le_succ (layers_of_itemsToJson? cost items hjs)

theorem layers_of_membersToJson? (cost : Nat) {ms : List (String × Json)} :
    (members : List (String × Held)) → membersToJson? members = some ms →
      Json.layersOfMembers cost ms ≤ layersOfMembers cost members
  | [], h => by
    obtain rfl := Option.some.inj h
    exact Nat.le_refl _
  | (key, v) :: rest, h => by
    obtain ⟨j, hj, h⟩ := Option.bind_eq_some_iff.1 h
    obtain ⟨more, hmore, h⟩ := Option.bind_eq_some_iff.1 h
    obtain rfl := Option.some.inj h
    have hfirst := layers_of_toJson? cost v hj
    have hrest := layers_of_membersToJson? cost rest hmore
    have hinsert := Json.layersOfMembers_insertMember cost key j more
    rw [layersOfMembers]
    omega

theorem layers_of_itemsToJson? (cost : Nat) {js : List Json} : (items : List Held) →
    itemsToJson? items = some js → Json.layersOfItems cost js ≤ layersOfItems cost items
  | [], h => by
    obtain rfl := Option.some.inj h
    exact Nat.le_refl _
  | item :: rest, h => by
    obtain ⟨j, hj, h⟩ := Option.bind_eq_some_iff.1 h
    obtain ⟨more, hmore, h⟩ := Option.bind_eq_some_iff.1 h
    obtain rfl := Option.some.inj h
    have hfirst := layers_of_toJson? cost item hj
    have hrest := layers_of_itemsToJson? cost rest hmore
    rw [Json.layersOfItems, layersOfItems]
    omega

end

end Held

end ServiceCall
