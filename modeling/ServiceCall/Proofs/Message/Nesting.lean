import Mathlib.Data.List.Perm.Basic
import ServiceCall.Proofs.Message.Fits
/-!
# Nesting, and the order of maps

How deep messages are nested decides whether they can be read from the wire
(`Message.nesting`), and how the entries of their maps are ordered is left to the writer
(`Message.Rearranged`).
-/

namespace ServiceCall

open Wire (Raw RawRecord)

/-! ## Levels -/

namespace Wire

mutual

/-- The levels of records and groups in a value on the wire. -/
def Raw.levels : Raw → Nat
  | .record fields => Raw.levelsOf fields + 1
  | .group fields => Raw.levelsOf fields + 1
  | _ => 0

def Raw.levelsOf : List (Nat × Raw) → Nat
  | [] => 0
  | (_, v) :: rest => max v.levels (Raw.levelsOf rest)

end

theorem Raw.levels_le_levelsOf {r : RawRecord} {x : Nat × Raw} (h : x ∈ r) :
    x.2.levels ≤ Raw.levelsOf r := by
  induction r with
  | nil => cases h
  | cons y rest ih =>
    obtain ⟨n, v⟩ := y
    rw [Raw.levelsOf]
    obtain rfl | h := List.mem_cons.1 h
    · exact Nat.le_max_left ..
    · exact Nat.le_trans (ih h) (Nat.le_max_right ..)

mutual

/-- What a layout does not know may stand at any depth that leaves it its levels. -/
theorem UnknownFits.of_levels {layout : Layout} {strict : Bool} {depth left : Nat} :
    (v : Raw) → UnknownFits layout strict depth v → v.levels ≤ left →
      UnknownFits layout false left v
  | .varint n, h, _ => by
    cases h with
    | varint hn => exact .varint hn
  | .fixed64 n, h, _ => by
    cases h with
    | fixed64 hn => exact .fixed64 hn
  | .fixed32 n, h, _ => by
    cases h with
    | fixed32 hn => exact .fixed32 hn
  | .bytes b, h, _ => .bytes b
  | .text _, h, _ => nomatch h
  | .packed _, h, _ => nomatch h
  | .record _, h, _ => nomatch h
  | .group fields, h, hl => by
    rw [Raw.levels] at hl
    obtain ⟨left, rfl⟩ : ∃ n, left = n + 1 := ⟨left - 1, by omega⟩
    cases h with
    | group h => exact .group (FieldsFit.of_levels fields h (by omega))

theorem FieldsFit.of_levels {layout : Layout} {strict : Bool} {depth left : Nat} :
    (r : List (Nat × Raw)) → FieldsFit layout (.unknown strict) depth r → Raw.levelsOf r ≤ left →
      FieldsFit layout (.unknown false) left r
  | [], _, _ => .nil ..
  | (number, v) :: rest, h, hl => by
    rw [Raw.levelsOf] at hl
    cases h with
    | cons hpos hlt hv hrest =>
      refine .cons hpos hlt ?_ (FieldsFit.of_levels rest hrest (by omega))
      cases hv with
      | packed hslot | plain hslot => cases hslot
      | unknown hslot hdepth hv =>
        exact .unknown hslot (by simp [Within.isStrict]) (UnknownFits.of_levels v hv (by omega))

end

end Wire

/-! ## Nesting -/

mutual

/-- The levels of messages in a value. -/
def Value.nesting : Value → Nat
  | .record m => m.nesting + 1
  | .list items => Value.nestingOfItems items
  | .map entries => Value.nestingOfEntries entries
  | _ => 0

def Value.nestingOfItems : List Value → Nat
  | [] => 0
  | v :: rest => max v.nesting (Value.nestingOfItems rest)

def Value.nestingOfEntries : List (Value × Value) → Nat
  | [] => 0
  | (_, v) :: rest => max v.nesting (Value.nestingOfEntries rest)

/-- The levels of messages below a message. -/
def Message.nesting : Message → Nat
  | .mk _ fields unknown => max (Message.nestingOfFields fields) (Raw.levelsOf unknown)

def Message.nestingOfFields : List (Nat × Value) → Nat
  | [] => 0
  | (_, v) :: rest => max v.nesting (Message.nestingOfFields rest)

end

theorem Value.nesting_le_of_item {items : List Value} {v : Value} (h : v ∈ items) :
    v.nesting ≤ nestingOfItems items := by
  induction items with
  | nil => cases h
  | cons w rest ih =>
    rw [nestingOfItems]
    obtain rfl | h := List.mem_cons.1 h
    · exact Nat.le_max_left ..
    · exact Nat.le_trans (ih h) (Nat.le_max_right ..)

theorem Value.nesting_le_of_entry {entries : List (Value × Value)} {e : Value × Value}
    (h : e ∈ entries) : e.2.nesting ≤ nestingOfEntries entries := by
  induction entries with
  | nil => cases h
  | cons a rest ih =>
    obtain ⟨k, v⟩ := a
    rw [nestingOfEntries]
    obtain rfl | h := List.mem_cons.1 h
    · exact Nat.le_max_left ..
    · exact Nat.le_trans (ih h) (Nat.le_max_right ..)

theorem Message.nesting_le_of_field {fields : List (Nat × Value)} {x : Nat × Value}
    (h : x ∈ fields) : x.2.nesting ≤ nestingOfFields fields := by
  induction fields with
  | nil => cases h
  | cons y rest ih =>
    obtain ⟨n, v⟩ := y
    rw [nestingOfFields]
    obtain rfl | h := List.mem_cons.1 h
    · exact Nat.le_max_left ..
    · exact Nat.le_trans (ih h) (Nat.le_max_right ..)

/-! ## The order of entries -/

mutual

/-- A value is another one with the entries of its maps in some order. -/
inductive Value.Rearranged : Value → Value → Prop where
  | same (v : Value) : Value.Rearranged v v
  | record {m m' : Message} (h : Message.Rearranged m m') :
      Value.Rearranged (.record m) (.record m')
  | list {items items' : List Value} (h : List.Forall₂ Value.Rearranged items items') :
      Value.Rearranged (.list items) (.list items')
  | map {entries inner entries' : List (Value × Value)}
      (h : List.Forall₂ Value.EntryRearranged entries inner) (hperm : inner.Perm entries') :
      Value.Rearranged (.map entries) (.map entries')

/-- An entry is another one with its value rearranged. -/
inductive Value.EntryRearranged : Value × Value → Value × Value → Prop where
  | mk {k v v' : Value} (h : Value.Rearranged v v') : Value.EntryRearranged (k, v) (k, v')

/-- A message is another one with the entries of its maps, at any depth, in some order. -/
inductive Message.Rearranged : Message → Message → Prop where
  | mk {type : String} {fields fields' : List (Nat × Value)} {unknown : RawRecord}
      (h : List.Forall₂ Message.FieldRearranged fields fields') :
      Message.Rearranged (.mk type fields unknown) (.mk type fields' unknown)

/-- A field is another one with its value rearranged. -/
inductive Message.FieldRearranged : Nat × Value → Nat × Value → Prop where
  | mk {n : Nat} {v v' : Value} (h : Value.Rearranged v v') :
      Message.FieldRearranged (n, v) (n, v')

end

theorem Message.Rearranged.refl : (m : Message) → m.Rearranged m
  | .mk .. => .mk (List.forall₂_same.2 fun _ _ => .mk (.same _))

namespace Value.Rearranged

variable {v' : Value}

theorem of_record {m : Message} (h : (Value.record m).Rearranged v') :
    ∃ m', v' = .record m' ∧ m.Rearranged m' := by
  cases h with
  | same => exact ⟨m, rfl, .refl m⟩
  | record h => exact ⟨_, rfl, h⟩

theorem of_list {items : List Value} (h : (Value.list items).Rearranged v') :
    ∃ items', v' = .list items' ∧ List.Forall₂ Value.Rearranged items items' := by
  cases h with
  | same => exact ⟨items, rfl, List.forall₂_same.2 fun _ _ => .same _⟩
  | list h => exact ⟨_, rfl, h⟩

/-- The entries of a map, put into the order of those of the rearranged one. -/
theorem of_map {entries : List (Value × Value)} (h : (Value.map entries).Rearranged v') :
    ∃ ordered entries', v' = .map entries' ∧ entries.Perm ordered ∧
      List.Forall₂ Value.EntryRearranged ordered entries' := by
  cases h with
  | same => exact ⟨entries, entries, rfl, .refl _, List.forall₂_same.2 fun _ _ => .mk (.same _)⟩
  | map h hperm =>
    obtain ⟨ordered, hordered, hinner⟩ := List.perm_comp_forall₂ hperm.symm h.flip
    exact ⟨ordered, _, rfl, hinner.symm, hordered.flip⟩

theorem of_holds {v : Value} {k : Kind} (h : v.Rearranged v') (hv : k.Holds v) : v' = v := by
  cases h with
  | same => rfl
  | record => exact absurd hv Kind.not_holds_record
  | list => exact absurd hv Kind.not_holds_list
  | map => exact absurd hv Kind.not_holds_map

end Value.Rearranged

end ServiceCall
