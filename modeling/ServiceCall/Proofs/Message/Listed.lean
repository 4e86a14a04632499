import ServiceCall.Proofs.Message.Merge
/-!
# Messages in messages

A value encloses the messages that stand in it as they are (`Value.Encloses`). Null may stand for a
whole list in a message that was read from JSON, but never in one that came from the wire: there what
a repeated field holds is a list or a map, at every depth (`Message.listed_of_decode`).
-/

namespace ServiceCall

open Wire (Raw RawRecord)

/-- A message stands in a value, and in no other message there. -/
inductive Value.Encloses : Value → Message → Prop where
  | record (m : Message) : Value.Encloses (.record m) m
  | item {items : List Value} {v : Value} {m : Message} (hv : v ∈ items) (h : Value.Encloses v m) :
      Value.Encloses (.list items) m
  | entry {entries : List (Value × Value)} {e : Value × Value} {m : Message} (he : e ∈ entries)
      (h : Value.Encloses e.2 m) : Value.Encloses (.map entries) m

/-- A value is a list or a map. -/
def Value.IsMany : Value → Prop
  | .list _ | .map _ => True
  | _ => False

/-- No single value stands for a whole list, at any depth. -/
inductive Message.Listed (p : Pool) : Message → Prop where
  | mk {m : Message}
      (own : ∀ f v, p.field? m.type f.number = some f → m.get? f.number = some v →
        f.isRepeated = true → v.IsMany)
      (inner : ∀ n v x, m.get? n = some v → v.Encloses x → Message.Listed p x) :
      Message.Listed p m

/-- No single value stands for a whole list in a field. -/
structure Field.Listed (p : Pool) (f : Field) (v : Value) : Prop where
  own : f.isRepeated = true → v.IsMany
  inner : ∀ x, v.Encloses x → x.Listed p

namespace Value

theorem not_encloses_of_holds {k : Kind} {v : Value} {x : Message} (h : k.Holds v) :
    ¬v.Encloses x := by
  rintro (_ | _ | _)
  · exact Kind.not_holds_record h
  · exact Kind.not_holds_list h
  · exact Kind.not_holds_map h

theorem eq_of_encloses_record {m x : Message} (h : (Value.record m).Encloses x) : x = m := by
  cases h
  rfl

theorem encloses_itemsOf {v w : Value} {x : Message} (hw : w ∈ Message.itemsOf v)
    (h : w.Encloses x) : v.Encloses x := by
  cases v with
  | list items => exact .item hw h
  | _ => cases hw

theorem encloses_entriesOf {v : Value} {e : Value × Value} {x : Message}
    (he : e ∈ Message.entriesOf v) (h : e.2.Encloses x) : v.Encloses x := by
  cases v with
  | map entries => exact .entry he h
  | _ => cases he

end Value

namespace Message

variable {p : Pool} {m : Message} {f : Field} {v old : Value}

theorem listed_empty (p : Pool) (type : String) : (Message.empty type).Listed p :=
  .mk (fun _ _ _ h => nomatch h) fun _ _ _ h => nomatch h

theorem Listed.of_get? (h : m.Listed p) {n : Nat} (hv : m.get? n = some v) {x : Message}
    (hx : v.Encloses x) : x.Listed p := by
  cases h with
  | mk own inner => exact inner n v x hv hx

theorem Listed.field (h : m.Listed p) (hf : p.field? m.type f.number = some f)
    (hv : m.get? f.number = some v) : f.Listed p v := by
  cases h with
  | mk own inner => exact ⟨own f v hf hv, fun x hx => inner f.number v x hv hx⟩

/-! ## Defaults -/

/-- What the default of a field encloses is empty. -/
theorem listed_of_fieldDefault (hf : f.WellFormed) {x : Message}
    (h : (p.fieldDefault f).Encloses x) : x.Listed p := by
  have hkind : (p.kindDefault f.kind).Encloses x → x.Listed p := fun h => by
    cases hk : f.kind with
    | scalar s =>
      rw [hk] at h
      exact absurd h (Value.not_encloses_of_holds (k := .scalar s) s.holds_fallback)
    | enumeration name =>
      rw [hk, Pool.kindDefault] at h
      split at h <;> cases h
    | message name | group name =>
      rw [hk] at h
      rw [Value.eq_of_encloses_record h]
      exact listed_empty p name
  unfold Pool.fieldDefault at h
  split at h
  next =>
    obtain _ | _ | ⟨he, -⟩ := h
    cases he
  next =>
    split at h
    next =>
      obtain _ | ⟨hv, -⟩ | _ := h
      cases hv
    next =>
      split at h
      next w hw => exact absurd h (Value.not_encloses_of_holds (hf.default w hw))
      next => exact hkind h

theorem listed_of_value (hf : f.WellFormed) (hm : m.Listed p) {x : Message}
    (h : (m.value p f).Encloses x) : x.Listed p := by
  rw [value] at h
  cases hv : m.get? f.number with
  | none =>
    rw [hv] at h
    exact listed_of_fieldDefault hf h
  | some v =>
    rw [hv] at h
    exact hm.of_get? hv h

/-! ## Merging -/

theorem get?_put_eq_some {n : Nat} {w : Value} (h : (m.put p f v).get? n = some w) :
    n = f.number ∧ w = v ∨ m.get? n = some w := by
  by_cases hn : n = f.number
  · subst hn
    rw [get?_put_self] at h
    exact .inl ⟨rfl, (Option.some.inj h).symm⟩
  · refine .inr ?_
    unfold put at h
    split at h
    next =>
      rw [get?_set_of_ne _ hn, get?_clear] at h
      split_ifs at h
      exact h
    next => rwa [get?_set_of_ne _ hn] at h

theorem Listed.put (h : m.Listed p) (hf : p.field? m.type f.number = some f)
    (hv : f.Listed p v) : (m.put p f v).Listed p := by
  refine .mk (fun g w hg hw => ?_) fun n w x hw hx => ?_
  · rw [type_put] at hg
    obtain ⟨hn, rfl⟩ | hw := get?_put_eq_some hw
    · rw [hn] at hg
      exact Option.some.inj (hf.symm.trans hg) ▸ hv.own
    · exact (h.field hg hw).own
  · obtain ⟨-, rfl⟩ | hw := get?_put_eq_some hw
    · exact hv.inner x hx
    · exact h.of_get? hw hx

/-- A list with more items. -/
theorem listed_append {items : List Value} (hold : ∀ x, old.Encloses x → x.Listed p)
    (hitems : ∀ w ∈ items, ∀ x, w.Encloses x → x.Listed p) :
    f.Listed p (.list (itemsOf old ++ items)) := by
  refine ⟨fun _ => trivial, fun x hx => ?_⟩
  cases hx with
  | item hv h =>
    obtain hv | hv := List.mem_append.1 hv
    · exact hold x (Value.encloses_itemsOf hv h)
    · exact hitems _ hv x h

theorem listed_putRecord (hp : p.Loaded) (hold : ∀ x, old.Encloses x → x.Listed p)
    (hm : m.Listed p) : f.Listed p (putRecord p f old m) := by
  have hrecord : ∀ x, (Value.record m).Encloses x → x.Listed p :=
    fun x hx => Value.eq_of_encloses_record hx ▸ hm
  unfold putRecord
  split
  next entry hentry =>
    refine ⟨fun _ => trivial, fun x hx => ?_⟩
    cases hx with
    | entry he h =>
      obtain ⟨-, hvalue | ⟨a, ha, hvalue⟩⟩ := Value.mem_insertEntry he
      · rw [hvalue] at h
        dsimp only at h
        cases hg : entry.field? 2 with
        | none =>
          rw [hg] at h
          cases h
        | some g =>
          rw [hg, Option.map_some, Option.getD_some] at h
          obtain ⟨hname, -⟩ := Pool.messageType_of_mapEntry? hentry
          exact listed_of_value
            (hp.wellFormed_of_field? (Pool.field?_of_messageType (hname ▸ hg))) hm h
      · exact hold x (Value.encloses_entriesOf ha (hvalue ▸ h))
  next =>
    split_ifs with hrepeated
    · exact listed_append hold (List.forall_mem_singleton.2 hrecord)
    · exact ⟨fun h => absurd h hrepeated, hrecord⟩

theorem not_encloses_scalarValue (f : Field) (r : Raw) (x : Message) :
    ¬(scalarValue f r).Encloses x := by
  intro hx
  unfold scalarValue at hx
  split at hx
  next s _ =>
    unfold Scalar.ofRaw at hx
    split at hx <;> try cases hx
    exact Value.not_encloses_of_holds (k := .scalar _) (Scalar.holds_fallback _) hx
  next => cases hx
  next => cases hx

theorem listed_putScalar (r : Raw) (hold : ∀ x, old.Encloses x → x.Listed p) :
    f.Listed p (putScalar f old r) := by
  have hscalar : ∀ x, (scalarValue f r).Encloses x → x.Listed p :=
    fun x hx => absurd hx (not_encloses_scalarValue f r x)
  unfold putScalar
  split_ifs with hrepeated
  · exact listed_append hold (List.forall_mem_singleton.2 hscalar)
  · exact ⟨fun h => absurd h hrepeated, hscalar⟩

theorem listed_recordBase (hold : ∀ x, old.Encloses x → x.Listed p) :
    (recordBase f old).Listed p := by
  unfold recordBase
  split
  next m =>
    split_ifs
    · exact listed_empty p _
    · exact hold m (.record m)
  next => exact listed_empty p _

mutual

theorem listed_mergeValue (hp : p.Loaded) {f : Field} {old : Value}
    (hold : ∀ x, old.Encloses x → x.Listed p) :
    (r : Raw) → f.Listed p (mergeValue p f old r)
  | .packed items => by
    rw [mergeValue]
    refine listed_append hold fun w hw x hx => ?_
    obtain ⟨r, -, rfl⟩ := List.mem_map.1 hw
    exact absurd hx (not_encloses_scalarValue f r x)
  | .record fields => by
    rw [mergeValue]
    exact listed_putRecord hp hold (listed_mergeFields hp (listed_recordBase hold) fields)
  | .group fields => by
    rw [mergeValue]
    exact listed_putRecord hp hold (listed_mergeFields hp (listed_recordBase hold) fields)
  | .varint n => by
    rw [mergeValue]
    exact listed_putScalar _ hold
  | .fixed64 n => by
    rw [mergeValue]
    exact listed_putScalar _ hold
  | .fixed32 n => by
    rw [mergeValue]
    exact listed_putScalar _ hold
  | .text s => by
    rw [mergeValue]
    exact listed_putScalar _ hold
  | .bytes b => by
    rw [mergeValue]
    exact listed_putScalar _ hold

/-- Merging raw fields leaves no single value for a whole list. -/
theorem listed_mergeFields (hp : p.Loaded) {m : Message} (hm : m.Listed p) :
    (r : List (Nat × Raw)) → (mergeFields p m r).Listed p
  | [] => by
    rw [mergeFields]
    exact hm
  | (number, v) :: rest => by
    cases hf : p.field? m.type number with
    | none =>
      rw [mergeFields_unknown hf]
      refine listed_mergeFields hp (.mk (fun g w hg hw => ?_) fun n w x hw hx => ?_) rest
      · exact (hm.field hg hw).own
      · exact hm.of_get? hw hx
    | some f =>
      obtain rfl := Pool.number_of_field? hf
      rw [mergeFields_known hf]
      exact listed_mergeFields hp (hm.put hf (listed_mergeValue hp
        (fun x hx => listed_of_value (hp.wellFormed_of_field? hf) hm hx) v)) rest

end

/-- In a message that was read from the wire no single value stands for a whole list. -/
theorem listed_of_decode (hp : p.Loaded) {type : String} {bytes : Bytes}
    (h : decode p type bytes = .ok m) : m.Listed p := by
  obtain ⟨r, -, rfl⟩ := Except.map_eq_ok.1 h
  exact listed_mergeFields hp (listed_empty p type) r

end Message

end ServiceCall
