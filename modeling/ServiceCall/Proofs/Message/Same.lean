import ServiceCall.Proofs.Message.Nesting
/-!
# The same message

What is written on the wire does not tell all of a message: the entries of a map have no order,
and where being unset is not told apart from holding the default, a zero loses its sign. Up to
that two messages are the same if they have the same fields set to the same values
(`Message.Same`).
-/

namespace ServiceCall

/-- Two values are zeros of the same type, of either sign. -/
def Value.Zeros : Value → Value → Prop
  | .single x, .single y => x.isZero = true ∧ y.isZero = true
  | .double x, .double y => x.isZero = true ∧ y.isZero = true
  | _, _ => False

mutual

/-- Two values of a field are the same, the one of a map up to the order of its entries. -/
inductive Value.Same (p : Pool) : Field → Value → Value → Prop where
  | refl (f : Field) (v : Value) : Value.Same p f v v
  | record (f : Field) {m m' : Message} (h : Message.Same p m m') :
      Value.Same p f (.record m) (.record m')
  | list (f : Field) {items items' : List Value} (h : Value.SameItems p f items items') :
      Value.Same p f (.list items) (.list items')
  | map {f g : Field} {entry : MessageType} {entries ordered entries' : List (Value × Value)}
      (hentry : p.mapEntry? f = some entry) (hg : entry.field? 2 = some g)
      (hperm : entries.Perm ordered) (h : Value.SameEntries p g ordered entries') :
      Value.Same p f (.map entries) (.map entries')

/-- Two lists have the same items. -/
inductive Value.SameItems (p : Pool) : Field → List Value → List Value → Prop where
  | nil (f : Field) : Value.SameItems p f [] []
  | cons {f : Field} {v v' : Value} {rest rest' : List Value} (h : Value.Same p f v v')
      (hrest : Value.SameItems p f rest rest') : Value.SameItems p f (v :: rest) (v' :: rest')

/-- Two lists of entries have the same keys, with values that are the same in the field that the
entries keep them in. -/
inductive Value.SameEntries (p : Pool) :
    Field → List (Value × Value) → List (Value × Value) → Prop where
  | nil (g : Field) : Value.SameEntries p g [] []
  | cons {g : Field} {k v v' : Value} {rest rest' : List (Value × Value)}
      (h : Field.Same p g v v') (hrest : Value.SameEntries p g rest rest') :
      Value.SameEntries p g ((k, v) :: rest) ((k, v') :: rest')

/-- What a field holds is the same, but that null for a whole list becomes the list of one null, and
that a zero loses its sign where it counts as unset. -/
inductive Field.Same (p : Pool) : Field → Value → Value → Prop where
  | same {f : Field} {v v' : Value} (h : Value.Same p f v v') : Field.Same p f v v'
  | null {f : Field} {v v' : Value} (hrepeated : f.isRepeated = true) (hv : v.IsNull p f.kind)
      (h : Value.Same p f v v') : Field.Same p f v (.list [v'])
  | zero {f : Field} {v v' : Value} (hpresence : f.hasPresence = false) (h : v.Zeros v') :
      Field.Same p f v v'

/-- Two messages of a type have the same fields set and in all fields the same values. -/
inductive Message.Same (p : Pool) : Message → Message → Prop where
  | mk {m m' : Message} (htype : m'.type = m.type)
      (hhas : ∀ n f, p.field? m.type n = some f → m'.has p f = m.has p f)
      (hvalue : ∀ n f, p.field? m.type n = some f → Field.Same p f (m.value p f) (m'.value p f))
      (hunknown : m'.unknown = Message.byNumber m.unknown) : Message.Same p m m'

end

section

variable {p : Pool} {f : Field} {v v' : Value}

theorem Value.SameItems.length_eq {items items' : List Value}
    (h : Value.SameItems p f items items') : items'.length = items.length := by
  induction items generalizing items' with
  | nil =>
    cases h
    rfl
  | cons v rest ih =>
    cases h with
    | cons h hrest => rw [List.length_cons, List.length_cons, ih hrest]

theorem Value.SameEntries.length_eq {entries entries' : List (Value × Value)}
    (h : Value.SameEntries p f entries entries') : entries'.length = entries.length := by
  induction entries generalizing entries' with
  | nil =>
    cases h
    rfl
  | cons e rest ih =>
    cases h with
    | cons h hrest => rw [List.length_cons, List.length_cons, ih hrest]

theorem isEmpty_eq {α : Type} {l l' : List α} (h : l'.length = l.length) :
    l'.isEmpty = l.isEmpty := by
  cases l <;> cases l' <;> first | rfl | cases h

/-- How many values a list or a map holds. -/
def Value.size? : Value → Option Nat
  | .list items => some items.length
  | .map entries => some entries.length
  | _ => none

theorem Value.Same.size?_eq (h : Value.Same p f v v') : v'.size? = v.size? := by
  cases h with
  | refl => rfl
  | record => rfl
  | list _ hitems => exact congrArg some hitems.length_eq
  | map hentry hg hperm hentries =>
    exact congrArg some (hentries.length_eq.trans hperm.length_eq.symm)

/-- The same values count as unset. -/
theorem Value.Same.isDefault_eq (h : Value.Same p f v v') : f.isDefault p v' = f.isDefault p v := by
  cases h with
  | refl => rfl
  | record => rfl
  | list _ hitems => exact isEmpty_eq hitems.length_eq
  | map hentry hg hperm hentries =>
    exact isEmpty_eq (hentries.length_eq.trans hperm.length_eq.symm)

/-! ## Values that count as unset -/

theorem Value.eq_or_zeros_of_sameScalar {v w : Value} (h : v.sameScalar w = true) :
    v = w ∨ v.Zeros w := by
  cases v <;> cases w <;> simp only [sameScalar, Bool.false_eq_true] at h
  case bool.bool => exact .inl (congrArg Value.bool (beq_iff_eq.1 h))
  case integer.integer => exact .inl (congrArg Value.integer (beq_iff_eq.1 h))
  case text.text => exact .inl (congrArg Value.text (beq_iff_eq.1 h))
  case bytes.bytes => exact .inl (congrArg Value.bytes (beq_iff_eq.1 h))
  case single.single =>
    obtain ⟨-, h⟩ := Bool.and_eq_true_iff.1 h
    obtain h | h := Bool.or_eq_true_iff.1 h
    · exact .inl (congrArg Value.single (beq_iff_eq.1 h))
    · exact .inr (Bool.and_eq_true_iff.1 h)
  case double.double =>
    obtain ⟨-, h⟩ := Bool.and_eq_true_iff.1 h
    obtain h | h := Bool.or_eq_true_iff.1 h
    · exact .inl (congrArg Value.double (beq_iff_eq.1 h))
    · exact .inr (Bool.and_eq_true_iff.1 h)

/-- What is not written because it counts as unset is the default, up to the sign of a zero. -/
theorem Field.same_fieldDefault (hv : v.Fits p (p.shape f)) (hpresence : f.hasPresence = false)
    (h : f.isDefault p v = true) : Field.Same p f v (p.fieldDefault f) := by
  have hscalar (h : v.sameScalar (p.fieldDefault f) = true) :
      Field.Same p f v (p.fieldDefault f) := by
    obtain heq | hzeros := Value.eq_or_zeros_of_sameScalar h
    · exact heq ▸ .same (.refl f _)
    · exact .zero hpresence hzeros
  cases v with
  | record m => cases h
  | list items =>
    obtain rfl := List.isEmpty_iff.1 h
    obtain ⟨hrepeated, hmap, -⟩ := hv.of_list
    exact Pool.fieldDefault_of_list hrepeated hmap ▸ .same (.refl f _)
  | map entries =>
    obtain rfl := List.isEmpty_iff.1 h
    obtain ⟨entry, hentry⟩ := Option.isSome_iff_exists.1 hv.of_map
    exact Pool.fieldDefault_of_map hentry ▸ .same (.refl f _)
  | _ => exact hscalar h

/-! ## What is restored of a field -/

/-- The field is set, when it holds this. -/
def Field.isSet (p : Pool) (f : Field) : Option Value → Bool
  | some v => f.hasPresence || !f.isDefault p v
  | none => false

theorem Message.has_eq (p : Pool) (m : Message) (f : Field) :
    m.has p f = f.isSet p (m.get? f.number) := by
  unfold Message.has Field.isSet
  cases m.get? f.number <;> rfl

/-- What a field holds is all that was set in it. -/
structure Field.Restored (p : Pool) (f : Field) (v : Value) (restored : Option Value) : Prop where
  same : Field.Same p f v (restored.getD (p.fieldDefault f))
  isSet : f.isSet p restored = f.isSet p (some v)

end

end ServiceCall
