import ServiceCall.Message.Json.Read
import ServiceCall.Proofs.Basic.Except
import ServiceCall.Proofs.Schema.Loaded
/-!
# Setting fields

A field that is set holds its value, and what another field holds is unchanged unless both
are in one oneof. Where a oneof may only be set once (`Pool.putOnce`), no field is unset on
the way (`Message.get?_of_putOnce`).
-/

namespace ServiceCall

theorem numbered?_filter {α : Type} (keep : Nat → Bool) (n : Nat) (t : List (Nat × α)) :
    numbered? n (t.filter fun x => keep x.1) = if keep n then numbered? n t else none := by
  induction t with
  | nil => simp [numbered?]
  | cons x rest ih =>
    obtain ⟨m, v⟩ := x
    rw [List.filter_cons]
    by_cases hm : m = n
    · subst hm
      cases hk : keep m <;> simp [hk, numbered?, ih]
    · cases hk : keep m <;> simp [numbered?, hm, ih]

namespace Message

variable {p : Pool} {m m' : Message} {f : Field} {v : Value} {n : Nat}

@[simp]
theorem type_empty (type : String) : (empty type).type = type := rfl

@[simp]
theorem get?_empty (type : String) (n : Nat) : (empty type).get? n = none := rfl

@[simp]
theorem type_set (m : Message) (n : Nat) (v : Value) : (m.set n v).type = m.type := rfl

theorem get?_clear (m : Message) (ns : List Nat) (n : Nat) :
    (m.clear ns).get? n = if n ∈ ns then none else m.get? n := by
  refine (numbered?_filter (fun k => !ns.contains k) n m.fields).trans ?_
  by_cases hn : n ∈ ns <;> simp [hn, get?, fields]

@[simp]
theorem type_put (p : Pool) (m : Message) (f : Field) (v : Value) : (m.put p f v).type = m.type := by
  unfold put
  split <;> rfl

@[simp]
theorem get?_put_self (p : Pool) (m : Message) (f : Field) (v : Value) :
    (m.put p f v).get? f.number = some v := by
  unfold put
  split <;> exact get?_set_self ..

/-- A field keeps its value when another one is set that is in no oneof with it. -/
theorem get?_put_of_ne (hn : n ≠ f.number)
    (ho : ∀ i ∈ f.oneofIndex, n ∉ (p.messageType m.type).oneofNumbers i) :
    (m.put p f v).get? n = m.get? n := by
  unfold put
  split
  next i hi =>
    rw [get?_set_of_ne _ hn, get?_clear, if_neg]
    exact fun hmem => ho i hi (List.mem_of_mem_filter hmem)
  next => exact get?_set_of_ne _ hn v

theorem putOnce_eq_ok :
    p.putOnce m f v = .ok m' ↔ p.oneofTaken? m f = none ∧ m' = m.put p f v := by
  unfold Pool.putOnce
  split
  next name hname => simp [hname]
  next hnone => simp [hnone, eq_comm]

/-- A field that a key names is one of the type itself or one of its extensions. -/
theorem mem_of_fieldOfKey? {type key : String} (h : p.fieldOfKey? type key = some f) :
    f ∈ (p.messageType type).declared ∨ f ∈ p.extensionsOf type := by
  simp only [Pool.fieldOfKey?, Option.orElse_eq_orElse, Option.orElse_eq_or,
    Option.or_eq_some_iff] at h
  obtain h | ⟨-, h | ⟨-, h⟩⟩ := h
  · exact .inl (MessageType.mem_fields.1 (List.mem_of_find?_eq_some h))
  · exact .inl (MessageType.mem_fields.1 (List.mem_of_find?_eq_some h))
  · exact .inr (List.mem_of_find?_eq_some h)

theorem oneofIndex_of_extension (hp : p.Loaded) {type : String} (h : f ∈ p.extensionsOf type) :
    f.oneofIndex = none := by
  obtain ⟨files, hp⟩ := hp
  obtain ⟨x, hx, rfl⟩ := List.mem_map.1 h
  exact (hp.origin.extensions x (List.mem_of_mem_filter hx)).oneof

/-- Of a oneof that is not taken no field is set. -/
theorem get?_eq_none_of_not_taken (hp : p.Loaded)
    (hf : f ∈ (p.messageType m.type).declared) (htaken : p.oneofTaken? m f = none) {i : Nat}
    (hi : f.oneofIndex = some i) (hn : n ∈ (p.messageType m.type).oneofNumbers i) :
    m.get? n = none := by
  have hwf := hp.wellFormed_messageType m.type
  have hlt := hwf.oneofs f hf i hi
  simp only [Pool.oneofTaken?, hi, List.getElem?_eq_getElem hlt, ite_eq_right_iff, reduceCtorEq,
    imp_false, Bool.not_eq_true, List.any_eq_false, Bool.and_eq_true, beq_iff_eq, not_and] at htaken
  obtain ⟨g, hg, rfl⟩ := List.mem_map.1 hn
  obtain ⟨hg, hgi⟩ := List.mem_filter.1 hg
  rw [beq_iff_eq] at hgi
  have hpresence := (hwf.fields g hg).oneof (hgi ▸ rfl)
  have hhas := htaken g hg hgi
  cases hget : m.get? g.number with
  | none => rfl
  | some w => simp [has, hget, hpresence] at hhas

/-- Setting a field whose oneof is not taken leaves all other fields as they are. -/
theorem get?_of_putOnce (hp : p.Loaded) {key : String} (hf : p.fieldOfKey? m.type key = some f)
    (h : p.putOnce m f v = .ok m') (hn : n ≠ f.number) : m'.get? n = m.get? n := by
  obtain ⟨htaken, rfl⟩ := putOnce_eq_ok.1 h
  cases hi : f.oneofIndex with
  | none => exact get?_put_of_ne hn (by simp [hi])
  | some i =>
    have hdeclared : f ∈ (p.messageType m.type).declared := by
      refine (mem_of_fieldOfKey? hf).resolve_right fun hx => ?_
      rw [oneofIndex_of_extension hp hx] at hi
      cases hi
    by_cases hmem : n ∈ (p.messageType m.type).oneofNumbers i
    · -- The field is of the same oneof, so it is unset before and after.
      have hbefore := get?_eq_none_of_not_taken hp hdeclared htaken hi hmem
      rw [put, hi]
      simp only
      rw [get?_set_of_ne _ hn, get?_clear, hbefore, ite_self]
    · refine get?_put_of_ne hn fun j hj => ?_
      rw [hi, Option.mem_def, Option.some.injEq] at hj
      exact hj ▸ hmem

/-! ## Messages from members -/

/-- What one member makes of a message. -/
theorem membersOfJson_cons {passType : Bool} {key : String} {j : Json}
    {rest : List (String × Json)} (hkey : ¬(passType = true ∧ key = typeKey)) :
    membersOfJson p passType m ((key, j) :: rest) = .ok m' ↔
      ∃ f, p.fieldOfKey? m.type key = some f ∧ ∃ value?, fieldOfJson p f j = .ok value? ∧
        match value? with
        | none => membersOfJson p passType m rest = .ok m'
        | some v => ∃ mid, p.putOnce m f v = .ok mid ∧ membersOfJson p passType mid rest = .ok m' := by
  rw [membersOfJson, if_neg hkey]
  cases hf : p.fieldOfKey? m.type key with
  | none => simp
  | some f =>
    simp only [Option.some.injEq, exists_eq_left']
    rw [Except.bind_eq_ok]
    refine exists_congr fun value? => and_congr ?_ ?_
    · rw [Except.mapError_eq_ok]
      cases j <;> rfl
    · cases value? with
      | none => rfl
      | some v => exact Except.bind_eq_ok

theorem type_of_putOnce (h : p.putOnce m f v = .ok m') : m'.type = m.type := by
  obtain ⟨-, rfl⟩ := putOnce_eq_ok.1 h
  exact type_put ..

theorem type_of_membersOfJson {passType : Bool} {members : List (String × Json)}
    (h : membersOfJson p passType m members = .ok m') : m'.type = m.type := by
  induction members generalizing m with
  | nil =>
    rw [membersOfJson] at h
    cases h
    rfl
  | cons x rest ih =>
    obtain ⟨key, j⟩ := x
    by_cases hkey : passType = true ∧ key = typeKey
    · rw [membersOfJson, if_pos hkey] at h
      exact ih h
    · obtain ⟨f, -, value?, -, h⟩ := (membersOfJson_cons hkey).1 h
      cases value? with
      | none => exact ih h
      | some v =>
        obtain ⟨mid, hput, h⟩ := h
        rw [ih h, type_of_putOnce hput]

/-- The keys of two members name different fields. -/
def Apart (p : Pool) (type : String) (x y : String × Json) : Prop :=
  ∀ f g, p.fieldOfKey? type x.1 = some f → p.fieldOfKey? type y.1 = some g → f.number ≠ g.number

/-- Where no two members name one field, every member decides alone what its field holds, and
no other field is touched. -/
theorem get?_of_membersOfJson (hp : p.Loaded) {members : List (String × Json)}
    (h : membersOfJson p false m members = .ok m') (hapart : members.Pairwise (Apart p m.type)) :
    (∀ x ∈ members, ∀ f, p.fieldOfKey? m.type x.1 = some f → m.get? f.number = none →
      fieldOfJson p f x.2 = .ok (m'.get? f.number)) ∧
    ∀ n, (∀ x ∈ members, ∀ f, p.fieldOfKey? m.type x.1 = some f → f.number ≠ n) →
      m'.get? n = m.get? n := by
  induction members generalizing m with
  | nil =>
    rw [membersOfJson] at h
    cases h
    exact ⟨by simp, fun _ _ => rfl⟩
  | cons x rest ih =>
    obtain ⟨key, j⟩ := x
    obtain ⟨hhead, hrest⟩ := List.pairwise_cons.1 hapart
    obtain ⟨f, hf, value?, hvalue, h⟩ := (membersOfJson_cons (by simp)).1 h
    have hfrest : ∀ y ∈ rest, ∀ g, p.fieldOfKey? m.type y.1 = some g → g.number ≠ f.number :=
      fun y hy g hg => (hhead y hy f g hf hg).symm
    cases value? with
    | none =>
      obtain ⟨hin, hout⟩ := ih h hrest
      refine ⟨fun y hy g hg hunset => ?_, fun n hn => hout n fun y hy => hn y (.tail _ hy)⟩
      obtain rfl | hy := List.mem_cons.1 hy
      · obtain rfl := Option.some.inj (hf.symm.trans hg)
        rw [hout _ hfrest, hunset]
        exact hvalue
      · exact hin y hy g hg hunset
    | some v =>
      obtain ⟨mid, hput, h⟩ := h
      have htype := type_of_putOnce hput
      have hmid : mid.get? f.number = some v := by
        obtain ⟨-, rfl⟩ := putOnce_eq_ok.1 hput
        exact get?_put_self ..
      rw [← htype] at hrest hfrest
      obtain ⟨hin, hout⟩ := ih h hrest
      refine ⟨fun y hy g hg hunset => ?_, fun n hn => ?_⟩
      · obtain rfl | hy := List.mem_cons.1 hy
        · obtain rfl := Option.some.inj (hf.symm.trans hg)
          rw [hout _ hfrest, hmid]
          exact hvalue
        · have hne := hfrest y hy g (htype ▸ hg)
          exact hin y hy g (htype ▸ hg) ((get?_of_putOnce hp hf hput hne).trans hunset)
      · have hne := (hn _ List.mem_cons_self f hf).symm
        rw [hout n fun y hy => htype ▸ hn y (.tail _ hy), get?_of_putOnce hp hf hput hne]

end Message

end ServiceCall
