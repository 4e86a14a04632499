import ServiceCall.Proofs.Message.Decode
/-!
# Merging field by field

Raw fields are merged into a message one after the other. What a field holds at the end depends
only on those under its number (`get?_mergeFields_own`), as long as no other field of its oneof is
set, and what the type does not know is kept in its order (`fields_mergeFields`,
`unknown_mergeFields`), so that it does not matter where among the others it stands.
-/

namespace ServiceCall.Message

open Wire (Raw RawRecord)

variable {p : Pool} {m : Message} {f : Field} {v : Value}

theorem mergeFields_nil (p : Pool) (m : Message) : mergeFields p m [] = m := by rw [mergeFields]

theorem mergeFields_append (p : Pool) (m : Message) (r s : RawRecord) :
    mergeFields p m (r ++ s) = mergeFields p (mergeFields p m r) s := by
  induction r generalizing m with
  | nil => rw [List.nil_append, mergeFields_nil]
  | cons x rest ih =>
    obtain ⟨number, v⟩ := x
    rw [List.cons_append]
    cases hf : p.field? m.type number with
    | none => rw [mergeFields_unknown hf, mergeFields_unknown hf, ih]
    | some f => rw [mergeFields_known hf, mergeFields_known hf, ih]

@[simp]
theorem unknown_put (p : Pool) (m : Message) (f : Field) (v : Value) :
    (m.put p f v).unknown = m.unknown := by
  unfold put
  split <;> rfl

/-! ## One field -/

/-- The fields of a oneof that a field is put into are unset. -/
def Free (p : Pool) (m : Message) (f : Field) (n : Nat) : Prop :=
  ∀ i ∈ f.oneofIndex, n ∈ (p.messageType m.type).oneofNumbers i → m.get? n = none

theorem get?_put_of_free {n : Nat} (hn : n ≠ f.number) (h : Free p m f n) :
    (m.put p f v).get? n = m.get? n := by
  cases hi : f.oneofIndex with
  | none => exact get?_put_of_ne hn (by simp [hi])
  | some i =>
    by_cases hmem : n ∈ (p.messageType m.type).oneofNumbers i
    · have hunset := h i hi hmem
      rw [put, hi]
      simp only
      rw [get?_set_of_ne _ hn, get?_clear, hunset, ite_self]
    · refine get?_put_of_ne hn fun j hj => ?_
      rw [hi, Option.mem_def, Option.some.injEq] at hj
      exact hj ▸ hmem

/-- The raw fields of one field. -/
def under (number : Nat) (raws : List Raw) : RawRecord := raws.map fun r => (number, r)

/-- What a field holds after its raw values came, one after the other. -/
theorem get?_mergeFields_own (hf : p.field? m.type f.number = some f) {raws : List Raw}
    (h : raws ≠ []) : (mergeFields p m (under f.number raws)).get? f.number =
      some (raws.foldl (mergeValue p f) (m.value p f)) := by
  induction raws generalizing m with
  | nil => exact absurd rfl h
  | cons r rest ih =>
    have hvalue : (m.put p f (mergeValue p f (m.value p f) r)).value p f =
        mergeValue p f (m.value p f) r := by
      rw [value, get?_put_self]
      rfl
    rw [under, List.map_cons, mergeFields_known hf, List.foldl_cons]
    cases rest with
    | nil => rw [List.map_nil, mergeFields_nil, get?_put_self, List.foldl_nil]
    | cons s rest =>
      have hrest := ih (m := m.put p f (mergeValue p f (m.value p f) r))
        ((type_put ..).symm ▸ hf) (by simp)
      rw [hvalue] at hrest
      exact hrest

/-- The raw values of a field do not touch any other one, but those of its oneof. -/
theorem get?_mergeFields_other (hf : p.field? m.type f.number = some f) {raws : List Raw} {n : Nat}
    (hn : n ≠ f.number) (h : Free p m f n) :
    (mergeFields p m (under f.number raws)).get? n = m.get? n := by
  induction raws generalizing m with
  | nil => rw [under, List.map_nil, mergeFields_nil]
  | cons r rest ih =>
    rw [under, List.map_cons, mergeFields_known hf]
    have hput := get?_put_of_free (v := mergeValue p f (m.value p f) r) hn h
    refine (ih ((type_put ..).symm ▸ hf) fun i hi hmem => ?_).trans hput
    rw [type_put] at hmem
    exact hput.trans (h i hi hmem)

/-! ## Known and unknown fields -/

/-- The fields that a message holds do not depend on the ones that are not known. -/
theorem put_mk (p : Pool) (type : String) (fields : List (Nat × Value)) (f : Field) (v : Value) :
    ∃ fields', ∀ unknown, (mk type fields unknown).put p f v = mk type fields' unknown := by
  refine ⟨((mk type fields []).put p f v).fields, fun unknown => ?_⟩
  unfold put
  cases f.oneofIndex <;> rfl

theorem fields_mergeFields (p : Pool) (type : String) (fields : List (Nat × Value))
    (unknown unknown' : RawRecord) (r : RawRecord) :
    (mergeFields p (mk type fields unknown) r).fields =
      (mergeFields p (mk type fields unknown')
        (r.filter fun x => (p.field? type x.1).isSome)).fields := by
  induction r generalizing fields unknown unknown' with
  | nil => rw [List.filter_nil, mergeFields_nil, mergeFields_nil]; rfl
  | cons x rest ih =>
    obtain ⟨number, v⟩ := x
    cases hf : p.field? type number with
    | none =>
      have hunknown : p.field? (mk type fields unknown).type number = none := hf
      rw [mergeFields_unknown hunknown, List.filter_cons_of_neg (by simp [hf])]
      exact ih ..
    | some f =>
      have hknown (unknown : RawRecord) : p.field? (mk type fields unknown).type number = some f := hf
      obtain ⟨fields', hput⟩ := put_mk p type fields f
        (mergeValue p f ((mk type fields unknown).value p f) v)
      have hvalue : (mk type fields unknown').value p f = (mk type fields unknown).value p f := rfl
      rw [mergeFields_known (hknown _), List.filter_cons_of_pos (by simp [hf]),
        mergeFields_known (hknown _), hvalue, hput, hput]
      exact ih ..

theorem unknown_mergeFields (p : Pool) (m : Message) (r : RawRecord) :
    (mergeFields p m r).unknown =
      m.unknown ++ r.filter fun x => (p.field? m.type x.1).isNone := by
  induction r generalizing m with
  | nil => rw [mergeFields_nil, List.filter_nil, List.append_nil]
  | cons x rest ih =>
    obtain ⟨number, v⟩ := x
    cases hf : p.field? m.type number with
    | none =>
      rw [mergeFields_unknown hf, List.filter_cons_of_pos (by simp [hf]), ih]
      exact List.append_assoc ..
    | some f =>
      rw [mergeFields_known hf, List.filter_cons_of_neg (by simp [hf]), ih, type_put, unknown_put]

/-! ## Putting fields together -/

theorem mergeByNumber_perm (r s : RawRecord) : (mergeByNumber r s).Perm (r ++ s) := by
  fun_induction mergeByNumber r s with
  | case1 us => exact .refl _
  | case2 fs hfs => rw [List.append_nil]
  | case3 n f fs k u us h ih => exact ih.cons (n, f)
  | case4 n f fs k u us h ih => exact (ih.cons (k, u)).trans List.perm_middle.symm

theorem sublist_mergeByNumber_left (r s : RawRecord) : r.Sublist (mergeByNumber r s) := by
  fun_induction mergeByNumber r s with
  | case1 us => exact List.nil_sublist _
  | case2 fs hfs => exact .refl _
  | case3 n f fs k u us h ih => exact ih.cons_cons _
  | case4 n f fs k u us h ih => exact ih.cons _

theorem sublist_mergeByNumber_right (r s : RawRecord) : s.Sublist (mergeByNumber r s) := by
  fun_induction mergeByNumber r s with
  | case1 us => exact .refl _
  | case2 fs hfs => exact List.nil_sublist _
  | case3 n f fs k u us h ih => exact ih.cons _
  | case4 n f fs k u us h ih => exact ih.cons_cons _

/-- A part of a record is found again by what it alone has. -/
theorem filter_eq_of_sublist {r s t : RawRecord} {keep : Nat × Raw → Bool} (hsub : r.Sublist t)
    (hperm : t.Perm (r ++ s)) (hr : ∀ x ∈ r, keep x = true) (hs : ∀ x ∈ s, keep x = false) :
    t.filter keep = r := by
  have hrkeep : r.filter keep = r := List.filter_eq_self.2 hr
  have hskeep : s.filter keep = [] := List.filter_eq_nil_iff.2 fun x hx => by simp [hs x hx]
  have hlength := (hperm.filter keep).length_eq
  rw [List.filter_append, hrkeep, hskeep, List.append_nil] at hlength
  have hsub' := hsub.filter keep
  rw [hrkeep] at hsub'
  exact (hsub'.eq_of_length hlength.symm).symm

theorem filter_mergeByNumber_left {r s : RawRecord} {keep : Nat × Raw → Bool}
    (hr : ∀ x ∈ r, keep x = true) (hs : ∀ x ∈ s, keep x = false) :
    (mergeByNumber r s).filter keep = r :=
  filter_eq_of_sublist (sublist_mergeByNumber_left r s) (mergeByNumber_perm r s) hr hs

theorem filter_mergeByNumber_right {r s : RawRecord} {keep : Nat × Raw → Bool}
    (hr : ∀ x ∈ r, keep x = false) (hs : ∀ x ∈ s, keep x = true) :
    (mergeByNumber r s).filter keep = s :=
  filter_eq_of_sublist (sublist_mergeByNumber_right r s)
    ((mergeByNumber_perm r s).trans List.perm_append_comm) hs hr

theorem mem_byNumber {r : RawRecord} {x : Nat × Raw} : x ∈ byNumber r ↔ x ∈ r :=
  (List.mergeSort_perm r _).mem_iff

end ServiceCall.Message
