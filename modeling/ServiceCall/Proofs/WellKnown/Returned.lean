import ServiceCall.Proofs.Message.ScalarJson
import ServiceCall.Proofs.WellKnown.Known
import ServiceCall.Proofs.WellKnown.Mask
import ServiceCall.Proofs.WellKnown.Time
/-!
# Well-known types are read back from JSON

What a message of a well-known type is written as is read back as a message that is written so again
(`WellKnown.Returned`). Times, spans, wrappers, field masks and the values that hold any JSON are
taken one by one, and `WellKnown.exists_returned` has them all but the messages that hold one of any type.
Only what is told by the text comes back (`WellKnown.Tells`).
-/

namespace ServiceCall

open Wire (Raw RawRecord)

variable {p : Pool} {m : Message} {type : String} {number : Nat} {s : Scalar} {v : Value}
  {r : RawRecord} {j : Json}

namespace WellKnown

theorem packsNumbers : layout.PacksNumbers := by
  intro type number f hf hpackable
  have hwell := field?_layout type number
  rw [hf] at hwell
  cases hform : (formsOf type).find? (·.number == number) with
  | none =>
    rw [hform] at hwell
    cases hwell
  | some form =>
    rw [hform] at hwell
    have hplain : f.packable = false := congrArg Prod.snd (Option.some.inj hwell)
    rw [hplain] at hpackable
    cases hpackable

/-- A message is brought to the wire as a record that its well-known type admits. -/
theorem fieldsFit_of_recordOf (h : recordOf p m = .ok r) :
    Wire.FieldsFit layout (.record m.type) Wire.maxDepth r :=
  Wire.fieldsFit_of_read packsNumbers (Except.mapError_eq_ok.1 h)

/-! ## Scalars -/

/-- The raw fields of a scalar: none if it counts as unset. -/
def scalarFields (s : Scalar) (number : Nat) (v : Value) : RawRecord :=
  if v.sameScalar s.fallback then [] else [(number, s.toRaw v)]

end WellKnown

open WellKnown (scalarFields)

theorem Scalar.levels_toRaw (s : Scalar) (v : Value) : (s.toRaw v).levels = 0 := by
  cases s <;> cases v <;> rfl

theorem WellKnown.levelsOf_scalarFields (s : Scalar) (number : Nat) (v : Value) :
    Raw.levelsOf (scalarFields s number v) = 0 := by
  rw [scalarFields]
  split_ifs
  · rfl
  · rw [Raw.levelsOf, s.levels_toRaw]
    rfl

theorem Field.isDefault_of_holds {f : Field} (hv : f.kind.Holds v) :
    f.isDefault p v = v.sameScalar (p.fieldDefault f) := by
  cases v with
  | record m => exact absurd hv Kind.not_holds_record
  | list items => exact absurd hv Kind.not_holds_list
  | map entries => exact absurd hv Kind.not_holds_map
  | _ => rfl

/-- A scalar that is set is settled in a field of its form. -/
theorem Field.settled_scalar {f : Field} (hform : f.form = .single number (.scalar s))
    (hv : s.Holds v) (hset : v.sameScalar s.fallback = false) :
    f.Settled p v [s.toRaw v] := by
  have hkind : f.kind = .scalar s := congrArg FieldForm.kind hform
  have hsingle : f.isRepeated = false := congrArg FieldForm.isRepeated hform
  have hdefault : f.declaredDefault = none :=
    Option.isNone_iff_eq_none.1 (Option.isSome_eq_false_iff.1 (congrArg FieldForm.hasDefault hform))
  have hholds : f.kind.Holds v := by rw [hkind]; exact hv
  have hvalue : p.fieldDefault f = s.fallback := by
    rw [Pool.fieldDefault_of_single hsingle, hdefault, hkind]
    rfl
  have hsettled := Value.settled_of_holds (p := p) hholds
  rw [hkind] at hsettled
  exact settled_single hsingle hsettled
    (.inr (by rw [isDefault_of_holds hholds, hvalue, hset]))

namespace Message

/-- A message with one scalar is settled. -/
theorem exists_settled_scalar (hp : p.Compiled) (hknows : p.Knows type)
    (hform : (WellKnown.formsOf type).find? (·.number == number) =
      some (.single number (.scalar s))) (hv : s.Holds v) :
    ∃ m : Message, m.type = type ∧ m.Settled p (scalarFields s number v) := by
  obtain ⟨f, hf, hfield⟩ := hknows.exists_field
    (show _ = some (FieldForm.single number (.scalar s)) from hform)
  rw [scalarFields]
  split_ifs with hset
  · exact ⟨_, rfl, settled_empty hp type⟩
  · exact ⟨_, rfl, settled_singleton hp hf (Field.settled_scalar hfield hv (by simpa using hset))⟩

/-- A message with two scalars is settled. -/
theorem exists_settled_scalars (hp : p.Compiled) (hknows : p.Knows type) {other : Nat}
    {t : Scalar} {w : Value} (hlt : number < other)
    (hform : (WellKnown.formsOf type).find? (·.number == number) =
      some (.single number (.scalar s)))
    (hother : (WellKnown.formsOf type).find? (·.number == other) =
      some (.single other (.scalar t))) (hv : s.Holds v) (hw : t.Holds w) :
    ∃ m : Message, m.type = type ∧
      m.Settled p (scalarFields s number v ++ scalarFields t other w) := by
  obtain ⟨f, hf, hfield⟩ := hknows.exists_field
    (show _ = some (FieldForm.single number (.scalar s)) from hform)
  obtain ⟨g, hg, hgfield⟩ := hknows.exists_field
    (show _ = some (FieldForm.single other (.scalar t)) from hother)
  by_cases hset : v.sameScalar s.fallback
  · rw [scalarFields, if_pos hset, List.nil_append]
    exact exists_settled_scalar hp hknows hother hw
  by_cases hset' : w.sameScalar t.fallback
  · rw [show scalarFields t other w = [] from if_pos hset', List.append_nil]
    exact exists_settled_scalar hp hknows hform hv
  rw [scalarFields, scalarFields, if_neg hset, if_neg hset']
  exact ⟨_, rfl, settled_pair hp hlt hf hg (congrArg FieldForm.oneofIndex hfield)
    (Field.settled_scalar hfield hv (by simpa using hset))
    (Field.settled_scalar hgfield hw (by simpa using hset'))⟩

end Message

namespace WellKnown

/-- A scalar may stand in a field of its type. -/
theorem fieldFits_of_mem_scalarFields {depth : Nat} {name : Option String}
    (hslot : layout.field? type number = some ⟨s.slot, false, name⟩) (hv : s.Holds v)
    (hpos : 1 ≤ number) (hlt : number < 2 ^ 29) :
    ∀ x ∈ scalarFields s number v,
      1 ≤ x.1 ∧ x.1 < 2 ^ 29 ∧ Wire.FieldFits layout (.record type) depth x.1 x.2 := by
  intro x hx
  rw [scalarFields] at hx
  split_ifs at hx
  · cases hx
  · obtain rfl := List.mem_singleton.1 hx
    exact ⟨hpos, hlt, fieldFits_of_takes hslot (Scalar.takes_toRaw hv)⟩

open Wire in
theorem length_scalarFields_le (hlt : number < 2 ^ 29) (s : Scalar) (v : Value) :
    (Raw.writeFields (scalarFields s number v)).length ≤ (s.toRaw v).write.length + 10 := by
  rw [scalarFields]
  split_ifs
  · exact Nat.zero_le _
  · exact Nat.le_trans (length_writeFields_cons_le hlt _ []) (Nat.le_refl _)

/-- A message of a well-known type is read from the JSON form of another one, and has that form
too. -/
structure Returned (p : Pool) (w : WellKnown) (m : Message) (j : Json) (m' : Message)
    (r : RawRecord) : Prop where
  type : m'.type = m.type
  settled : m'.Settled p r
  read : w.rawOfJson j = .ok r
  fit : Wire.FieldsFit layout (.record m.type) Wire.maxDepth r
  levels : Raw.levelsOf r ≤ Wire.maxDepth
  nesting : m'.nesting ≤ m.nesting
  length : (Raw.writeFields r).length + 20 ≤ j.weight
  written : ∃ j', w.toJson p m' = .ok j' ∧ j.Alike j'

theorem formsOf_eq {w : WellKnown} (h : ofName? type = some w) : formsOf type = w.forms := by
  rw [formsOf, h]

theorem layout_field?_eq {w : WellKnown} (h : ofName? type = some w) (number : Nat) :
    layout.field? type number = w.slot? number := by
  simp only [layout, h]

/-! ## Times -/

theorem integerIn_counts {a b : Int} (ha : IntegerRange.int64.mem a = true)
    (hb : IntegerRange.int32.mem b = true) :
    integerIn 64 1 (countsToRaw a b) = a ∧ integerIn 32 2 (countsToRaw a b) = b := by
  have ha' := IntegerRange.mem_int64.1 ha
  have hb' := IntegerRange.mem_int32.1 hb
  have hseconds : Wire.toSigned 64 (Wire.ofSigned 64 a) = a :=
    Wire.toSigned_ofSigned (by decide) (by decide) (by omega) (by omega)
  have hnanos : Wire.toSigned 32 (Wire.ofSigned 64 b) = b :=
    Wire.toSigned_ofSigned (by decide) (by decide) (by omega) (by omega)
  by_cases ha0 : a = 0 <;> by_cases hb0 : b = 0 <;>
    simp [integerIn, countsToRaw, ha0, hb0, hseconds, hnanos]

theorem countsToRaw_eq (a b : Int) : countsToRaw a b =
    scalarFields .int64 1 (.integer a) ++ scalarFields .int32 2 (.integer b) := by
  simp [countsToRaw, scalarFields, Value.sameScalar, Scalar.fallback, Scalar.toRaw]

/-- Two counts are read back, whatever is written of them. -/
theorem returned_counts (hp : p.Compiled) (hknows : p.Knows m.type) {w : WellKnown}
    (hname : ofName? m.type = some w) (hw : w = .timestamp ∨ w = .duration) {a b : Int}
    (ha : IntegerRange.int64.mem a = true) (hb : IntegerRange.int32.mem b = true)
    (hread : w.rawOfJson j = .ok (countsToRaw a b))
    (hwritten : ∀ m', recordOf p m' = .ok (countsToRaw a b) → w.toJson p m' = .ok j) :
    ∃ m' r, Returned p w m j m' r := by
  have hforms : w.forms = [.single 1 (.scalar .int64), .single 2 (.scalar .int32)] := by
    obtain rfl | rfl := hw <;> rfl
  have hslots : ∃ name name', w.slot? 1 = some ⟨Scalar.int64.slot, false, name⟩ ∧
      w.slot? 2 = some ⟨Scalar.int32.slot, false, name'⟩ := by
    obtain rfl | rfl := hw <;> exact ⟨_, _, rfl, rfl⟩
  have hfind := formsOf_eq hname
  rw [hforms] at hfind
  obtain ⟨m', htype, hsettled⟩ := Message.exists_settled_scalars hp hknows
    (s := .int64) (t := .int32) (v := .integer a) (w := .integer b) (show 1 < 2 by decide)
    (by rw [hfind]; rfl) (by rw [hfind]; rfl) ha hb
  rw [← countsToRaw_eq] at hsettled
  obtain ⟨name, name', hslot, hslot'⟩ := hslots
  have hfit : Wire.FieldsFit layout (.record m.type) Wire.maxDepth (countsToRaw a b) := by
    rw [countsToRaw_eq]
    refine Message.fieldsFit_of_forall fun x hx => ?_
    obtain hx | hx := List.mem_append.1 hx
    · exact fieldFits_of_mem_scalarFields (v := .integer a)
        ((layout_field?_eq hname 1).trans hslot) ha (by decide) (by decide) x hx
    · exact fieldFits_of_mem_scalarFields (v := .integer b)
        ((layout_field?_eq hname 2).trans hslot') hb (by decide) (by decide) x hx
  have hlevels : Raw.levelsOf (countsToRaw a b) = 0 := by
    rw [countsToRaw]
    split_ifs <;> rfl
  have hlength : (Raw.writeFields (countsToRaw a b)).length ≤ 40 := by
    have hfirst := length_scalarFields_le (show 1 < 2 ^ 29 by decide) .int64 (.integer a)
    have hsecond := length_scalarFields_le (show 2 < 2 ^ 29 by decide) .int32 (.integer b)
    have ha := Scalar.length_write_of_number (s := .int64) (v := .integer a) ha (by decide)
    have hb := Scalar.length_write_of_number (s := .int32) (v := .integer b) hb (by decide)
    rw [countsToRaw_eq, Wire.writeFields_append, List.length_append]
    omega
  have hweight := j.le_weight
  refine ⟨m', countsToRaw a b, htype, hsettled, hread, hfit, by rw [hlevels]; exact Nat.zero_le _,
    Nat.le_trans hsettled.nesting (by rw [hlevels]; exact Nat.zero_le _), by omega,
    ⟨j, hwritten m' ?_, .refl j⟩⟩
  exact hsettled.recordOf (htype ▸ hfit) (by omega)

/-- A point in time that is not carried beyond the year 9999 is read back. -/
theorem returned_timestamp (hp : p.Compiled) (hknows : p.Knows m.type)
    (hname : ofName? m.type = some .timestamp) (h : timestamp.toJson p m = .ok j)
    (hcarry : ∀ r, recordOf p m = .ok r →
      (Timestamp.mk (integerIn 64 1 r) (integerIn 32 2 r)).settled.inRange = true) :
    ∃ m' r, Returned p .timestamp m j m' r := by
  obtain ⟨r, hr, h⟩ := Except.bind_eq_ok.1 h
  have hsettled := hcarry r hr
  generalize Timestamp.mk (integerIn 64 1 r) (integerIn 32 2 r) = t at h hsettled
  cases htext : t.text? with
  | none =>
    rw [htext] at h
    cases h
  | some text =>
    rw [htext] at h
    obtain rfl := Except.pure_eq_ok.1 h
    have hrange := Timestamp.inRange_of_text? htext
    have hseconds : -62135596800 ≤ t.settled.seconds ∧ t.settled.seconds ≤ 253402300799 := by
      simpa [Timestamp.inRange] using hsettled
    have ha : IntegerRange.int64.mem t.settled.seconds = true :=
      IntegerRange.mem_int64.2 (by omega)
    have hb : IntegerRange.int32.mem t.settled.nanos = true :=
      IntegerRange.mem_int32.2 (by simp only [Timestamp.settled]; omega)
    refine returned_counts hp hknows hname (.inl rfl) ha hb ?_ fun m' hm' => ?_
    · rw [rawOfJson, Timestamp.read_of_text? htext hsettled]
      rfl
    · obtain ⟨h1, h2⟩ := integerIn_counts ha hb
      rw [toJson, hm']
      simp only [Bind.bind, Except.bind, h1, h2]
      rw [Timestamp.text?_settled hrange hsettled, htext]
      rfl

/-- A span of time is read back. -/
theorem returned_duration (hp : p.Compiled) (hknows : p.Knows m.type)
    (hname : ofName? m.type = some .duration) (h : duration.toJson p m = .ok j) :
    ∃ m' r, Returned p .duration m j m' r := by
  obtain ⟨r, hr, h⟩ := Except.bind_eq_ok.1 h
  generalize Duration.mk (integerIn 64 1 r) (integerIn 32 2 r) = d at h
  cases htext : d.text? with
  | none =>
    rw [htext] at h
    cases h
  | some text =>
    rw [htext] at h
    obtain rfl := Except.pure_eq_ok.1 h
    have hrange := Duration.inRange_of_text? htext
    obtain ⟨hsettled, -⟩ := Duration.settled_of_inRange hrange
    have hbounds : d.settled.seconds.natAbs ≤ 315576000000 ∧
        d.settled.nanos.natAbs ≤ 999999999 := by
      simpa [Duration.inRange] using hsettled
    have ha : IntegerRange.int64.mem d.settled.seconds = true :=
      IntegerRange.mem_int64.2 (by omega)
    have hb : IntegerRange.int32.mem d.settled.nanos = true :=
      IntegerRange.mem_int32.2 (by omega)
    refine returned_counts hp hknows hname (.inr rfl) ha hb ?_ fun m' hm' => ?_
    · rw [rawOfJson, Duration.read_of_text? htext]
      rfl
    · obtain ⟨h1, h2⟩ := integerIn_counts ha hb
      rw [toJson, hm']
      simp only [Bind.bind, Except.bind, h1, h2]
      rw [Duration.text?_settled hrange, htext]
      rfl

/-! ## Wrappers -/

/-- The scalar that a record of a wrapper holds. -/
def wrapped (s : Scalar) (r : RawRecord) : Value :=
  ((r.filter (·.1 = 1)).getLast?.map fun f => s.ofRaw f.2).getD s.fallback

end WellKnown

/-- A value is no number that is not finite. -/
def Value.isFinite : Value → Bool
  | .double x => x.isFinite
  | .single x => x.isFinite
  | _ => true

theorem Scalar.isFinite_fallback (s : Scalar) : s.fallback.isFinite = true := by
  cases s <;> rfl

/-- Numbers that are not finite are written as texts. -/
theorem Floating.toJson_of_not_finite {x : Double} (h : x.isFinite = false) :
    ∃ t, toJson x = .string t := by
  rw [toJson, if_neg (by simp [h])]
  split_ifs <;> exact ⟨_, rfl⟩

theorem Floating.isFinite_convert {x : Single} :
    (x.convert Format.double).isFinite = x.isFinite := by
  obtain hfinite | hinfinite | hnan := x.cases_isFinite
  · rw [hfinite, (narrow_convert hfinite).1]
  · rw [hinfinite, convert_infinite, (isFinite_infinite ..).1, (isFinite_infinite ..).1]
  · rw [isFinite_of_isNaN hnan, isFinite_of_isNaN (isNaN_convert hnan)]

/-- Values with the same form are finite together. -/
theorem Scalar.isFinite_of_toJson {s : Scalar} {v w : Value} (hv : s.Holds v) (hw : s.Holds w)
    (h : s.toJson v = s.toJson w) (hfinite : w.isFinite = true) : v.isFinite = true := by
  have hdouble {x y : Double} (h : Floating.toJson x = Floating.toJson y)
      (hy : y.isFinite = true) : x.isFinite = true := by
    by_contra hx
    obtain ⟨t, ht⟩ := Floating.toJson_of_not_finite (by simpa using hx)
    rw [ht, Floating.toJson, if_pos hy] at h
    cases h
  cases v <;> cases w <;> first | rfl | (cases s <;> first | exact hv.elim | exact hw.elim | skip)
  case double.double.double x y => exact hdouble h hfinite
  case single.single.float x y =>
    have hwide := hdouble h (Floating.isFinite_convert.trans hfinite)
    exact Floating.isFinite_convert.symm.trans hwide

namespace WellKnown

theorem wrappedJson_eq (s : Scalar) (hv : s.Holds (wrapped s r)) : wrappedJson s r =
    if (wrapped s r).isFinite then s.toJson (wrapped s r) else .null := by
  have heq : wrappedJson s r = match wrapped s r with
      | .double x => if x.isFinite then .float x else .null
      | .single x => if x.isFinite then .float (x.convert Format.double) else .null
      | v => s.toJson v := rfl
  rw [heq]
  generalize wrapped s r = v at hv
  cases v with
  | double x =>
    cases hx : x.isFinite <;> simp [Value.isFinite, Scalar.toJson, Floating.toJson, hx]
  | single x =>
    have hwide := Floating.isFinite_convert (x := x)
    cases hx : x.isFinite <;>
      simp [Value.isFinite, Scalar.toJson, Floating.toJson, hx, hwide]
  | _ => rfl

/-- What a record that a wrapper admits holds is a value of the wrapper's type. -/
theorem holds_wrapped {depth : Nat} (hname : ofName? type = some (.wrapper s))
    (h : Wire.FieldsFit layout (.record type) depth r) : s.Holds (wrapped s r) := by
  rw [wrapped]
  cases hlast : (r.filter (·.1 = 1)).getLast? with
  | none => exact s.holds_fallback
  | some x =>
    have hx := List.mem_filter.1 (List.mem_of_getLast? hlast)
    have hfield := h.of_mem hx.1
    rw [of_decide_eq_true hx.2] at hfield
    have hslot : Wire.Within.slot? layout 1 (.record type) = some ⟨s.slot, false, none⟩ :=
      layout_field?_eq hname 1
    obtain ⟨hpackable, -⟩ | hv := hfield.packed_or_slot hslot
    · cases hpackable
    · refine Scalar.holds_ofRaw ?_
      cases s <;> cases hv <;> assumption

theorem wrapped_scalarFields (hv : s.Holds v) : wrapped s (scalarFields s 1 v) =
    if v.sameScalar s.fallback then s.fallback else v := by
  rw [scalarFields]
  split_ifs
  · rfl
  · simp [wrapped, Scalar.ofRaw_toRaw hv]

/-- A wrapped scalar that is not written as null is read back. -/
theorem returned_wrapper (hp : p.Compiled) (hknows : p.Knows m.type)
    (hname : ofName? m.type = some (.wrapper s)) (h : (wrapper s).toJson p m = .ok j)
    (hnull : j ≠ .null) (hweight : j.weight < 2 ^ 64) :
    ∃ m' r, Returned p (.wrapper s) m j m' r := by
  obtain ⟨r, hr, h⟩ := Except.bind_eq_ok.1 h
  have hholds := holds_wrapped hname (fieldsFit_of_recordOf hr)
  replace h := Except.pure_eq_ok.1 h
  rw [wrappedJson_eq s hholds] at h
  split_ifs at h with hfinite
  · obtain ⟨v, hread, hv, hjson, -⟩ := Scalar.exists_readsBack hholds
    rw [h] at hread hjson
    have hvfinite := Scalar.isFinite_of_toJson hv hholds (hjson.trans h.symm) hfinite
    have hform : (formsOf m.type).find? (·.number == 1) = some (.single 1 (.scalar s)) := by
      rw [formsOf_eq hname]
      rfl
    obtain ⟨m', htype, hsettled⟩ := Message.exists_settled_scalar hp hknows hform hv
    have hfit : Wire.FieldsFit layout (.record m.type) Wire.maxDepth (scalarFields s 1 v) :=
      Message.fieldsFit_of_forall (fieldFits_of_mem_scalarFields
        (layout_field?_eq hname 1) hv (by decide) (by decide))
    have hlevels := levelsOf_scalarFields s 1 v
    have hwrite := Scalar.length_toRaw_le hv (by rw [hjson]; exact hweight)
    have hlength := length_scalarFields_le (show 1 < 2 ^ 29 by decide) s v
    rw [hjson] at hwrite
    refine ⟨m', _, htype, hsettled, ?_, hfit, by rw [hlevels]; exact Nat.zero_le _,
      Nat.le_trans hsettled.nesting (by rw [hlevels]; exact Nat.zero_le _), by omega, ?_⟩
    · rw [rawOfJson, hread]
      rfl
    · have hrecord := hsettled.recordOf (htype ▸ hfit) (by omega)
      have hheld := holds_wrapped hname hfit
      refine ⟨_, by rw [toJson, hrecord]; rfl, ?_⟩
      have hheldfinite : (if v.sameScalar s.fallback then s.fallback else v).isFinite = true := by
        split_ifs
        · exact s.isFinite_fallback
        · exact hvfinite
      rw [wrappedJson_eq s hheld, wrapped_scalarFields hv, if_pos hheldfinite, ← hjson]
      split_ifs with hset
      · obtain heq | hzeros := Value.eq_or_zeros_of_sameScalar hset
        · rw [← heq]
          exact .refl _
        · exact Scalar.alike_of_zeros hzeros
      · exact .refl _
  · exact absurd h.symm hnull

/-! ## Field masks -/

end WellKnown

namespace FieldMask

theorem length_toSnake? {part snake : List Char} (h : toSnake? part = some snake) :
    snake.length ≤ 2 * part.length := by
  induction part generalizing snake with
  | nil =>
    obtain rfl := Option.some.inj h
    exact Nat.le_refl _
  | cons c rest ih =>
    rw [toSnake?] at h
    obtain ⟨more, hmore, h⟩ := Option.bind_eq_some_iff.1 h
    have := ih hmore
    rw [List.length_cons]
    split_ifs at h
    · obtain rfl := Option.some.inj h
      simp only [List.length_cons]
      omega
    · obtain rfl := Option.some.inj h
      rw [List.length_cons]
      omega

theorem length_parts_le (t : List Char) : ((parts t).map List.length).sum ≤ t.length := by
  induction t with
  | nil => exact Nat.le_refl _
  | cons c rest ih =>
    rw [parts, List.length_cons]
    split_ifs
    · rw [List.map_cons, List.sum_cons, List.length_nil]
      omega
    · cases hparts : parts rest with
      | nil => exact absurd hparts (parts_ne_nil rest)
      | cons part more =>
        rw [hparts, List.map_cons, List.sum_cons] at ih
        simp only [List.map_cons, List.sum_cons, List.length_cons]
        omega

/-- The paths that are read from a text are not much longer than the text. -/
theorem length_of_read? {t : String} {paths : List String} (h : read? t = some paths) :
    (paths.map fun path => 4 * path.length + 20).sum ≤ 32 * t.length := by
  rw [← String.length_toList]
  refine Nat.le_trans ?_ (Nat.mul_le_mul_left 32 (length_parts_le t.toList))
  rw [read?] at h
  generalize parts t.toList = camels at h
  induction camels generalizing paths with
  | nil =>
    obtain rfl := Option.some.inj h
    exact Nat.zero_le _
  | cons part rest ih =>
    rw [List.map_cons, List.sum_cons]
    rw [List.filter_cons] at h
    split_ifs at h with hpart
    · rw [List.mapM_cons] at h
      obtain ⟨path, hpath, h⟩ := Option.bind_eq_some_iff.1 h
      obtain ⟨more, hmore, h⟩ := Option.bind_eq_some_iff.1 h
      obtain rfl := Option.some.inj h
      obtain ⟨snake, hsnake, rfl⟩ := Option.map_eq_some_iff.1 hpath
      have hrest := ih hmore
      have hlength := length_toSnake? hsnake
      have hpos : 0 < part.length := List.length_pos_iff.2 (by simpa using hpart)
      rw [List.map_cons, List.sum_cons, String.length_ofList]
      omega
    · have := ih h
      omega

end FieldMask

namespace WellKnown

theorem textsIn_texts (paths : List String) :
    textsIn 1 (paths.map fun path => (1, .text path)) = paths := by
  induction paths with
  | nil => rfl
  | cons path rest ih =>
    exact congrArg (path :: ·) ih

open Wire in
theorem length_texts_le (paths : List String)
    (h : (paths.map fun path => 4 * path.length + 20).sum < 2 ^ 64) :
    (Raw.writeFields (paths.map fun path => (1, .text path))).length ≤
      (paths.map fun path => 4 * path.length + 20).sum := by
  induction paths with
  | nil => exact Nat.le_refl _
  | cons path rest ih =>
    simp only [List.map_cons, List.sum_cons] at h ⊢
    have hrest := ih (by omega)
    have hutf8 := length_utf8_le path
    have hdelimited := @length_writeDelimited_le (utf8 path) (by omega)
    have hfirst := length_writeFields_cons_le (by decide : 1 < 2 ^ 29) (.text path)
      (rest.map fun path => (1, .text path))
    rw [Raw.write] at hfirst
    exact Nat.le_trans hfirst (by omega)

/-- A list of texts is settled in the field of a mask. -/
theorem exists_settled_texts (hp : p.Compiled) (hknows : p.Knows type)
    (hname : ofName? type = some .fieldMask) (paths : List String) :
    ∃ m : Message, m.type = type ∧ m.Settled p (paths.map fun path => (1, .text path)) := by
  by_cases hpaths : paths = []
  · subst hpaths
    exact ⟨_, rfl, Message.settled_empty hp type⟩
  obtain ⟨f, hf, hform⟩ := hknows.exists_field
    (show _ = some (FieldForm.many 1 (.scalar .string)) by rw [formsOf_eq hname]; rfl)
  have hkind : f.kind = .scalar .string := congrArg FieldForm.kind hform
  have hmap : p.mapEntry? f = none := by
    have h := Pool.isMap_of_not_message (p := p) (f := f) (by simp [hkind]) (by simp [hkind])
    rwa [Pool.isMap, Option.isSome_eq_false_iff, Option.isNone_iff_eq_none] at h
  have hitems : List.Forall₂ (Value.Settled p f) (paths.map .text) (paths.map .text) := by
    rw [List.forall₂_map_left_iff, List.forall₂_map_right_iff]
    refine List.forall₂_same.2 fun path _ => ?_
    have hsettled := Value.settled_of_holds (p := p) (f := f) (v := .text path)
      (by rw [hkind]; trivial)
    rwa [hkind] at hsettled
  have hsettled := Message.settled_singleton hp hf (Field.settled_list
    (congrArg FieldForm.isRepeated hform) hmap (congrArg FieldForm.isPacked hform)
    (by simpa using hpaths) hitems)
  rw [List.map_map] at hsettled
  exact ⟨_, rfl, hsettled⟩

/-- A mask in which no path is written as nothing is read back. -/
theorem returned_fieldMask (hp : p.Compiled) (hknows : p.Knows m.type)
    (hname : ofName? m.type = some .fieldMask) (h : fieldMask.toJson p m = .ok j)
    (hmask : ∀ t, j = .string t → t.toList = [] ∨ [] ∉ FieldMask.parts t.toList)
    (hweight : j.weight < 2 ^ 64) : ∃ m' r, Returned p .fieldMask m j m' r := by
  obtain ⟨r, hr, h⟩ := Except.bind_eq_ok.1 h
  cases htext : FieldMask.text? (textsIn 1 r) with
  | none =>
    rw [htext] at h
    cases h
  | some t =>
    rw [htext] at h
    obtain rfl := Except.pure_eq_ok.1 h
    obtain ⟨paths, hread, hback⟩ := FieldMask.exists_read? htext (hmask t rfl)
    have hlength := FieldMask.length_of_read? hread
    rw [Json.weight] at hweight
    have hwrite := length_texts_le paths (by omega)
    obtain ⟨m', htype, hsettled⟩ := exists_settled_texts hp hknows hname paths
    have hfit : Wire.FieldsFit layout (.record m.type) Wire.maxDepth
        (paths.map fun path => (1, .text path)) := by
      refine Message.fieldsFit_of_forall fun x hx => ?_
      obtain ⟨path, -, rfl⟩ := List.mem_map.1 hx
      exact ⟨Nat.le_refl 1, show 1 < 2 ^ 29 by decide, fieldFits_of_takes (layout_field?_eq hname 1)
        (Scalar.takes_toRaw (s := .string) (v := .text path) trivial)⟩
    have hlevels : Raw.levelsOf (paths.map fun path => (1, .text path)) = 0 := by
      clear hread hback hlength hwrite hsettled hfit
      induction paths with
      | nil => rfl
      | cons path rest ih =>
        rw [List.map_cons, Raw.levelsOf, ih]
        rfl
    refine ⟨m', _, htype, hsettled, ?_, hfit, by rw [hlevels]; exact Nat.zero_le _,
      Nat.le_trans hsettled.nesting (by rw [hlevels]; exact Nat.zero_le _), ?_,
      ⟨_, ?_, .refl _⟩⟩
    · rw [rawOfJson, hread]
    · rw [Json.weight]
      omega
    · rw [toJson, hsettled.recordOf (htype ▸ hfit) (by omega)]
      simp only [Bind.bind, Except.bind, textsIn_texts, hback]
      rfl

/-- The empty message is read back. -/
theorem returned_empty (hp : p.Compiled) (h : WellKnown.empty.toJson p m = .ok j) :
    ∃ m' r, Returned p .empty m j m' r := by
  obtain rfl := Except.ok.inj h
  exact ⟨.empty m.type, [], rfl, Message.settled_empty hp m.type, rfl, .nil .., Nat.zero_le _,
    Nat.zero_le _, by decide, _, rfl, .refl _⟩

end WellKnown

/-! ## Held JSON values -/

namespace Message

open WellKnown (valueName structName listName entryName structNames)

section

variable (hp : p.Compiled) (hknows : ∀ n ∈ structNames, p.Knows n)

include hp hknows

/-- A value under one of the numbers of a message that holds one. -/
theorem settled_choice (form : FieldForm) {x : Raw}
    (hform : (WellKnown.formsOf valueName).find? (·.number == form.number) = some form)
    (hsingle : form.isRepeated = false) (hpresence : form.hasPresence = true)
    (h : ∀ f : Field, f.kind = form.kind → v.Settled p f x) :
    (Message.mk valueName [(form.number, v)] []).Settled p [(form.number, x)] := by
  obtain ⟨f, hf, rfl⟩ := (hknows valueName (by decide)).exists_field hform
  exact settled_singleton hp hf (Field.settled_single hsingle (h f rfl) (.inl hpresence))

/-- A list of settled messages is settled. -/
theorem exists_settled_list {items : List Json} {values : List Value}
    (hitems : ∀ f : Field, f.kind = .message valueName →
      List.Forall₂ (Value.Settled p f) values (items.map fun v => .record v.toRaw)) :
    ∃ m : Message, m.type = listName ∧ m.Settled p (Json.itemsToRaw items) ∧
      m.nesting = Value.nestingOfItems values := by
  have hraw : Json.itemsToRaw items =
      (items.map fun v => Raw.record v.toRaw).map fun r => (1, r) := by
    clear hitems
    induction items with
    | nil => rfl
    | cons v rest ih => rw [Json.itemsToRaw, ih, List.map_cons, List.map_cons]
  obtain ⟨f, hf, hform⟩ := (hknows listName (by decide)).exists_field
    (show _ = some (FieldForm.many 1 (.message valueName)) from rfl)
  have hkind : f.kind = .message valueName := congrArg FieldForm.kind hform
  have hrepeated : f.isRepeated = true := congrArg FieldForm.isRepeated hform
  have hmap : p.mapEntry? f = none := by
    have h := Pool.isMap_of_knows (hknows valueName (by decide)) hkind hrepeated
    rwa [decide_eq_false (by decide), Pool.isMap, Option.isSome_eq_false_iff,
      Option.isNone_iff_eq_none] at h
  by_cases hne : values = []
  · subst hne
    have hnil := List.forall₂_nil_left_iff.1 (hitems f hkind)
    rw [hraw, hnil]
    exact ⟨_, rfl, settled_empty hp listName, rfl⟩
  · rw [hraw]
    exact ⟨_, rfl, settled_singleton hp hf (Field.settled_list hrepeated hmap
      (congrArg FieldForm.isPacked hform) hne (hitems f hkind)),
      by simp [nesting, nestingOfFields, Value.nesting, Raw.levelsOf]⟩

/-- An object of settled messages is settled. -/
theorem exists_settled_object {members : List (String × Json)} {entries : List (Value × Value)}
    (hkeys : (members.map (·.1)).Nodup)
    (hentries : ∀ h : Field, h.kind = .message valueName →
      List.Forall₂ (Value.EntrySettled p h) entries
        (members.map fun x => (x.1, .record x.2.toRaw))) :
    ∃ m : Message, m.type = structName ∧ m.Settled p (Json.membersToRaw members) ∧
      m.nesting = Value.nestingOfEntries entries := by
  have hraw : Json.membersToRaw members = ((members.map fun x =>
      (x.1, Raw.record x.2.toRaw)).map fun x => textEntry x.1 x.2).map fun r => (1, r) := by
    clear hkeys hentries
    induction members with
    | nil => rfl
    | cons x rest ih =>
      rw [Json.membersToRaw, ih]
      rfl
  obtain ⟨f, hf, hform⟩ := (hknows structName (by decide)).exists_field
    (show _ = some (FieldForm.many 1 (.message entryName)) from rfl)
  have hkind : f.kind = .message entryName := congrArg FieldForm.kind hform
  obtain ⟨entry, hentry⟩ : ∃ entry, p.mapEntry? f = some entry := by
    have h := Pool.isMap_of_knows (hknows entryName (by decide)) hkind
      (congrArg FieldForm.isRepeated hform)
    exact Option.isSome_iff_exists.1 (h.trans (decide_eq_true rfl))
  obtain ⟨⟨g, t, h, hfields⟩, -⟩ := hp.isEntry hentry
  obtain ⟨hname, -⟩ := Pool.messageType_of_mapEntry? hentry
  rw [hkind] at hname
  have hg := (hknows entryName (by decide)).form_eq
    (Pool.field?_of_messageType (hname ▸ hfields.key)) (.single 1 (.scalar .string)) rfl
  have hh := (hknows entryName (by decide)).form_eq
    (Pool.field?_of_messageType (hname ▸ hfields.value)) (.present 2 (.message valueName)) rfl
  obtain rfl : t = .string := by
    have hgkind : g.kind = .scalar .string := congrArg FieldForm.kind hg
    exact Kind.scalar.inj (hfields.kind.symm.trans hgkind)
  by_cases hne : entries = []
  · subst hne
    have hnil := List.forall₂_nil_left_iff.1 (hentries h (congrArg FieldForm.kind hh))
    rw [hraw, hnil]
    exact ⟨_, rfl, settled_empty hp structName, rfl⟩
  · rw [hraw]
    refine ⟨_, rfl, settled_singleton hp hf (Field.settled_map hentry hfields
      (congrArg FieldForm.hasPresence hg)
      (Option.isNone_iff_eq_none.1 (Option.isSome_eq_false_iff.1
        (congrArg FieldForm.hasDefault hg)))
      (congrArg FieldForm.hasPresence hh) hne (by simpa [Function.comp_def] using hkeys)
      (hentries h (congrArg FieldForm.kind hh))),
      by simp [nesting, nestingOfFields, Value.nesting, Raw.levelsOf]⟩

end

mutual

/-- A JSON value is held by a message that is settled on its record, nested no deeper than it. -/
theorem exists_settled_held (hp : p.Compiled) (hknows : ∀ n ∈ structNames, p.Knows n) :
    (j : Json) → j.IsHeld →
    ∃ m : Message, m.type = valueName ∧ m.Settled p j.toRaw ∧ m.nesting ≤ j.layers 0
  | .null, _ => by
    refine ⟨_, rfl, settled_choice hp hknows (.choice 1 (.enumeration WellKnown.nullName))
      (v := .integer 0) (x := .varint 0) rfl rfl rfl fun f hf => ?_, Nat.zero_le _⟩
    have hsettled := Value.settled_of_holds (p := p) (f := f) (v := .integer 0)
      (by rw [hf]; exact rfl)
    rwa [hf] at hsettled
  | .bool b, _ => by
    refine ⟨_, rfl, settled_choice hp hknows (.choice 4 (.scalar .bool))
      (v := .bool b) rfl rfl rfl fun f hf => ?_, Nat.zero_le _⟩
    have hsettled := Value.settled_of_holds (p := p) (f := f) (v := .bool b)
      (by rw [hf]; trivial)
    rwa [hf] at hsettled
  | .integer i, h => nomatch h
  | .float x, h => by
    cases h with
    | float hfinite =>
      refine ⟨_, rfl, settled_choice hp hknows (.choice 2 (.scalar .double))
        (v := .double x) rfl rfl rfl fun f hf => ?_, Nat.zero_le _⟩
      have hsettled := Value.settled_of_holds (p := p) (f := f) (v := .double x)
        (by rw [hf]; exact Floating.hasBits_of_isFinite hfinite)
      rwa [hf] at hsettled
  | .string s, _ => by
    refine ⟨_, rfl, settled_choice hp hknows (.choice 3 (.scalar .string))
      (v := .text s) rfl rfl rfl fun f hf => ?_, Nat.zero_le _⟩
    have hsettled := Value.settled_of_holds (p := p) (f := f) (v := .text s)
      (by rw [hf]; trivial)
    rwa [hf] at hsettled
  | .array items, h => by
    cases h with
    | array h =>
      obtain ⟨values, hvalues, hnesting⟩ := exists_settled_items hp hknows items h
      obtain ⟨m, htype, hm, heq⟩ := exists_settled_list hp hknows hvalues
      refine ⟨_, rfl, settled_choice hp hknows (.choice 6 (.message listName)) rfl rfl rfl
        fun f hf => Value.settled_record (htype ▸ hf) hm, ?_⟩
      simp only [nesting, nestingOfFields, Value.nesting, Raw.levelsOf, heq, Json.layers]
      omega
  | .object members, h => by
    cases h with
    | object hascending h =>
      obtain ⟨entries, hentries, hnesting⟩ := exists_settled_members hp hknows members h
      obtain ⟨m, htype, hm, heq⟩ := exists_settled_object hp hknows hascending.nodup_keys hentries
      refine ⟨_, rfl, settled_choice hp hknows (.choice 5 (.message structName)) rfl rfl rfl
        fun f hf => Value.settled_record (htype ▸ hf) hm, ?_⟩
      simp only [nesting, nestingOfFields, Value.nesting, Raw.levelsOf, heq, Json.layers]
      omega

theorem exists_settled_items (hp : p.Compiled) (hknows : ∀ n ∈ structNames, p.Knows n) :
    (items : List Json) → (∀ v ∈ items, v.IsHeld) →
    ∃ values, (∀ f : Field, f.kind = .message valueName →
      List.Forall₂ (Value.Settled p f) values (items.map fun v => .record v.toRaw)) ∧
      Value.nestingOfItems values ≤ Json.layersOfItems 0 items
  | [], _ => ⟨[], fun _ _ => .nil, Nat.le_refl _⟩
  | v :: rest, h => by
    obtain ⟨m, htype, hm, hnesting⟩ := exists_settled_held hp hknows v (h v List.mem_cons_self)
    obtain ⟨values, hvalues, hrest⟩ := exists_settled_items hp hknows rest
      fun w hw => h w (.tail _ hw)
    refine ⟨.record m :: values, fun f hf =>
      .cons (Value.settled_record (htype ▸ hf) hm) (hvalues f hf), ?_⟩
    rw [Value.nestingOfItems, Json.layersOfItems, Value.nesting]
    omega

theorem exists_settled_members (hp : p.Compiled) (hknows : ∀ n ∈ structNames, p.Knows n) :
    (members : List (String × Json)) → (∀ x ∈ members, x.2.IsHeld) →
    ∃ entries, (∀ h : Field, h.kind = .message valueName →
      List.Forall₂ (Value.EntrySettled p h) entries
        (members.map fun x => (x.1, .record x.2.toRaw))) ∧
      Value.nestingOfEntries entries ≤ Json.layersOfMembers 0 members
  | [], _ => ⟨[], fun _ _ => .nil, Nat.le_refl _⟩
  | (key, v) :: rest, h => by
    obtain ⟨m, htype, hm, hnesting⟩ := exists_settled_held hp hknows v (h _ List.mem_cons_self)
    obtain ⟨entries, hentries, hrest⟩ := exists_settled_members hp hknows rest
      fun x hx => h x (.tail _ hx)
    refine ⟨(.text key, .record m) :: entries, fun f hf =>
      .cons ⟨rfl, Value.settled_record (htype ▸ hf) hm⟩ (hentries f hf), ?_⟩
    rw [Value.nestingOfEntries, Json.layersOfMembers, Value.nesting]
    omega

end

end Message

namespace WellKnown

theorem type_of_ofName? (h : ofName? type = some .value) : type = valueName :=
  (by decide : ∀ x ∈ table, x.2 = value → x.1 = valueName) _ (eq_of_ofName? h) rfl

theorem struct_of_ofName? (h : ofName? type = some .struct) : type = structName :=
  (by decide : ∀ x ∈ table, x.2 = struct → x.1 = structName) _ (eq_of_ofName? h) rfl

theorem list_of_ofName? (h : ofName? type = some .listValue) : type = listName :=
  (by decide : ∀ x ∈ table, x.2 = listValue → x.1 = listName) _ (eq_of_ofName? h) rfl

/-- The record of a message that holds a JSON value, with the levels that it may have on the wire
and in the message. -/
theorem fieldsFit_of_held (hp : p.Compiled) (hknows : ∀ n ∈ structNames, p.Knows n) (hm : m.Fits p)
    (htype : m.type ∈ structNames) (hl : (m.encode p).length < 2 ^ 64)
    (h : recordOf p m = .ok r) : r = m.toRaw p ∧
      Wire.FieldsFit layout (.record m.type) Wire.maxDepth (m.toRaw p) ∧
      Wire.FieldsFit p.layout (.record m.type) m.nesting (m.toRaw p) := by
  have hfamily : ∀ n ∈ family m.type, p.Knows n := by
    rw [family, if_pos htype]
    exact hknows
  obtain rfl := recordOf_eq hp hm hl hfamily h
  exact ⟨rfl, fieldsFit_of_recordOf h,
    (Message.roundTrips hp m.nesting m m hm (.refl m) (Nat.le_refl _)).1⟩

theorem heldJson_eq_ok {v : Held} : heldJson v = .ok j ↔ v.toJson? = some j := by
  rw [heldJson]
  cases v.toJson? with
  | none => exact ⟨nofun, nofun⟩
  | some j' =>
    exact ⟨fun h => congrArg some (Except.ok.inj h), fun h => congrArg _ (Option.some.inj h)⟩

/-- A message that is settled on a record with the JSON form from which that is read. -/
theorem returned_of_held {w : WellKnown} (held : RawRecord → Held) {m' : Message}
    (hwrite : ∀ m, w.toJson p m = (do heldJson (held (← recordOf p m)))) (htype : m'.type = m.type)
    (hsettled : m'.Settled p r) (hread : w.rawOfJson j = .ok r)
    (hfit : Wire.FieldsFit layout (.record m.type) Wire.maxDepth r)
    (hlevels : Raw.levelsOf r ≤ Wire.maxDepth) (hnesting : m'.nesting ≤ m.nesting)
    (hlength : (Raw.writeFields r).length + 20 ≤ j.weight) (hweight : j.weight < 2 ^ 64)
    (hback : (held r).toJson? = some j) : ∃ m' r, Returned p w m j m' r := by
  refine ⟨m', r, htype, hsettled, hread, hfit, hlevels, hnesting, hlength, j, ?_, .refl j⟩
  rw [hwrite, hsettled.recordOf (htype ▸ hfit) (by omega)]
  exact heldJson_eq_ok.2 hback

section

variable (hp : p.Compiled) (hknows : ∀ n ∈ structNames, p.Knows n) (hm : m.Fits p)
  (hl : (m.encode p).length < 2 ^ 64) (hweight : j.weight < 2 ^ 64)

include hp hknows hm hl hweight

/-- A message that holds any JSON value is read back. -/
theorem returned_value (hname : ofName? m.type = some .value) (h : value.toJson p m = .ok j) :
    ∃ m' r, Returned p .value m j m' r := by
  have htype := type_of_ofName? hname
  obtain ⟨r, hr, h⟩ := Except.bind_eq_ok.1 h
  obtain ⟨rfl, hfit, hfit'⟩ := fieldsFit_of_held hp hknows hm (htype ▸ by decide) hl hr
  replace h := heldJson_eq_ok.1 h
  have hheld := Held.isHeld_of_toJson? _ h
  have hlayers (cost : Nat) : j.layers cost ≤ Held.rawLayers cost (m.toRaw p) :=
    Nat.le_trans (Held.layers_of_toJson? cost _ h)
      (Nat.le_trans (Held.layers_putAll cost .null _) (Nat.max_le.2 ⟨Nat.zero_le _, Nat.le_refl _⟩))
  have hbounded := (Held.bounded hp hknows holding_layout _).value hm htype hfit
  have hbounded' := (Held.bounded hp hknows (Pool.holding_layout hknows) _).value hm htype hfit'
  have hlevels : Raw.levelsOf j.toRaw ≤ Wire.maxDepth := by
    rw [Json.levelsOf_toRaw]
    exact Nat.le_trans (hlayers 1) hbounded
  obtain ⟨m', htype', hsettled, hnesting⟩ := Message.exists_settled_held hp hknows j hheld
  have hlength := Json.length_toRaw_le j hweight
  exact returned_of_held (Held.putAll .null) (fun _ => rfl) (htype'.trans htype.symm)
    hsettled rfl (htype ▸ Json.fieldsFit_toRaw j hheld hlevels) hlevels
    (Nat.le_trans hnesting (Nat.le_trans (hlayers 0) hbounded')) (by omega) hweight
    (Json.toJson?_putAll j hheld)

/-- A message that holds an object is read back. -/
theorem returned_struct (hname : ofName? m.type = some .struct) (h : struct.toJson p m = .ok j) :
    ∃ m' r, Returned p .struct m j m' r := by
  have htype := struct_of_ofName? hname
  obtain ⟨r, hr, h⟩ := Except.bind_eq_ok.1 h
  obtain ⟨rfl, hfit, hfit'⟩ := fieldsFit_of_held hp hknows hm (htype ▸ by decide) hl hr
  obtain ⟨members, hmembers, rfl⟩ := Option.map_eq_some_iff.1 (heldJson_eq_ok.1 h)
  obtain ⟨hascending, hheld⟩ := Held.isHeld_of_membersToJson? _ hmembers
  have hlayers (cost : Nat) :
      Json.layersOfMembers cost members ≤ Held.memberLayers cost (m.toRaw p) :=
    Nat.le_trans (Held.layers_of_membersToJson? cost _ hmembers)
      (Nat.le_trans (Held.layers_putMembers cost [] _)
        (Nat.max_le.2 ⟨Nat.zero_le _, Nat.le_refl _⟩))
  have hbounded := (Held.bounded hp hknows holding_layout _).object hm htype hfit
  have hbounded' := (Held.bounded hp hknows (Pool.holding_layout hknows) _).object hm htype hfit'
  have hlevels : Raw.levelsOf (Json.membersToRaw members) ≤ Wire.maxDepth := by
    rw [Json.levelsOf_membersToRaw]
    exact Nat.le_trans (hlayers 1) hbounded
  obtain ⟨entries, hentries, hnesting⟩ := Message.exists_settled_members hp hknows members hheld
  obtain ⟨m', htype', hsettled, heq⟩ :=
    Message.exists_settled_object hp hknows hascending.nodup_keys hentries
  rw [Json.weight] at hweight
  have hlength := Json.length_membersToRaw_le members (by omega)
  refine returned_of_held (fun r => .object (Held.putMembers [] r)) (fun _ => rfl)
    (htype'.trans htype.symm) hsettled rfl
    (htype ▸ Json.fieldsFit_membersToRaw members hheld hlevels) hlevels
    (Nat.le_trans (heq ▸ hnesting) (Nat.le_trans (hlayers 0) hbounded'))
    (by rw [Json.weight]; omega) (by rw [Json.weight]; exact hweight) ?_
  rw [Held.putMembers_membersToRaw (by simpa using hascending.nodup_keys), List.nil_append,
    Held.toJson?, Json.membersToJson?_map members hascending hheld]
  rfl

/-- A message that holds a list is read back. -/
theorem returned_list (hname : ofName? m.type = some .listValue)
    (h : listValue.toJson p m = .ok j) : ∃ m' r, Returned p .listValue m j m' r := by
  have htype := list_of_ofName? hname
  obtain ⟨r, hr, h⟩ := Except.bind_eq_ok.1 h
  obtain ⟨rfl, hfit, hfit'⟩ := fieldsFit_of_held hp hknows hm (htype ▸ by decide) hl hr
  obtain ⟨items, hitems, rfl⟩ := Option.map_eq_some_iff.1 (heldJson_eq_ok.1 h)
  have hheld := Held.isHeld_of_itemsToJson? _ hitems
  have hlayers (cost : Nat) :
      Json.layersOfItems cost items ≤ Held.itemLayers cost (m.toRaw p) :=
    Nat.le_trans (Held.layers_of_itemsToJson? cost _ hitems)
      (Nat.le_trans (Held.layers_putItems cost [] _)
        (Nat.max_le.2 ⟨Nat.zero_le _, Nat.le_refl _⟩))
  have hbounded := (Held.bounded hp hknows holding_layout _).list hm htype hfit
  have hbounded' := (Held.bounded hp hknows (Pool.holding_layout hknows) _).list hm htype hfit'
  have hlevels : Raw.levelsOf (Json.itemsToRaw items) ≤ Wire.maxDepth := by
    rw [Json.levelsOf_itemsToRaw]
    exact Nat.le_trans (hlayers 1) hbounded
  obtain ⟨values, hvalues, hnesting⟩ := Message.exists_settled_items hp hknows items hheld
  obtain ⟨m', htype', hsettled, heq⟩ := Message.exists_settled_list hp hknows hvalues
  rw [Json.weight] at hweight
  have hlength := Json.length_itemsToRaw_le items (by omega)
  refine returned_of_held (fun r => .list (Held.putItems [] r)) (fun _ => rfl)
    (htype'.trans htype.symm) hsettled rfl
    (htype ▸ Json.fieldsFit_itemsToRaw items hheld hlevels) hlevels
    (Nat.le_trans (heq ▸ hnesting) (Nat.le_trans (hlayers 0) hbounded'))
    (by rw [Json.weight]; omega) (by rw [Json.weight]; exact hweight) ?_
  rw [Held.putItems_itemsToRaw, List.nil_append, Held.toJson?, Json.itemsToJson?_map items hheld]
  rfl

end

/-- What null is read as where it is a value is written as null. -/
theorem toJson_of_ofRaw_null (hp : p.Compiled) (hknows : ∀ n ∈ structNames, p.Knows n)
    (h : Message.ofRaw p valueName (Json.toRaw .null) = .ok m) :
    m.type = valueName ∧ m.toRaw p = Json.toRaw .null ∧ value.toJson p m = .ok .null := by
  obtain ⟨m', htype, hsettled, -⟩ := Message.exists_settled_held hp hknows .null .null
  have hlength : (Raw.writeFields (Json.toRaw .null)).length < 2 ^ 64 :=
    Nat.lt_of_le_of_lt (Nat.le_of_add_right_le (Json.length_toRaw_le .null (by decide))) (by decide)
  have hread := hsettled.ofRaw hp (Nat.zero_le _) hlength
  rw [htype, h] at hread
  obtain rfl := Except.ok.inj hread
  refine ⟨htype, hsettled.raw, ?_⟩
  have hrecord := hsettled.recordOf
    (htype ▸ Json.fieldsFit_toRaw .null .null (Nat.zero_le _)) hlength
  change (do heldJson (Held.putAll .null (← recordOf p m))) = _
  rw [hrecord]
  exact heldJson_eq_ok.2 (Json.toJson?_putAll .null .null)

/-! ## All well-known types -/

/-- What is written of a message of a well-known type tells what it holds: a number in a wrapper is
finite, a point in time is not carried beyond the year 9999, and no path of a mask is written as
nothing beside others. -/
structure Tells (p : Pool) (m : Message) : Prop where
  finite : ∀ s, ofName? m.type = some (.wrapper s) → ∀ r, recordOf p m = .ok r →
    (wrapped s r).isFinite = true
  carried : ofName? m.type = some .timestamp → ∀ r, recordOf p m = .ok r →
    (Timestamp.mk (integerIn 64 1 r) (integerIn 32 2 r)).settled.inRange = true
  parted : ofName? m.type = some .fieldMask → ∀ r t, recordOf p m = .ok r →
    FieldMask.text? (textsIn 1 r) = some t → t.toList = [] ∨ [] ∉ FieldMask.parts t.toList

/-- A message of a well-known type that tells what it holds is read back, unless it may hold
messages of any type. -/
theorem exists_returned (hp : p.Compiled) (hs : p.Standard) {w : WellKnown}
    (hname : ofName? m.type = some w) (hany : w ≠ .any)
    (hknown : (p.referredMessage? m.type).isSome = true) (hm : m.Fits p)
    (hl : (m.encode p).length < 2 ^ 64) (htells : Tells p m) (h : w.toJson p m = .ok j)
    (hweight : j.weight < 2 ^ 64) : ∃ m' r, Returned p w m j m' r := by
  have hfamily := hs.knows m.type (mem_names_of_ofName? hname) hknown
  have hknows := hfamily m.type (mem_family m.type)
  have hstruct (h : m.type ∈ structNames) : ∀ n ∈ structNames, p.Knows n := by
    rwa [family, if_pos h] at hfamily
  cases w with
  | any => exact absurd rfl hany
  | timestamp => exact returned_timestamp hp hknows hname h (htells.carried hname)
  | duration => exact returned_duration hp hknows hname h
  | fieldMask =>
    refine returned_fieldMask hp hknows hname h (fun t ht => ?_) hweight
    obtain ⟨r, hr, h⟩ := Except.bind_eq_ok.1 h
    cases htext : FieldMask.text? (textsIn 1 r) with
    | none =>
      rw [htext] at h
      cases h
    | some u =>
      rw [htext] at h
      obtain rfl := Json.string.inj ((Except.pure_eq_ok.1 h).trans ht)
      exact htells.parted hname r u hr htext
  | struct =>
    exact returned_struct hp (hstruct (struct_of_ofName? hname ▸ by decide)) hm hl hweight hname h
  | value =>
    exact returned_value hp (hstruct (type_of_ofName? hname ▸ by decide)) hm hl hweight hname h
  | listValue =>
    exact returned_list hp (hstruct (list_of_ofName? hname ▸ by decide)) hm hl hweight hname h
  | empty => exact returned_empty hp h
  | wrapper s =>
    refine returned_wrapper hp hknows hname h ?_ hweight
    obtain ⟨r, hr, h⟩ := Except.bind_eq_ok.1 h
    have hholds := holds_wrapped hname (fieldsFit_of_recordOf hr)
    rw [← Except.pure_eq_ok.1 h, wrappedJson_eq s hholds, if_pos (htells.finite s hname r hr)]
    exact s.toJson_ne_null hholds

end WellKnown

end ServiceCall
