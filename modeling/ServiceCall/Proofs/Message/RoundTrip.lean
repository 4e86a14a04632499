import ServiceCall.Proofs.Message.Json
import ServiceCall.Proofs.Message.Rebuild
/-!
# Messages are read back from the wire

The fields of a message are merged one after the other into an empty one, and each brings back
what was set in it while the others stay as they are (`restored_of_rawFields`). So every message
that fits its type is read back at every depth (`roundTrips`), by induction on the depth, and
decoding what was encoded gives the same message (`decode_encode`).
-/

namespace ServiceCall.Message

open Wire (Raw RawRecord)

section

variable {p : Pool} {f : Field} {v v' : Value} {depth : Nat}

/-! ## Fields of messages -/

theorem Fits.tail {type : String} {x : Nat × Value} {rest : List (Nat × Value)}
    {unknown : RawRecord} (h : (Message.mk type (x :: rest) unknown).Fits p) :
    (Message.mk type rest unknown).Fits p := by
  cases h with
  | mk hascending hknown hfields honeofs hunknown =>
    exact .mk (List.pairwise_cons.1 hascending).2 (fun y hy => hknown y (.tail _ hy))
      (fun n v f hx => hfields n v f (.tail _ hx))
      (fun y hy z hz => honeofs y (.tail _ hy) z (.tail _ hz)) hunknown

/-- The first field of a message that fits, with what sets it apart from the others. -/
theorem Fits.head {type : String} {n : Nat} {rest : List (Nat × Value)}
    {unknown : RawRecord} (h : (Message.mk type ((n, v) :: rest) unknown).Fits p) :
    ∃ f, p.field? type n = some f ∧ v.Fits p (p.shape f) ∧
      ∀ x ∈ rest, n < x.1 ∧ ∀ i, x.1 ∈ (p.messageType type).oneofNumbers i →
        n ∉ (p.messageType type).oneofNumbers i := by
  cases h with
  | mk hascending hknown hfields honeofs hunknown =>
    obtain ⟨f, hf⟩ := Option.isSome_iff_exists.1 (hknown _ List.mem_cons_self)
    refine ⟨f, hf, hfields n v f List.mem_cons_self hf, fun x hx => ?_⟩
    have hlt := (List.pairwise_cons.1 hascending).1 x hx
    refine ⟨hlt, fun i hi hn => ?_⟩
    exact Nat.ne_of_lt hlt (honeofs (n, v) List.mem_cons_self x (.tail _ hx) i hn hi)

/-- Numbers of fields of a type in ascending order, of each oneof at most one. -/
structure Numbers (p : Pool) (type : String) (numbers : List Nat) : Prop where
  ascending : numbers.Pairwise fun a b => a < b
  known : ∀ n ∈ numbers, (p.field? type n).isSome = true
  oneofs : ∀ n ∈ numbers, ∀ k ∈ numbers, ∀ i, n ∈ (p.messageType type).oneofNumbers i →
    k ∈ (p.messageType type).oneofNumbers i → n = k

theorem Fits.numbers {type : String} {fields : List (Nat × Value)} {unknown : RawRecord}
    (h : (Message.mk type fields unknown).Fits p) : Numbers p type (fields.map (·.1)) := by
  cases h with
  | mk hascending hknown hfields honeofs hunknown =>
    refine ⟨List.pairwise_map.2 hascending, List.forall_mem_map.2 hknown, ?_⟩
    exact List.forall_mem_map.2 fun x hx => List.forall_mem_map.2 fun y hy => honeofs x hx y hy

/-- No field of a message has one of these numbers, or is in a oneof with one that has. -/
def Beside (p : Pool) (m : Message) (numbers : List Nat) : Prop :=
  ∀ n, (m.get? n).isSome = true → ∀ k ∈ numbers, n ≠ k ∧
    ∀ i, k ∈ (p.messageType m.type).oneofNumbers i → n ∉ (p.messageType m.type).oneofNumbers i

theorem rawFields_cons {type : String} {n : Nat} (hf : p.field? type n = some f)
    (v : Value) (rest : List (Nat × Value)) : rawFields p type ((n, v) :: rest) =
      present p f v (rawValues p f v) ++ rawFields p type rest := by
  rw [rawFields, hf]

/-- What a field holds after its raw values came depends only on what it held before. -/
theorem get?_present_own {m m' : Message} (hf : p.field? m.type f.number = some f)
    (htype : m'.type = m.type) (h : m'.get? f.number = m.get? f.number) (raws : List Raw) :
    (mergeFields p m' (present p f v raws)).get? f.number =
      (mergeFields p m (present p f v raws)).get? f.number := by
  rw [present_eq]
  generalize (if f.hasPresence || !f.isDefault p v then raws else []) = raws
  by_cases hnil : raws = []
  · rw [hnil, under, List.map_nil, mergeFields_nil, mergeFields_nil, h]
  · rw [get?_mergeFields_own hf hnil, get?_mergeFields_own (htype ▸ hf) hnil, value, value, h]

/-- Fields that are merged bring back what each of them does alone, and leave the others as they
are. -/
theorem get?_rawFields (hp : p.Loaded) {fields : List (Nat × Value)} {m : Message}
    (hnumbers : Numbers p m.type (fields.map (·.1))) (hbeside : Beside p m (fields.map (·.1))) :
    (∀ n v f, (n, v) ∈ fields → p.field? m.type n = some f →
        (mergeFields p m (rawFields p m.type fields)).get? n =
          (mergeFields p m (present p f v (rawValues p f v))).get? n) ∧
      ∀ n, n ∉ fields.map (·.1) →
        (mergeFields p m (rawFields p m.type fields)).get? n = m.get? n := by
  induction fields generalizing m with
  | nil =>
    rw [rawFields, mergeFields_nil]
    exact ⟨fun n v f hx => by simp at hx, fun _ _ => rfl⟩
  | cons x rest ih =>
    obtain ⟨number, v⟩ := x
    obtain ⟨hascending, hknown, honeofs⟩ := hnumbers
    rw [List.map_cons] at hascending hknown honeofs hbeside
    obtain ⟨hfirst, hrest⟩ := List.pairwise_cons.1 hascending
    obtain ⟨f, hf⟩ := Option.isSome_iff_exists.1 (hknown _ List.mem_cons_self)
    obtain rfl := Pool.number_of_field? hf
    have hfree (n : Nat) : Free p m f n := by
      intro i hi hmem
      have hown := (hp.mem_oneofNumbers_iff hf).2 hi
      cases hget : m.get? n with
      | none => rfl
      | some w =>
        exact absurd hmem ((hbeside n (by rw [hget]; rfl) _ List.mem_cons_self).2 i hown)
    have hother (n : Nat) (hne : n ≠ f.number) :=
      get?_present_other hf hne (hfree n) v (rawValues p f v)
    rw [rawFields_cons hf, mergeFields_append]
    generalize hm' : mergeFields p m (present p f v (rawValues p f v)) = m' at hother
    have htype : m'.type = m.type := hm' ▸ type_mergeFields ..
    have hbeside' : Beside p m' (rest.map (·.1)) := by
      intro n hset k hk
      rw [htype]
      by_cases hne : n = f.number
      · refine hne ▸ ⟨Nat.ne_of_lt (hfirst k hk), fun i hi hn => ?_⟩
        exact Nat.ne_of_lt (hfirst k hk) (honeofs _ List.mem_cons_self k (.tail _ hk) i hn hi)
      · rw [hother n hne] at hset
        exact hbeside n hset k (.tail _ hk)
    obtain ⟨hset, hkept⟩ := ih (htype ▸ ⟨hrest, fun n hn => hknown n (.tail _ hn),
      fun n hn k hk => honeofs n (.tail _ hn) k (.tail _ hk)⟩) hbeside'
    rw [htype] at hset hkept
    constructor
    · intro n w g hmem hg
      obtain hmem | hmem := List.mem_cons.1 hmem
      · obtain ⟨rfl, rfl⟩ := Prod.mk.inj hmem
        obtain rfl := Option.some.inj (hf.symm.trans hg)
        rw [hkept _ fun hn => Nat.lt_irrefl _ (hfirst _ hn), hm']
      · have hmem' := List.mem_map_of_mem (f := (·.1)) hmem
        obtain rfl := Pool.number_of_field? hg
        rw [hset _ w g hmem hg, get?_present_own hg htype]
        exact hother _ (Nat.ne_of_gt (hfirst _ hmem'))
    · intro n hnmem
      rw [List.map_cons, List.mem_cons, not_or] at hnmem
      exact (hkept n hnmem.2).trans (hother n hnmem.1)

theorem map_fst_of_rearranged {fields fields' : List (Nat × Value)}
    (hr : List.Forall₂ FieldRearranged fields fields') : fields'.map (·.1) = fields.map (·.1) := by
  induction hr with
  | nil => rfl
  | cons hx _ ih =>
    obtain @⟨n, v, v', hx⟩ := hx
    rw [List.map_cons, List.map_cons, ih]

/-- Fields that are merged into an empty message bring back what was set in them. -/
theorem restored_of_rawFields (hp : p.Compiled) (ih : ∀ d, depth = d + 1 → RoundTrips p d)
    {type : String} {fields fields' : List (Nat × Value)}
    (hr : List.Forall₂ FieldRearranged fields fields') (hm : (Message.mk type fields []).Fits p)
    (hn : ∀ x ∈ fields, x.2.nesting ≤ depth) :
    (∀ n v f, (n, v) ∈ fields → p.field? type n = some f →
        f.Restored p v ((mergeFields p (.empty type) (rawFields p type fields')).get? n)) ∧
      ∀ n, n ∉ fields.map (·.1) →
        (mergeFields p (.empty type) (rawFields p type fields')).get? n = none := by
  have hmap := map_fst_of_rearranged hr
  obtain ⟨hset, hunset⟩ := get?_rawFields (m := .empty type) hp.loaded (hmap ▸ hm.numbers)
    (fun n hset => nomatch hset)
  refine ⟨fun n v f hmem hf => ?_, fun n hn => hunset n (hmap ▸ hn)⟩
  obtain ⟨x, hx, hrearranged⟩ := hr.exists_right hmem
  obtain @⟨_, _, v', hrearranged⟩ := hrearranged
  have hv : v.Fits p (p.shape f) := by
    cases hm with
    | mk hascending hknown hfields honeofs hunknown => exact hfields n v f hmem hf
  obtain rfl := Pool.number_of_field? hf
  rw [type_empty] at hset
  rw [hset _ v' f hx hf]
  exact restored_of_rebuilds hp (m := .empty type) hf rfl hv
    (rebuilds hp (hp.loaded.wellFormed_of_field? hf) ih hv hrearranged (hn _ hmem))

/-- The raw fields of fields that are set are known. -/
theorem isSome_of_mem_rawFields {type : String} {fields : List (Nat × Value)} {x : Nat × Raw}
    (h : x ∈ rawFields p type fields) : (p.field? type x.1).isSome = true := by
  induction fields with
  | nil =>
    rw [rawFields] at h
    cases h
  | cons y rest ih =>
    obtain ⟨n, v⟩ := y
    rw [rawFields] at h
    obtain h | h := List.mem_append.1 h
    · split at h
      next => cases h
      next f hf =>
        rw [present_eq] at h
        obtain ⟨r, -, rfl⟩ := List.mem_map.1 h
        rw [Pool.number_of_field? hf, hf]
        rfl
    · exact ih h

/-- What a message holds in its fields is brought back by their raw fields alone. -/
theorem get?_mergeFields_toRaw {type : String} {fields : List (Nat × Value)} {unknown : RawRecord}
    (hunknown : ∀ x ∈ unknown, p.field? type x.1 = none) (n : Nat) :
    (mergeFields p (.empty type) (toRaw p (mk type fields unknown))).get? n =
      (mergeFields p (.empty type) (rawFields p type fields)).get? n := by
  have hfilter : (toRaw p (mk type fields unknown)).filter
      (fun x => (p.field? type x.1).isSome) = rawFields p type fields := by
    rw [toRaw]
    exact filter_mergeByNumber_left (fun x => isSome_of_mem_rawFields) fun x hx => by
      rw [hunknown x (mem_byNumber.1 hx), Option.isSome_none]
  have h := fields_mergeFields p type [] [] [] (toRaw p (mk type fields unknown))
  rw [hfilter] at h
  exact congrArg (numbered? n) h

/-- What the type of a message does not know is kept, by ascending number. -/
theorem unknown_mergeFields_toRaw {type : String} {fields : List (Nat × Value)} {unknown : RawRecord}
    (hunknown : ∀ x ∈ unknown, p.field? type x.1 = none) :
    (mergeFields p (.empty type) (toRaw p (mk type fields unknown))).unknown = byNumber unknown := by
  rw [unknown_mergeFields, toRaw]
  exact filter_mergeByNumber_right
    (fun x hx => by rw [Option.isNone_eq_false_iff]; exact isSome_of_mem_rawFields hx)
    fun x hx => Option.isNone_iff_eq_none.2 (hunknown x (mem_byNumber.1 hx))

/-- The raw fields of a message are allowed. -/
theorem fits_of_mem_rawFields (hp : p.Compiled) (ih : ∀ d, depth = d + 1 → RoundTrips p d)
    {type : String} {fields fields' : List (Nat × Value)}
    (hr : List.Forall₂ FieldRearranged fields fields') (hm : (Message.mk type fields []).Fits p)
    (hn : ∀ x ∈ fields, x.2.nesting ≤ depth) :
    ∀ x ∈ rawFields p type fields',
      1 ≤ x.1 ∧ x.1 < 2 ^ 29 ∧ Wire.FieldFits p.layout (.record type) depth x.1 x.2 := by
  induction hr with
  | nil =>
    rw [rawFields]
    exact by simp
  | @cons x x' rest rest' hx _ ihRest =>
    obtain @⟨number, v, v', hx⟩ := hx
    obtain ⟨f, hf, hv, -⟩ := hm.head
    have hallows := (rebuilds hp (hp.loaded.wellFormed_of_field? hf) ih hv hx
      (hn _ List.mem_cons_self)).allows
    rw [rawFields_cons hf]
    intro y hy
    obtain hy | hy := List.mem_append.1 hy
    · exact fieldsFit_present hp.loaded hf rfl hallows y hy
    · exact ihRest hm.tail (fun z hz => hn z (.tail _ hz)) y hy

/-- What is unknown may be written again. -/
theorem fieldFits_of_isUnknown {type : String} {x : Nat × Raw} (hx : p.IsUnknown type x)
    (hl : x.2.levels ≤ depth) : Wire.FieldFits p.layout (.record type) depth x.1 x.2 := by
  obtain ⟨strict, d, hfits⟩ := hx.fits
  have hstrict : p.layout.strict = false := rfl
  refine .unknown (Pool.layout_field?_none hx.unknown) (fun h => ?_) (hfits.of_levels _ hl)
  rw [Wire.Within.isStrict, hstrict] at h
  cases h

/-- A message is the same if all that was set in its fields is restored. -/
theorem same_of_restored {m d : Message} (hm : m.Fits p) (htype : d.type = m.type)
    (hunknown : d.unknown = byNumber m.unknown)
    (hset : ∀ n v f, (n, v) ∈ m.fields → p.field? m.type n = some f → f.Restored p v (d.get? n))
    (hunset : ∀ n, n ∉ m.fields.map (·.1) → d.get? n = none) : Message.Same p m d := by
  have hget {n : Nat} (h : m.get? n = none) : d.get? n = none := by
    refine hunset n fun hmem => ?_
    obtain ⟨x, hx, rfl⟩ := List.mem_map.1 hmem
    have hx := (numbered?_eq_some_iff hm.ascending).2 hx
    exact Option.some_ne_none _ (hx.symm.trans h)
  have hrestored {n : Nat} {v : Value} {f : Field} (hv : m.get? n = some v)
      (hf : p.field? m.type n = some f) : f.Restored p v (d.get? n) :=
    hset n v f ((numbered?_eq_some_iff hm.ascending).1 hv) hf
  refine .mk htype (fun n f hf => ?_) (fun n f hf => ?_) hunknown
  · obtain rfl := Pool.number_of_field? hf
    rw [has_eq, has_eq]
    cases hv : m.get? f.number with
    | none => rw [hget hv]
    | some v => exact (hrestored hv hf).isSet
  · obtain rfl := Pool.number_of_field? hf
    rw [value, value]
    cases hv : m.get? f.number with
    | none =>
      rw [hget hv]
      exact .same (.refl f _)
    | some v => exact (hrestored hv hf).same

/-- Messages with so many levels are read back if those with fewer are. -/
theorem roundTrips_of_lt (hp : p.Compiled) (ih : ∀ d, depth = d + 1 → RoundTrips p d) :
    RoundTrips p depth := by
  intro m m' hm hr hn
  cases hr with
  | @mk type fields fields' unknown hfields =>
    obtain ⟨hfieldsNesting, hlevels⟩ := Nat.max_le.1 hn
    have hnesting : ∀ x ∈ fields, x.2.nesting ≤ depth :=
      fun x hx => Nat.le_trans (nesting_le_of_field hx) hfieldsNesting
    have hknown : (Message.mk type fields []).Fits p := by
      cases hm with
      | mk hascending hknown hfields honeofs hunknown =>
        exact .mk hascending hknown hfields honeofs (by simp)
    have hunknown : ∀ x ∈ unknown, p.IsUnknown type x := by
      cases hm with
      | mk hascending hknown hfields honeofs hunknown => exact hunknown
    have hraw := fits_of_mem_rawFields hp ih hfields hknown hnesting
    have hmem {x : Nat × Raw} (hx : x ∈ mergeByNumber (rawFields p type fields') (byNumber unknown)) :
        x ∈ rawFields p type fields' ∨ x ∈ unknown :=
      (List.mem_append.1 ((mergeByNumber_perm _ _).mem_iff.1 hx)).imp_right mem_byNumber.1
    obtain ⟨hrestored, hunset⟩ := restored_of_rawFields hp ih hfields hknown hnesting
    refine ⟨?_, ?_⟩
    · rw [toRaw]
      refine fieldsFit_of_forall fun x hx => ?_
      obtain hx | hx := hmem hx
      · exact hraw x hx
      · have h := hunknown x hx
        exact ⟨h.pos, h.lt, fieldFits_of_isUnknown h
          (Nat.le_trans (Raw.levels_le_levelsOf hx) hlevels)⟩
    · have hget := @get?_mergeFields_toRaw p type fields' _ fun x hx => (hunknown x hx).unknown
      refine same_of_restored hm (type_mergeFields ..)
        (unknown_mergeFields_toRaw fun x hx => (hunknown x hx).unknown) (fun n v f hx hf => ?_)
        fun n hn => (hget n).trans (hunset n hn)
      exact hget n ▸ hrestored n v f hx hf

/-- All messages that fit their types are read back from the wire. -/
theorem roundTrips (hp : p.Compiled) (depth : Nat) : RoundTrips p depth := by
  induction depth with
  | zero => exact roundTrips_of_lt hp fun d hd => nomatch hd
  | succ depth ih => exact roundTrips_of_lt hp fun d hd => Nat.succ.inj hd ▸ ih

/-! ## Encoding and decoding -/

/-- A message that fits its type is decoded from what is encoded of it, in any order of its maps. -/
theorem decode_encode_of_fits (hp : p.Compiled) {m m' : Message} (hm : m.Fits p)
    (hn : m.nesting ≤ Wire.maxDepth) (hr : m.Rearranged m')
    (hl : (m'.encode p).length < 2 ^ 64) :
    ∃ d, decode p m.type (m'.encode p) = .ok d ∧ Message.Same p m d := by
  obtain ⟨hfits, hsame⟩ := roundTrips hp Wire.maxDepth m m' hm hr hn
  refine ⟨_, ?_, hsame⟩
  rw [decode, encode, Wire.read_writeFields hfits hl]
  rfl

/-- Every message that a JSON value makes and that is not nested too deep is decoded from what is
encoded of it, in whatever order the entries of its maps are written: the same fields are set, to
the same values. -/
theorem decode_encode (hp : p.Compiled) {type : String} {j : Json} (hj : j.Finite) {m m' : Message}
    (hm : ofJson p type j = .ok m) (hn : m.nesting ≤ Wire.maxDepth) (hr : m.Rearranged m')
    (hl : (m'.encode p).length < 2 ^ 64) :
    ∃ d, decode p type (m'.encode p) = .ok d ∧ Message.Same p m d := by
  obtain ⟨hfits, rfl⟩ := fits_of_ofJson hp hj hm
  exact decode_encode_of_fits hp hfits hn hr hl

/-- A file of the third version with some messages. -/
def fileOf (dependencies : List String) (messages : List Source.MessageType)
    (extensions : List Source.Field) : Source.File where
  name := "trip.proto"
  package := "trip"
  dependencies
  publicDependencies := []
  weakDependencies := []
  messages
  enums := []
  services := []
  extensions
  edition := .proto3
  options := []

/-- A file with a message that has numbers, a map and a message of its own type. -/
def parcelFile : Source.File :=
  fileOf []
    [{ Standard.message "Parcel" [Standard.int32 "id" 1,
        Standard.many (Standard.field 18 "marks" 2),
        Standard.many { Standard.field 11 "checks" 3 with typeName := ".trip.Parcel.ChecksEntry" },
        { Standard.field 11 "inner" 4 with typeName := ".trip.Parcel" }] with
      messages := [{ Standard.message "ChecksEntry" [Standard.text "key" 1, Standard.bool "value" 2]
        with mapEntry := true }] }]
    []

/-- The pool of the file. -/
def parcelPool : Pool := .ofFiles [parcelFile]

theorem compiled_parcelPool : parcelPool.Compiled :=
  Pool.compiled_of_isCompiled (Pool.loaded_ofFiles (by unfold EnumType.InRange; decide))
    (by decide +kernel)

/-- A parcel with another one in it. -/
def parcel : Json :=
  .object [("id", .integer 7), ("marks", .array [.integer (-1), .integer 300]),
    ("checks", .object [("a", .bool true), ("b", .bool false)]),
    ("inner", .object [("id", .integer (-1))])]

/-- A JSON value makes a message that is not nested too deep and not too long. -/
def isEncoded (p : Pool) (type : String) (j : Json) : Bool :=
  match ofJson p type j with
  | .ok m => decide (m.nesting ≤ Wire.maxDepth ∧ (m.encode p).length < 2 ^ 64)
  | .error _ => false

theorem decode_encode_parcel : ∃ m d, ofJson parcelPool "trip.Parcel" parcel = .ok m ∧
    decode parcelPool "trip.Parcel" (m.encode parcelPool) = .ok d ∧
    Message.Same parcelPool m d := by
  have hread : isEncoded parcelPool "trip.Parcel" parcel = true := by
    decide +kernel
  unfold isEncoded at hread
  cases hm : ofJson parcelPool "trip.Parcel" parcel with
  | error e =>
    rw [hm] at hread
    cases hread
  | ok m =>
    rw [hm] at hread
    obtain ⟨hn, hl⟩ := of_decide_eq_true hread
    have hfinite : parcel.Finite := by
      simp [parcel, Json.Finite, Json.FiniteItems, Json.FiniteMembers]
    obtain ⟨d, hd, hsame⟩ := decode_encode compiled_parcelPool hfinite hm hn (.refl m) hl
    exact ⟨m, d, rfl, hd, hsame⟩

/-- A JSON value makes a message of which another one is read back, in which a field is no longer
set or holds another value. -/
def Changes (p : Pool) (type : String) (n : Nat) (j : Json) : Prop :=
  ∃ m d f, ofJson p type j = .ok m ∧ m.nesting ≤ Wire.maxDepth ∧
    decode p type (m.encode p) = .ok d ∧ p.field? type n = some f ∧
      (d.has p f ≠ m.has p f ∨ ¬Value.Same p f (m.value p f) (d.value p f))

/-- The change can be seen. -/
def changes (p : Pool) (type : String) (n : Nat) (j : Json) : Bool :=
  match ofJson p type j, p.field? type n with
  | .ok m, some f =>
    match decode p type (m.encode p) with
    | .ok d => decide (m.nesting ≤ Wire.maxDepth) &&
      (d.has p f != m.has p f || (d.value p f).size? != (m.value p f).size?)
    | .error _ => false
  | _, _ => false

theorem changes_of_changes {type : String} {n : Nat} {j : Json} (h : changes p type n j = true) :
    Changes p type n j := by
  unfold changes at h
  split at h
  next m f hm hf =>
    split at h
    next d hd =>
      simp only [Bool.and_eq_true, decide_eq_true_eq, Bool.or_eq_true, bne_iff_ne] at h
      exact ⟨m, d, f, hm, h.1, hd, hf, h.2.imp_right fun hsize hsame => hsize hsame.size?_eq⟩
    next => cases h
  next => cases h

/-- The pool of a file with a list of nulls. -/
def nullPool : Pool :=
  .ofFiles [Standard.struct, fileOf ["google/protobuf/struct.proto"]
    [Standard.message "Nulls" [Standard.many (Standard.choice "NullValue" "v" 1)]] []]

/-- A message with a list that tells being unset from being empty, with a map whose keys and values
are in one oneof, and with two extensions of one number. -/
def looseFile : Source.File :=
  fileOf []
    [{ Standard.message "Loose" [
        { Standard.many (Standard.text "names" 1) with proto3Optional := true },
        Standard.many { Standard.field 11 "pairs" 2 with typeName := ".trip.Loose.PairsEntry" }]
      with
      messages := [{ Standard.message "PairsEntry" [Standard.within (Standard.int32 "key" 1),
          Standard.within (Standard.int32 "value" 2)] with mapEntry := true, oneofs := ["part"] }]
      extensionRanges := [⟨100, 200⟩] }]
    [{ Standard.many (Standard.int32 "several" 100) with extendee := some ".trip.Loose" },
      { Standard.int32 "one" 100 with extendee := some ".trip.Loose" }]

/-- The pool of the file. -/
def loosePool : Pool := .ofFiles [looseFile]

/-- Null for a whole list is read back as a list. In a pool that is only loaded more changes: an
empty list that is told apart from being unset, the entries of a map that are no key with a value,
and an extension whose number another one has. -/
theorem changes_loose : nullPool.Loaded ∧ Changes nullPool "trip.Nulls" 1 (.object [("v", .null)]) ∧
    loosePool.Loaded ∧ Changes loosePool "trip.Loose" 1 (.object [("names", .array [])]) ∧
      Changes loosePool "trip.Loose" 2
        (.object [("pairs", .object [("1", .integer 1), ("2", .integer 2)])]) ∧
      Changes loosePool "trip.Loose" 100 (.object [("[trip.one]", .integer 1)]) := by
  refine ⟨Pool.loaded_ofFiles (by unfold EnumType.InRange; decide),
    changes_of_changes (by decide +kernel),
    Pool.loaded_ofFiles (by unfold EnumType.InRange; decide),
    changes_of_changes (by decide +kernel), changes_of_changes (by decide +kernel),
    changes_of_changes (by decide +kernel)⟩

end

end ServiceCall.Message
