import ServiceCall.Proofs.Message.Reread
import ServiceCall.WellKnown.Basic
/-!
# Messages that stay as they are

A message is settled on a raw record if it is written as that record and comes back as it is
(`Message.Settled`). It is settled if each of its fields is (`Message.settled_mk`), and then the
record is read as the message (`Message.Settled.ofRaw`), and the message as the record
(`Message.Settled.recordOf`).
-/

namespace ServiceCall

open Wire (Raw RawRecord)

/-- A message is written as a record and comes back as it is. -/
structure Message.Settled (p : Pool) (m : Message) (r : RawRecord) : Prop where
  fits : m.Fits p
  raw : m.toRaw p = r
  reread : m.reread p = m
  nesting : m.nesting ≤ Raw.levelsOf r

/-- A single value of a field is written as a raw value and comes back as it is. -/
structure Value.Settled (p : Pool) (f : Field) (v : Value) (r : Raw) : Prop where
  fits : v.Fits p (.one f.kind)
  raw : Message.rawValues p f v = [r]
  reread : v.reread p = v
  nesting : v.nesting ≤ r.levels

/-- What a field holds is written as raw values and comes back as it is. -/
structure Field.Settled (p : Pool) (f : Field) (v : Value) (raws : List Raw) : Prop where
  fits : v.Fits p (p.shape f)
  raw : Message.rawValues p f v = raws
  kept : f.kept p v = some v
  nesting : ∀ depth, (∀ r ∈ raws, r.levels ≤ depth) → v.nesting ≤ depth

variable {p : Pool} {f : Field} {v : Value} {m : Message} {type : String} {number : Nat}
  {raws : List Raw}

/-! ## Fields -/

/-- A value without parts is settled. -/
theorem Value.settled_of_holds (hv : f.kind.Holds v) :
    Value.Settled p f v (Message.rawScalar f.kind v) where
  fits := .leaf hv
  raw := Message.rawValues_of_holds hv
  reread := Message.reread_of_holds hv
  nesting := by
    cases v with
    | record m => exact absurd hv Kind.not_holds_record
    | list items => exact absurd hv Kind.not_holds_list
    | map entries => exact absurd hv Kind.not_holds_map
    | _ => exact Nat.zero_le _

/-- A message is settled in a field if it is on its own. -/
theorem Value.settled_record (hkind : f.kind = .message m.type) {r : RawRecord}
    (h : m.Settled p r) : Value.Settled p f (.record m) (.record r) where
  fits := hkind ▸ .message h.fits
  raw := by rw [Message.rawValues, hkind, h.raw]
  reread := by rw [Value.reread, h.reread]
  nesting := by
    rw [Value.nesting, Raw.levels]
    exact Nat.succ_le_succ h.nesting

theorem Field.kept_of_reread (h : f.reread p v = v)
    (hpresent : f.hasPresence = true ∨ f.isDefault p v = false) : f.kept p v = some v := by
  rw [kept, if_pos (by simpa using hpresent), h]

/-- A single field is settled if its value is, unless it counts as unset. -/
theorem Field.settled_single (hsingle : f.isRepeated = false) {r : Raw} (h : v.Settled p f r)
    (hpresent : f.hasPresence = true ∨ f.isDefault p v = false) : f.Settled p v [r] where
  fits := Pool.shape_of_single hsingle ▸ h.fits
  raw := h.raw
  kept := kept_of_reread (by rw [Message.reread_of_one h.fits, hsingle, h.reread]; rfl) hpresent
  nesting _ hr := Nat.le_trans h.nesting (hr _ List.mem_cons_self)

/-- A list is settled if its items are, unless it is empty. -/
theorem Field.settled_list (hrepeated : f.isRepeated = true) (hmap : p.mapEntry? f = none)
    (hpacked : f.isPacked = false) {items : List Value} (hne : items ≠ [])
    (h : List.Forall₂ (Value.Settled p f) items raws) : f.Settled p (.list items) raws where
  fits := by
    rw [Pool.shape_of_list hrepeated hmap]
    refine .list fun v hv => ?_
    obtain ⟨r, -, hr⟩ := h.exists_right hv
    exact hr.fits
  raw := by
    rw [Message.rawValues, hpacked]
    simp only [Bool.false_eq_true, if_false]
    clear hne
    induction h with
    | nil => rw [Message.rawItems]
    | cons hv _ ih => rw [Message.rawItems, hv.raw, ih, List.singleton_append]
  kept := by
    refine kept_of_reread ?_ (.inr (List.isEmpty_eq_false_iff.2 hne))
    have hsame : ∀ v ∈ items, v.reread p = v := fun v hv => by
      obtain ⟨r, -, hr⟩ := h.exists_right hv
      exact hr.reread
    rw [Field.reread, List.map_congr_left hsame, List.map_id']
  nesting depth hr := by
    rw [Value.nesting]
    clear hne
    induction h with
    | nil => exact Nat.zero_le _
    | cons hv _ ih =>
      rw [Value.nestingOfItems]
      exact Nat.max_le.2 ⟨Nat.le_trans hv.nesting (hr _ List.mem_cons_self),
        ih fun r hmem => hr r (.tail _ hmem)⟩

/-- The raw value of an entry under a text, which is left out if it is empty. -/
def textEntry (key : String) (r : Raw) : Raw :=
  .record ((if key.isEmpty then [] else [(1, .text key)]) ++ [(2, r)])

theorem MessageType.number_of_field? {t : MessageType} (h : t.field? number = some f) :
    f.number = number := by
  simpa using List.find?_some h

/-- The key of an entry is left out if it is empty. -/
theorem present_textKey {entry : MessageType} {g h : Field} (hfields : entry.HasEntry g .string h)
    (hpresence : g.hasPresence = false) (hdefault : g.declaredDefault = none) (key : String) :
    Message.present p g (.text key) (Message.rawValues p g (.text key)) =
      if key.isEmpty then [] else [(1, .text key)] := by
  have hunset : g.isDefault p (.text key) = key.isEmpty := by
    have hsame : g.isDefault p (.text key) = (key == "") := by
      have hvalue : p.fieldDefault g = .text "" := by
        rw [Pool.fieldDefault_of_single hfields.keySingle, hdefault, hfields.kind]
        rfl
      exact congrArg (Value.sameScalar (.text key)) hvalue
    rw [hsame, Bool.eq_iff_iff, beq_iff_eq, String.isEmpty_iff]
  rw [Message.present, hpresence, hunset, Message.rawValues_of_holds (by rw [hfields.kind]; trivial),
    hfields.kind, MessageType.number_of_field? hfields.key]
  cases key.isEmpty <;> rfl

/-- An entry is settled under a text if its value is. -/
structure Value.EntrySettled (p : Pool) (h : Field) (e : Value × Value) (x : String × Raw) :
    Prop where
  key : e.1 = .text x.1
  value : e.2.Settled p h x.2

/-- A map from texts to messages is settled if its values are, unless it is empty. -/
theorem Field.settled_map {entry : MessageType} {g h : Field}
    (hentry : p.mapEntry? f = some entry) (hfields : entry.HasEntry g .string h)
    (hpresence : g.hasPresence = false) (hdefault : g.declaredDefault = none)
    (hvalue : h.hasPresence = true) {entries : List (Value × Value)} {xs : List (String × Raw)}
    (hne : entries ≠ []) (hkeys : (xs.map (·.1)).Nodup)
    (hentries : List.Forall₂ (Value.EntrySettled p h) entries xs) :
    f.Settled p (.map entries) (xs.map fun x => textEntry x.1 x.2) where
  fits := by
    rw [Pool.shape_of_map hentry hfields]
    refine .map rfl (fun e he => ?_) ?_ fun e he => ?_
    · obtain ⟨x, -, hx⟩ := hentries.exists_right he
      exact hx.key ▸ trivial
    · clear hne
      induction hentries with
      | nil => exact .nil
      | @cons e x rest xs hx hrest ih =>
        obtain ⟨hfirst, hkeys⟩ := List.nodup_cons.1 hkeys
        refine List.pairwise_cons.2 ⟨fun a ha => ?_, ih hkeys⟩
        obtain ⟨y, hy, hkey⟩ := hrest.exists_right ha
        rw [hx.key, hkey.key]
        exact beq_eq_false_iff_ne.2 fun heq => hfirst (List.mem_map.2 ⟨y, hy, heq.symm⟩)
    · obtain ⟨x, -, hx⟩ := hentries.exists_right he
      exact hx.value.fits
  raw := by
    obtain ⟨hname, -⟩ := Pool.messageType_of_mapEntry? hentry
    rw [Message.rawValues]
    clear hne hkeys
    induction hentries with
    | nil => rw [Message.rawEntries, List.map_nil]
    | @cons e x rest xs hx hrest ih =>
      obtain ⟨k, v⟩ := e
      obtain rfl : k = .text x.1 := hx.key
      rw [Message.rawEntries, hname]
      have hsecond : Message.present p h v (Message.rawValues p h v) = [(2, x.2)] := by
        rw [Message.present, hvalue, Bool.true_or, if_pos rfl, hx.value.raw,
          MessageType.number_of_field? hfields.value]
        rfl
      simp only [hfields.key, hfields.value, ih, List.map_cons, textEntry,
        present_textKey hfields hpresence hdefault, hsecond]
  kept := by
    refine kept_of_reread ?_ (.inr (List.isEmpty_eq_false_iff.2 hne))
    have hsame : ∀ e ∈ entries, f.rereadEntry p e = e := fun e he => by
      obtain ⟨x, -, hx⟩ := hentries.exists_right he
      rw [Message.rereadEntry_eq hentry hfields, Field.rereadOne, hvalue, Bool.true_or, if_pos rfl,
        hx.value.reread]
    rw [Field.reread, List.map_congr_left hsame, List.map_id']
  nesting depth hr := by
    rw [Value.nesting]
    clear hne hkeys
    induction hentries with
    | nil => exact Nat.zero_le _
    | @cons e x rest xs hx _ ih =>
      rw [Value.nestingOfEntries]
      have hfirst : (textEntry x.1 x.2).levels ≤ depth := hr _ List.mem_cons_self
      have hvalue := hx.value.nesting
      have hentry : x.2.levels ≤ (textEntry x.1 x.2).levels := by
        rw [textEntry, Raw.levels]
        split_ifs <;> simp [Raw.levelsOf, Raw.levels]
      exact Nat.max_le.2 ⟨by omega, ih fun r hmem => hr r (.tail _ hmem)⟩

/-! ## Messages -/

namespace Message

theorem toRaw_of_known (p : Pool) (type : String) (fields : List (Nat × Value)) :
    toRaw p (.mk type fields []) = rawFields p type fields := by
  have hnone : byNumber [] = [] := List.mergeSort_nil
  rw [toRaw, hnone]
  cases rawFields p type fields with
  | nil => rw [mergeByNumber]
  | cons => exact mergeByNumber.eq_2 _ (by simp)

theorem nestingOfFields_le {fields : List (Nat × Value)} {depth : Nat}
    (h : ∀ x ∈ fields, x.2.nesting ≤ depth) : nestingOfFields fields ≤ depth := by
  induction fields with
  | nil => exact Nat.zero_le _
  | cons x rest ih =>
    rw [nestingOfFields]
    exact Nat.max_le.2 ⟨h x List.mem_cons_self, ih fun y hy => h y (.tail _ hy)⟩

/-- A message is settled if each of its fields is. -/
theorem settled_mk (hp : p.Compiled) {fields : List (Nat × Value)} {raws : Nat → List Raw}
    (hnumbers : Numbers p type (fields.map (·.1)))
    (h : ∀ n v f, (n, v) ∈ fields → p.field? type n = some f → f.Settled p v (raws n)) :
    (Message.mk type fields []).Settled p (fields.flatMap fun x => under x.1 (raws x.1)) := by
  obtain ⟨hascending, hknown, honeofs⟩ := hnumbers
  replace hascending := List.pairwise_map.1 hascending
  have hfits : (Message.mk type fields []).Fits p :=
    .mk hascending (fun x hx => hknown x.1 (List.mem_map_of_mem hx))
      (fun n v f hx hf => (h n v f hx hf).fits)
      (fun x hx y hy => honeofs x.1 (List.mem_map_of_mem hx) y.1 (List.mem_map_of_mem hy)) (by simp)
  refine ⟨hfits, ?_, reread_eq_self hp hfits rfl fun v f hf hv => ?_, ?_⟩
  · rw [toRaw_of_known]
    clear hascending honeofs hfits
    induction fields with
    | nil => rw [rawFields, List.flatMap_nil]
    | cons x rest ih =>
      obtain ⟨n, v⟩ := x
      obtain ⟨f, hf⟩ := Option.isSome_iff_exists.1 (hknown n (List.mem_map_of_mem List.mem_cons_self))
      have hsettled := h n v f List.mem_cons_self hf
      have hpresent : (f.hasPresence || !f.isDefault p v) = true := by
        by_contra hunset
        have hkept := hsettled.kept
        rw [Field.kept, if_neg hunset] at hkept
        cases hkept
      rw [rawFields_cons hf, present_eq, if_pos hpresent, hsettled.raw, Pool.number_of_field? hf,
        ih (fun k w g hx => h k w g (.tail _ hx)) fun k hk => hknown k (.tail _ hk),
        List.flatMap_cons]
  · exact (h _ v f ((numbered?_eq_some_iff hascending).1 hv) hf).kept
  · rw [nesting]
    refine Nat.max_le.2 ⟨nestingOfFields_le fun x hx => ?_, Nat.zero_le _⟩
    obtain ⟨f, hf⟩ := Option.isSome_iff_exists.1 (hknown x.1 (List.mem_map_of_mem hx))
    refine (h x.1 x.2 f hx hf).nesting _ fun r hr => ?_
    exact Raw.levels_le_levelsOf (x := (x.1, r))
      (List.mem_flatMap.2 ⟨x, hx, List.mem_map_of_mem hr⟩)

theorem settled_empty (hp : p.Compiled) (type : String) : (Message.empty type).Settled p [] :=
  @settled_mk _ _ hp [] (fun _ => []) ⟨.nil, by simp, by simp⟩ (by simp)

/-- A message with one field set. -/
theorem settled_singleton (hp : p.Compiled) (hf : p.field? type number = some f)
    (h : f.Settled p v raws) :
    (Message.mk type [(number, v)] []).Settled p (raws.map fun r => (number, r)) := by
  have hsettled := @settled_mk p type hp [(number, v)] (fun _ => raws)
    ⟨List.pairwise_singleton .., by simp [hf], by simp⟩
    (fun n w g hx hg => by
      obtain ⟨rfl, rfl⟩ := Prod.mk.inj (List.mem_singleton.1 hx)
      exact Option.some.inj (hf.symm.trans hg) ▸ h)
  rwa [List.flatMap_singleton] at hsettled

/-- A message with two fields set that are in no oneof. -/
theorem settled_pair (hp : p.Compiled) {g : Field} {other : Nat} {w : Value} {raws' : List Raw}
    (hlt : number < other) (hf : p.field? type number = some f)
    (hg : p.field? type other = some g) (hfree : f.oneofIndex = none)
    (h : f.Settled p v raws) (h' : g.Settled p w raws') :
    (Message.mk type [(number, v), (other, w)] []).Settled p
      (raws.map (fun r => (number, r)) ++ raws'.map fun r => (other, r)) := by
  have hne : other ≠ number := Nat.ne_of_gt hlt
  have honeof (i : Nat) : number ∉ (p.messageType type).oneofNumbers i := fun hmem => by
    rw [hp.loaded.mem_oneofNumbers_iff hf, hfree] at hmem
    cases hmem
  have hsettled := @settled_mk p type hp [(number, v), (other, w)]
    (fun n => if n = number then raws else raws')
    ⟨by simpa using hlt, by simp [hf, hg], by simp [honeof]⟩
    (fun n x k hx hk => by
      obtain hx | hx := List.mem_cons.1 hx
      · obtain ⟨rfl, rfl⟩ := Prod.mk.inj hx
        rw [if_pos rfl]
        exact Option.some.inj (hf.symm.trans hk) ▸ h
      · obtain ⟨rfl, rfl⟩ := Prod.mk.inj (List.mem_singleton.1 hx)
        rw [if_neg hne]
        exact Option.some.inj (hg.symm.trans hk) ▸ h')
  simpa [under, hne] using hsettled

/-! ## Reading and writing -/

variable {r : RawRecord}

/-- The record of a settled message is read as that message. -/
theorem Settled.ofRaw (hp : p.Compiled) (h : m.Settled p r)
    (hlevels : Raw.levelsOf r ≤ Wire.maxDepth) (hl : (Raw.writeFields r).length < 2 ^ 64) :
    Message.ofRaw p m.type r = .ok m := by
  obtain ⟨hfits, -⟩ := roundTrips hp Wire.maxDepth m m h.fits (.refl m)
    (Nat.le_trans h.nesting hlevels)
  rw [h.raw] at hfits
  have hmerge : mergeFields p (.empty m.type) r = m := h.raw ▸ h.reread
  rw [Message.ofRaw, decode, Wire.read_writeFields hfits hl, Except.map, hmerge, Except.mapError]

/-- A settled message is read as its record by the well-known type, if the type admits it. -/
theorem Settled.recordOf (h : m.Settled p r)
    (hfit : Wire.FieldsFit WellKnown.layout (.record m.type) Wire.maxDepth r)
    (hl : (Raw.writeFields r).length < 2 ^ 64) : WellKnown.recordOf p m = .ok r := by
  rw [WellKnown.recordOf, encode, h.raw, Wire.read_writeFields hfit hl]
  rfl

end Message

end ServiceCall
