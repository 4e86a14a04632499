import ServiceCall.Proofs.Invoker.Positional
import ServiceCall.Proofs.Message.ReturnedMessage
import ServiceCall.Proofs.Schema.Declared
/-!
# Replies are sent back

The JSON form of a reply can be given to a method that takes messages of the reply's type: it is
not refused, and the message that is sent has the same form (`Invoker.invokeMessage_reply`). A
message is read back if those in its fields are, which are nested less deep, and those that it
packs, of which fewer levels are written (`Message.AllReturnable.comesBack`). What this takes of each
message on the way is `Message.Returnable`, and messages without it may be lost (`Invoker.loses_untold`).
-/

namespace ServiceCall

/-- The keys that the fields of a type are written under name no other field of it: no declared name
is the JSON name of another field, and neither of them is the key of an extension. -/
structure Pool.NamesApart (p : Pool) (type : String) : Prop where
  own : ∀ f ∈ (p.messageType type).declared, ∀ g ∈ (p.messageType type).declared,
    g.jsonName = f.name → g.number = f.number
  bracketed : ∀ f ∈ p.extensionsOf type, ∀ g ∈ (p.messageType type).declared,
    g.jsonName ≠ extensionKey f ∧ g.name ≠ extensionKey f

instance (p : Pool) (type : String) : Decidable (p.NamesApart type) :=
  decidable_of_iff
    ((∀ f ∈ (p.messageType type).declared, ∀ g ∈ (p.messageType type).declared,
        g.jsonName = f.name → g.number = f.number) ∧
      ∀ f ∈ p.extensionsOf type, ∀ g ∈ (p.messageType type).declared,
        g.jsonName ≠ Pool.extensionKey f ∧ g.name ≠ Pool.extensionKey f)
    ⟨fun h => ⟨h.1, h.2⟩, fun h => ⟨h.own, h.bracketed⟩⟩

/-- In no type of a pool the declared name of a field is the JSON name of another one. -/
def Pool.OwnNames (p : Pool) : Prop :=
  ∀ t ∈ p.messages, ∀ f ∈ t.declared, ∀ g ∈ t.declared, g.jsonName = f.name → g.number = f.number

instance (p : Pool) : Decidable p.OwnNames :=
  inferInstanceAs (Decidable (∀ t ∈ p.messages, ∀ f ∈ t.declared, ∀ g ∈ t.declared,
    g.jsonName = f.name → g.number = f.number))

variable {p : Pool} {m : Message} {f : Field} {type key : String} {j : Json} {ms : Message.Members}

theorem Pool.extensionKey_ne_typeKey (f : Field) : extensionKey f ≠ Message.typeKey := by
  intro h
  have hlist := congrArg String.toList h
  simp [extensionKey, Message.typeKey] at hlist

namespace Pool.NamesApart

/-- Each key names the field that is written under it. -/
theorem keyed (hp : p.Loaded) (h : p.NamesApart type) : p.Keyed type := by
  intro f key hwrites
  cases hwrites with
  | own hf =>
    refine Invoker.fieldOfKey?_name hp (MessageType.mem_fields.2 hf) fun g hg hjson => ?_
    exact List.inj_on_of_nodup_map (hp.wellFormed_messageType type).numbers
      (MessageType.mem_fields.1 hg) hf (h.own f hf g (MessageType.mem_fields.1 hg) hjson)
  | extension hf =>
    have hnone {part : Field → String} (hpart : ∀ g ∈ (p.messageType type).declared,
        part g ≠ extensionKey f) :
        (p.messageType type).fields.find? (fun g => part g == extensionKey f) = none :=
      List.find?_eq_none.2 fun g hg => by simpa using hpart g (MessageType.mem_fields.1 hg)
    rw [fieldOfKey?, hnone fun g hg => (h.bracketed f hf g hg).1,
      hnone fun g hg => (h.bracketed f hf g hg).2]
    change (p.extensionsOf type).find? (extensionKey · == extensionKey f) = some f
    cases hfind : (p.extensionsOf type).find? (extensionKey · == extensionKey f) with
    | none => exact absurd (List.find?_eq_none.1 hfind f hf) (by simp)
    | some g => rw [List.inj_on_of_nodup_map (hp.nodup_extensionKey type)
        (List.mem_of_find?_eq_some hfind) hf (by simpa using List.find?_some hfind)]

end Pool.NamesApart

namespace Message

/-- No member of a message has the key under which a message of any type says its type, unless a
field has that name. -/
theorem typeKey_not_mem (hp : p.Compiled) (hm : m.Fits p)
    (hfree : ∀ f ∈ (p.messageType m.type).declared, f.name ≠ typeKey) {payload : PayloadWriter}
    (hms : toMembers p payload m = .ok ms) : typeKey ∉ ms.map (·.1) := by
  intro hmem
  obtain ⟨⟨key, j⟩, hj, hkey⟩ := List.mem_map.1 hmem
  obtain ⟨f, hwrites, -⟩ := (mem_toMembers hp hm.ascending hms).1 hj
  cases hwrites with
  | own hf => exact hfree f hf hkey
  | extension hf => exact Pool.extensionKey_ne_typeKey f hkey

/-- A message stands in another one, at any depth, also packed in messages of any type. -/
inductive Contains (p : Pool) : Message → Message → Prop where
  | refl (m : Message) : Contains p m m
  | inner {m x y : Message} {n : Nat} {v : Value} (hv : m.get? n = some v) (hx : v.Encloses x)
      (h : Contains p x y) : Contains p m y
  | packed {m held y : Message} {url name : String} (hheld : m.Packs p url name held)
      (h : Contains p held y) : Contains p m y

/-- A message can be packed in one of any type: it is not nested too deep for the wire, and no field
of it has the key that says its type. -/
structure Packable (p : Pool) (m : Message) : Prop where
  shallow : m.nesting ≤ Wire.maxDepth
  typeFree : ∀ f ∈ (p.messageType m.type).declared, f.name ≠ typeKey

/-- What it takes of a message to be read back, besides the messages in it: its type is in the pool,
with keys that tell its fields apart, what is written of it tells what it holds, and what it packs
can be packed. -/
structure Returnable (p : Pool) (m : Message) : Prop where
  known : (p.referredMessage? m.type).isSome = true
  apart : p.NamesApart m.type
  length : (m.encode p).length < 2 ^ 64
  tells : WellKnown.Tells p m
  packed : ∀ url name held, m.Packs p url name held → held.Packable p

/-- A message fits its type, and all messages in it can be read back. -/
structure AllReturnable (p : Pool) (m : Message) : Prop where
  fits : m.Fits p
  each : ∀ x, m.Contains p x → x.Returnable p

namespace AllReturnable

theorem own (h : m.AllReturnable p) : m.Returnable p := h.each m (.refl m)

theorem inner (h : m.AllReturnable p) {n : Nat} {v : Value} {x : Message} (hv : m.get? n = some v)
    (hx : v.Encloses x) : x.AllReturnable p := by
  obtain ⟨f, hf, rfl⟩ := h.fits.exists_field hv
  exact ⟨hx.fits (h.fits.get? hv hf), fun y hy => h.each y (.inner hv hx hy)⟩

theorem packed (hp : p.Compiled) (h : m.AllReturnable p) {url name : String} {held : Message}
    (hheld : m.Packs p url name held) : held.AllReturnable p := by
  obtain ⟨r, -, -, hdecode⟩ := hheld.record
  exact ⟨(fits_of_decode hp hdecode).1, fun y hy => h.each y (.packed hheld hy)⟩

/-- The members of a message are read back if the messages in its fields are. -/
theorem exists_returnsMembers (hp : p.Compiled) (hs : p.Standard) (h : m.AllReturnable p)
    {payload : PayloadWriter} (hms : toMembers p payload m = .ok ms)
    (hweight : Json.weightOfMembers (Json.sorted ms) < 2 ^ 64)
    (ih : ∀ x : Message, x.nesting < m.nesting → x.AllReturnable p → x.ComesBack p payload) :
    ∃ m', m.ReturnsMembers p ms m' :=
  Message.exists_returnsMembers hp hs (h.own.apart.keyed hp.loaded) h.fits
    (fun _ _ _ hv hx => (h.inner hv hx).own.known) hms hweight fun _ _ x hv hx =>
      ih x (Nat.lt_of_lt_of_le hx.nesting_lt (nesting_le_of_get? hv)) (h.inner hv hx)

/-- A message of any type is read back if what it packs is, with one level less. -/
theorem comesBack_any (hp : p.Compiled) (hs : p.Standard) (h : m.AllReturnable p)
    (hany : WellKnown.ofName? m.type = some .any) {depth : Nat}
    (ih : ∀ d, depth = d + 1 → ∀ x, AllReturnable p x → x.ComesBack p (payloadMembers p d)) :
    m.ComesBack p (payloadMembers p depth) := by
  intro j hj hweight
  rw [writeJson_any hany] at hj
  obtain ⟨ms, hms, rfl⟩ := Except.fmap_eq_ok.1 hj
  obtain ⟨d, url, name, held, hdepth, hpacks, hmembers⟩ := exists_packs hany hms
  have hheld := h.packed hp hpacks
  obtain ⟨hn, htypeFree⟩ := h.own.packed url name held hpacks
  rw [packedMembers] at hmembers
  split_ifs at hmembers with hname
  · obtain ⟨jheld, hjheld, rfl⟩ := Except.fmap_eq_ok.1 hmembers
    have hlight : jheld.weight < 2 ^ 64 := by
      have hpayload : Json.Functional [(payloadKey, jheld)] :=
        functional_cons (fun _ _ _ h => by cases h) (by simp)
      have hout := weightOfMembers_sorted_cons (j := .string url) hpayload
        (by decide : typeKey ∉ [payloadKey])
      have hheld : jheld.weight ≤ Json.weightOfMembers (Json.sorted [(payloadKey, jheld)]) :=
        Nat.le_trans (Nat.le_add_left _ _)
          (Json.weight_le_of_member (x := (payloadKey, jheld)) List.mem_cons_self)
      rw [Json.ofMembers_eq, Json.weight] at hweight
      omega
    obtain ⟨held', hheld'⟩ := ih d hdepth held hheld jheld hjheld hlight
    exact exists_returns_of_value hp hs h.own.known hpacks hn hname hheld' hweight
  · obtain ⟨inner, hinner, rfl⟩ := Except.fmap_eq_ok.1 hmembers
    have hfunctional := functional_toMembers hp (hheld.own.apart.keyed hp.loaded) hheld.fits hinner
    have hfree := typeKey_not_mem hp hheld.fits htypeFree hinner
    have hout := weightOfMembers_sorted_cons (j := .string url) hfunctional hfree
    have hlight : Json.weightOfMembers (Json.sorted inner) < 2 ^ 64 := by
      rw [Json.ofMembers_eq, Json.weight] at hweight
      omega
    obtain ⟨held', hheld'⟩ := hheld.exists_returnsMembers hp hs hinner hlight
      fun x _ hx => ih d hdepth x hx
    exact exists_returns_of_members hp hs h.own.known hpacks hn
      (Option.not_isSome_iff_eq_none.1 hname) hheld' hfunctional hfree hweight

/-- A message is read back if those are that it packs, by induction on its levels. -/
theorem comesBack_of_packed (hp : p.Compiled) (hs : p.Standard) {depth : Nat}
    (ih : ∀ d, depth = d + 1 → ∀ x, AllReturnable p x → x.ComesBack p (payloadMembers p d))
    (h : m.AllReturnable p) : m.ComesBack p (payloadMembers p depth) := by
  induction hnesting : m.nesting using Nat.strong_induction_on generalizing m with
  | _ levels inner =>
    subst hnesting
    cases hname : WellKnown.ofName? m.type with
    | none =>
      intro j hj hweight
      rw [writeJson_members hname] at hj
      obtain ⟨ms, hms, rfl⟩ := Except.fmap_eq_ok.1 hj
      have hlight : Json.weightOfMembers (Json.sorted ms) < 2 ^ 64 := by
        rw [Json.ofMembers_eq, Json.weight] at hweight
        omega
      obtain ⟨m', hm'⟩ := h.exists_returnsMembers hp hs hms hlight
        fun x hx hall => inner x.nesting hx hall rfl
      exact ⟨m', hm'.returns hname⟩
    | some w =>
      by_cases hany : w = .any
      · subst hany
        exact h.comesBack_any hp hs hname ih
      · intro j hj hweight
        rw [writeJson_wellKnown hname hany] at hj
        obtain ⟨m', r, hm'⟩ := WellKnown.exists_returned hp hs hname hany h.own.known h.fits
          h.own.length h.own.tells hj hweight
        exact ⟨m', hm'.returns hp hname hany hweight⟩

/-- A message in which all messages can be read back is so itself, by induction on how often
messages of any type hold one another. -/
theorem comesBack (hp : p.Compiled) (hs : p.Standard) (depth : Nat) (h : m.AllReturnable p) :
    m.ComesBack p (payloadMembers p depth) := by
  induction depth generalizing m with
  | zero => exact comesBack_of_packed hp hs (fun d hd => by cases hd) h
  | succ d ih =>
    refine comesBack_of_packed hp hs (fun k hk x hx => ?_) h
    obtain rfl := Nat.succ.inj hk
    exact ih hx

end AllReturnable

end Message

namespace Invoker

variable {World : Type} {i : Invoker World}

/-- A reply is sent back: the method takes its JSON form as its input, and what it is called with
has that form too. -/
theorem invokeMessage_reply (hp : i.pool.Compiled) (hs : i.pool.Standard)
    (htype : m.type = i.method.input) (hm : m.Fits i.pool)
    (hreturn : ∀ x, m.Contains i.pool x → x.Returnable i.pool)
    (hj : (Reply.mk i.pool m).toJson = .ok j) (hweight : j.weight < 2 ^ 64) :
    ∃ r j', (∀ w, i.invokeMessage j w = i.call r w) ∧ (Reply.mk i.pool r).toJson = .ok j' ∧
      j.Alike j' := by
  obtain ⟨r, hr⟩ := Message.AllReturnable.comesBack hp hs _ ⟨hm, hreturn⟩ j hj hweight
  obtain ⟨j', hj', halike⟩ := hr.written _ (Nat.lt_succ_self _)
  refine ⟨r, j', fun w => ?_, hj', halike⟩
  have hread := hr.read
  rw [htype] at hread
  have hofJson : Message.ofJson i.pool i.method.input j = .ok r := by
    rw [Message.ofJson, hread]
    rfl
  rw [invokeMessage, hofJson]

/-- A method that takes parcels and answers with what it is sent. -/
def parcels : Invoker Unit := mirror Message.parcelPool "trip.Parcel"

theorem standard_parcelPool : Message.parcelPool.Standard :=
  Pool.standard_of_isStandard (by decide +kernel)

/-- A message in a field is of the type of the field's values. -/
theorem mapValueKind_of_encloses {v : Value} {x : Message} (h : v.Encloses x)
    (hv : v.Fits p (p.shape f)) : Message.mapValueKind p f = .message x.type ∨
      Message.mapValueKind p f = .group x.type := by
  have hone {k : Kind} {v : Value} (h : v.Encloses x) (hv : v.Fits p (.one k)) :
      k = .message x.type ∨ k = .group x.type := by
    cases hv with
    | leaf hholds => exact absurd h (Value.not_encloses_of_holds hholds)
    | message => exact .inl (Value.eq_of_encloses_record h ▸ rfl)
    | group => exact .inr (Value.eq_of_encloses_record h ▸ rfl)
  unfold Message.mapValueKind
  generalize p.shape f = shape at hv ⊢
  cases hv with
  | leaf hholds => exact hone h (.leaf hholds)
  | message hm => exact hone h (.message hm)
  | group hm => exact hone h (.group hm)
  | null _ hv => exact hone h hv
  | list hitems =>
    cases h with
    | item hmem h => exact hone h (hitems _ hmem)
  | map _ _ _ hvalues =>
    cases h with
    | entry hmem h => exact hone h (hvalues _ hmem)

/-- The messages in a parcel are parcels, and none is longer than the whole. -/
theorem parcel_of_contains {x : Message} (h : m.Contains Message.parcelPool x)
    (hm : m.Fits Message.parcelPool) (htype : m.type = "trip.Parcel") : x.type = "trip.Parcel" ∧
      (x.encode Message.parcelPool).length ≤ (m.encode Message.parcelPool).length := by
  have hplain : WellKnown.ofName? "trip.Parcel" = none := by decide
  have hkinds : ∀ f ∈ (Message.parcelPool.messageType "trip.Parcel").declared,
      Message.mapValueKind Message.parcelPool f ∈
        [.scalar .int32, .scalar .sint64, .scalar .bool, .message "trip.Parcel"] := by
    decide +kernel
  have hnone : Message.parcelPool.extensionsOf "trip.Parcel" = [] :=
    List.isEmpty_iff.1 (by decide +kernel)
  induction h with
  | refl => exact ⟨htype, Nat.le_refl _⟩
  | @inner m x y n v hv hx _ ih =>
    obtain ⟨f, hf, rfl⟩ := hm.exists_field hv
    have hfits := hm.get? hv hf
    have hlength := hm.length_le_of_encloses Message.compiled_parcelPool hf hv hx
    have hxtype : x.type = "trip.Parcel" := by
      rw [htype] at hf
      obtain ⟨hmem | hmem, -⟩ := Pool.field?_eq_some hf
      · have hkind := hkinds f hmem
        obtain h | h := mapValueKind_of_encloses hx hfits
        · rw [h] at hkind
          simpa using hkind
        · rw [h] at hkind
          simp at hkind
      · rw [hnone] at hmem
        cases hmem
    obtain ⟨hytype, hle⟩ := ih (hx.fits hfits) hxtype
    exact ⟨hytype, Nat.le_trans hle hlength⟩
  | packed hheld =>
    have hany := hheld.any
    rw [htype, hplain] at hany
    cases hany

theorem returnable_parcel {x : Message} (hm : m.Fits Message.parcelPool)
    (htype : m.type = "trip.Parcel") (hl : (m.encode Message.parcelPool).length < 2 ^ 64)
    (h : m.Contains Message.parcelPool x) : x.Returnable Message.parcelPool := by
  obtain ⟨hxtype, hle⟩ := parcel_of_contains h hm htype
  have hplain {w : WellKnown} : WellKnown.ofName? x.type ≠ some w := by
    rw [hxtype, show WellKnown.ofName? "trip.Parcel" = none by decide]
    exact nofun
  have htells : WellKnown.Tells Message.parcelPool x :=
    ⟨fun _ hs => absurd hs hplain, fun hs => absurd hs hplain, fun hs => absurd hs hplain⟩
  exact ⟨by rw [hxtype]; decide +kernel, by rw [hxtype]; decide +kernel, by omega, htells,
    fun _ _ _ hheld => absurd hheld.any hplain⟩

/-- A JSON value makes a message that is written, neither of them too long. -/
def isReplied (p : Pool) (type : String) (j : Json) : Bool :=
  match Message.ofJson p type j with
  | .ok m => decide ((m.encode p).length < 2 ^ 64) &&
    match (Reply.mk p m).toJson with
    | .ok j => decide (j.weight < 2 ^ 64)
    | .error _ => false
  | .error _ => false

theorem invokeMessage_parcel : ∃ m j r j',
    Message.ofJson parcels.pool parcels.method.input Message.parcel = .ok m ∧
      (Reply.mk parcels.pool m).toJson = .ok j ∧
      (∀ w, parcels.invokeMessage j w = parcels.call r w) ∧
      (Reply.mk parcels.pool r).toJson = .ok j' ∧ j.Alike j' := by
  have hcheck : isReplied parcels.pool parcels.method.input Message.parcel = true := by
    decide +kernel
  unfold isReplied at hcheck
  cases hm : Message.ofJson parcels.pool parcels.method.input Message.parcel with
  | error e =>
    rw [hm] at hcheck
    cases hcheck
  | ok m =>
    rw [hm] at hcheck
    obtain ⟨hl, hcheck⟩ := Bool.and_eq_true_iff.1 hcheck
    replace hl := of_decide_eq_true hl
    have hfinite : Message.parcel.Finite := by
      simp [Message.parcel, Json.Finite, Json.FiniteItems, Json.FiniteMembers]
    obtain ⟨hfits, htype⟩ := Message.fits_of_ofJson Message.compiled_parcelPool hfinite hm
    cases hj : (Reply.mk parcels.pool m).toJson with
    | error e =>
      rw [hj] at hcheck
      cases hcheck
    | ok j =>
      rw [hj] at hcheck
      obtain ⟨r, j', hcall, hj', halike⟩ := invokeMessage_reply (i := parcels)
        Message.compiled_parcelPool standard_parcelPool htype hfits
        (fun x hx => returnable_parcel hfits htype hl hx) hj (of_decide_eq_true hcheck)
      exact ⟨m, j, r, j', rfl, hj, hcall, hj', halike⟩

/-! ## What does not come back -/

/-- A message cannot be sent back: its form is refused, or what is sent instead does not have it. -/
def Lost (i : Invoker Unit) (m : Message) : Prop :=
  ∃ j, (Reply.mk i.pool m).toJson = .ok j ∧
    ((∃ f, ∀ w, i.invokeMessage j w = (.error (.arguments i.method.fullName (.mapping f)), w)) ∨
      ∃ r, (∀ w, i.invokeMessage j w = i.call r w) ∧
        ¬ ∃ j', (Reply.mk i.pool r).toJson = .ok j' ∧ j.Alike j')

/-- The loss can be seen, in the texts of the forms. -/
def isLost (i : Invoker Unit) (m : Message) : Bool :=
  match (Reply.mk i.pool m).toJson with
  | .error _ => false
  | .ok j =>
    match Message.ofJson i.pool i.method.input j with
    | .error _ => true
    | .ok r =>
      match (Reply.mk i.pool r).toJson with
      | .error _ => true
      | .ok j' => j.texts != j'.texts

theorem lost_of_isLost {i : Invoker Unit} (h : isLost i m = true) : Lost i m := by
  unfold isLost at h
  cases hj : (Reply.mk i.pool m).toJson with
  | error e =>
    rw [hj] at h
    cases h
  | ok j =>
    rw [hj] at h
    refine ⟨j, hj, ?_⟩
    cases hr : Message.ofJson i.pool i.method.input j with
    | error f =>
      refine .inl ⟨f, fun w => ?_⟩
      rw [invokeMessage, hr]
    | ok r =>
      refine .inr ⟨r, fun w => ?_, ?_⟩
      · rw [invokeMessage, hr]
      · rintro ⟨j', hj', halike⟩
        simp [hr, hj', halike.texts_eq] at h

/-- A message of a type is made that cannot be sent back. -/
def Loses {ε : Type} (p : Pool) (type : String) (made : Except ε Message) : Prop :=
  ∃ m, made = .ok m ∧ Lost (mirror p type) m

def loses {ε : Type} (p : Pool) (type : String) (made : Except ε Message) : Bool :=
  made.toOption.any (isLost (mirror p type))

theorem loses_of_loses {ε : Type} {made : Except ε Message} (h : loses p type made = true) :
    Loses p type made := by
  obtain ⟨m, hm, hlost⟩ := (Option.any_eq_true _ _).1 h
  exact ⟨m, Except.toOption_eq_some.1 hm, lost_of_isLost hlost⟩

/-- A type with the bytes of a reply of it. -/
abbrev Sample := String × Bytes

/-- A reply of any type that packs some bytes. -/
def packing (name : String) (bs : Bytes) : Sample :=
  ("google.protobuf.Any", Wire.Raw.writeFields [(1, .text ("t/" ++ name)), (2, .bytes bs)])

/-- All replies of some bytes are lost. -/
def LosesAll (p : Pool) (xs : List Sample) : Prop :=
  ∀ x ∈ xs, Loses p x.1 (Message.decode p x.1 x.2)

theorem losesAll_of_loses {xs : List Sample}
    (h : (xs.all fun x => loses p x.1 (Message.decode p x.1 x.2)) = true) : LosesAll p xs :=
  fun x hx => loses_of_loses (List.all_eq_true.1 h x hx)

/-- A file with a field that has the key of a type, with one that has the key of an extension, and with
messages that are nested in groups and in a map. -/
def lossyFile : Source.File :=
  Message.fileOf []
    [Standard.message "Typed" [Standard.text "@type" 1],
      { Standard.message "Wide" [{ Standard.int32 "own" 1 with jsonName := some "[trip.one]" }] with
        extensionRanges := [⟨100, 200⟩] },
      Standard.message "Deep" [{ Standard.field 10 "inner" 1 with typeName := ".trip.Deep" },
        { Standard.field 11 "last" 2 with typeName := ".trip.Last" }],
      { Standard.message "Last" [
          Standard.many { Standard.field 11 "pairs" 1 with typeName := ".trip.Last.PairsEntry" }] with
        messages := [{ Standard.message "PairsEntry" [Standard.int32 "key" 1,
          { Standard.field 11 "value" 2 with typeName := ".trip.Last" }] with mapEntry := true }] }]
    [{ Standard.int32 "one" 100 with extendee := some ".trip.Wide" }]

/-- The pool of the file, with some of the well-known types. -/
def lossyPool : Pool :=
  .ofFiles [Standard.any, Standard.timestamp, Standard.fieldMask, Standard.file "wrappers" []
    [Standard.message "DoubleValue" [Standard.double "value" 1],
      Standard.message "FloatValue" [Standard.float "value" 1]] [], lossyFile]

/-- A message in so many groups that holds a map with an entry without a value. -/
def nestedIn : Nat → Bytes
  | 0 => Wire.Raw.writeFields [(2, .record [(1, .record [(1, .varint 1)])])]
  -- the marks at the start and at the end of a group under the first number
  | groups + 1 => 0x0b :: nestedIn groups ++ [0x0c]

/-- Replies that are not told by their forms: no number and an infinite one in their wrappers, a time that
its nanoseconds carry beyond the last year, a mask with an empty path, an extension with the key of a field,
a packed message with the key of a type, and one that is nested deeper than what is read, since the missing
value of the entry is a message, too. -/
def untold : List Sample :=
  [("google.protobuf.FloatValue", [0x0d, 0x00, 0x00, 0xc0, 0x7f]),
    ("google.protobuf.DoubleValue", [0x09, 0x00, 0x00, 0x00, 0x00, 0x00, 0x00, 0xf0, 0x7f]),
    ("google.protobuf.Timestamp",
      Wire.Raw.writeFields [(1, .varint 253402300799), (2, .varint 1000000000)]),
    ("google.protobuf.FieldMask", Wire.Raw.writeFields [(1, .text "a"), (1, .text "")]),
    ("trip.Wide", Wire.Raw.writeFields [(100, .varint 1)]),
    packing "trip.Typed" [],
    packing "trip.Deep" (nestedIn 99)]

/-- A file with a list that tells being unset from being empty. -/
def numbersFile : Source.File :=
  { Message.fileOf [] [Standard.message "Numbers"
      [{ Standard.many (Standard.int32 "numbers" 1) with proto3Optional := true, packed := some false }]] []
    with name := "numbers.proto" }

/-- A pool with that, and with maps and extensions that no compiler makes. -/
def spoiledPool : Pool := .ofFiles [Standard.any, Message.looseFile, numbersFile]

/-- Replies that pack an empty list, and an entry whose key is given up for its value. -/
def spoiled : List Sample :=
  [packing "trip.Numbers" (Wire.Raw.writeFields [(1, .bytes [])]),
    packing "trip.Loose" (Wire.Raw.writeFields [(2, .record [(1, .varint 1)])])]

/-- A pool whose messages of any type pack texts. -/
def strangePool : Pool :=
  .ofFiles [Standard.file "any" []
      [Standard.message "Any" [Standard.text "type_url" 1, Standard.text "value" 2]] [],
    Message.fileOf [] [Standard.message "Real" [Standard.float "x" 1]] []]

/-- A reply that packs a number that is none, whose bytes are those of a text. -/
def strange : Sample := packing "trip.Real" [0x0d, 0x41, 0xc3, 0x85, 0x7f]

theorem losesAll_lossyPool : lossyPool.Compiled ∧ lossyPool.Standard ∧ lossyPool.OwnNames ∧
    LosesAll lossyPool untold := by
  obtain ⟨hcompiled, hstandard, hnames, hloses⟩ : lossyPool.isCompiled = true ∧
      lossyPool.isStandard = true ∧ lossyPool.OwnNames ∧
      (untold.all fun x => loses lossyPool x.1 (Message.decode lossyPool x.1 x.2)) = true := by
    decide +kernel
  exact ⟨Pool.compiled_of_isCompiled (Pool.loaded_ofFiles (by unfold EnumType.InRange; decide)) hcompiled,
    Pool.standard_of_isStandard hstandard, hnames, losesAll_of_loses hloses⟩

theorem losesAll_spoiledPool : spoiledPool.Loaded ∧ spoiledPool.Standard ∧ spoiledPool.OwnNames ∧
    LosesAll spoiledPool spoiled ∧ Loses spoiledPool "trip.Loose"
      (Message.ofJson spoiledPool "trip.Loose" (.object [("[trip.one]", .integer 1)])) := by
  obtain ⟨hstandard, hnames, hloses, hshared⟩ : spoiledPool.isStandard = true ∧ spoiledPool.OwnNames ∧
      (spoiled.all fun x => loses spoiledPool x.1 (Message.decode spoiledPool x.1 x.2)) = true ∧
      loses spoiledPool "trip.Loose"
        (Message.ofJson spoiledPool "trip.Loose" (.object [("[trip.one]", .integer 1)])) = true := by
    decide +kernel
  exact ⟨Pool.loaded_ofFiles (by unfold EnumType.InRange; decide), Pool.standard_of_isStandard hstandard,
    hnames, losesAll_of_loses hloses, loses_of_loses hshared⟩

theorem loses_strangePool : strangePool.Compiled ∧ strangePool.OwnNames ∧
    LosesAll strangePool [strange] := by
  obtain ⟨hcompiled, hnames, hloses⟩ : strangePool.isCompiled = true ∧ strangePool.OwnNames ∧
      ([strange].all fun x => loses strangePool x.1 (Message.decode strangePool x.1 x.2)) = true := by
    decide +kernel
  exact ⟨Pool.compiled_of_isCompiled (Pool.loaded_ofFiles (by unfold EnumType.InRange; decide)) hcompiled,
    hnames, losesAll_of_loses hloses⟩

/-- What a form does not tell cannot be sent back, even if the names of a type's own fields are apart: what
is untold, what is given up in pools that no compiler makes, and what well-known types hold that are not the
standard ones. -/
theorem loses_untold :
    (lossyPool.Compiled ∧ lossyPool.Standard ∧ lossyPool.OwnNames ∧ LosesAll lossyPool untold) ∧
    (spoiledPool.Loaded ∧ spoiledPool.Standard ∧ spoiledPool.OwnNames ∧ LosesAll spoiledPool spoiled ∧
      Loses spoiledPool "trip.Loose"
        (Message.ofJson spoiledPool "trip.Loose" (.object [("[trip.one]", .integer 1)]))) ∧
    strangePool.Compiled ∧ strangePool.OwnNames ∧ LosesAll strangePool [strange] :=
  ⟨losesAll_lossyPool, losesAll_spoiledPool, loses_strangePool⟩

end Invoker

end ServiceCall
