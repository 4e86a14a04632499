import ServiceCall.Json.Record
import ServiceCall.Proofs.Basic.Except
import ServiceCall.Proofs.Json.Members
import ServiceCall.Proofs.Json.Scanned
/-!
# Reading records

A record is read from an object by taking its members one after the other. Suppose that every step
takes the state of some members to the state of one more. Then what is read is the state of all the
members whose name the record has (`Record.read_ofObject`), and the others do not matter.
-/

namespace ServiceCall.Json

/-! ## Texts -/

/-- A text is read back from its characters. -/
@[simp]
theorem RawString.read_ofString (s : String) : (RawString.ofString s).read = .ok s := by
  have hstray : (s.toList.map Piece.char).any (· == .stray) = false := by
    rw [List.any_map, List.any_eq_false]
    intro c _
    simp
  -- The pieces of which none is left are still those of the whole text.
  have hgo (cs : List Char) : read.go (ofString s) (cs.map .char) = .ok s := by
    induction cs with
    | nil =>
      simp only [List.map_nil, read.go, ofString, hstray, List.filterMap_map]
      exact congrArg Except.ok ((congrArg String.ofList List.filterMap_some).trans String.ofList_toList)
    | cons c cs ih => exact ih
  exact hgo s.toList

namespace Document

@[simp]
theorem text_ofText (s : String) : (ofText s).text = .ok s := RawString.read_ofString s

@[simp]
theorem text?_ofText (s : String) : (ofText s).text? = .ok (some s) :=
  congrArg (Except.map some) (text_ofText s)

/-- Texts are read one by one. -/
theorem listOf_ofTexts_map {α : Type} {item : Document → Except Category α} {g : String → α}
    (h : ∀ s, item (ofText s) = .ok (g s)) (ss : List String) :
    (ofTexts ss).listOf item = .ok (ss.map g) := by
  have hitems : (ss.map ofText).mapM item = .ok (ss.map g) := by
    rw [List.mapM_eq_ok, List.forall₂_map_left_iff, List.forall₂_map_right_iff]
    exact List.forall₂_same.2 fun s _ => h s
  simp only [ofTexts, listOf, hitems]
  rfl

@[simp]
theorem listOf_ofTexts (ss : List String) : (ofTexts ss).listOf text = .ok ss := by
  rw [listOf_ofTexts_map (g := id) text_ofText, List.map_id]

/-! ## Values that are skipped -/

theorem skipMembers_eq_ok {ms : List (String × Document)} :
    skipMembers (keyed ms) = .ok () ↔ ∀ m ∈ ms, m.2.skip = .ok () := by
  induction ms with
  | nil => exact ⟨fun _ m hm => absurd hm List.not_mem_nil, fun _ => rfl⟩
  | cons m ms ih =>
    have hfirst : skipMembers (keyed (m :: ms)) = m.2.skip >>= fun _ => skipMembers (keyed ms) := rfl
    rw [hfirst, Except.bind_eq_ok, List.forall_mem_cons]
    simp only [ih]
    exact ⟨fun ⟨_, hm, hms⟩ => ⟨hm, hms⟩, fun ⟨hm, hms⟩ => ⟨(), hm, hms⟩⟩

/-- An object is skipped as its members are. -/
theorem skip_ofObject {ms : List (String × Document)} :
    (ofObject ms).skip = .ok () ↔ ∀ m ∈ ms, m.2.skip = .ok () := by
  rw [← skipMembers_eq_ok, ofObject, skip, Except.bind_eq_ok]
  exact ⟨fun ⟨_, h, _⟩ => h, fun h => ⟨(), h, rfl⟩⟩

theorem skipItems_eq_ok {vs : List Document} :
    skipItems vs = .ok () ↔ ∀ v ∈ vs, v.skip = .ok () := by
  induction vs with
  | nil => exact ⟨fun _ v hv => absurd hv List.not_mem_nil, fun _ => rfl⟩
  | cons v vs ih =>
    rw [skipItems, Except.bind_eq_ok, List.forall_mem_cons]
    simp only [ih]
    exact ⟨fun ⟨_, hv, hvs⟩ => ⟨hv, hvs⟩, fun ⟨hv, hvs⟩ => ⟨(), hv, hvs⟩⟩

/-- An array is skipped as its items are. -/
theorem skip_array {vs : List Document} :
    (Document.array vs none).skip = .ok () ↔ ∀ v ∈ vs, v.skip = .ok () := by
  rw [← skipItems_eq_ok, skip, Except.bind_eq_ok]
  exact ⟨fun ⟨_, h, _⟩ => h, fun h => ⟨(), h, rfl⟩⟩

end Document

mutual

/-- What is spelled can be skipped. -/
theorem skip_of_spells : ∀ {v : Document} {t : List Char}, Spells v t → v.skip = .ok ()
  | _, _, .null => rfl
  | _, _, .yes => rfl
  | _, _, .no => rfl
  | _, _, .number _ => rfl
  | _, _, .string _ => rfl
  | _, _, .emptyArray _ => rfl
  | _, _, .array h => Except.bind_eq_ok.2 ⟨(), skipItems_of_spells h, rfl⟩
  | _, _, .emptyObject _ => rfl
  | _, _, .object h => Document.skip_ofObject.2 (skip_of_members h)

theorem skip_of_pads : ∀ {v : Document} {t : List Char}, Pads v t → v.skip = .ok ()
  | _, _, .mk _ h _ => skip_of_spells h

theorem skipItems_of_spells : ∀ {vs : List Document} {t : List Char}, SpellsItems vs t →
    Document.skipItems vs = .ok ()
  | _, _, .one h => Except.bind_eq_ok.2 ⟨(), skip_of_pads h, rfl⟩
  | _, _, .more h hs => Except.bind_eq_ok.2 ⟨(), skip_of_pads h, skipItems_of_spells hs⟩

theorem skip_of_members : ∀ {ms : List (String × Document)} {t : List Char}, SpellsMembers ms t →
    ∀ m ∈ ms, m.2.skip = .ok ()
  | _, _, .one _ h => List.forall_mem_cons.2 ⟨skip_of_pads h, fun _ hm => absurd hm List.not_mem_nil⟩
  | _, _, .more _ h hs => List.forall_mem_cons.2 ⟨skip_of_pads h, skip_of_members hs⟩

end

/-! ## Members -/

theorem member?_perm {α : Type} {ms ns : List (String × α)} (h : ms.Perm ns)
    (hdistinct : (ns.map (·.1)).Nodup) (key : String) : member? key ms = member? key ns := by
  have hdistinct' : (ms.map (·.1)).Nodup := (h.map _).nodup_iff.2 hdistinct
  refine Option.ext fun v => ?_
  rw [member?_eq_some_iff hdistinct', member?_eq_some_iff hdistinct, h.mem_iff]

/-- The member for a value that may be missing. -/
def optional {β : Type} (key : String) (f : β → Document) (value : Option β) :
    List (String × Document) :=
  (value.map fun b => (key, f b)).toList

section optional

variable {β : Type} {key k : String} {f : β → Document} {value : Option β}

@[simp]
theorem member?_optional_self : member? key (optional key f value) = value.map f := by
  cases value with
  | none => rfl
  | some b => exact if_pos rfl

@[simp]
theorem member?_optional_ne (h : k ≠ key) : member? key (optional k f value) = none := by
  cases value with
  | none => rfl
  | some b => exact if_neg h

theorem mem_optional {m : String × Document} :
    m ∈ optional key f value ↔ ∃ b, value = some b ∧ (key, f b) = m := by
  rw [optional, Option.mem_toList, Option.map_eq_some_iff]

theorem keys_optional : ((optional key f value).map (·.1)).Sublist [key] := by
  cases value with
  | none => exact List.nil_sublist _
  | some b => exact List.Sublist.refl _

end optional

/-- What the first member with a key is read as, if it can be read. -/
def field {α : Type} (read : Document → Except Category α) (key : String)
    (ms : List (String × Document)) : Option α :=
  (member? key ms).bind fun v => (read v).toOption

section field

variable {α : Type} {read : Document → Except Category α} {key k : String} {v : Document}
  {ms ns : List (String × Document)}

@[simp]
theorem field_nil : field read key [] = none := rfl

theorem field_cons_self {a : α} (h : read v = .ok a) : field read key ((key, v) :: ms) = some a := by
  rw [field, member?, if_pos rfl, Option.bind_some, h]
  rfl

theorem field_cons_ne (h : k ≠ key) : field read key ((k, v) :: ms) = field read key ms := by
  rw [field, member?, if_neg h, field]

theorem field_perm (h : ms.Perm ns) (hdistinct : (ns.map (·.1)).Nodup) :
    field read key ms = field read key ns := by
  rw [field, member?_perm h hdistinct, field]

/-- A value that stands under its key is read. -/
theorem field_eq_map {β : Type} {f : β → Document} {g : β → α} {value : Option β}
    (h : member? key ms = value.map f) (hread : ∀ b, value = some b → read (f b) = .ok (g b)) :
    field read key ms = value.map g := by
  rw [field, h]
  cases value with
  | none => rfl
  | some b => rw [Option.map_some, Option.bind_some, hread b rfl]; rfl

theorem field_eq {f : α → Document} {value : Option α} (h : member? key ms = value.map f)
    (hread : ∀ a, read (f a) = .ok a) : field read key ms = value :=
  (field_eq_map h fun a _ => hread a).trans (Option.map_id')

end field

namespace Record

variable {σ : Type} (r : Record σ)

/-- The members whose name the record has. -/
def known (ms : List (String × Document)) : List (String × Document) :=
  ms.filter fun m => m.1 ∈ r.names

/-- The members whose name the record has are the given ones, in any order. -/
def Lists (given ms : List (String × Document)) : Prop := (r.known ms).Perm given

theorem lists_self {r : Record σ} {given : List (String × Document)}
    (h : (given.map (·.1)).Sublist r.names) : r.Lists given given := by
  have hknown : r.known given = given := by
    refine List.filter_eq_self.2 fun m hm => ?_
    exact decide_eq_true (h.subset (List.mem_map_of_mem hm))
  rw [Lists, hknown]

/-- The state goes by the members that were taken: one that can be taken at all takes the state of
those before it to the state with it. -/
def Tracks (state : List (String × Document) → σ) : Prop :=
  ∀ ⦃m : String × Document⦄ (before : List (String × Document)), m.1 ∈ r.names →
    (∃ s, r.set m.1 m.2 (state []) = .ok s) → r.set m.1 m.2 (state before) = .ok (state (m :: before))

variable {r} {state : List (String × Document) → σ}

/-- A member whose value is read and put into the state takes the state with it, if that is how the state
goes by the members. -/
theorem set_of_read {α : Type} {k : String} {v : Document} {before : List (String × Document)}
    (read : Document → Except Category α) (put : α → σ → σ)
    (hset : ∀ s, r.set k v s = read v >>= fun a => .ok (put a s))
    (hput : ∀ a, read v = .ok a → put a (state before) = state ((k, v) :: before))
    (h : ∃ s, r.set k v (state []) = .ok s) :
    r.set k v (state before) = .ok (state ((k, v) :: before)) := by
  obtain ⟨s, hs⟩ := h
  rw [hset] at hs
  obtain ⟨a, ha, -⟩ := Except.bind_eq_ok.1 hs
  rw [hset, ← hput a ha, ha]
  rfl

/-- Members are read into the state of those that have a name of the record. -/
theorem Tracks.readMembers (h : r.Tracks state) {ms before : List (String × Document)}
    (hdistinct : (((r.known ms).reverse ++ before).map (·.1)).Nodup)
    (hfits : ∀ m ∈ r.known ms, ∃ s, r.set m.1 m.2 (state []) = .ok s)
    (hskip : ∀ m ∈ ms, m.2.skip = .ok ()) :
    r.readMembers (before.map (·.1)) (Document.keyed ms) (state before) =
      .ok (state ((r.known ms).reverse ++ before)) := by
  induction ms generalizing before with
  | nil => rfl
  | cons m ms ih =>
    obtain ⟨hm, hms⟩ := List.forall_mem_cons.1 hskip
    have hkey : Document.keyed (m :: ms) = (.ofString m.1, m.2) :: Document.keyed ms := rfl
    rw [hkey, Record.readMembers, RawString.read_ofString]
    by_cases hname : m.1 ∈ r.names
    · have hknown : r.known (m :: ms) = m :: r.known ms :=
        List.filter_cons_of_pos (by simpa using hname)
      rw [hknown, List.reverse_cons, List.append_assoc, List.singleton_append] at hdistinct ⊢
      rw [hknown, List.forall_mem_cons] at hfits
      have hnew : m.1 ∉ before.map (·.1) := by
        rw [List.map_append, List.map_cons] at hdistinct
        exact (List.nodup_cons.1 (List.Nodup.of_append_right hdistinct)).1
      have hstep := h before hname hfits.1
      have hrest := ih hdistinct hfits.2 hms
      simp only [bind, Except.bind, if_pos hname, if_neg hnew, hstep]
      exact hrest
    · have hknown : r.known (m :: ms) = r.known ms :=
        List.filter_cons_of_neg (by simpa using hname)
      rw [hknown] at hdistinct hfits ⊢
      have hrest := ih hdistinct hfits hms
      simp only [bind, Except.bind, if_neg hname, hm]
      exact hrest

/-- A record is read from an object that lists members of different names, all of which fit. -/
theorem Tracks.read_ofObject (h : r.Tracks state) {given ms : List (String × Document)}
    (hlists : r.Lists given ms) (hdistinct : (given.map (·.1)).Nodup)
    (hfits : ∀ m ∈ given, ∃ s, r.set m.1 m.2 (state []) = .ok s)
    (hskip : ∀ m ∈ ms, m.2.skip = .ok ()) :
    ∃ taken, taken.Perm given ∧ r.read (state []) (Document.ofObject ms) = .ok (state taken) := by
  refine ⟨(r.known ms).reverse, (List.reverse_perm _).trans hlists, ?_⟩
  have hknown : (((r.known ms).reverse ++ ([] : List (String × Document))).map (·.1)).Nodup := by
    rw [List.append_nil, List.map_reverse]
    exact List.nodup_reverse.2 ((hlists.map _).nodup_iff.2 hdistinct)
  have hread := h.readMembers hknown (fun m hm => hfits m (hlists.mem_iff.1 hm)) hskip
  rw [List.append_nil] at hread
  exact Except.bind_eq_ok.2 ⟨_, hread, rfl⟩

/-- Where the order of the members does not matter to the state, the record is read into the state of
those it has a name for. -/
theorem Tracks.read_of_lists (h : r.Tracks state)
    (hperm : ∀ {ms ns : List (String × Document)}, ms.Perm ns → (ns.map (·.1)).Nodup →
      state ms = state ns)
    {given ms : List (String × Document)} (hlists : r.Lists given ms)
    (hdistinct : (given.map (·.1)).Nodup)
    (hfits : ∀ m ∈ given, ∃ s, r.set m.1 m.2 (state []) = .ok s)
    (hskip : ∀ m ∈ ms, m.2.skip = .ok ()) :
    r.read (state []) (Document.ofObject ms) = .ok (state given) := by
  obtain ⟨taken, htaken, hread⟩ := h.read_ofObject hlists hdistinct hfits hskip
  rw [hread, hperm htaken hdistinct]

/-- Whether a value can be taken does not depend on the state. -/
def Steady (r : Record σ) : Prop :=
  ∀ ⦃k : String⦄ ⦃v : Document⦄ ⦃s t : σ⦄, (∃ x, r.set k v s = .ok x) → ∃ x, r.set k v t = .ok x

/-- Where members are read, no name of the record comes twice, and all of them fit. -/
theorem Steady.of_readMembers (h : r.Steady) {seen : List String} {ms : List (String × Document)}
    {s s' : σ} (hread : r.readMembers seen (Document.keyed ms) s = .ok s') (start : σ) :
    ((r.known ms).map (·.1)).Nodup ∧
      ∀ m ∈ r.known ms, m.1 ∉ seen ∧ ∃ t, r.set m.1 m.2 start = .ok t := by
  induction ms generalizing seen s with
  | nil => exact ⟨List.nodup_nil, fun m hm => absurd hm List.not_mem_nil⟩
  | cons m ms ih =>
    have hkey : Document.keyed (m :: ms) = (.ofString m.1, m.2) :: Document.keyed ms := rfl
    rw [hkey, Record.readMembers, RawString.read_ofString] at hread
    by_cases hname : m.1 ∈ r.names
    · have hknown : r.known (m :: ms) = m :: r.known ms :=
        List.filter_cons_of_pos (by simpa using hname)
      by_cases hseen : m.1 ∈ seen
      · simp [bind, Except.bind, hname, hseen] at hread
      simp only [bind, Except.bind, if_pos hname, if_neg hseen] at hread
      obtain ⟨t, ht, hrest⟩ := Except.bind_eq_ok.1 hread
      obtain ⟨hdistinct, hfits⟩ := ih hrest
      have hnew : m.1 ∉ (r.known ms).map (·.1) := by
        intro hmem
        obtain ⟨n, hn, hsame⟩ := List.mem_map.1 hmem
        exact (hfits n hn).1 (hsame ▸ List.mem_cons_self)
      rw [hknown, List.map_cons]
      refine ⟨List.nodup_cons.2 ⟨hnew, hdistinct⟩, List.forall_mem_cons.2 ⟨⟨hseen, h ⟨t, ht⟩⟩, ?_⟩⟩
      exact fun n hn => ⟨fun hmem => (hfits n hn).1 (.tail _ hmem), (hfits n hn).2⟩
    · have hknown : r.known (m :: ms) = r.known ms :=
        List.filter_cons_of_neg (by simpa using hname)
      simp only [bind, Except.bind, if_neg hname] at hread
      obtain ⟨-, -, hrest⟩ := Except.bind_eq_ok.1 hread
      exact hknown ▸ ih hrest

/-- A record can be read from an object exactly if no name of it comes twice and all its values fit. -/
theorem Tracks.exists_read_iff (h : r.Tracks state) (hsteady : r.Steady)
    {ms : List (String × Document)} (hskip : ∀ m ∈ ms, m.2.skip = .ok ()) :
    (∃ s, r.read (state []) (Document.ofObject ms) = .ok s) ↔
      ((r.known ms).map (·.1)).Nodup ∧ ∀ m ∈ r.known ms, ∃ s, r.set m.1 m.2 (state []) = .ok s := by
  constructor
  · rintro ⟨s, hs⟩
    obtain ⟨t, ht, -⟩ := Except.bind_eq_ok.1 hs
    obtain ⟨hdistinct, hfits⟩ := hsteady.of_readMembers ht (state [])
    exact ⟨hdistinct, fun m hm => (hfits m hm).2⟩
  · rintro ⟨hdistinct, hfits⟩
    obtain ⟨taken, -, hread⟩ := h.read_ofObject (List.Perm.refl _) hdistinct hfits hskip
    exact ⟨_, hread⟩

end Record

end ServiceCall.Json
