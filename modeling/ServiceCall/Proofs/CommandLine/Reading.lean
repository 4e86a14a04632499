import ServiceCall.Proofs.CommandLine.Line
/-!
# Reading what is written

A reading holds what has been written so far (`Holds`): what is settled has been read from it, and what
is pending is the rest. Every word that is taken is a word of the grammar and adds to what is held just
what is written by it (`Holds.take`). So at every level that is read to its end, all that is written there
is settled, each argument once that may be given only once (`Settled`), and what the command line asks for
is asked for by the innermost level (`exists_line_of_parse`).
-/

namespace ServiceCall.CommandLine

open Reading (takeWord takeLong takeLetters takeOption take splitLong)

/-! ## What is settled -/

/-- What is written is read as an argument with its value. -/
inductive Reads : Occurrence → Argument × Operand → Prop
  | mark {a : Argument} (ha : a.form = .mark) : Reads (a, none) (a, .mark)
  | value {a : Argument} {s : String} {v : Operand} (ha : a.form ≠ .mark) (h : a.read s = .ok v) :
    Reads (a, some s) (a, v)

/-- What is given at a level has been read from what is written, and an argument that may be given only
once is given once. -/
structure Settled (os : List Occurrence) (g : Given) : Prop where
  reads : List.Forall₂ Reads os g
  single : g.Pairwise fun x y => x.1 = y.1 → x.1.isRepeatable = true

theorem settled_nil : Settled [] [] := ⟨.nil, .nil⟩

/-- An argument as it is written with some words. -/
def written (a : Argument) (words : List String) : List Occurrence :=
  if a.form = .mark then [(a, none)] else words.map fun w => (a, some w)

theorem reads_of_readAll {a : Argument} {words : List String} {new : Given}
    (h : Given.readAll a words = .ok new) : List.Forall₂ Reads (written a words) new := by
  by_cases ha : a.form = .mark
  · rw [Given.readAll, ha] at h
    obtain rfl := Except.ok.inj h
    rw [written, if_pos ha]
    exact .cons (.mark ha) .nil
  · have hmap : (words.mapM fun w => (a.read w).map fun v => (a, v)) = .ok new := by
      rw [← h, Given.readAll]
      split
      next hmark => exact absurd hmark ha
      next => rfl
    rw [written, if_neg ha, List.forall₂_map_left_iff]
    refine (List.mapM_eq_ok.1 hmap).imp fun w x hx => ?_
    obtain ⟨v, hv, rfl⟩ := Except.map_eq_ok.1 hx
    exact .value ha hv

theorem fst_of_reads {a : Argument} {words : List String} {new : Given}
    (h : List.Forall₂ Reads (written a words) new) : ∀ x ∈ new, x.1 = a := by
  intro x hx
  obtain ⟨o, ho, hreads⟩ := h.exists_left hx
  have hfirst : o.1 = a := by
    unfold written at ho
    split_ifs at ho
    · rw [List.mem_singleton.1 ho]
    · obtain ⟨w, -, rfl⟩ := List.mem_map.1 ho
      rfl
  cases hreads <;> exact hfirst

theorem length_written_le {a : Argument} {words : List String} (h : words.length ≤ 1) :
    (written a words).length ≤ 1 := by
  unfold written
  split_ifs <;> simp [h]

/-- What is settled together with an argument. -/
theorem Settled.settle {os : List Occurrence} {g g' : Given} {a : Argument} {words : List String}
    (h : Settled os g) (hone : words.length ≤ 1 ∨ a.isRepeatable = true)
    (hs : g.settle a words = .ok g') :
    Settled (os ++ written a words) g' ∧ (a.form ≠ .mark → words ≠ []) := by
  unfold Given.settle at hs
  split at hs
  next => cases hs
  next => cases hs
  next =>
    split_ifs at hs with hempty hagain
    obtain ⟨new, hnew, rfl⟩ := Except.map_eq_ok.1 hs
    have hreads := reads_of_readAll hnew
    have hfst := fst_of_reads hreads
    refine ⟨⟨List.rel_append h.reads hreads, ?_⟩, fun hform hnil => hempty ⟨hform, by simp [hnil]⟩⟩
    refine List.pairwise_append.2 ⟨h.single, ?_, ?_⟩
    · rcases hone with hone | hone
      · have hlength : new.length ≤ 1 := hreads.length_eq ▸ length_written_le hone
        match new, hlength with
        | [], _ => exact .nil
        | [x], _ => exact List.pairwise_singleton ..
      · exact List.pairwise_of_forall_mem_list fun x hx y _ _ => hfst x hx ▸ hone
    · intro x hx y hy hxy
      by_contra hrepeat
      have hxa : x.1 = a := hxy.trans (hfst y hy)
      refine hagain ⟨List.any_eq_true.2 ⟨x, hx, decide_eq_true hxa⟩, ?_⟩
      simpa [hxa] using hrepeat

theorem read_of_text {a : Argument} {s : String} {v : Operand}
    (ha : a.form = .text ∨ a.form = .path) (h : a.read s = .ok v) : v = .text s := by
  unfold Argument.read at h
  rcases ha with ha | ha <;> simp only [ha] at h
  · exact (Except.ok.inj h).symm
  · split_ifs at h
    exact (Except.ok.inj h).symm

theorem read_of_json {a : Argument} {s : String} {v : Operand} (ha : a.form = .json)
    (h : a.read s = .ok v) : ∃ j, Json.parse s = .ok j ∧ v = .json j := by
  unfold Argument.read at h
  simp only [ha] at h
  obtain ⟨j, hj, rfl⟩ := Except.map_eq_ok.1 (Except.mapError_eq_ok.1 h)
  exact ⟨j, hj, rfl⟩

/-- The texts that are given are those that are written. -/
theorem texts_of_reads {a : Argument} {os : List Occurrence} {g : Given}
    (ha : a.form = .text ∨ a.form = .path) (h : List.Forall₂ Reads os g) :
    g.texts a = textsOf a os := by
  induction h with
  | nil => rfl
  | @cons o x os g hx hos ih =>
    simp only [Given.texts, textsOf] at ih ⊢
    cases hx with
    | mark hmark => simpa using ih
    | @value b s v hvalue hread =>
      by_cases hb : b = a
      · obtain rfl := read_of_text (hb ▸ ha) hread
        simp [hb, ih]
      · cases v <;> simpa [hb] using ih

/-- A text is one of a JSON value. -/
abbrev ReadsAs (s : String) (v : Json) : Prop := Json.parse s = .ok v

/-- The JSON values that are given are those of the texts that are written. -/
theorem values_of_reads {a : Argument} {os : List Occurrence} {g : Given} (ha : a.form = .json)
    (h : List.Forall₂ Reads os g) :
    List.Forall₂ ReadsAs (textsOf a os) (g.values a) := by
  induction h with
  | nil => exact .nil
  | @cons o x os g hx hos ih =>
    simp only [Given.values, textsOf] at ih ⊢
    cases hx with
    | mark hmark => simpa using ih
    | @value b s v hvalue hread =>
      by_cases hb : b = a
      · obtain ⟨j, hj, rfl⟩ := read_of_json (hb ▸ ha) hread
        simpa [hb] using And.intro hj ih
      · cases v <;> simpa [hb] using ih

/-! ## What a reading holds -/

/-- A reading of a level holds what has been written so far. -/
inductive Holds (l : Level) : Reading → List Occurrence → Prop
  | settled {os : List Occurrence} {g : Given} {n : Nat} {t : Bool} (h : Settled os g) :
    Holds l ⟨g, none, n, t⟩ os
  | awaiting {os : List Occurrence} {g : Given} {a : Argument} {n : Nat} {t : Bool}
    (h : Settled os g) (ha : a.form ≠ .mark) (hvalues : a ≠ .values) :
    Holds l ⟨g, some (a, []), n, t⟩ os
  | gathering {os : List Occurrence} {g : Given} {a : Argument} {w : String} {ws : List String}
    {n : Nat} {t : Bool} (h : Settled os g) (ha : a.form ≠ .mark)
    (hone : ws = [] ∨ a.isRepeatable = true) (hvalues : a = .values → l = .call) :
    Holds l ⟨g, some (a, w :: ws), n, t⟩ (os ++ (w :: ws).map fun w => (a, some w))

/-- What the next word may be. -/
def stageOf (r : Reading) : Stage :=
  if r.trailing then .trailing
  else match r.awaiting? with
    | some a => .wanting a
    | none => .free

theorem stageOf_free {r : Reading} (ht : r.trailing = false) (h : r.awaiting? = none) :
    stageOf r = .free := by
  simp [stageOf, ht, h]

theorem stageOf_wanting {r : Reading} {a : Argument} (ht : r.trailing = false)
    (h : r.awaiting? = some a) : stageOf r = .wanting a := by
  simp [stageOf, ht, h]

theorem stageOf_trailing {r : Reading} (ht : r.trailing = true) : stageOf r = .trailing := if_pos ht

theorem written_of_value {a : Argument} (ha : a.form ≠ .mark) (words : List String) :
    written a words = words.map fun w => (a, some w) := if_neg ha

section

variable {l : Level} {r r' : Reading} {os : List Occurrence} {a : Argument}

/-- What is held is settled in the end, unless an option still waits for its value. -/
theorem Holds.settled_of {g : Given} (h : Holds l r os) (hs : r.settled = .ok g) :
    Settled os g ∧ r.awaiting? = none := by
  cases h with
  | settled h =>
    obtain rfl := Except.ok.inj hs
    exact ⟨h, rfl⟩
  | @awaiting os g a n t h ha hvalues =>
    have hone : ([] : List String).length ≤ 1 := Nat.zero_le 1
    exact absurd rfl ((h.settle (.inl hone) hs).2 ha)
  | @gathering os g a w ws n t h ha hone hvalues =>
    have hone : (w :: ws).length ≤ 1 ∨ a.isRepeatable = true := hone.imp_left fun hnil => by simp [hnil]
    refine ⟨?_, rfl⟩
    rw [← written_of_value ha]
    exact (h.settle hone hs).1

/-- What is held when all that was pending is settled. -/
theorem Holds.settle (h : Holds l r os) (hr : r.settle = .ok r') :
    ∃ g, r' = ⟨g, none, r.position, r.trailing⟩ ∧ Settled os g ∧ r.awaiting? = none := by
  obtain ⟨g, hg, rfl⟩ := Except.map_eq_ok.1 hr
  exact ⟨g, rfl, h.settled_of hg⟩

/-- What is held when an argument is put in. -/
theorem Holds.put {words : List String} (h : Holds l r os) (ht : r.trailing = false)
    (hone : words.length ≤ 1) (hr : r.put a words = .ok r') :
    stageOf r = .free ∧ stageOf r' = .free ∧ Holds l r' (os ++ written a words) ∧
      r'.position = r.position ∧ r'.trailing = false := by
  obtain ⟨r₁, hsettle, hr⟩ := Except.bind_eq_ok.1 hr
  obtain ⟨g, rfl, hg, hawaiting⟩ := h.settle hsettle
  obtain ⟨g', hg', hr⟩ := Except.bind_eq_ok.1 hr
  obtain rfl := Except.pure_eq_ok.1 hr
  exact ⟨stageOf_free ht hawaiting, stageOf_free ht rfl, .settled (hg.settle (.inl hone) hg').1, rfl, ht⟩

/-- What is held when an option waits for its value. -/
theorem Holds.await (h : Holds l r os) (ht : r.trailing = false) (ha : a.form ≠ .mark)
    (hvalues : a ≠ .values) (hr : r.await a = .ok r') :
    stageOf r = .free ∧ stageOf r' = .wanting a ∧ Holds l r' os ∧ r'.position = r.position := by
  obtain ⟨r₁, hsettle, hr⟩ := Except.bind_eq_ok.1 hr
  obtain ⟨g, rfl, hg, hawaiting⟩ := h.settle hsettle
  obtain rfl := Except.pure_eq_ok.1 hr
  exact ⟨stageOf_free ht hawaiting, by simp [stageOf, ht, Reading.awaiting?],
    .awaiting hg ha hvalues, rfl⟩

/-! ## Options -/

theorem ne_values_of_short? {c : Char} (h : l.short? c = some a) : a ≠ .values := by
  have hletter : a.short? = some c := by simpa using List.find?_some h
  rintro rfl
  cases hletter

theorem ne_values_of_long? {name : String} (h : l.long? name = some a) : a ≠ .values := by
  have hname : a.long? = some name := by simpa using List.find?_some h
  rintro rfl
  cases hname

/-- A run of letters is one of the grammar. -/
theorem Holds.letters {cs : List Char} (h : Holds l r os) (ht : r.trailing = false)
    (hr : takeLetters l r cs = .ok r') :
    (cs ≠ [] → stageOf r = .free) ∧ (stageOf r = .free →
      ∃ new, Letters l cs new (stageOf r') ∧ Holds l r' (os ++ new) ∧ r'.position = r.position) := by
  induction cs generalizing r os with
  | nil =>
    obtain rfl := Except.ok.inj hr
    exact ⟨fun hne => absurd rfl hne, fun hfree => ⟨[], hfree ▸ .nil, by simpa using h, rfl⟩⟩
  | cons c cs ih =>
    rw [takeLetters] at hr
    split at hr
    next => cases hr
    next a ha =>
      split at hr
      next hform =>
        obtain ⟨r₁, hput, hr⟩ := Except.bind_eq_ok.1 hr
        obtain ⟨hfree, hfree₁, h₁, hposition, ht₁⟩ := h.put ht (by simp) hput
        rw [written, if_pos hform] at h₁
        obtain ⟨new, hletters, hnew, hposition'⟩ := (ih h₁ ht₁ hr).2 hfree₁
        refine ⟨fun _ => hfree, fun _ => ⟨(a, none) :: new, .mark ha hform hletters, ?_, ?_⟩⟩
        · simpa using hnew
        · rw [hposition', hposition]
      next hform =>
        obtain ⟨hfree, hwanting, h₁, hposition⟩ := h.await ht hform (ne_values_of_short? ha) hr
        refine ⟨fun _ => hfree, fun _ => ⟨[], hwanting ▸ .wanting ha hform, ?_, hposition⟩⟩
        simpa using h₁
      next v hform =>
        obtain ⟨hfree, hfree₁, h₁, hposition, -⟩ := h.put ht (by simp) hr
        rw [written_of_value hform] at h₁
        exact ⟨fun _ => hfree, fun _ => ⟨_, hfree₁ ▸ .equals ha hform, h₁, hposition⟩⟩
      next rest _ _ hnil hequals hform =>
        obtain ⟨hfree, hfree₁, h₁, hposition, -⟩ := h.put ht (by simp) hr
        rw [written_of_value hform] at h₁
        cases rest with
        | nil => exact (hnil rfl).elim
        | cons d v =>
          have hd : d ≠ '=' := fun he => hequals v (by rw [he])
          exact ⟨fun _ => hfree, fun _ => ⟨_, hfree₁ ▸ .attached ha hform hd, h₁, hposition⟩⟩

theorem splitLong_cases (cs : List Char) :
    splitLong cs = (String.ofList cs, none) ∨
      ∃ name v, cs = name ++ '=' :: v ∧ splitLong cs = (String.ofList name, some (String.ofList v)) := by
  have hsplit := List.takeWhile_append_dropWhile (p := fun c => decide (c ≠ '=')) (l := cs)
  rw [splitLong]
  split
  next c v hdrop =>
    have hc : c = '=' := by
      have hhead := List.head?_dropWhile_not (fun c => decide (c ≠ '=')) cs
      rw [hdrop] at hhead
      simpa using hhead
    exact .inr ⟨_, v, by rw [hdrop, hc] at hsplit; exact hsplit.symm, rfl⟩
  next => exact .inl rfl

/-- A word with two hyphens is one of the grammar. -/
theorem Holds.long {w : String} {cs : List Char} (h : Holds l r os) (ht : r.trailing = false)
    (hw : w.toList = '-' :: '-' :: cs)
    (hr : takeLong l r (splitLong cs).1 (splitLong cs).2 = .ok r') :
    stageOf r = .free ∧
      ∃ new, Flags l w new (stageOf r') ∧ Holds l r' (os ++ new) ∧ r'.position = r.position := by
  rcases splitLong_cases cs with hsplit | ⟨name, v, rfl, hsplit⟩ <;> rw [hsplit] at hr
  · have hname : w = "--" ++ String.ofList cs := by
      rw [← String.toList_inj, hw]
      simp
    rw [takeLong] at hr
    split at hr
    next => cases hr
    next a ha =>
      split at hr
      next hform _ =>
        obtain ⟨hfree, hfree', h', hposition, -⟩ := h.put ht (by simp) hr
        rw [written, if_pos hform] at h'
        exact ⟨hfree, _, hname ▸ hfree' ▸ .mark ha hform, h', hposition⟩
      next => cases hr
      next he _ => cases he
      next _ hform =>
        obtain ⟨hfree, hwanting, h', hposition⟩ := h.await ht hform (ne_values_of_long? ha) hr
        exact ⟨hfree, [], hname ▸ hwanting ▸ .wanting ha hform, by simpa using h', hposition⟩
  · have hname : w = "--" ++ String.ofList name ++ "=" ++ String.ofList v := by
      rw [← String.toList_inj, hw]
      simp
    rw [takeLong] at hr
    split at hr
    next => cases hr
    next a ha =>
      split at hr
      next he => cases he
      next => cases hr
      next he hform =>
        obtain rfl := Option.some.inj he
        obtain ⟨hfree, hfree', h', hposition, -⟩ := h.put ht (by simp) hr
        rw [written_of_value hform] at h'
        exact ⟨hfree, _, hname ▸ hfree' ▸ .attached ha hform, h', hposition⟩
      next he _ => cases he

/-! ## Words -/

theorem form_of_position {n : Nat} (h : l.positions[n]? = some a) : a.form ≠ .mark := by
  have hall : ∀ a ∈ l.positions, a.form ≠ .mark := by cases l <;> decide
  exact hall a (List.mem_of_getElem? h)

/-- Only a call has a position for many words. -/
theorem values_of_position {n : Nat} (h : l.positions[n]? = some a) :
    (a.isRepeatable = true → a = .values) ∧ (a = .values → l = .call) := by
  have hall : ∀ a ∈ l.positions, (a.isRepeatable = true → a = .values) ∧ (a = .values → l = .call) := by
    cases l <;> decide
  exact hall a (List.mem_of_getElem? h)

/-- A position begins once all that was pending is settled. -/
theorem Holds.begin {w : String} (h : Holds l r os) (ha : l.positions[r.position]? = some a)
    (hr : takeWord.begin w a r = .ok r') :
    r.awaiting? = none ∧ Holds l r' (os ++ [(a, some w)]) ∧ r'.position = filled a r.position ∧
      r'.trailing = r.trailing ∧ r'.awaiting? = none := by
  obtain ⟨r₁, hsettle, hr⟩ := Except.bind_eq_ok.1 hr
  obtain ⟨g, rfl, hg, hawaiting⟩ := h.settle hsettle
  obtain rfl := Except.pure_eq_ok.1 hr
  exact ⟨hawaiting, .gathering hg (form_of_position ha) (.inl rfl) (values_of_position ha).2, rfl, rfl,
    rfl⟩

/-- A word for a position is held with what has been written before. -/
theorem Holds.takeWord {w : String} (h : Holds l r os) (hr : takeWord l r w = .ok r') :
    ∃ a, l.positions[r.position]? = some a ∧ r.awaiting? = none ∧ Holds l r' (os ++ [(a, some w)]) ∧
      r'.position = filled a r.position ∧ r'.trailing = r.trailing ∧ r'.awaiting? = none := by
  unfold Reading.takeWord at hr
  split at hr
  next => cases hr
  next a ha =>
    refine ⟨a, ha, ?_⟩
    split at hr
    next b words hrepeat hpending =>
      split_ifs at hr with hab
      · subst hab
        obtain rfl := Except.ok.inj hr
        obtain rfl := (values_of_position ha).1 hrepeat
        cases h with
        | settled h => cases hpending
        | awaiting h hform hvalues =>
          obtain ⟨rfl, -⟩ := Prod.mk.inj (Option.some.inj hpending)
          exact absurd rfl hvalues
        | @gathering os g b v vs n t h hform hone hvalues =>
          obtain ⟨rfl, rfl⟩ := Prod.mk.inj (Option.some.inj hpending)
          have hmore : Holds l ⟨g, some (.values, v :: (vs ++ [w])), n, t⟩
              (os ++ (v :: (vs ++ [w])).map fun w => (.values, some w)) :=
            .gathering h hform (.inr hrepeat) hvalues
          exact ⟨rfl, by simpa using hmore, rfl, rfl, rfl⟩
      · exact h.begin ha hr
    next => exact h.begin ha hr

/-- An option waits for its value, but only positions follow. -/
def IsStuck (r : Reading) : Prop := r.trailing = true ∧ r.awaiting? ≠ none

theorem awaiting?_eq_some : r.awaiting? = some a ↔ r.pending = some (a, []) := by
  unfold Reading.awaiting?
  split <;> simp_all

/-- The value that an option has been waiting for. -/
theorem Holds.answer {w : String} (h : Holds l r os) (ht : r.trailing = false)
    (ha : r.awaiting? = some a) (hw : a.takesAnything = true ∨ IsBare w)
    (hr : r' = { r with pending := some (a, [w]) }) :
    Word l r.position (stageOf r) w [(a, some w)] r'.position (stageOf r') ∧
      Holds l r' (os ++ [(a, some w)]) := by
  subst hr
  have hfree : stageOf { r with pending := some (a, [w]) } = .free := stageOf_free ht rfl
  rw [stageOf_wanting ht ha, hfree]
  refine ⟨.value hw, ?_⟩
  rw [awaiting?_eq_some] at ha
  cases h with
  | settled h => cases ha
  | awaiting h hform hvalues =>
    obtain ⟨rfl, -⟩ := Prod.mk.inj (Option.some.inj ha)
    exact .gathering h hform (.inl rfl) fun he => absurd he hvalues
  | gathering h hform hone hvalues => cases ha

theorem Holds.trail (h : Holds l r os) : Holds l { r with trailing := true } os := by
  cases h with
  | settled h => exact .settled h
  | awaiting h hform hvalues => exact .awaiting h hform hvalues
  | gathering h hform hone hvalues => exact .gathering h hform hone hvalues

/-- A word that may be an option is one of the grammar. -/
theorem Holds.takeOption {w : String} (h : Holds l r os) (ht : r.trailing = false)
    (hcommand : stageOf r = .free → w ∉ l.commandNames) (hr : takeOption l r w = .ok r') :
    ∃ new, Holds l r' (os ++ new) ∧
      (¬IsStuck r' → Word l r.position (stageOf r) w new r'.position (stageOf r')) := by
  unfold Reading.takeOption at hr
  split at hr
  next hw =>
    obtain rfl : w = "--" := by rw [← String.toList_inj, hw]; rfl
    obtain rfl := Except.ok.inj hr
    refine ⟨[], by simpa using h.trail, fun hstuck => ?_⟩
    have hawaiting : r.awaiting? = none := by
      by_contra hne
      exact hstuck ⟨rfl, hne⟩
    rw [stageOf_free ht hawaiting]
    exact .hyphens
  next cs _ hw =>
    obtain ⟨hfree, new, hflags, hholds, hposition⟩ := h.long ht hw hr
    rw [hfree, hposition]
    exact ⟨new, hholds, fun _ => .flags hflags⟩
  next c cs _ _ hw =>
    obtain ⟨hfree, hletters⟩ := h.letters ht hr
    have hfree := hfree (List.cons_ne_nil c cs)
    obtain ⟨new, hletters, hholds, hposition⟩ := hletters hfree
    obtain rfl : w = String.ofList ('-' :: c :: cs) := by rw [← hw, String.ofList_toList]
    rw [hfree, hposition]
    exact ⟨new, hholds, fun _ => .flags (.letters hletters)⟩
  next _ _ hhyphen =>
    have hbare : IsBare w := by
      rcases hw : w.toList with _ | ⟨c, _ | ⟨d, cs⟩⟩
      · exact .inr (by simp [hw])
      · by_cases hc : c = '-'
        · exact .inl (by rw [← String.toList_inj, hw, hc]; rfl)
        · exact .inr (by simp [hw, hc])
      · refine .inr fun hhead => ?_
        obtain rfl : c = '-' := by simpa [hw] using hhead
        exact hhyphen d cs hw
    split at hr
    next a ha =>
      obtain ⟨hword, hholds⟩ := h.answer ht ha (.inr hbare) (Except.ok.inj hr).symm
      exact ⟨_, hholds, fun _ => hword⟩
    next ha =>
      obtain ⟨a, hposition, -, hholds, hfilled, htrailing, hawaiting⟩ := h.takeWord hr
      have hfree := stageOf_free ht ha
      rw [hfree, stageOf_free (htrailing.trans ht) hawaiting, hfilled]
      exact ⟨_, hholds, fun _ => .position hbare (hcommand hfree) hposition⟩

/-- A word that is taken is one of the grammar, unless it keeps an option from its value. -/
theorem Holds.take {w : String} (h : Holds l r os)
    (hcommand : stageOf r = .free → w ∉ l.commandNames) (hr : take l r w = .ok r') :
    ∃ new, Holds l r' (os ++ new) ∧
      (¬IsStuck r' → Word l r.position (stageOf r) w new r'.position (stageOf r')) := by
  unfold Reading.take at hr
  split_ifs at hr with ht hany
  · obtain ⟨a, hposition, -, hholds, hfilled, htrailing, -⟩ := h.takeWord hr
    rw [stageOf_trailing ht, stageOf_trailing (htrailing.trans ht), hfilled]
    exact ⟨_, hholds, fun _ => .behind hposition⟩
  · obtain ⟨a, ha, hanything⟩ : ∃ a, r.awaiting? = some a ∧ a.takesAnything = true := by
      unfold Reading.takesAnything at hany
      split at hany
      next a ha => exact ⟨a, ha, hany⟩
      next => cases hany
    rw [awaiting?_eq_some.1 ha] at hr
    obtain ⟨hword, hholds⟩ :=
      h.answer (by simpa using ht) ha (.inl hanything) (Except.ok.inj hr).symm
    exact ⟨_, hholds, fun _ => hword⟩
  · exact h.takeOption (by simpa using ht) hcommand hr

/-! ## Levels -/

/-- What is asked for by the innermost level, with what is given at every level. -/
inductive Asks : List (Level × List Occurrence) → List Given → Command → Prop
  | inner {l : Level} {os : List Occurrence} {g : Given} {c : Command} (h : Settled os g)
    (hc : commandOf l g = .ok c) : Asks [(l, os)] [g] c
  | outer {l : Level} {os : List Occurrence} {g : Given} {levels : List (Level × List Occurrence)}
    {gs : List Given} {c : Command} (h : Settled os g) (hs : Asks levels gs c) :
    Asks ((l, os) :: levels) (g :: gs) c

/-- An option that is kept from its value is an error. -/
theorem Holds.not_stuck {ws : List String} {x : List Given × Command} (h : Holds l r os)
    (hread : readLevels l r ws = .ok x) : ¬IsStuck r := by
  rintro ⟨ht, hawaiting⟩
  cases ws with
  | nil =>
    obtain ⟨g, hg, -⟩ := Except.bind_eq_ok.1 hread
    exact hawaiting (h.settled_of hg).2
  | cons w ws =>
    have hnone : r.command? l w = none := by simp [Reading.command?, ht]
    rw [readLevels, hnone] at hread
    obtain ⟨r', htake, -⟩ := Except.bind_eq_ok.1 hread
    rw [Reading.take, if_pos ht] at htake
    obtain ⟨a, -, hnone, -⟩ := h.takeWord htake
    exact hawaiting hnone

theorem command?_eq_some {w name : String} (h : r.command? l w = some name) :
    name = w ∧ r.trailing = false := by
  simp only [Reading.command?, Option.ite_none_right_eq_some] at h
  obtain ⟨hcond, hname⟩ := h
  simp only [Bool.and_eq_true, Bool.not_eq_true'] at hcond
  exact ⟨(Option.some.inj hname).symm, hcond.1.1⟩

/-- A word that may be a command and is not taken for one is none. -/
theorem Holds.not_command {w : String} (h : Holds l r os) (hnone : r.command? l w = none)
    (hfree : stageOf r = .free) : w ∉ l.commandNames := by
  intro hw
  have ht : r.trailing = false := by
    by_contra ht
    rw [stageOf_trailing (by simpa using ht)] at hfree
    cases hfree
  have hbusy : r.isFree = false := by
    simpa [Reading.command?, ht, hw] using hnone
  cases h with
  | settled h => cases hbusy
  | awaiting h hform hvalues =>
    rw [stageOf_wanting ht rfl] at hfree
    cases hfree
  | gathering h hform hone hvalues =>
    -- Only the values of a call keep a word from being a command, and a call has no commands.
    obtain rfl := hvalues (by simpa [Reading.isFree] using hbusy)
    cases hw

/-- What is read from a level on is written there. -/
theorem Holds.exists_words {ws : List String} {gs : List Given} {c : Command} (h : Holds l r os)
    (hread : readLevels l r ws = .ok (gs, c)) :
    ∃ new below, Words l r.position (stageOf r) ws new below ∧
      Asks ((l, os ++ new) :: below) gs c := by
  induction ws generalizing l r os gs with
  | nil =>
    obtain ⟨g, hg, hread⟩ := Except.bind_eq_ok.1 hread
    obtain ⟨c', hc, hread⟩ := Except.bind_eq_ok.1 hread
    obtain ⟨rfl, rfl⟩ := Prod.mk.inj (Except.pure_eq_ok.1 hread)
    obtain ⟨hsettled, hawaiting⟩ := h.settled_of hg
    refine ⟨[], [], .done fun a ha => ?_, by simpa using Asks.inner hsettled hc⟩
    simp only [stageOf, hawaiting] at ha
    split_ifs at ha
  | cons w ws ih =>
    rw [readLevels] at hread
    split at hread
    next name hname =>
      obtain ⟨rfl, ht⟩ := command?_eq_some hname
      split at hread
      next => cases hread
      next below hbelow =>
        obtain ⟨⟨gs', c'⟩, hrest, hread⟩ := Except.bind_eq_ok.1 hread
        obtain ⟨g, hg, hread⟩ := Except.bind_eq_ok.1 hread
        obtain ⟨rfl, rfl⟩ := Prod.mk.inj (Except.pure_eq_ok.1 hread)
        obtain ⟨hsettled, hawaiting⟩ := h.settled_of hg
        obtain ⟨new, levels, hwords, hasks⟩ := ih (.settled settled_nil) hrest
        rw [stageOf_free ht hawaiting]
        have hmem : (name, below) ∈ l.commands := by
          obtain ⟨before, after, heq, -⟩ := List.lookup_eq_some_iff.1 hbelow
          rw [heq]
          exact List.mem_append_right _ List.mem_cons_self
        exact ⟨[], _, .command hmem hwords, .outer (by simpa using hsettled) hasks⟩
    next hnone =>
      obtain ⟨r', htake, hread⟩ := Except.bind_eq_ok.1 hread
      obtain ⟨new, hholds, hword⟩ := h.take (h.not_command hnone) htake
      obtain ⟨new', below, hwords, hasks⟩ := ih hholds hread
      rw [List.append_assoc] at hasks
      exact ⟨new ++ new', below, .word (hword (hholds.not_stuck hread)) hwords, hasks⟩

end

/-- A command line that is read is one of the grammar, and just what is written at each of its levels has
been read there. -/
theorem exists_line_of_parse {words : List String} {l : CommandLine} (h : parse words = .ok l) :
    ∃ levels gs, Line words levels ∧ Asks levels gs l.command ∧
      l.includePaths = (innermost gs .includePath).map Path.ofText ∧
        l.generatorArgs = innermost gs .generatorArg := by
  obtain ⟨⟨gs, c⟩, hread, h⟩ := Except.bind_eq_ok.1 h
  obtain ⟨os, below, hwords, hasks⟩ := Holds.exists_words (.settled settled_nil) hread
  dsimp only at h
  split at h
  next => cases h
  next =>
    obtain rfl := Except.ok.inj h
    exact ⟨_, gs, .mk hwords, hasks, rfl, rfl⟩

end ServiceCall.CommandLine
