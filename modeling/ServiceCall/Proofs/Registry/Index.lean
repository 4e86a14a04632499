import Mathlib.Data.List.Induction
import ServiceCall.Proofs.Json.Members
import ServiceCall.Registry.Index
/-!
# Looking up in indexes and method tables

The positions of an index are those of its keys, each of which stands where its entry does
(`Index.Sound`), and every entry that is put in keeps them so. After any insertions the index holds the
last entry of each key, at the place where the key came first (`Index.holds_ofList`), and no position
leads out of its entries. In a method table it is the first method of a name that is found
(`MethodTable.tabulates_ofList`).
-/

namespace ServiceCall

/-! ## First occurrences -/

/-- Without its repetitions a list is in the order of the first occurrences. -/
theorem pairwise_idxOf_eraseDups (names : List String) :
    names.eraseDups.Pairwise fun a b => names.idxOf a < names.idxOf b := by
  induction names using List.reverseRecOn with
  | nil => exact .nil
  | append_singleton names name ih =>
    have hold : names.eraseDups.Pairwise fun a b =>
        (names ++ [name]).idxOf a < (names ++ [name]).idxOf b := by
      refine ih.imp_of_mem fun ha hb hlt => ?_
      rwa [List.idxOf_append_of_mem (List.mem_eraseDups.1 ha),
        List.idxOf_append_of_mem (List.mem_eraseDups.1 hb)]
    rw [List.eraseDups_append]
    by_cases hmem : name ∈ names
    · have hnothing : [name].removeAll names = [] := by simp [List.removeAll, hmem]
      rw [hnothing, List.eraseDups_nil, List.append_nil]
      exact hold
    · have hnew : [name].removeAll names = [name] := by simp [List.removeAll, hmem]
      rw [hnew, List.eraseDups_cons, List.pairwise_append]
      refine ⟨hold, by simp, fun a ha b hb => ?_⟩
      obtain rfl : b = name := by simpa using hb
      have hlt := List.idxOf_lt_length_of_mem (List.mem_eraseDups.1 ha)
      rwa [List.idxOf_append_of_mem (List.mem_eraseDups.1 ha), List.idxOf_append_of_notMem hmem,
        List.idxOf_cons_self, Nat.add_zero]

theorem nodup_eraseDups (names : List String) : names.eraseDups.Nodup :=
  (pairwise_idxOf_eraseDups names).imp fun hlt heq => absurd (heq ▸ hlt) (Nat.lt_irrefl _)

/-- A name that comes last is listed last, unless it came before. -/
theorem eraseDups_concat (names : List String) (name : String) : (names ++ [name]).eraseDups =
    if name ∈ names.eraseDups then names.eraseDups else names.eraseDups ++ [name] := by
  rw [List.eraseDups_append]
  split
  next hmem => simp [List.removeAll, List.mem_eraseDups.1 hmem]
  next hmem => simp [List.removeAll, mt List.mem_eraseDups.2 hmem, List.eraseDups_cons]

namespace Index

variable {α : Type} {keys : List String} {x : Index α} {key : String} {value : α}

/-! ## Insertions -/

/-- An index knows the positions of its keys, which stand in the order of its entries. -/
structure Sound (keys : List String) (x : Index α) : Prop where
  length : x.entries.length = keys.length
  /-- A position is known for a key exactly if the key stands there. -/
  position (key : String) (i : Nat) : x.position? key = some i ↔ keys[i]? = some key
  /-- No key is stored twice. -/
  stored : (x.positions.map (·.1)).Nodup

theorem sound_empty : (empty : Index α).Sound [] where
  length := rfl
  position key i := by simp [position?, empty, Json.member?]
  stored := .nil

namespace Sound

theorem lt_length (h : x.Sound keys) {i : Nat} (hi : x.position? key = some i) :
    i < x.entries.length :=
  h.length ▸ (List.getElem?_eq_some_iff.1 ((h.position key i).1 hi)).1

/-- A position is known exactly for the keys. -/
theorem position?_eq_none_iff (h : x.Sound keys) : x.position? key = none ↔ key ∉ keys := by
  rw [Option.eq_none_iff_forall_ne_some, List.mem_iff_getElem?, not_exists]
  exact forall_congr' fun i => not_congr (h.position key i)

/-- No key stands at two places. -/
theorem eq_of_position? (h : x.Sound keys) {k : String} {i : Nat} (hi : x.position? key = some i)
    (hk : x.position? k = some i) : k = key := by
  rw [h.position] at hi hk
  exact Option.some.inj (hk.symm.trans hi)

/-- Putting an entry in keeps the positions; a new key takes the last one. -/
theorem insert (h : x.Sound keys) (key : String) (value : α) :
    (x.insert key value).Sound (if key ∈ keys then keys else keys ++ [key]) := by
  unfold Index.insert
  cases hi : x.position? key with
  | some i =>
    have hmem : key ∈ keys := List.mem_of_getElem? ((h.position key i).1 hi)
    rw [if_pos hmem]
    exact ⟨List.length_set.trans h.length, h.position, h.stored⟩
  | none =>
    have hnew : key ∉ keys := h.position?_eq_none_iff.1 hi
    rw [if_neg hnew]
    refine ⟨by simp [h.length], fun k j => ?_, ?_⟩
    · have hconcat : (keys ++ [key])[j]? = some k ↔ keys[j]? = some k ∨ j = keys.length ∧ key = k := by
        grind
      rw [hconcat, ← h.position, position?, Json.member?, h.length]
      by_cases hk : key = k
      · subst hk
        have hnone : x.position? key ≠ some j := by simp [hi]
        simp [hnone, eq_comm]
      · simp [hk, position?]
    · have hfree : key ∉ x.positions.map (·.1) := Json.member?_eq_none_iff.1 hi
      exact List.nodup_cons.2 ⟨hfree, h.stored⟩

/-- An entry that was put in is found under its key, and those of other keys stay. -/
theorem get?_insert (h : x.Sound keys) (key : String) (value : α) (k : String) :
    (x.insert key value).get? k = if k = key then some value else x.get? k := by
  unfold get? Index.insert
  cases hi : x.position? key with
  | some i =>
    show (x.position? k).bind ((x.entries.set i value)[·]?) = _
    split
    next hk => rw [hk, hi, Option.bind_some, List.getElem?_set_self (h.lt_length hi)]
    next hk =>
      cases hj : x.position? k with
      | none => rfl
      | some j =>
        have hij : i ≠ j := fun heq => hk (h.eq_of_position? hi (heq ▸ hj))
        rw [Option.bind_some, Option.bind_some, List.getElem?_set_ne hij]
  | none =>
    show (Json.member? k ((key, x.entries.length) :: x.positions)).bind
      ((x.entries ++ [value])[·]?) = _
    rw [Json.member?]
    by_cases hk : key = k
    · rw [if_pos hk, if_pos hk.symm, Option.bind_some, List.getElem?_concat_length]
    · rw [if_neg hk, if_neg (Ne.symm hk)]
      show (x.position? k).bind _ = _
      cases hj : x.position? k with
      | none => rfl
      | some j =>
        rw [Option.bind_some, Option.bind_some, List.getElem?_append_left (h.lt_length hj)]

/-- The entries are what is found under the keys. -/
theorem forall₂_get? (h : x.Sound keys) :
    List.Forall₂ (fun key value => x.get? key = some value) keys x.entries := by
  refine List.forall₂_iff_get.2 ⟨h.length.symm, fun i hi hi' => ?_⟩
  have hposition : x.position? (keys.get ⟨i, hi⟩) = some i := by
    rw [h.position, List.getElem?_eq_getElem hi]
    rfl
  rw [get?, hposition, Option.bind_some, List.getElem?_eq_getElem hi']
  rfl

theorem mem_positions_iff (h : x.Sound keys) {i : Nat} :
    (key, i) ∈ x.positions ↔ keys[i]? = some key := by
  rw [← h.position, position?, Json.member?_eq_some_iff h.stored]

end Sound

theorem ofList_concat (pairs : List (String × α)) (pair : String × α) :
    ofList (pairs ++ [pair]) = (ofList pairs).insert pair.1 pair.2 := by
  rw [ofList, List.foldl_append]
  rfl

/-- After any insertions the positions are those of the keys in the order in which they came first. -/
theorem sound_ofList (pairs : List (String × α)) :
    (ofList pairs).Sound (pairs.map (·.1)).eraseDups := by
  induction pairs using List.reverseRecOn with
  | nil => exact sound_empty
  | append_singleton pairs pair ih =>
    rw [ofList_concat, List.map_append, List.map_singleton, eraseDups_concat]
    exact ih.insert pair.1 pair.2

/-- Of the entries with a key the last is found. -/
theorem get?_ofList (pairs : List (String × α)) (key : String) :
    (ofList pairs).get? key = (pairs.reverse.find? (·.1 == key)).map (·.2) := by
  induction pairs using List.reverseRecOn with
  | nil => rfl
  | append_singleton pairs pair ih =>
    rw [ofList_concat, (sound_ofList pairs).get?_insert, ih, List.reverse_concat, List.find?_cons]
    by_cases hkey : key = pair.1
    · rw [if_pos hkey, hkey, beq_self_eq_true]
      rfl
    · rw [if_neg hkey, beq_eq_false_iff_ne.2 (Ne.symm hkey)]

/-- Every name is listed once, where it came first. -/
theorem map_ofList {name : α → String} {pairs : List (String × α)}
    (hnames : ∀ q ∈ pairs, name q.2 = q.1) :
    (ofList pairs).entries.map name = (pairs.map (·.1)).eraseDups := by
  have hfound : List.Forall₂ (fun key value => name value = key) (pairs.map (·.1)).eraseDups
      (ofList pairs).entries := by
    refine (sound_ofList pairs).forall₂_get?.imp fun key value hget => ?_
    rw [get?_ofList, Option.map_eq_some_iff] at hget
    obtain ⟨q, hq, rfl⟩ := hget
    rw [hnames q (List.mem_reverse.1 (List.mem_of_find?_eq_some hq))]
    simpa using List.find?_some hq
  rw [← List.forall₂_eq_eq_eq, List.forall₂_map_left_iff]
  exact hfound.flip

/-! ## What an index holds -/

/-- The value is the one that is put in last under a key. -/
def Last (pairs : List (String × α)) (key : String) (value : α) : Prop :=
  ∃ before after, pairs = before ++ (key, value) :: after ∧ key ∉ after.map (·.1)

/-- Keys that come with values, each once, in the order in which they come first. -/
structure Keys (pairs : List (String × α)) (keys : List String) : Prop where
  nodup : keys.Nodup
  mem (key : String) : key ∈ keys ↔ key ∈ pairs.map (·.1)
  order : keys.Pairwise fun a b => (pairs.map (·.1)).idxOf a < (pairs.map (·.1)).idxOf b

/-- An index holds what was put in: its positions and its entries belong to each other, and of what was
put in under a key it has the last, where the key came first. -/
structure Holds (pairs : List (String × α)) (x : Index α) : Prop where
  /-- Every position that is known is one of an entry. -/
  within : ∀ q ∈ x.positions, q.2 < x.entries.length
  /-- No key has two positions, -/
  single : (x.positions.map (·.1)).Nodup
  /-- and no position has two keys. -/
  apart : ∀ q ∈ x.positions, ∀ r ∈ x.positions, q.2 = r.2 → q.1 = r.1
  /-- The position of every entry belongs to exactly one key. -/
  owned : ∀ i < x.entries.length, ∃! key, (key, i) ∈ x.positions
  found (key : String) (value : α) : x.get? key = some value ↔ Last pairs key value
  missing (key : String) : x.get? key = none ↔ key ∉ pairs.map (·.1)
  entries : ∃ keys, Keys pairs keys ∧ List.Forall₂ (Last pairs) keys x.entries

theorem keys_eraseDups (pairs : List (String × α)) : Keys pairs (pairs.map (·.1)).eraseDups :=
  ⟨nodup_eraseDups _, fun _ => List.mem_eraseDups, pairwise_idxOf_eraseDups _⟩

theorem get?_ofList_eq_some {pairs : List (String × α)} :
    (ofList pairs).get? key = some value ↔ Last pairs key value := by
  rw [get?_ofList, Option.map_eq_some_iff]
  constructor
  · rintro ⟨⟨k, v⟩, hfind, rfl⟩
    obtain ⟨hk, after, before, hsplit, hafter⟩ := List.find?_eq_some_iff_append.1 hfind
    obtain rfl : k = key := by simpa using hk
    refine ⟨before.reverse, after.reverse, ?_, fun hmem => ?_⟩
    · rw [← List.reverse_reverse pairs, hsplit]
      simp
    · obtain ⟨q, hq, hname⟩ := List.mem_map.1 hmem
      simpa [hname] using hafter q (List.mem_reverse.1 hq)
  · rintro ⟨before, after, rfl, hafter⟩
    refine ⟨(key, value), List.find?_eq_some_iff_append.2 ⟨beq_self_eq_true key, after.reverse,
      before.reverse, by simp, fun q hq => ?_⟩, rfl⟩
    have hne : q.1 ≠ key := fun heq =>
      hafter (heq ▸ List.mem_map_of_mem (List.mem_reverse.1 hq))
    simpa using hne

theorem get?_ofList_eq_none {pairs : List (String × α)} :
    (ofList pairs).get? key = none ↔ key ∉ pairs.map (·.1) := by
  rw [get?_ofList, Option.map_eq_none_iff, List.find?_eq_none, List.mem_map, not_exists]
  refine forall_congr' fun q => ?_
  rw [List.mem_reverse, beq_iff_eq, not_and]

/-- After any insertions into the index without entries, whatever keys come again: every position that is
stored is one of the entries, keys and positions belong to each other one by one, what is found under a
key is what was put in last, and the entries are the last values of the keys in the order in which these
came first. -/
theorem holds_ofList (pairs : List (String × α)) : (ofList pairs).Holds pairs := by
  have h := sound_ofList pairs
  refine ⟨fun q hq => ?_, h.stored, fun q hq r hr hqr => ?_, fun i hi => ?_,
    fun _ _ => get?_ofList_eq_some, fun _ => get?_ofList_eq_none, _, keys_eraseDups pairs,
    h.forall₂_get?.imp fun _ _ => get?_ofList_eq_some.1⟩
  · exact h.lt_length ((h.position q.1 q.2).2 (h.mem_positions_iff.1 hq))
  · have hq := h.mem_positions_iff.1 hq
    rw [hqr, h.mem_positions_iff.1 hr] at hq
    exact (Option.some.inj hq).symm
  · have hi' := h.length ▸ hi
    refine ⟨(pairs.map (·.1)).eraseDups[i], h.mem_positions_iff.2 (List.getElem?_eq_getElem hi'),
      fun key hkey => ?_⟩
    have hat := h.mem_positions_iff.1 hkey
    rw [List.getElem?_eq_getElem hi'] at hat
    exact (Option.some.inj hat).symm

end Index

namespace MethodTable

/-! ## Method tables -/

/-- The positions that are added are those of the first methods of their names. -/
theorem member?_index (name : String) (methods : List Method) (start : Nat)
    (positions : List (String × Nat)) :
    Json.member? name (index start methods positions) = (Json.member? name positions).or
      ((methods.findIdx? (·.name == name)).map (· + start)) := by
  induction methods generalizing start positions with
  | nil => rw [index, List.findIdx?_nil, Option.map_none, Option.or_none]
  | cons m rest ih =>
    rw [index, ih, List.findIdx?_cons]
    cases hm : Json.member? m.name positions with
    | some i =>
      by_cases hname : m.name = name
      · rw [← hname, hm]
        rfl
      · rw [beq_eq_false_iff_ne.2 hname]
        simp [Function.comp_def, Nat.add_assoc, Nat.add_comm 1]
    | none =>
      by_cases hname : m.name = name
      · rw [Json.member?_append, ← hname, hm, beq_self_eq_true]
        simp [Json.member?]
      · rw [Json.member?_append, beq_eq_false_iff_ne.2 hname]
        simp [Json.member?, hname, Function.comp_def, Nat.add_assoc, Nat.add_comm 1]

/-- No name is stored twice. -/
theorem nodup_index {methods : List Method} {start : Nat} {positions : List (String × Nat)}
    (h : (positions.map (·.1)).Nodup) : ((index start methods positions).map (·.1)).Nodup := by
  induction methods generalizing start positions with
  | nil => exact h
  | cons m rest ih =>
    rw [index]
    refine ih ?_
    split
    next => exact h
    next hm =>
      rw [List.map_append, List.map_singleton, ← List.concat_eq_append]
      exact List.Nodup.concat (Json.member?_eq_none_iff.1 hm) h

/-- What is stored of a name is the position of its first method. -/
theorem mem_positions_iff {methods : List Method} {name : String} {i : Nat} :
    (name, i) ∈ (ofList methods).positions ↔ methods.findIdx? (·.name == name) = some i := by
  have hnodup : ((ofList methods).positions.map (·.1)).Nodup := nodup_index .nil
  rw [← Json.member?_eq_some_iff hnodup, ofList, member?_index, Json.member?, Option.none_or]
  simp

/-- Of the methods of a name the first is found. -/
theorem find?_ofList (methods : List Method) (name : String) :
    (ofList methods).find? name = methods.find? (·.name == name) := by
  rw [find?, ofList, member?_index, Json.member?, Option.none_or,
    List.find?_eq_bind_findIdx?_getElem?]
  simp

/-- The method is the first one of a name. -/
def First (methods : List Method) (name : String) (m : Method) : Prop :=
  ∃ before after, methods = before ++ m :: after ∧ m.name = name ∧ name ∉ before.map (·.name)

/-- A table has the methods of a list, in their order, and finds the first one of each name. -/
structure Tabulates (methods : List Method) (t : MethodTable) : Prop where
  toList : t.toList = methods
  length : t.length = methods.length
  isEmpty : t.isEmpty = true ↔ methods = []
  default : t.default? = methods.head?
  /-- Every position that is stored is one of a method. -/
  within : ∀ q ∈ t.positions, q.2 < t.methods.length
  /-- No name has two positions. -/
  single : (t.positions.map (·.1)).Nodup
  found (name : String) (m : Method) : t.find? name = some m ↔ First methods name m
  missing (name : String) : t.find? name = none ↔ name ∉ methods.map (·.name)

theorem find?_ofList_eq_some {methods : List Method} {name : String} {m : Method} :
    (ofList methods).find? name = some m ↔ First methods name m := by
  rw [find?_ofList, List.find?_eq_some_iff_append, beq_iff_eq]
  constructor
  · rintro ⟨hname, before, after, hsplit, hbefore⟩
    refine ⟨before, after, hsplit, hname, fun hmem => ?_⟩
    obtain ⟨m', hm', hname'⟩ := List.mem_map.1 hmem
    simpa [hname'] using hbefore m' hm'
  · rintro ⟨before, after, hsplit, hname, hbefore⟩
    refine ⟨hname, before, after, hsplit, fun m' hm' => ?_⟩
    have hne : m'.name ≠ name := fun heq => hbefore (heq ▸ List.mem_map_of_mem hm')
    simpa using hne

theorem find?_ofList_eq_none {methods : List Method} {name : String} :
    (ofList methods).find? name = none ↔ name ∉ methods.map (·.name) := by
  rw [find?_ofList, List.find?_eq_none, List.mem_map, not_exists]
  refine forall_congr' fun m => ?_
  rw [beq_iff_eq, not_and]

/-- The table of any list of methods, also of one in which names come again, has just these methods in
their order. Under a name it finds the first method of the list that is called so, and it finds none only
if there is none; no position that it stores is outside of the list. -/
theorem tabulates_ofList (methods : List Method) : (ofList methods).Tabulates methods where
  toList := rfl
  length := rfl
  isEmpty := List.isEmpty_iff
  default := rfl
  within q hq := by
    obtain ⟨hlt, -⟩ := List.findIdx?_eq_some_iff_getElem.1 (mem_positions_iff.1 hq)
    exact hlt
  single := nodup_index .nil
  found _ _ := find?_ofList_eq_some
  missing _ := find?_ofList_eq_none

end MethodTable

end ServiceCall
