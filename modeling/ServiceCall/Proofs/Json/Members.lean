import Mathlib.Data.List.Nodup
import Mathlib.Data.String.Basic
import ServiceCall.Json.Value
/-!
# Members of objects

Members are put into an object one after the other. As long as every key is new, the object
holds just these members (`insertMembers_perm`), so what it holds under a key is what was put
there (`get?_ofMembers`). Where keys come again it is the last one's value that counts
(`get?_ofMembers_eq`).

Two JSON values compare as equal if they are the same but for the signs of zeros (`Json.Alike`).
An object keeps its members in the ascending order of their keys (`ascending_sorted`), so what
stands under each key is all there is to it: objects made of members that agree key by key compare
as equal, whatever order the members came in (`ofMembers_alike`).
-/

namespace ServiceCall.Json

section

variable {α : Type}

theorem insertMember_perm {key : String} {value : α} {members : List (String × α)}
    (h : key ∉ members.map (·.1)) :
    (insertMember key value members).Perm ((key, value) :: members) := by
  induction members with
  | nil => rfl
  | cons m rest ih =>
    obtain ⟨k, v⟩ := m
    rw [List.map_cons, List.mem_cons, not_or] at h
    rw [insertMember]
    split
    · rfl
    · rw [if_neg h.1]
      exact ((ih h.2).cons (k, v)).trans (List.Perm.swap ..)

/-- Members of different keys are all there, whatever order they are put in. -/
theorem insertMembers_perm {members before : List (String × α)}
    (h : ((before ++ members).map (·.1)).Nodup) :
    (members.foldl (fun o m => insertMember m.1 m.2 o) before).Perm (before ++ members) := by
  induction members generalizing before with
  | nil => simp
  | cons m rest ih =>
    have hm : m.1 ∉ before.map (·.1) := by
      rw [List.map_append, List.map_cons, List.nodup_append] at h
      exact fun hmem => h.2.2 _ hmem _ List.mem_cons_self rfl
    have hinsert : (insertMember m.1 m.2 before).Perm (before ++ [m]) :=
      (insertMember_perm hm).trans (List.perm_append_singleton m before).symm
    have hall : (insertMember m.1 m.2 before ++ rest).Perm (before ++ m :: rest) := by
      rw [List.append_cons]
      exact hinsert.append_right rest
    rw [List.foldl_cons]
    exact (ih ((hall.map _).nodup_iff.2 h)).trans hall

/-- Of the members with a key the first is found. -/
theorem member?_append (key : String) (s t : List (String × α)) :
    member? key (s ++ t) = (member? key s).or (member? key t) := by
  induction s with
  | nil => rfl
  | cons m rest ih =>
    obtain ⟨k, v⟩ := m
    rw [List.cons_append, member?, member?]
    split
    · rfl
    · exact ih

theorem member?_eq_some_iff {key : String} {value : α} {members : List (String × α)}
    (h : (members.map (·.1)).Nodup) :
    member? key members = some value ↔ (key, value) ∈ members := by
  induction members with
  | nil => simp [member?]
  | cons m rest ih =>
    obtain ⟨k, v⟩ := m
    obtain ⟨hk, hrest⟩ := List.nodup_cons.1 h
    rw [member?, List.mem_cons]
    by_cases hkey : k = key
    · subst hkey
      have hnot : (k, value) ∉ rest := fun hmem => hk (List.mem_map.2 ⟨_, hmem, rfl⟩)
      simp [hnot, eq_comm]
    · have hne : ¬(key, value) = (k, v) := fun he => hkey (congrArg Prod.fst he).symm
      simp [hkey, hne, ih hrest]

theorem mem_of_member?_eq_some {key : String} {value : α} {members : List (String × α)}
    (h : member? key members = some value) : (key, value) ∈ members := by
  induction members with
  | nil => cases h
  | cons m rest ih =>
    obtain ⟨k, v⟩ := m
    rw [member?] at h
    split_ifs at h with hk
    · obtain rfl := Option.some.inj h
      exact hk ▸ List.mem_cons_self
    · exact List.mem_cons_of_mem _ (ih h)

theorem member?_eq_none_iff {key : String} {members : List (String × α)} :
    member? key members = none ↔ key ∉ members.map (·.1) := by
  induction members with
  | nil => simp [member?]
  | cons m rest ih =>
    obtain ⟨k, v⟩ := m
    by_cases hk : k = key
    · simp [member?, hk]
    · simp [member?, hk, Ne.symm hk, ih]

theorem member?_insertMember (key k : String) (value : α) (members : List (String × α)) :
    member? key (insertMember k value members) =
      if k = key then some value else member? key members := by
  split_ifs with hk
  · exact hk ▸ member?_insertMember_self k value members
  · induction members with
    | nil => simp [insertMember, member?, hk]
    | cons m rest ih =>
      obtain ⟨k', v⟩ := m
      rw [insertMember]
      split_ifs with hlt heq
      · rw [member?, if_neg hk]
      · rw [member?, member?, if_neg hk, if_neg (heq ▸ hk)]
      · rw [member?, member?, ih]

theorem member?_insertMembers (key : String) (members before : List (String × α)) :
    member? key (members.foldl (fun o m => insertMember m.1 m.2 o) before) =
      (member? key members.reverse).or (member? key before) := by
  induction members generalizing before with
  | nil => rfl
  | cons m rest ih =>
    rw [List.foldl_cons, ih, List.reverse_cons, member?_append, member?_insertMember,
      Option.or_assoc]
    congr 1
    obtain ⟨k, v⟩ := m
    rw [member?, member?]
    split_ifs <;> rfl

/-- The last one of the members with a key counts. -/
theorem get?_ofMembers_eq (key : String) (members : List (String × Json)) :
    (ofMembers members).get? key = member? key members.reverse :=
  (member?_insertMembers key members []).trans (Option.or_none ..)

/-- Under a key whose members all have one value stands this value. -/
theorem get?_ofMembers_of_unique {key : String} {members : List (String × Json)}
    (h : ∀ v w, (key, v) ∈ members → (key, w) ∈ members → v = w) {value : Json} :
    (ofMembers members).get? key = some value ↔ (key, value) ∈ members := by
  rw [get?_ofMembers_eq]
  constructor
  · exact fun hv => List.mem_reverse.1 (mem_of_member?_eq_some hv)
  · intro hmem
    cases hv : member? key members.reverse with
    | none =>
      exact absurd (List.mem_map_of_mem (List.mem_reverse.2 hmem)) (member?_eq_none_iff.1 hv)
    | some w => rw [h _ _ (List.mem_reverse.1 (mem_of_member?_eq_some hv)) hmem]

/-- The members of an object made of members with different keys. -/
theorem exists_ofMembers {members : List (String × Json)} (h : (members.map (·.1)).Nodup) :
    ∃ sorted, ofMembers members = .object sorted ∧ sorted.Perm members :=
  ⟨_, rfl, insertMembers_perm h⟩

theorem get?_ofMembers {members : List (String × Json)} (h : (members.map (·.1)).Nodup)
    {key : String} {value : Json} :
    (ofMembers members).get? key = some value ↔ (key, value) ∈ members := by
  obtain ⟨sorted, hobject, hperm⟩ := exists_ofMembers h
  rw [hobject, get?, member?_eq_some_iff ((hperm.map _).nodup_iff.2 h), hperm.mem_iff]

end

/-! ## Members in order -/

/-- The members of the object that is made of the given ones. -/
def sorted {α : Type} (members : List (String × α)) : List (String × α) :=
  members.foldl (fun o m => insertMember m.1 m.2 o) []

theorem ofMembers_eq (members : List (String × Json)) : ofMembers members = .object (sorted members) :=
  rfl

section

variable {α : Type} {members : List (String × α)} {key : String} {value : α}

/-- Every key is less than those behind it. -/
def Ascending (members : List (String × α)) : Prop := members.Pairwise fun x y => x.1 < y.1

theorem mem_of_mem_insertMember {x : String × α} (h : x ∈ insertMember key value members) :
    x = (key, value) ∨ x ∈ members := by
  induction members with
  | nil => exact .inl (List.mem_singleton.1 h)
  | cons y rest ih =>
    obtain ⟨k, v⟩ := y
    rw [insertMember] at h
    split_ifs at h
    · exact List.mem_cons.1 h
    · exact (List.mem_cons.1 h).imp_right (.tail _)
    · obtain rfl | h := List.mem_cons.1 h
      · exact .inr List.mem_cons_self
      · exact (ih h).imp_right (.tail _)

theorem Ascending.insertMember (h : Ascending members) (key : String) (value : α) :
    Ascending (insertMember key value members) := by
  induction members with
  | nil => exact List.pairwise_singleton ..
  | cons y rest ih =>
    obtain ⟨k, v⟩ := y
    obtain ⟨hfirst, hrest⟩ := List.pairwise_cons.1 h
    rw [Json.insertMember]
    split_ifs with hlt heq
    · refine List.pairwise_cons.2 ⟨fun x hx => ?_, h⟩
      obtain rfl | hx := List.mem_cons.1 hx
      · exact hlt
      · exact lt_trans hlt (hfirst x hx)
    · exact List.pairwise_cons.2 ⟨fun x hx => heq ▸ hfirst x hx, hrest⟩
    · refine List.pairwise_cons.2 ⟨fun x hx => ?_, ih hrest⟩
      obtain rfl | hx := mem_of_mem_insertMember hx
      · exact lt_of_le_of_ne (not_lt.1 hlt) (Ne.symm heq)
      · exact hfirst x hx

theorem Ascending.foldl_insertMember {before : List (String × α)} (h : Ascending before)
    (members : List (String × α)) :
    Ascending (members.foldl (fun o m => Json.insertMember m.1 m.2 o) before) := by
  induction members generalizing before with
  | nil => exact h
  | cons m rest ih => exact ih (h.insertMember m.1 m.2)

theorem ascending_sorted (members : List (String × α)) : Ascending (sorted members) :=
  Ascending.foldl_insertMember .nil members

theorem Ascending.nodup_keys (h : Ascending members) : (members.map (·.1)).Nodup := by
  rw [List.nodup_iff_pairwise_ne, List.pairwise_map]
  exact h.imp fun hlt => ne_of_lt hlt

/-- Each key stands for one value. -/
def Functional (members : List (String × α)) : Prop :=
  ∀ k v w, (k, v) ∈ members → (k, w) ∈ members → v = w

theorem Ascending.functional (h : Ascending members) : Functional members := by
  intro k v w hv hw
  rw [← member?_eq_some_iff h.nodup_keys] at hv hw
  exact Option.some.inj (hv.symm.trans hw)

/-- Members whose keys stand for one value each are all there. -/
theorem mem_sorted (h : Functional members) {x : String × α} : x ∈ sorted members ↔ x ∈ members := by
  obtain ⟨key, value⟩ := x
  rw [← member?_eq_some_iff (ascending_sorted members).nodup_keys, sorted, member?_insertMembers,
    member?, Option.or_none]
  constructor
  · exact fun hv => List.mem_reverse.1 (mem_of_member?_eq_some hv)
  · intro hmem
    cases hv : member? key members.reverse with
    | none =>
      exact absurd (List.mem_map_of_mem (List.mem_reverse.2 hmem)) (member?_eq_none_iff.1 hv)
    | some w => rw [h _ _ _ (List.mem_reverse.1 (mem_of_member?_eq_some hv)) hmem]

/-- Members in order are told by which they are. -/
theorem Ascending.eq_of_mem_iff {members' : List (String × α)} (h : Ascending members)
    (h' : Ascending members') (hmem : ∀ x, x ∈ members ↔ x ∈ members') : members = members' := by
  refine List.Perm.eq_of_pairwise (fun x y _ _ hxy hyx => absurd hyx (not_lt_of_gt hxy)) h h' ?_
  exact (List.perm_ext_iff_of_nodup (List.Nodup.of_map _ h.nodup_keys)
    (List.Nodup.of_map _ h'.nodup_keys)).2 hmem

/-- What is in order stays as it is. -/
theorem Ascending.sorted_eq (h : Ascending members) : sorted members = members :=
  (ascending_sorted members).eq_of_mem_iff h fun _ => mem_sorted h.functional

end

/-! ## Values that compare as equal -/

mutual

/-- Two JSON values are the same but for the signs of zeros. -/
inductive Alike : Json → Json → Prop where
  | refl (j : Json) : Alike j j
  | zeros {x y : Double} (hx : x.isZero = true) (hy : y.isZero = true) :
      Alike (.float x) (.float y)
  | array {items items' : List Json} (h : List.Forall₂ Alike items items') :
      Alike (.array items) (.array items')
  | object {members members' : List (String × Json)} (h : List.Forall₂ MemberAlike members members') :
      Alike (.object members) (.object members')

/-- Two members have the same key and values that are the same but for the signs of zeros. -/
inductive MemberAlike : String × Json → String × Json → Prop where
  | mk {key : String} {v v' : Json} (h : Alike v v') : MemberAlike (key, v) (key, v')

end

mutual

/-- The texts in a value, its strings and the keys of its members. -/
def texts : Json → List String
  | string s => [s]
  | array items => textsOfItems items
  | object members => textsOfMembers members
  | null | bool _ | integer _ | float _ => []

def textsOfItems : List Json → List String
  | [] => []
  | v :: rest => v.texts ++ textsOfItems rest

def textsOfMembers : List (String × Json) → List String
  | [] => []
  | (key, v) :: rest => key :: v.texts ++ textsOfMembers rest

end

mutual

/-- Values that compare as equal have the same texts. -/
theorem Alike.texts_eq {j j' : Json} (h : j.Alike j') : j.texts = j'.texts := by
  cases h with
  | refl => rfl
  | zeros => rfl
  | array h => rw [texts, texts, textsOfItems_eq h]
  | object h => rw [texts, texts, textsOfMembers_eq h]

theorem textsOfItems_eq {items items' : List Json} (h : List.Forall₂ Alike items items') :
    textsOfItems items = textsOfItems items' := by
  cases h with
  | nil => rfl
  | cons h hrest => rw [textsOfItems, textsOfItems, h.texts_eq, textsOfItems_eq hrest]

theorem textsOfMembers_eq {members members' : List (String × Json)}
    (h : List.Forall₂ MemberAlike members members') :
    textsOfMembers members = textsOfMembers members' := by
  cases h with
  | nil => rfl
  | cons h hrest =>
    obtain ⟨h⟩ := h
    rw [textsOfMembers, textsOfMembers, h.texts_eq, textsOfMembers_eq hrest]

end

/-- Members in order with the same keys, with values that compare as equal under each. -/
theorem forall₂_memberAlike {members members' : List (String × Json)} (h : Ascending members)
    (h' : Ascending members') (hkeys : ∀ k, k ∈ members.map (·.1) ↔ k ∈ members'.map (·.1))
    (hvalues : ∀ k v w, (k, v) ∈ members → (k, w) ∈ members' → Alike v w) :
    List.Forall₂ MemberAlike members members' := by
  have hpairwise {ms : List (String × Json)} (h : Ascending ms) :
      (ms.map (·.1)).Pairwise fun k l => k < l := List.pairwise_map.2 h
  have hmap : members.map (·.1) = members'.map (·.1) :=
    List.Perm.eq_of_pairwise (fun k l _ _ hkl hlk => absurd hlk (not_lt_of_gt hkl)) (hpairwise h)
      (hpairwise h') ((List.perm_ext_iff_of_nodup h.nodup_keys h'.nodup_keys).2 hkeys)
  clear hkeys h h'
  induction members generalizing members' with
  | nil =>
    rw [List.map_nil, eq_comm, List.map_eq_nil_iff] at hmap
    subst hmap
    exact .nil
  | cons x rest ih =>
    cases members' with
    | nil => cases hmap
    | cons y rest' =>
      obtain ⟨k, v⟩ := x
      obtain ⟨k', w⟩ := y
      rw [List.map_cons, List.map_cons, List.cons.injEq] at hmap
      obtain ⟨hkey, hmap⟩ := hmap
      obtain rfl : k = k' := hkey
      exact .cons (.mk (hvalues k v w List.mem_cons_self List.mem_cons_self))
        (ih (fun k v w hv hw => hvalues k v w (.tail _ hv) (.tail _ hw)) hmap)

/-- Objects that are made of members which agree key by key compare as equal. -/
theorem ofMembers_alike {members members' : List (String × Json)} (h : Functional members)
    (h' : Functional members') (hkeys : ∀ k, k ∈ members.map (·.1) ↔ k ∈ members'.map (·.1))
    (hvalues : ∀ k v w, (k, v) ∈ members → (k, w) ∈ members' → Alike v w) :
    (ofMembers members).Alike (ofMembers members') := by
  have hsorted {ms : List (String × Json)} (h : Functional ms) (k : String) :
      k ∈ (sorted ms).map (·.1) ↔ k ∈ ms.map (·.1) := by
    simp only [List.mem_map, mem_sorted h]
  rw [ofMembers_eq, ofMembers_eq]
  refine .object (forall₂_memberAlike (ascending_sorted _) (ascending_sorted _)
    (fun k => ?_) fun k v w hv hw => hvalues k v w ((mem_sorted h).1 hv) ((mem_sorted h').1 hw))
  rw [hsorted h, hsorted h']
  exact hkeys k

end ServiceCall.Json
