import Mathlib.Data.List.Lex
import Mathlib.Data.Prod.Lex
import Mathlib.Data.String.Basic
import ServiceCall.Disk.Basic
import ServiceCall.Proofs.Text.Utf8
/-!
# Names in paths

A name stands for itself in a path. Joined to a path it is the last of the parts that are walked
(`parts_join`) and the last component (`components_join`), so that paths with the same components
below a directory are the same. The order of paths is the linear order of their components.
The path of a text is shown as that text (`shown_ofText`).
-/

namespace ServiceCall

/-- The text stands for itself as a part of a path. -/
def IsName (s : String) : Prop := s ≠ "" ∧ s ≠ "." ∧ s ≠ ".." ∧ '/' ∉ s.toList

instance (s : String) : Decidable (IsName s) := by unfold IsName; infer_instance

namespace Path

/-! ## Paths of texts -/

@[simp] theorem shown_ofText (s : String) : (ofText s).shown = s := Octets.toText_ofText s

@[simp] theorem text?_ofText (s : String) : (ofText s).text? = some s := Octets.toText?_ofText s

/-- A text stands for the path. -/
def HasText (p : Path) : Prop := ∃ s, p = ofText s

theorem HasText.ofText_shown {p : Path} (h : p.HasText) : ofText p.shown = p := by
  obtain ⟨s, rfl⟩ := h
  rw [shown_ofText]

theorem HasText.isText {p : Path} (h : p.HasText) : p.isText = true := by
  obtain ⟨s, rfl⟩ := h
  rw [Path.isText, text?_ofText]
  rfl

/-! ## Joining a name -/

theorem split_of_not_mem {s : List Char} (h : '/' ∉ s) : split s = [s] := by
  induction s with
  | nil => rfl
  | cons c rest ih =>
    rw [List.mem_cons, not_or] at h
    rw [split, if_neg (Ne.symm h.1), ih h.2]

theorem split_append_slash (a b : List Char) : split (a ++ '/' :: b) = split a ++ split b := by
  induction a with
  | nil => rfl
  | cons c rest ih =>
    rw [List.cons_append, split, split, ih]
    by_cases hc : c = '/'
    · rw [if_pos hc, if_pos hc, List.cons_append]
    · rw [if_neg hc, if_neg hc]
      cases hs : split rest with
      | nil => exact absurd hs (split_ne_nil rest)
      | cons part parts => rfl

variable {n : String} {p : Path}

theorem isAbsolute_of_isName (hn : IsName n) : isAbsolute n = false := by
  obtain ⟨-, -, -, hslash⟩ := hn
  unfold isAbsolute
  cases h : n.toList with
  | nil => rfl
  | cons c rest =>
    rw [h, List.mem_cons, not_or] at hslash
    simpa using Ne.symm hslash.1

/-- A path with the slash that stands before what is joined to it. -/
def front (p : Path) : String :=
  if p.isEmpty ∨ p.toList.getLast? = some '/' then p else p ++ "/"

theorem join_eq {rest : Path} (h : isAbsolute rest = false) (p : Path) :
    join p rest = front p ++ rest := by
  unfold join front
  rw [h]
  split
  · contradiction
  · split <;> rfl

theorem join_of_isName (hn : IsName n) (p : Path) : join p n = front p ++ n :=
  join_eq (isAbsolute_of_isName hn) p

theorem join_ne_empty (hn : IsName n) (p : Path) : join p n ≠ "" := by
  rw [join_of_isName hn]
  simp [hn.1]

theorem length_join_le (hn : IsName n) (p : Path) : (join p n).length ≤ p.length + n.length + 1 := by
  rw [join_of_isName hn, String.length_append, front]
  split
  · omega
  · have hslash : "/".length = 1 := rfl
    rw [String.length_append]
    omega

theorem nul_not_mem_join (hn : IsName n) (hnul : '\x00' ∉ n.toList) {p : Path}
    (hp : '\x00' ∉ p.toList) : '\x00' ∉ (join p n).toList := by
  rw [join_of_isName hn, String.toList_append, List.mem_append, front, not_or]
  split
  · exact ⟨hp, hnul⟩
  · rw [String.toList_append, List.mem_append]
    exact ⟨fun h => h.elim hp (by decide), hnul⟩

theorem front_join (hn : IsName n) (p : Path) : front (join p n) = join p n ++ "/" := by
  have hne : n.toList ≠ [] := by simpa using hn.1
  have hlast : (join p n).toList.getLast? ≠ some '/' := by
    rw [join_of_isName hn, String.toList_append, List.getLast?_append_of_ne_nil _ hne]
    exact fun h => hn.2.2.2 (List.mem_of_getLast? h)
  have hempty : (join p n).isEmpty = false := by simpa using join_ne_empty hn p
  rw [front, if_neg (by simp [hempty, hlast])]

/-- The parts of a path that are walked. -/
def isKept (part : List Char) : Bool := part ≠ [] ∧ part ≠ ['.']

theorem isKept_of_isName (hn : IsName n) : isKept n.toList = true := by
  obtain ⟨hempty, hdot, -, -⟩ := hn
  have hnil : n.toList ≠ [] := by simpa using hempty
  have hcurrent : n.toList ≠ ['.'] := fun h => hdot (String.toList_inj.1 h)
  simp [isKept, hnil, hcurrent]

/-- What stands before a name that was joined to a path, split at its slashes: the parts of the
path, of which an empty one at the end goes. -/
theorem split_join (hn : IsName n) (p : Path) :
    ∃ front, split (join p n).toList = front ++ [n.toList] ∧
      (split p.toList = front ∧ p ≠ "" ∨ split p.toList = front ++ [[]]) := by
  have hname := split_of_not_mem hn.2.2.2
  unfold join
  rw [isAbsolute_of_isName hn]
  by_cases hempty : p = ""
  · subst hempty
    refine ⟨[], ?_, .inr rfl⟩
    simpa using hname
  · by_cases hslash : p.toList.getLast? = some '/'
    · obtain ⟨a, ha⟩ := List.getLast?_eq_some_iff.1 hslash
      refine ⟨split a, ?_, .inr ?_⟩
      · simp [ha, split_append_slash, hname]
      · simp [ha, split_append_slash, split]
    · refine ⟨split p.toList, ?_, .inl ⟨rfl, hempty⟩⟩
      simp [hempty, hslash, split_append_slash, hname]

theorem isAbsolute_join (hn : IsName n) (p : Path) : isAbsolute (join p n) = isAbsolute p := by
  by_cases hempty : p = ""
  · subst hempty
    have hjoin : join "" n = n := by simp [join, isAbsolute_of_isName hn]
    rw [hjoin, isAbsolute_of_isName hn]
    rfl
  · have hhead : p.toList ≠ [] := by simpa using hempty
    obtain ⟨c, rest, hp⟩ := List.exists_cons_of_ne_nil hhead
    have hjoin : ∃ more, (join p n).toList = p.toList ++ more := by
      unfold join
      rw [isAbsolute_of_isName hn]
      by_cases hslash : p.toList.getLast? = some '/'
      · exact ⟨n.toList, by simp [hslash]⟩
      · exact ⟨'/' :: n.toList, by simp [hempty, hslash]⟩
    obtain ⟨more, hmore⟩ := hjoin
    rw [isAbsolute, isAbsolute, hmore, hp]
    rfl

/-! ## Steps -/

/-- The parts of a path that lead somewhere else: names and `..`. -/
def steps (p : Path) : List String := ((split p.toList).filter isKept).map String.ofList

theorem not_mem_of_mem_split {s part : List Char} (h : part ∈ split s) : '/' ∉ part := by
  induction s generalizing part with
  | nil => simp_all [split]
  | cons c rest ih =>
    rw [split] at h
    by_cases hc : c = '/'
    · rw [if_pos hc, List.mem_cons] at h
      obtain rfl | h := h
      · exact List.not_mem_nil
      · exact ih h
    · rw [if_neg hc] at h
      cases hs : split rest with
      | nil => exact absurd hs (split_ne_nil rest)
      | cons first others =>
        rw [hs] at h ih
        obtain rfl | h := List.mem_cons.1 h
        · simpa [Ne.symm hc] using ih (.head _)
        · exact ih (.tail _ h)

/-- A step is a name or leads back. -/
theorem isName_of_mem_steps {s : String} (h : s ∈ steps p) (hback : s ≠ "..") : IsName s := by
  obtain ⟨part, hpart, rfl⟩ := List.mem_map.1 h
  obtain ⟨hmem, hkept⟩ := List.mem_filter.1 hpart
  simp only [isKept, decide_eq_true_eq] at hkept
  refine ⟨?_, ?_, hback, ?_⟩
  · simpa using hkept.1
  · intro h
    exact hkept.2 (by rw [← String.toList_ofList (l := part), h]; rfl)
  · simpa using not_mem_of_mem_split hmem

theorem steps_append_slash (p q : Path) : steps (p ++ "/" ++ q) = steps p ++ steps q := by
  have hlist : (p ++ "/" ++ q).toList = p.toList ++ '/' :: q.toList := by simp
  rw [steps, steps, steps, hlist, split_append_slash, List.filter_append, List.map_append]

/-- What is joined to a path is walked after it. -/
theorem steps_front_append (p q : Path) : steps (front p ++ q) = steps p ++ steps q := by
  unfold front
  split
  next h =>
    obtain h | h := h
    · obtain rfl : p = "" := by simpa using h
      rw [String.empty_append]
      rfl
    · obtain ⟨a, ha⟩ := List.getLast?_eq_some_iff.1 h
      obtain rfl : p = String.ofList a ++ "/" := by
        rw [← String.toList_inj, ha]
        simp
      have hslash := steps_append_slash (String.ofList a) ""
      rw [String.append_empty] at hslash
      rw [steps_append_slash, hslash, List.append_assoc]
      rfl
  next => exact steps_append_slash p q

theorem steps_of_isName (hn : IsName n) : steps n = [n] := by
  rw [steps, split_of_not_mem hn.2.2.2, List.filter_cons_of_pos (isKept_of_isName hn)]
  exact congrArg (· :: []) (String.ofList_toList)

theorem steps_join (hn : IsName n) (p : Path) : steps (join p n) = steps p ++ [n] := by
  rw [join_of_isName hn, steps_front_append, steps_of_isName hn]

/-- The parts that are walked are the steps, with a dot at the end where a path ends in one. -/
theorem parts_eq_steps (p : Path) :
    Disk.parts p = steps p ∨ Disk.parts p = steps p ++ ["."] := by
  unfold Disk.parts
  simp only
  split
  · split
    · exact .inr rfl
    · exact .inl (List.append_nil _)
  · exact .inl (List.append_nil _)

theorem parts_join (hn : IsName n) (p : Path) : Disk.parts (join p n) = steps p ++ [n] := by
  obtain ⟨front, hjoin, -⟩ := split_join hn p
  have hne : n.toList ≠ [] ∧ n.toList ≠ ['.'] := by simpa [isKept] using isKept_of_isName hn
  rw [← steps_join hn]
  unfold Disk.parts steps
  rw [hjoin]
  simp only [List.getLast?_concat, hne.1, hne.2, decide_false, Bool.or_self, Bool.and_false,
    Bool.false_eq_true, if_false, List.append_nil]
  rfl

theorem filter_parts (p : Path) : (Disk.parts p).filter (· ≠ ".") = steps p := by
  have hsteps : (steps p).filter (· ≠ ".") = steps p := by
    refine List.filter_eq_self.2 fun s hs => ?_
    by_cases hback : s = ".."
    · subst hback
      decide
    · simpa using (isName_of_mem_steps hs hback).2.1
  obtain h | h := parts_eq_steps p
  · rw [h, hsteps]
  · rw [h, List.filter_append, hsteps]
    exact List.append_nil _

theorem dot_not_mem_steps (p : Path) : "." ∉ p.steps := by
  rw [← filter_parts]
  simp

/-! ## Components -/

theorem component?_of_isName (hn : IsName n) : component? n.toList = some (.name n) := by
  obtain ⟨hempty, hdot, hback, -⟩ := hn
  have hnil : n.toList ≠ [] := by simpa using hempty
  have hcurrent : n.toList ≠ ['.'] := fun h => hdot (String.toList_inj.1 h)
  have hparent : n.toList ≠ ['.', '.'] := fun h => hback (String.toList_inj.1 h)
  rw [component?, if_neg (not_or.2 ⟨hnil, hcurrent⟩), if_neg hparent, String.ofList_toList]

/-- The component that a path starts with, of its parts. -/
def start : List (List Char) → List Component
  | [] :: _ :: _ => [.root]
  | ['.'] :: _ => [.current]
  | _ => []

theorem components_eq (p : Path) :
    components p = start (split p.toList) ++ (split p.toList).filterMap component? := by
  unfold components start
  rfl

theorem start_cons_cons (x y : List Char) (ys : List (List Char)) (z : List Char)
    (zs : List (List Char)) : start (x :: y :: ys) = start (x :: z :: zs) := by
  unfold start
  split <;> split <;> simp_all

theorem components_join (hn : IsName n) (p : Path) :
    components (join p n) = components p ++ [.name n] := by
  obtain ⟨front, hjoin, hp⟩ := split_join hn p
  have hstart : start (front ++ [n.toList]) = start (split p.toList) := by
    cases front with
    | nil =>
      have hempty : n.toList ≠ [] := by simpa using hn.1
      have hdot : n.toList ≠ ['.'] := fun h => hn.2.1 (String.toList_inj.1 h)
      have hsplit : split p.toList = [[]] := hp.resolve_left fun h => split_ne_nil _ h.1
      rw [hsplit]
      simp [start, hdot]
    | cons x rest =>
      obtain ⟨hsplit, hempty⟩ | hsplit := hp
      · rw [hsplit]
        cases rest with
        | nil =>
          have hx : x ≠ [] := by
            rintro rfl
            have hp := joinParts_split p.toList
            rw [hsplit] at hp
            exact hempty (String.toList_inj.1 hp.symm)
          unfold start
          split <;> split <;> simp_all
        | cons y ys => exact start_cons_cons ..
      · rw [hsplit]
        cases rest with
        | nil => exact start_cons_cons ..
        | cons y ys => exact start_cons_cons ..
  rw [components_eq, components_eq, hjoin, hstart]
  obtain ⟨hsplit, -⟩ | hsplit := hp
  · simp [hsplit, component?_of_isName hn]
  · have hnone : component? [] = none := rfl
    simp [hsplit, component?_of_isName hn, hnone]

/-! ## Order -/

namespace Component

/-- What a component is ordered by. -/
def key (c : Component) : ℕ ×ₗ String :=
  toLex (lt.rank c, match c with | name s => s | _ => "")

theorem key_injective : Function.Injective key := by
  intro a b h
  cases a <;> cases b <;> simp_all [key, lt.rank]

theorem lt_iff {a b : Component} : a.lt b = true ↔ a.key < b.key := by
  cases a <;> cases b <;> simp [lt, lt.rank, key, Prod.Lex.toLex_lt_toLex]

end Component

theorem componentsLe_total (as bs : List Component) :
    (componentsLe as bs || componentsLe bs as) = true := by
  induction as generalizing bs with
  | nil => rfl
  | cons a as ih =>
    cases bs with
    | nil => rfl
    | cons b bs =>
      rw [componentsLe, componentsLe]
      by_cases hab : a = b
      · rw [if_pos hab, if_pos hab.symm]
        exact ih bs
      · rw [if_neg hab, if_neg (Ne.symm hab), Bool.or_eq_true, Component.lt_iff, Component.lt_iff]
        exact lt_or_gt_of_ne (Component.key_injective.ne hab)

theorem componentsLe_trans {as bs cs : List Component} (hab : componentsLe as bs = true)
    (hbc : componentsLe bs cs = true) : componentsLe as cs = true := by
  induction as generalizing bs cs with
  | nil => rfl
  | cons a as ih =>
    cases bs with
    | nil => cases hab
    | cons b bs =>
      cases cs with
      | nil => cases hbc
      | cons c cs =>
        rw [componentsLe] at hab hbc ⊢
        by_cases h₁ : a = b
        · subst h₁
          rw [if_pos rfl] at hab
          by_cases h₂ : a = c
          · rw [if_pos h₂] at hbc ⊢
            exact ih hab hbc
          · rw [if_neg h₂] at hbc ⊢
            exact hbc
        · rw [if_neg h₁, Component.lt_iff] at hab
          by_cases h₂ : b = c
          · subst h₂
            rw [if_neg h₁, Component.lt_iff]
            exact hab
          · rw [if_neg h₂, Component.lt_iff] at hbc
            have hac := hab.trans hbc
            rw [if_neg fun h => hac.ne (congrArg _ h), Component.lt_iff]
            exact hac

theorem componentsLe_antisymm {as bs : List Component} (hab : componentsLe as bs = true)
    (hba : componentsLe bs as = true) : as = bs := by
  induction as generalizing bs with
  | nil =>
    cases bs with
    | nil => rfl
    | cons b bs => cases hba
  | cons a as ih =>
    cases bs with
    | nil => cases hab
    | cons b bs =>
      rw [componentsLe] at hab hba
      by_cases h : a = b
      · subst h
        rw [if_pos rfl] at hab hba
        rw [ih hab hba]
      · rw [if_neg h, Component.lt_iff] at hab
        rw [if_neg (Ne.symm h), Component.lt_iff] at hba
        exact absurd hba hab.asymm

theorem pairwise_mergeSort (ps : List Path) : (ps.mergeSort le).Pairwise fun p q => le p q = true := by
  have htrans (a b c : Path) (hab : le a b = true) (hbc : le b c = true) : le a c = true :=
    componentsLe_trans hab hbc
  have htotal (a b : Path) : (le a b || le b a) = true := componentsLe_total _ _
  exact List.pairwise_mergeSort htrans htotal ps

/-- Sorting paths with different components forgets their order. -/
theorem mergeSort_eq_of_perm {ps qs : List Path} (h : ps.Perm qs)
    (hps : ∀ p ∈ ps, ∀ q ∈ ps, components p = components q → p = q) :
    ps.mergeSort le = qs.mergeSort le := by
  have hperm := (ps.mergeSort_perm le).trans (h.trans (qs.mergeSort_perm le).symm)
  refine hperm.eq_of_pairwise (fun a b ha hb hab hba => ?_) (pairwise_mergeSort ps)
    (pairwise_mergeSort qs)
  have ha := (ps.mergeSort_perm le).subset ha
  have hb := h.symm.subset ((qs.mergeSort_perm le).subset hb)
  exact hps a ha b hb (componentsLe_antisymm hab hba)

/-! ## Paths below a path -/

theorem components_foldl_join {names : List String} (h : ∀ n ∈ names, IsName n) (p : Path) :
    components (names.foldl join p) = components p ++ names.map .name := by
  induction names generalizing p with
  | nil => simp
  | cons n rest ih =>
    rw [List.foldl_cons, ih (fun m hm => h m (.tail _ hm)), components_join (h n (.head _)),
      List.map_cons, List.append_assoc, List.singleton_append]

/-- Names that are joined to a path can be read off it. -/
theorem foldl_join_injective {names names' : List String} (h : ∀ n ∈ names, IsName n)
    (h' : ∀ n ∈ names', IsName n) {p : Path}
    (heq : components (names.foldl join p) = components (names'.foldl join p)) :
    names = names' := by
  rw [components_foldl_join h, components_foldl_join h', List.append_cancel_left_eq] at heq
  exact List.map_injective_iff.2 (fun _ _ => Component.name.inj) heq

end Path

end ServiceCall
