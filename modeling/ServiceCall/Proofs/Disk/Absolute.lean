import Mathlib.Data.List.TakeWhile
import ServiceCall.Proofs.Disk.Walk
/-!
# Paths from the root

Only the empty path cannot be written from the root. Any other is a start and then the steps of the path,
one joined to the other (`Path.absolute?_eq`), so it leads the same way (`Path.rooted_of_absolute?`), and
names that are joined to a path stay joined to what is written for it (`Path.absolute?_foldl_join`).
-/

namespace ServiceCall

namespace Path

variable {p q wd : Path} {n : String}

/-! ## Components and steps -/

theorem filter_start (s : List Char) :
    (start (split s)).filter (· ≠ .current) = if s.head? == some '/' then [.root] else [] := by
  cases s with
  | nil => rfl
  | cons c rest =>
    obtain ⟨first, others, hsplit⟩ := List.exists_cons_of_ne_nil (split_ne_nil rest)
    rw [split, hsplit, List.head?_cons]
    by_cases hc : c = '/'
    · subst hc
      rfl
    · rw [if_neg hc, if_neg (by simpa using hc)]
      unfold start
      split
      next heq => simp at heq
      next => rfl
      next => rfl

theorem filter_filterMap_component? (parts : List (List Char)) :
    (parts.filterMap component?).filter (· ≠ .current) = parts.filterMap component? := by
  refine List.filter_eq_self.2 fun c hc => ?_
  obtain ⟨part, -, hpart⟩ := List.mem_filterMap.1 hc
  unfold component? at hpart
  split at hpart
  · cases hpart
  split at hpart <;> obtain rfl := Option.some.inj hpart <;> rfl

/-- The texts of components are steps. -/
theorem map_text_filterMap (parts : List (List Char)) :
    (parts.filterMap component?).map Component.text = (parts.filter isKept).map String.ofList := by
  induction parts with
  | nil => rfl
  | cons part parts ih =>
    by_cases hgone : part = [] ∨ part = ['.']
    · have hkept : isKept part = false := by simpa [isKept, or_iff_not_imp_left] using hgone
      rw [List.filter_cons_of_neg (by simp [hkept]), List.filterMap_cons, component?, if_pos hgone, ih]
    · have hkept : isKept part = true := by simpa [isKept] using hgone
      rw [List.filter_cons_of_pos hkept, List.filterMap_cons, component?, if_neg hgone]
      by_cases hback : part = ['.', '.']
      · subst hback
        exact congrArg _ ih
      · rw [if_neg hback]
        exact congrArg _ ih

/-! ## What is written from the root -/

theorem push_eq (base : Path) (cs : List Component) :
    push base cs = (cs.map Component.text).foldl join base := by
  induction cs generalizing base with
  | nil => rfl
  | cons c rest ih => exact ih _

/-- How many slashes a path starts with. -/
def slashes (p : Path) : Nat := (p.toList.takeWhile (· = '/')).length

/-- What a path goes on from when it is written from the root. -/
def origin (wd p : Path) : Path :=
  if isAbsolute p then if slashes p = 2 then "//" else "/" else wd

/-- A path is written as where it goes on from, and then its steps. A slash at its end stays. -/
theorem absolute?_eq (wd : Path) (hp : p ≠ "") : absolute? wd p =
    some (if p.toList.getLast? = some '/' then front (p.steps.foldl join (origin wd p))
      else p.steps.foldl join (origin wd p)) := by
  have hempty : p.isEmpty = false := by simpa using hp
  have hcomponents : p.components.filter (· ≠ .current) =
      (if isAbsolute p then [.root] else []) ++ (split p.toList).filterMap component? := by
    rw [components_eq, List.filter_append, filter_start, filter_filterMap_component?]
    rfl
  have hpush (base : Path) : push base ((split p.toList).filterMap component?) =
      p.steps.foldl join base := by
    rw [push_eq, map_text_filterMap, steps]
  have hfront (q : Path) : join q "" = front q := by rw [join_eq rfl, String.append_empty]
  unfold absolute?
  rw [hempty, if_neg (by simp), hcomponents]
  dsimp only
  rw [hfront]
  refine congrArg (fun path => some (if p.toList.getLast? = some '/' then front path else path)) ?_
  unfold origin
  by_cases habsolute : isAbsolute p = true
  · rw [if_pos habsolute, if_pos habsolute, if_pos habsolute]
    split
    next rest heq =>
      rw [if_neg (by simp [slashes, heq])]
      exact hpush "/"
    next rest hnot heq =>
      have htwice : slashes p = 2 := by
        cases rest with
        | nil => simp [slashes, heq]
        | cons c rest =>
          have hc : c ≠ '/' := fun h => hnot rest (h ▸ rfl)
          simp [slashes, heq, hc]
      rw [if_pos htwice]
      exact hpush "//"
    next hthird hsecond =>
      have htwice : slashes p ≠ 2 := fun h => by
        have hslashes : p.toList.takeWhile (· = '/') = ['/', '/'] :=
          List.eq_replicate_iff.2 ⟨h, fun c hc => by simpa using List.mem_takeWhile_imp hc⟩
        obtain ⟨rest, hrest⟩ := List.takeWhile_prefix (· = '/') (l := p.toList)
        rw [hslashes] at hrest
        exact hsecond rest hrest.symm
      rw [if_neg htwice]
      exact hpush "/"
  · rw [if_neg habsolute, if_neg habsolute, if_neg habsolute, List.nil_append, hpush]

theorem absolute?_eq_none : absolute? wd p = none ↔ p = "" := by
  by_cases hp : p = ""
  · subst hp
    simp [absolute?]
  · rw [absolute?_eq wd hp]
    simp [hp]

/-! ## Names joined to a path -/

theorem front_front (p : Path) : front (front p) = front p := by
  unfold front
  split
  next => rfl
  next => simp

theorem slashes_join (hn : IsName n) (hp : p ≠ "") : slashes (join p n) = slashes p := by
  have hslash : n.toList.takeWhile (· = '/') = [] := by
    cases h : n.toList with
    | nil => rfl
    | cons c rest =>
      have hc : c ≠ '/' := by
        rintro rfl
        exact hn.2.2.2 (by simp [h])
      simp [hc]
  rw [join_of_isName hn, slashes, slashes, String.toList_append, front]
  by_cases hlast : p.toList.getLast? = some '/'
  · rw [if_pos (.inr hlast), List.takeWhile_append, hslash, List.append_nil]
    split <;> simp_all
  · have hall : (p.toList.takeWhile (· = '/')).length ≠ p.toList.length := fun heq => by
      have hslashes := (List.takeWhile_prefix (· = '/') (l := p.toList)).eq_of_length heq
      have hne : p.toList ≠ [] := by simpa using hp
      obtain ⟨c, hc⟩ := Option.isSome_iff_exists.1 (List.getLast?_isSome.2 hne)
      have hmem := List.mem_of_getLast? hc
      rw [← hslashes] at hmem
      obtain rfl : c = '/' := by simpa using List.mem_takeWhile_imp hmem
      exact hlast hc
    rw [if_neg (by simp [hp, hlast]), String.toList_append, List.append_assoc, List.takeWhile_append,
      if_neg hall]

theorem origin_join (hn : IsName n) (hp : p ≠ "") : origin wd (join p n) = origin wd p := by
  rw [origin, origin, isAbsolute_join hn, slashes_join hn hp]

/-- A name that is joined to a path is joined to what is written for it. -/
theorem absolute?_join (hn : IsName n) (h : absolute? wd p = some q) :
    absolute? wd (join p n) = some (join q n) := by
  have hp : p ≠ "" := fun hempty => by
    rw [absolute?_eq_none.2 hempty] at h
    cases h
  have hlast : (join p n).toList.getLast? ≠ some '/' := by
    rw [join_of_isName hn, String.toList_append,
      List.getLast?_append_of_ne_nil _ (by simpa using hn.1)]
    exact fun hlast => hn.2.2.2 (List.mem_of_getLast? hlast)
  rw [absolute?_eq wd hp] at h
  rw [absolute?_eq wd (join_ne_empty hn p), if_neg hlast, steps_join hn, origin_join hn hp,
    List.foldl_append, List.foldl_cons, List.foldl_nil]
  obtain rfl := Option.some.inj h
  split
  next => rw [join_of_isName hn, join_of_isName hn, front_front]
  next => rfl

theorem absolute?_foldl_join {names : List String} (hnames : ∀ n ∈ names, IsName n)
    (h : absolute? wd p = some q) :
    absolute? wd (names.foldl join p) = some (names.foldl join q) := by
  induction names generalizing p q with
  | nil => exact h
  | cons n rest ih =>
    exact ih (fun m hm => hnames m (.tail _ hm)) (absolute?_join (hnames n (.head _)) h)

/-! ## Where it leads -/

/-- A path from the root that leads the same way as another one. -/
structure Rooted (at' : Location) (p q : Path) : Prop where
  isAbsolute : q.isAbsolute = true
  steps : q.steps = base at' p ++ p.steps

theorem isAbsolute_append (h : isAbsolute p = true) (q : Path) : isAbsolute (p ++ q) = true := by
  unfold isAbsolute at h ⊢
  cases hp : p.toList with
  | nil =>
    rw [hp] at h
    cases h
  | cons c rest =>
    rw [hp] at h
    rw [String.toList_append, hp]
    exact h

theorem isAbsolute_foldl_join (h : isAbsolute p = true) (names : List String) :
    isAbsolute (names.foldl join p) = true := by
  induction names generalizing p with
  | nil => exact h
  | cons n rest ih =>
    refine ih ?_
    unfold join
    split
    · assumption
    split
    · exact isAbsolute_append h n
    · exact isAbsolute_append (isAbsolute_append h "/") n

/-- A step is walked by itself. -/
theorem steps_of_mem_steps {s : String} (h : s ∈ steps p) : steps s = [s] ∧ isAbsolute s = false := by
  by_cases hback : s = ".."
  · subst hback
    decide
  · have hs := isName_of_mem_steps h hback
    exact ⟨steps_of_isName hs, isAbsolute_of_isName hs⟩

theorem steps_foldl_join {ss : List String} (h : ∀ s ∈ ss, steps s = [s] ∧ isAbsolute s = false)
    (p : Path) : steps (ss.foldl join p) = steps p ++ ss := by
  induction ss generalizing p with
  | nil => simp
  | cons s rest ih =>
    obtain ⟨hsteps, habsolute⟩ := h s (.head _)
    rw [List.foldl_cons, ih (fun s' hs' => h s' (.tail _ hs')), join_eq habsolute, steps_front_append,
      hsteps, List.append_assoc, List.singleton_append]

theorem steps_front (p : Path) : steps (front p) = steps p := by
  have h := steps_front_append p ""
  rw [String.append_empty] at h
  exact h.trans (List.append_nil _)

theorem isAbsolute_front (h : isAbsolute p = true) : isAbsolute (front p) = true := by
  unfold front
  split
  · exact h
  · exact isAbsolute_append h "/"

theorem rooted_origin {at' : Location} (hwd : isAbsolute wd = true) (hsteps : steps wd = at') (p : Path) :
    isAbsolute (origin wd p) = true ∧ steps (origin wd p) = base at' p := by
  unfold origin base
  split
  · split <;> decide
  · exact ⟨hwd, hsteps⟩

/-- What is written for a path leads the same way from the root. -/
theorem rooted_of_absolute? {at' : Location} (hwd : isAbsolute wd = true) (hsteps : steps wd = at')
    (h : absolute? wd p = some q) : Rooted at' p q := by
  have hp : p ≠ "" := fun hempty => by
    rw [absolute?_eq_none.2 hempty] at h
    cases h
  rw [absolute?_eq wd hp] at h
  obtain ⟨horigin, hbase⟩ := rooted_origin hwd hsteps p
  have habsolute := isAbsolute_foldl_join horigin p.steps
  have hway : steps (p.steps.foldl join (origin wd p)) = base at' p ++ p.steps := by
    rw [steps_foldl_join fun s hs => steps_of_mem_steps hs, hbase]
  obtain rfl := Option.some.inj h
  split
  next => exact ⟨isAbsolute_front habsolute, (steps_front _).trans hway⟩
  next => exact ⟨habsolute, hway⟩

end Path

end ServiceCall
