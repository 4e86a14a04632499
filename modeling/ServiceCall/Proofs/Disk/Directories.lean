import ServiceCall.Proofs.Disk.Alike
/-!
# Creating directories

Directories are created from the last part of a path back to the first one that is there. Without
links this is one walk from the left that creates what is missing (`Disk.ensure`,
`Disk.makeDirectories_eq_ensure`). Where a file is in the way the error depends on whether something
was created before, and on nothing else; so what was created makes a later attempt fail or succeed as
the first one did, if not always with the same error (`Disk.ensure_again`).
-/

namespace ServiceCall

open Location (resolve passed)

namespace Disk

variable {d d' d₁ d₂ : Disk} {at' l : Location} {part : String} {todo xs ys : List String} {c c' : Bool}

/-! ## One walk -/

/-- Creates the directories that are missing on a walk. `created` tells that one was before. -/
def ensure (d : Disk) (created : Bool) (at' : Location) : List String → Except IoError Unit × Disk
  | [] => (.ok (), d)
  | part :: rest =>
    if part = ".." then ensure d created at'.dropLast rest
    else if 255 < part.length then (.error .nameTooLong, d)
    else match d.lookup (at' ++ [part]) with
      | none => ensure (d.set (at' ++ [part]) .directory) true (at' ++ [part]) rest
      | some .directory => ensure d created (at' ++ [part]) rest
      | some _ => (.error (if created ∨ rest = [] then .alreadyExists else .notDirectory), d)

/-- What a part does to a walk. -/
inductive Move (d : Disk) (at' : Location) (part : String) : Prop
  | back (h : part = "..")
  | long (h : part ≠ "..") (hlong : 255 < part.length)
  | missing (h : part ≠ "..") (hshort : ¬ 255 < part.length)
    (hentry : d.lookup (at' ++ [part]) = none)
  | directory (h : part ≠ "..") (hshort : ¬ 255 < part.length)
    (hentry : d.lookup (at' ++ [part]) = some .directory)
  | blocked (h : part ≠ "..") (hshort : ¬ 255 < part.length) (e : Entry)
    (hentry : d.lookup (at' ++ [part]) = some e) (hne : e ≠ .directory)

theorem move (d : Disk) (at' : Location) (part : String) : Move d at' part := by
  by_cases h : part = ".."
  · exact .back h
  · by_cases hlong : 255 < part.length
    · exact .long h hlong
    · cases hentry : d.lookup (at' ++ [part]) with
      | none => exact .missing h hlong hentry
      | some e =>
        by_cases he : e = .directory
        · exact .directory h hlong (he ▸ hentry)
        · exact .blocked h hlong e hentry he

section

variable {rest : List String}

theorem ensure_back (h : part = "..") :
    d.ensure c at' (part :: rest) = d.ensure c at'.dropLast rest := by
  rw [ensure, if_pos h]

variable (h : part ≠ "..")
include h

theorem ensure_long (hlong : 255 < part.length) :
    d.ensure c at' (part :: rest) = (.error .nameTooLong, d) := by
  rw [ensure, if_neg h, if_pos hlong]

variable (hshort : ¬ 255 < part.length)
include hshort

theorem ensure_missing (hentry : d.lookup (at' ++ [part]) = none) :
    d.ensure c at' (part :: rest) =
      (d.set (at' ++ [part]) .directory).ensure true (at' ++ [part]) rest := by
  rw [ensure, if_neg h, if_neg hshort, hentry]

theorem ensure_directory (hentry : d.lookup (at' ++ [part]) = some .directory) :
    d.ensure c at' (part :: rest) = d.ensure c (at' ++ [part]) rest := by
  rw [ensure, if_neg h, if_neg hshort, hentry]

theorem ensure_blocked {e : Entry} (hentry : d.lookup (at' ++ [part]) = some e)
    (hne : e ≠ .directory) : d.ensure c at' (part :: rest) =
      (.error (if c ∨ rest = [] then .alreadyExists else .notDirectory), d) := by
  rw [ensure, if_neg h, if_neg hshort, hentry]
  cases e with
  | directory => exact absurd rfl hne
  | file content executable => rfl
  | link target => rfl
  | special => rfl

end

/-- The second disk has directories where the first one has nothing, and is the same otherwise. -/
structure Grows (d d' : Disk) : Prop where
  workingDirectory : d'.workingDirectory = d.workingDirectory
  lookup : ∀ l, d'.lookup l = d.lookup l ∨ d.lookup l = none ∧ d'.lookup l = some .directory

namespace Grows

theorem refl (d : Disk) : Grows d d := ⟨rfl, fun _ => .inl rfl⟩

theorem trans (h : Grows d d₁) (h' : Grows d₁ d₂) : Grows d d₂ := by
  refine ⟨h'.workingDirectory.trans h.workingDirectory, fun l => ?_⟩
  obtain h | h := h.lookup l <;> obtain h' | h' := h'.lookup l
  · exact .inl (h'.trans h)
  · exact .inr ⟨h ▸ h'.1, h'.2⟩
  · exact .inr ⟨h.1, h'.trans h.2⟩
  · exact .inr ⟨h.1, h'.2⟩

theorem set (hl : l ≠ []) (h : d.lookup l = none) : Grows d (d.set l .directory) := by
  refine ⟨rfl, fun l' => ?_⟩
  by_cases heq : l' = l
  · subst heq
    exact .inr ⟨h, lookup_set_self d hl _⟩
  · exact .inl (lookup_set_of_ne d heq _)

/-- What is there stays. -/
theorem kept (h : Grows d d') {e : Entry} (hl : d.lookup l = some e) : d'.lookup l = some e := by
  obtain h | h := h.lookup l
  · rw [h, hl]
  · rw [hl] at h
    cases h.1

/-- No link is made. -/
theorem lookup_link (h : Grows d d') {t : Path} (hl : d'.lookup l = some (.link t)) :
    d.lookup l = some (.link t) := by
  obtain h | h := h.lookup l
  · rw [← h, hl]
  · rw [hl] at h
    cases h.2

theorem linkFree (h : Grows d d') {ls : List Location} (hls : d.LinkFree ls) : d'.LinkFree ls :=
  fun l hl t hlink => hls l hl t (h.lookup_link hlink)

theorem linkless (h : Grows d d') (hlinks : d.Linkless) : d'.Linkless :=
  fun l t hlink => hlinks l t (h.lookup_link hlink)

theorem clear (h : Grows d d') {hidden : Hiding} (hclear : d.Clear hidden) : d'.Clear hidden :=
  fun l t hlink => hclear l t (h.lookup_link hlink)

end Grows

theorem grows_ensure (d : Disk) (c : Bool) (at' : Location) (todo : List String) :
    Grows d (d.ensure c at' todo).2 := by
  induction todo generalizing d c at' with
  | nil => exact .refl d
  | cons part rest ih =>
    cases move d at' part with
    | back hback => rw [ensure_back hback]; exact ih ..
    | long hback hlong => rw [ensure_long hback hlong]; exact .refl d
    | missing hback hshort hentry =>
      rw [ensure_missing hback hshort hentry]
      exact (Grows.set (by simp) hentry).trans (ih ..)
    | directory hback hshort hentry => rw [ensure_directory hback hshort hentry]; exact ih ..
    | blocked hback hshort e hentry hne =>
      rw [ensure_blocked hback hshort hentry hne]
      exact .refl d

theorem Grows.of_ensure {r : Except IoError Unit} (h : d.ensure c at' todo = (r, d')) :
    Grows d d' := by
  have hgrows := grows_ensure d c at' todo
  rwa [h] at hgrows

/-- Nothing is created but what the parts lead through. -/
theorem lookup_ensure_of_not_mem (hdot : "." ∉ todo) (hl : l ∉ passed at' todo) :
    (d.ensure c at' todo).2.lookup l = d.lookup l := by
  induction todo generalizing d c at' with
  | nil => rfl
  | cons part rest ih =>
    rw [List.mem_cons, not_or] at hdot
    rw [passed, if_neg (Ne.symm hdot.1), List.mem_cons, not_or, Location.step,
      if_neg (Ne.symm hdot.1)] at hl
    cases move d at' part with
    | back hback =>
      rw [if_pos hback] at hl
      rw [ensure_back hback, ih hdot.2 hl.2]
    | long hback hlong => rw [ensure_long hback hlong]
    | missing hback hshort hentry =>
      rw [if_neg hback] at hl
      rw [ensure_missing hback hshort hentry, ih hdot.2 hl.2, lookup_set_of_ne d hl.1]
    | directory hback hshort hentry =>
      rw [if_neg hback] at hl
      rw [ensure_directory hback hshort hentry, ih hdot.2 hl.2]
    | blocked hback hshort e hentry hne => rw [ensure_blocked hback hshort hentry hne]

/-! ## Attempts that differ in the cause of a failure -/

/-- The results are the same but for the cause of a failure. -/
def SameButCause {α : Type} (r₁ r₂ : Except IoError α × Disk) : Prop :=
  r₁.1.toOption = r₂.1.toOption ∧ r₁.2 = r₂.2

namespace SameButCause

variable {α : Type} {r₁ r₂ r₃ : Except IoError α × Disk}

theorem refl (r : Except IoError α × Disk) : SameButCause r r := ⟨rfl, rfl⟩

theorem symm (h : SameButCause r₁ r₂) : SameButCause r₂ r₁ := ⟨h.1.symm, h.2.symm⟩

theorem trans (h : SameButCause r₁ r₂) (h' : SameButCause r₂ r₃) : SameButCause r₁ r₃ :=
  ⟨h.1.trans h'.1, h.2.trans h'.2⟩

end SameButCause

theorem ensure_flag (d : Disk) (c c' : Bool) (at' : Location) (todo : List String) :
    SameButCause (d.ensure c at' todo) (d.ensure c' at' todo) := by
  induction todo generalizing d c c' at' with
  | nil => exact .refl _
  | cons part rest ih =>
    cases move d at' part with
    | back hback => rw [ensure_back hback, ensure_back hback]; exact ih ..
    | long hback hlong => rw [ensure_long hback hlong, ensure_long hback hlong]; exact .refl _
    | missing hback hshort hentry =>
      rw [ensure_missing hback hshort hentry, ensure_missing hback hshort hentry]
      exact .refl _
    | directory hback hshort hentry =>
      rw [ensure_directory hback hshort hentry, ensure_directory hback hshort hentry]
      exact ih ..
    | blocked hback hshort e hentry hne =>
      rw [ensure_blocked hback hshort hentry hne, ensure_blocked hback hshort hentry hne]
      exact ⟨rfl, rfl⟩

/-- What is left to be done after some parts. -/
def andThen (r : Except IoError Unit × Disk) (next : Disk → Except IoError Unit × Disk) :
    Except IoError Unit × Disk :=
  match r with
  | (.ok (), d) => next d
  | (.error e, d) => (.error e, d)

theorem ensure_append_true (hdot : "." ∉ xs) :
    d.ensure true at' (xs ++ ys) =
      andThen (d.ensure true at' xs) fun d' => d'.ensure true (resolve at' xs) ys := by
  induction xs generalizing d at' with
  | nil => rfl
  | cons part rest ih =>
    rw [List.mem_cons, not_or] at hdot
    rw [List.cons_append, Location.resolve_cons, Location.step, if_neg (Ne.symm hdot.1)]
    cases move d at' part with
    | back hback => rw [ensure_back hback, ensure_back hback, ih hdot.2, if_pos hback]
    | long hback hlong => rw [ensure_long hback hlong, ensure_long hback hlong]; rfl
    | missing hback hshort hentry =>
      rw [ensure_missing hback hshort hentry, ensure_missing hback hshort hentry, ih hdot.2,
        if_neg hback]
    | directory hback hshort hentry =>
      rw [ensure_directory hback hshort hentry, ensure_directory hback hshort hentry, ih hdot.2,
        if_neg hback]
    | blocked hback hshort e hentry hne =>
      rw [ensure_blocked hback hshort hentry hne, ensure_blocked hback hshort hentry hne]
      rfl

/-! ## Walks through directories -/

/-- The parts lead to a directory. -/
def LeadsTo (d : Disk) (at' : Location) (todo : List String) : Prop :=
  ∀ follow onLink, walkTo d follow onLink at' todo = .ok ⟨resolve at' todo, some .directory⟩

theorem leadsTo_nil : d.LeadsTo at' [] := fun _ _ => rfl

theorem leadsTo_back {rest : List String} (hback : part = "..") :
    d.LeadsTo at' (part :: rest) ↔ d.LeadsTo at'.dropLast rest := by
  have hdot : part ≠ "." := by rw [hback]; decide
  refine forall₂_congr fun follow onLink => ?_
  rw [walkTo_back hback, Location.resolve_cons, Location.step, if_neg hdot, if_pos hback]

theorem leadsTo_directory {rest : List String} (hdot : part ≠ ".") (hback : part ≠ "..")
    (hshort : ¬ 255 < part.length) (hentry : d.lookup (at' ++ [part]) = some .directory) :
    d.LeadsTo at' (part :: rest) ↔ d.LeadsTo (at' ++ [part]) rest := by
  refine forall₂_congr fun follow onLink => ?_
  rw [walkTo_directory hdot hback hshort hentry, Location.resolve_cons, Location.step, if_neg hdot,
    if_neg hback]

/-- Every part that leads to a directory leads back or is the name of one. -/
theorem LeadsTo.cons {rest : List String} (h : d.LeadsTo at' (part :: rest)) (hdot : part ≠ ".") :
    part = ".." ∧ d.LeadsTo at'.dropLast rest ∨
      part ≠ ".." ∧ ¬ 255 < part.length ∧ d.lookup (at' ++ [part]) = some .directory ∧
        d.LeadsTo (at' ++ [part]) rest := by
  -- a link on the way could be followed, but does not lead on for every treatment of links
  have hend := h true fun _ _ _ => .error .notFound
  cases move d at' part with
  | back hback => exact .inl ⟨hback, (leadsTo_back hback).1 h⟩
  | directory hback hshort hentry =>
    exact .inr ⟨hback, hshort, hentry, (leadsTo_directory hdot hback hshort hentry).1 h⟩
  | long hback hlong =>
    rw [walkTo_long hdot hback hlong] at hend
    cases hend
  | missing hback hshort hentry =>
    rw [walkTo_missing hdot hback hshort hentry] at hend
    split at hend <;> simp at hend
  | blocked hback hshort e hentry hne =>
    cases e with
    | directory => exact absurd rfl hne
    | file content executable =>
      rw [walkTo_file hdot hback hshort hentry] at hend
      split at hend <;> simp at hend
    | link target =>
      rw [walkTo_link hdot hback hshort hentry] at hend
      split at hend <;> simp at hend
    | special =>
      rw [walkTo_special hdot hback hshort hentry] at hend
      split at hend <;> simp at hend

/-- Where the parts lead to a directory nothing is created on the way there. -/
theorem LeadsTo.ensure (h : d.LeadsTo at' xs) (hdot : "." ∉ xs) (c : Bool) (ys : List String) :
    d.ensure c at' (xs ++ ys) = d.ensure c (resolve at' xs) ys := by
  induction xs generalizing at' with
  | nil => rfl
  | cons part rest ih =>
    rw [List.mem_cons, not_or] at hdot
    have hpart := Ne.symm hdot.1
    rw [List.cons_append, Location.resolve_cons, Location.step, if_neg hpart]
    obtain ⟨hback, hrest⟩ | ⟨hback, hshort, hentry, hrest⟩ := h.cons hpart
    · rw [ensure_back hback, if_pos hback]
      exact ih hrest hdot.2
    · rw [ensure_directory hback hshort hentry, if_neg hback]
      exact ih hrest hdot.2

/-- A walk goes on from where its first parts lead to. -/
theorem LeadsTo.walkTo (h : d.LeadsTo at' xs) (hdot : "." ∉ xs) (follow : Bool)
    (onLink : Location → Path → List String → Except IoError Place) (ys : List String) :
    walkTo d follow onLink at' (xs ++ ys) = walkTo d follow onLink (resolve at' xs) ys := by
  induction xs generalizing at' with
  | nil => rfl
  | cons part rest ih =>
    rw [List.mem_cons, not_or] at hdot
    have hpart := Ne.symm hdot.1
    rw [List.cons_append, Location.resolve_cons, Location.step, if_neg hpart]
    obtain ⟨hback, hrest⟩ | ⟨hback, hshort, hentry, hrest⟩ := h.cons hpart
    · rw [walkTo_back hback, if_pos hback]
      exact ih hrest hdot.2
    · rw [walkTo_directory hpart hback hshort hentry, if_neg hback]
      exact ih hrest hdot.2

theorem LeadsTo.append (h : d.LeadsTo at' xs) (hdot : "." ∉ xs) (h' : d.LeadsTo (resolve at' xs) ys) :
    d.LeadsTo at' (xs ++ ys) := by
  intro follow onLink
  rw [h.walkTo hdot, h', Location.resolve_append]

/-- Parts still lead to a directory when more is there. -/
theorem LeadsTo.mono (h : d.LeadsTo at' xs) (hdot : "." ∉ xs)
    (hgrows : Grows d d') : d'.LeadsTo at' xs := by
  induction xs generalizing at' with
  | nil => exact leadsTo_nil
  | cons part rest ih =>
    rw [List.mem_cons, not_or] at hdot
    have hpart := Ne.symm hdot.1
    obtain ⟨hback, hrest⟩ | ⟨hback, hshort, hentry, hrest⟩ := h.cons hpart
    · exact (leadsTo_back hback).2 (ih hrest hdot.2)
    · exact (leadsTo_directory hpart hback hshort (hgrows.kept hentry)).2 (ih hrest hdot.2)

/-- What was created leads to a directory. -/
theorem leadsTo_of_ensure (hdot : "." ∉ todo) (h : d.ensure c at' todo = (.ok (), d')) :
    d'.LeadsTo at' todo := by
  induction todo generalizing d c at' with
  | nil => exact leadsTo_nil
  | cons part rest ih =>
    rw [List.mem_cons, not_or] at hdot
    have hpart := Ne.symm hdot.1
    cases move d at' part with
    | back hback =>
      rw [ensure_back hback] at h
      exact (leadsTo_back hback).2 (ih hdot.2 h)
    | long hback hlong => rw [ensure_long hback hlong] at h; cases h
    | missing hback hshort hentry =>
      rw [ensure_missing hback hshort hentry] at h
      exact (leadsTo_directory hpart hback hshort
        ((Grows.of_ensure h).kept (lookup_set_self d (by simp) _))).2 (ih hdot.2 h)
    | directory hback hshort hentry =>
      rw [ensure_directory hback hshort hentry] at h
      exact (leadsTo_directory hpart hback hshort ((Grows.of_ensure h).kept hentry)).2
        (ih hdot.2 h)
    | blocked hback hshort e hentry hne => rw [ensure_blocked hback hshort hentry hne] at h; cases h

/-- The first parts of those that lead to a directory do, too. -/
theorem LeadsTo.of_append (h : d.LeadsTo at' (xs ++ ys)) (hdot : "." ∉ xs) : d.LeadsTo at' xs := by
  induction xs generalizing at' with
  | nil => exact leadsTo_nil
  | cons part rest ih =>
    rw [List.mem_cons, not_or] at hdot
    have hpart := Ne.symm hdot.1
    obtain ⟨hback, hrest⟩ | ⟨hback, hshort, hentry, hrest⟩ := h.cons hpart
    · exact (leadsTo_back hback).2 (ih hrest hdot.2)
    · exact (leadsTo_directory hpart hback hshort hentry).2 (ih hrest hdot.2)

/-- The last of the parts that lead to a directory is the name of one. -/
theorem LeadsTo.lookup_concat (h : d.LeadsTo at' (xs ++ [part])) (hxs : "." ∉ xs) (hdot : part ≠ ".")
    (hback : part ≠ "..") : d.lookup (resolve at' xs ++ [part]) = some .directory := by
  have hlead := h.of_append hxs
  have hlast : d.LeadsTo (resolve at' xs) [part] := by
    intro follow onLink
    rw [← hlead.walkTo hxs, h, Location.resolve_append]
  obtain ⟨hpart, -⟩ | ⟨-, -, hentry, -⟩ := hlast.cons hdot
  · exact absurd hpart hback
  · exact hentry

/-- Directories are created if nothing is in the way. -/
theorem exists_ensure (hshort : ∀ s ∈ todo, ¬ 255 < s.length) (hdot : "." ∉ todo)
    (hfree : ∀ l ∈ passed at' todo, d.lookup l = none ∨ d.lookup l = some .directory) :
    ∃ d', d.ensure c at' todo = (.ok (), d') := by
  induction todo generalizing d c at' with
  | nil => exact ⟨d, rfl⟩
  | cons part rest ih =>
    rw [List.mem_cons, not_or] at hdot
    have hpart := Ne.symm hdot.1
    have hrest := fun s hs => hshort s (.tail _ hs)
    rw [passed, if_neg hpart, Location.step, if_neg hpart] at hfree
    have hnext := fun l hl => hfree l (.tail _ hl)
    cases move d at' part with
    | back hback =>
      rw [if_pos hback] at hnext
      rw [ensure_back hback]
      exact ih hrest hdot.2 hnext
    | long hback hlong => exact absurd hlong (hshort _ (.head _))
    | missing hback hshort' hentry =>
      rw [if_neg hback] at hnext
      rw [ensure_missing hback hshort' hentry]
      refine ih hrest hdot.2 fun l hl => ?_
      rw [lookup_set d (by simp)]
      split
      · exact .inr rfl
      · exact hnext l hl
    | directory hback hshort' hentry =>
      rw [if_neg hback] at hnext
      rw [ensure_directory hback hshort' hentry]
      exact ih hrest hdot.2 hnext
    | blocked hback hshort' e hentry hne =>
      rw [if_neg hback] at hfree
      obtain hnone | hdirectory := hfree _ (.head _)
      · rw [hentry] at hnone
        cases hnone
      · rw [hentry] at hdirectory
        exact absurd (Option.some.inj hdirectory) hne

/-! ## From the last part back to the first -/

theorem walk_eq_walkTo (d : Disk) (follow : Bool) (links : Nat) (at' : Location)
    (todo : List String) : ∃ onLink, d.walk follow links at' todo = walkTo d follow onLink at' todo := by
  cases links <;> exact ⟨_, rfl⟩

/-- Creates the directory of some parts, unless there is one. -/
def tryDirectory (d : Disk) (at' : Location) (todo : List String) : Except IoError Unit × Disk :=
  match d.makeDirectoryAt at' todo with
  | .ok d => (.ok (), d)
  | .error e => if d.isDirectoryAt at' todo then (.ok (), d) else (.error e, d)

theorem makeDirectories_of_found (h : d.makeDirectoryAt at' (xs ++ [part]) ≠ .error .notFound) :
    d.makeDirectories at' (xs ++ [part]).reverse = d.tryDirectory at' (xs ++ [part]) := by
  rw [List.reverse_append, List.reverse_singleton, List.singleton_append, makeDirectories,
    List.reverse_cons, List.reverse_reverse, tryDirectory]
  split
  next hmade => rw [hmade]
  next hmade => exact absurd hmade h
  next e _ hmade => rw [hmade]

theorem makeDirectories_of_missing (h : d.makeDirectoryAt at' (xs ++ [part]) = .error .notFound) :
    d.makeDirectories at' (xs ++ [part]).reverse =
      andThen (d.makeDirectories at' xs.reverse) fun d => d.tryDirectory at' (xs ++ [part]) := by
  rw [List.reverse_append, List.reverse_singleton, List.singleton_append, makeDirectories,
    List.reverse_cons, List.reverse_reverse, h]
  dsimp only
  rcases d.makeDirectories at' xs.reverse with ⟨_ | _, d₁⟩ <;> rfl

/-- Where all parts but the last lead to a directory, the last one is the only one to be created. -/
theorem LeadsTo.tryDirectory (h : d.LeadsTo at' xs) (hxs : "." ∉ xs) (hpart : part ≠ ".")
    (hlinks : part ≠ ".." → ∀ t, d.lookup (resolve at' xs ++ [part]) ≠ some (.link t)) (c : Bool) :
    d.tryDirectory at' (xs ++ [part]) = d.ensure c (resolve at' xs) [part] ∧
      d.makeDirectoryAt at' (xs ++ [part]) ≠ .error .notFound := by
  unfold Disk.tryDirectory makeDirectoryAt isDirectoryAt
  obtain ⟨on₁, h₁⟩ := d.walk_eq_walkTo false 40 at' (xs ++ [part])
  obtain ⟨on₂, h₂⟩ := d.walk_eq_walkTo true 40 at' (xs ++ [part])
  rw [h₁, h₂, h.walkTo hxs, h.walkTo hxs]
  cases move d (resolve at' xs) part with
  | back hback =>
    rw [walkTo_back hback, walkTo_back hback, ensure_back hback]
    exact ⟨rfl, by simp [Disk.walkTo, bind, Except.bind]⟩
  | long hback hlong =>
    rw [walkTo_long hpart hback hlong, walkTo_long hpart hback hlong, ensure_long hback hlong]
    exact ⟨rfl, by simp [bind, Except.bind]⟩
  | missing hback hshort hentry =>
    rw [walkTo_missing hpart hback hshort hentry, walkTo_missing hpart hback hshort hentry,
      ensure_missing hback hshort hentry]
    exact ⟨rfl, by simp [bind, Except.bind]⟩
  | directory hback hshort hentry =>
    rw [walkTo_directory hpart hback hshort hentry, walkTo_directory hpart hback hshort hentry,
      ensure_directory hback hshort hentry]
    exact ⟨rfl, by simp [Disk.walkTo, bind, Except.bind]⟩
  | blocked hback hshort e hentry hne =>
    rw [ensure_blocked hback hshort hentry hne]
    cases e with
    | directory => exact absurd rfl hne
    | file content executable =>
      rw [walkTo_file hpart hback hshort hentry, walkTo_file hpart hback hshort hentry]
      exact ⟨by simp [bind, Except.bind], by simp [bind, Except.bind]⟩
    | link target => exact absurd hentry (hlinks hback target)
    | special =>
      rw [walkTo_special hpart hback hshort hentry, walkTo_special hpart hback hshort hentry]
      exact ⟨by simp [bind, Except.bind], by simp [bind, Except.bind]⟩

/-- A directory that is missing where the other parts lead to is created, and so is the rest. -/
theorem LeadsTo.makeDirectories_missing (h : d.LeadsTo at' xs) (hxs : "." ∉ xs) {rest : List String}
    (hrest : "." ∉ rest) (hpart : part ≠ ".") (hback : part ≠ "..")
    (hshort : ¬ 255 < part.length) (hentry : d.lookup (resolve at' xs ++ [part]) = none)
    (hlinks : d.LinkFree (passed (resolve at' xs ++ [part]) rest)) :
    d.makeDirectories at' (xs ++ part :: rest).reverse =
      (d.set (resolve at' xs ++ [part]) .directory).ensure true (resolve at' xs ++ [part]) rest := by
  have hne : resolve at' xs ++ [part] ≠ [] := by simp
  induction rest using List.reverseRecOn with
  | nil =>
    obtain ⟨htry, hfound⟩ := h.tryDirectory hxs hpart (fun _ t => by simp [hentry]) true
    rw [makeDirectories_of_found hfound, htry, ensure_missing hback hshort hentry]
  | append_singleton ys y ih =>
    have hys : "." ∉ ys := fun hmem => hrest (List.mem_append_left _ hmem)
    have hy : y ≠ "." := fun heq => hrest (heq ▸ List.mem_append_right _ (.head _))
    rw [Location.passed_append] at hlinks
    have hmissing : d.makeDirectoryAt at' ((xs ++ part :: ys) ++ [y]) = .error .notFound := by
      unfold makeDirectoryAt
      obtain ⟨onLink, hwalk⟩ := d.walk_eq_walkTo false 40 at' ((xs ++ part :: ys) ++ [y])
      rw [hwalk, List.append_assoc, h.walkTo hxs, List.cons_append,
        walkTo_missing hpart hback hshort hentry, if_neg (by simp)]
      rfl
    have hcons : xs ++ part :: (ys ++ [y]) = (xs ++ part :: ys) ++ [y] := by simp
    rw [hcons, makeDirectories_of_missing hmissing,
      ih hys fun l hl => hlinks l (List.mem_append_left _ hl), ensure_append_true hys]
    rcases hmade : (d.set (resolve at' xs ++ [part]) .directory).ensure true
      (resolve at' xs ++ [part]) ys with ⟨e | _, d'⟩
    · rfl
    · have hset : Grows d (d.set (resolve at' xs ++ [part]) .directory) := .set hne hentry
      have hgrows := Grows.of_ensure hmade
      have hlead : d'.LeadsTo at' (xs ++ part :: ys) := by
        refine (h.mono hxs (hset.trans hgrows)).append hxs ?_
        exact (leadsTo_directory hpart hback hshort (hgrows.kept (lookup_set_self d hne _))).2
          (leadsTo_of_ensure hys hmade)
      have hdots : "." ∉ xs ++ part :: ys := by
        simp only [List.mem_append, List.mem_cons, not_or]
        exact ⟨hxs, Ne.symm hpart, hys⟩
      have hresolve : resolve at' (xs ++ part :: ys) = resolve (resolve at' xs ++ [part]) ys := by
        rw [Location.resolve_append, Location.resolve_cons, Location.step, if_neg hpart,
          if_neg hback]
      have hlink (hy' : y ≠ "..") (t : Path) :
          d'.lookup (resolve at' (xs ++ part :: ys) ++ [y]) ≠ some (.link t) := by
        intro hlink
        have hmem : resolve (resolve at' xs ++ [part]) ys ++ [y] ∈
            passed (resolve at' xs ++ [part]) ys ++ passed (resolve (resolve at' xs ++ [part]) ys) [y] := by
          rw [passed, if_neg hy, Location.step, if_neg hy, if_neg hy']
          exact List.mem_append_right _ (.head _)
        rw [hresolve] at hlink
        exact hlinks _ hmem t ((hset.trans hgrows).lookup_link hlink)
      obtain ⟨htry, -⟩ := hlead.tryDirectory hdots hy hlink true
      rw [andThen, andThen, htry, hresolve]

/-- Without links directories are created by one walk from the left. -/
theorem LeadsTo.makeDirectories (h : d.LeadsTo at' xs) (hxs : "." ∉ xs) (hdot : "." ∉ todo)
    (hlinks : d.LinkFree (passed (resolve at' xs) todo)) :
    d.makeDirectories at' (xs ++ todo).reverse = d.ensure false (resolve at' xs) todo := by
  induction todo generalizing xs with
  | nil =>
    rw [List.append_nil]
    cases xs using List.reverseRecOn with
    | nil => rfl
    | append_singleton ys y =>
      have hmade : d.makeDirectoryAt at' (ys ++ [y]) = .error .alreadyExists := by
        unfold makeDirectoryAt
        obtain ⟨onLink, hwalk⟩ := d.walk_eq_walkTo false 40 at' (ys ++ [y])
        rw [hwalk, h]
        rfl
      have hthere : d.isDirectoryAt at' (ys ++ [y]) = true := by
        unfold isDirectoryAt
        obtain ⟨onLink, hwalk⟩ := d.walk_eq_walkTo true 40 at' (ys ++ [y])
        rw [hwalk, h]
      rw [makeDirectories_of_found (by simp [hmade]), Disk.tryDirectory, hmade]
      dsimp only
      rw [if_pos hthere]
      rfl
  | cons part rest ih =>
    rw [List.mem_cons, not_or] at hdot
    have hpart := Ne.symm hdot.1
    rw [passed, if_neg hpart] at hlinks
    have hrest := fun l hl => hlinks l (.tail _ hl)
    have hcons : xs ++ part :: rest = (xs ++ [part]) ++ rest := by simp
    have hdots : "." ∉ xs ++ [part] := by simp [hxs, hdot.1]
    have hresolve : resolve at' (xs ++ [part]) = Location.step (resolve at' xs) part := by
      rw [Location.resolve_append]
      rfl
    -- what ends the walk before its last part ends the first attempt to create the directory
    have hfailed {e : IoError} (he : e ≠ .notFound)
        (hwalk : ∀ follow onLink, Disk.walkTo d follow onLink (resolve at' xs) (part :: rest) = .error e) :
        d.makeDirectories at' (xs ++ part :: rest).reverse = (.error e, d) := by
      have hmade : d.makeDirectoryAt at' (xs ++ part :: rest) = .error e := by
        unfold makeDirectoryAt
        obtain ⟨onLink, h'⟩ := d.walk_eq_walkTo false 40 at' (xs ++ part :: rest)
        rw [h', h.walkTo hxs, hwalk]
        rfl
      have hthere : d.isDirectoryAt at' (xs ++ part :: rest) = false := by
        unfold isDirectoryAt
        obtain ⟨onLink, h'⟩ := d.walk_eq_walkTo true 40 at' (xs ++ part :: rest)
        rw [h', h.walkTo hxs, hwalk]
      obtain ⟨zs, z, hz⟩ := List.eq_nil_or_concat (xs ++ part :: rest) |>.resolve_left (by simp)
      rw [hz, List.concat_eq_append] at hmade hthere ⊢
      rw [makeDirectories_of_found (by simp [hmade, he]), Disk.tryDirectory, hmade]
      dsimp only
      rw [hthere]
      rfl
    cases move d (resolve at' xs) part with
    | back hback =>
      have hstep : Location.step (resolve at' xs) part = (resolve at' xs).dropLast := by
        rw [Location.step, if_neg hpart, if_pos hback]
      rw [ensure_back hback, hcons, ← hstep, ← hresolve]
      exact ih (h.append hxs ((leadsTo_back hback).2 leadsTo_nil)) hdots hdot.2 (hresolve ▸ hrest)
    | directory hback hshort hentry =>
      have hstep : Location.step (resolve at' xs) part = resolve at' xs ++ [part] := by
        rw [Location.step, if_neg hpart, if_neg hback]
      rw [ensure_directory hback hshort hentry, hcons, ← hstep, ← hresolve]
      exact ih (h.append hxs ((leadsTo_directory hpart hback hshort hentry).2 leadsTo_nil)) hdots
        hdot.2 (hresolve ▸ hrest)
    | long hback hlong =>
      rw [ensure_long hback hlong]
      exact hfailed (by simp) fun _ _ => walkTo_long hpart hback hlong
    | missing hback hshort hentry =>
      rw [ensure_missing hback hshort hentry]
      rw [Location.step, if_neg hpart, if_neg hback] at hrest
      exact h.makeDirectories_missing hxs hdot.2 hpart hback hshort hentry hrest
    | blocked hback hshort e hentry hne =>
      rw [ensure_blocked hback hshort hentry hne]
      by_cases hnil : rest = []
      · subst hnil
        have hlink (_ : part ≠ "..") (t : Path) :
            d.lookup (resolve at' xs ++ [part]) ≠ some (.link t) := by
          have hlinks := hlinks _ (.head _) t
          rwa [Location.step, if_neg hpart, if_neg hback] at hlinks
        obtain ⟨htry, hfound⟩ := h.tryDirectory hxs hpart hlink false
        rw [makeDirectories_of_found hfound, htry, ensure_blocked hback hshort hentry hne]
      · rw [if_neg (by simp [hnil])]
        refine hfailed (by simp) fun follow onLink => ?_
        cases e with
        | directory => exact absurd rfl hne
        | file content executable =>
          rw [walkTo_file hpart hback hshort hentry, if_neg hnil]
        | link target =>
          have hlinks := hlinks _ (.head _) target
          rw [Location.step, if_neg hpart, if_neg hback] at hlinks
          exact absurd hentry hlinks
        | special =>
          rw [walkTo_special hpart hback hshort hentry, if_neg hnil]

theorem makeDirectories_eq_ensure (hdot : "." ∉ todo) (hlinks : d.LinkFree (passed at' todo)) :
    d.makeDirectories at' todo.reverse = d.ensure false at' todo := by
  have hnil : d.LeadsTo at' [] := leadsTo_nil
  exact hnil.makeDirectories List.not_mem_nil hdot hlinks

end Disk

end ServiceCall
