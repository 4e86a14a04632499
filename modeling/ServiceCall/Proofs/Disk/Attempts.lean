import ServiceCall.Proofs.Disk.Directories
/-!
# Attempts to create directories

An attempt to create directories leaves what it has created, and a later one finds it. It ends as the
first one did, if not always with the same error (`Disk.ensure_again`), and with the same error if the
parts never lead back (`Disk.ensure_again_of_names`). A path to what was created is followed there
(`Disk.LeadsTo.follow`), and a name in it to what it stands for (`Disk.LeadsTo.read_join`,
`Disk.LeadsTo.read_link`).
-/

namespace ServiceCall

open Location (resolve passed)

namespace Disk

variable {d d' d₁ d₂ : Disk} {hidden : Hiding} {at' : Location} {part : String}
  {todo xs ys : List String} {c c' : Bool}

/-! ## What an attempt keeps -/

theorem WellFormed.ensure (h : d.WellFormed) (hat : d.lookup at' = some .directory)
    (hnames : ∀ s ∈ todo, s = ".." ∨ IsName s) : (d.ensure c at' todo).2.WellFormed := by
  induction todo generalizing d c at' with
  | nil => exact h
  | cons part rest ih =>
    have hpart := hnames _ (.head _)
    have hrest := fun s hs => hnames s (.tail _ hs)
    cases move d at' part with
    | back hback => rw [ensure_back hback]; exact ih h (h.lookup_dropLast hat) hrest
    | long hback hlong => rw [ensure_long hback hlong]; exact h
    | missing hback hshort hentry =>
      rw [ensure_missing hback hshort hentry]
      exact ih (h.set hat (hpart.resolve_left hback) fun _ => rfl)
        (lookup_set_self d (by simp) _) hrest
    | directory hback hshort hentry => rw [ensure_directory hback hshort hentry]; exact ih h hentry hrest
    | blocked hback hshort e hentry hne => rw [ensure_blocked hback hshort hentry hne]; exact h

/-- On disks that are alike an attempt ends in the same way and keeps them alike. -/
theorem Alike.ensure (h : Alike hidden d₁ d₂) (hdot : "." ∉ todo)
    (hpassed : ∀ l ∈ passed at' todo, hidden.Shows l) :
    (d₁.ensure c at' todo).1 = (d₂.ensure c at' todo).1 ∧
      Alike hidden (d₁.ensure c at' todo).2 (d₂.ensure c at' todo).2 := by
  induction todo generalizing d₁ d₂ c at' with
  | nil => exact ⟨rfl, h⟩
  | cons part rest ih =>
    rw [List.mem_cons, not_or] at hdot
    have hpart := Ne.symm hdot.1
    rw [passed, if_neg hpart, Location.step, if_neg hpart] at hpassed
    have hrest := fun l hl => hpassed l (.tail _ hl)
    have hshows := hpassed _ (.head _)
    cases move d₁ at' part with
    | back hback =>
      rw [if_pos hback] at hrest
      rw [ensure_back hback, ensure_back hback]
      exact ih h hdot.2 hrest
    | long hback hlong =>
      rw [ensure_long hback hlong, ensure_long hback hlong]
      exact ⟨rfl, h⟩
    | missing hback hshort hentry =>
      rw [if_neg hback] at hrest hshows
      have hentry₂ := (h.lookup_of_shows hshows).symm.trans hentry
      rw [ensure_missing hback hshort hentry, ensure_missing hback hshort hentry₂]
      exact ih (h.set (by simp) _) hdot.2 hrest
    | directory hback hshort hentry =>
      rw [if_neg hback] at hrest hshows
      have hentry₂ := (h.lookup_of_shows hshows).symm.trans hentry
      rw [ensure_directory hback hshort hentry, ensure_directory hback hshort hentry₂]
      exact ih h hdot.2 hrest
    | blocked hback hshort e hentry hne =>
      rw [if_neg hback] at hshows
      have hentry₂ := (h.lookup_of_shows hshows).symm.trans hentry
      rw [ensure_blocked hback hshort hentry hne, ensure_blocked hback hshort hentry₂ hne]
      exact ⟨rfl, h⟩

/-- An attempt changes nothing but what the parts lead through. -/
theorem alike_ensure (d : Disk) (c : Bool) (at' : Location) (hdot : "." ∉ todo) :
    Alike (Hiding.at (· ∈ passed at' todo)) d (d.ensure c at' todo).2 :=
  .of_lookup (grows_ensure d c at' todo).workingDirectory.symm fun _ hl => (lookup_ensure_of_not_mem hdot hl).symm

/-! ## Another attempt -/

theorem SameButCause.andThen {r₁ r₂ : Except IoError Unit × Disk}
    {f g : Disk → Except IoError Unit × Disk} (h : SameButCause r₁ r₂)
    (hnext : ∀ d, SameButCause (f d) (g d)) : SameButCause (andThen r₁ f) (andThen r₂ g) := by
  obtain ⟨r₁, d₁⟩ := r₁
  obtain ⟨r₂, d₂⟩ := r₂
  obtain ⟨hresult, rfl : d₁ = d₂⟩ := h
  cases r₁ <;> cases r₂
  · exact ⟨rfl, rfl⟩
  · cases hresult
  · cases hresult
  · exact hnext d₁

theorem ensure_append (d : Disk) (c c' : Bool) (at' : Location) (hdot : "." ∉ xs)
    (ys : List String) : SameButCause (d.ensure c at' (xs ++ ys))
      (andThen (d.ensure c at' xs) fun d' => d'.ensure c' (resolve at' xs) ys) := by
  induction xs generalizing d c at' with
  | nil => exact ensure_flag ..
  | cons part rest ih =>
    rw [List.mem_cons, not_or] at hdot
    rw [List.cons_append, Location.resolve_cons, Location.step, if_neg (Ne.symm hdot.1)]
    cases move d at' part with
    | back hback =>
      rw [ensure_back hback, ensure_back hback, if_pos hback]
      exact ih _ _ _ hdot.2
    | long hback hlong =>
      rw [ensure_long hback hlong, ensure_long hback hlong]
      exact .refl _
    | missing hback hshort hentry =>
      rw [ensure_missing hback hshort hentry, ensure_missing hback hshort hentry, if_neg hback]
      exact ih _ _ _ hdot.2
    | directory hback hshort hentry =>
      rw [ensure_directory hback hshort hentry, ensure_directory hback hshort hentry, if_neg hback]
      exact ih _ _ _ hdot.2
    | blocked hback hshort e hentry hne =>
      rw [ensure_blocked hback hshort hentry hne, ensure_blocked hback hshort hentry hne]
      exact ⟨rfl, rfl⟩

/-- Where an attempt failed another one fails, with more to do as well, and creates nothing. -/
theorem ensure_of_failed {e : IoError} (h : d.ensure c at' xs = (.error e, d')) (c' : Bool)
    (ys : List String) : ∃ e', d'.ensure c' at' (xs ++ ys) = (.error e', d') := by
  induction xs generalizing d c c' at' with
  | nil => cases h
  | cons part rest ih =>
    rw [List.cons_append]
    cases move d at' part with
    | back hback =>
      rw [ensure_back hback] at h ⊢
      exact ih h c'
    | long hback hlong => exact ⟨_, ensure_long hback hlong⟩
    | missing hback hshort hentry =>
      rw [ensure_missing hback hshort hentry] at h
      rw [ensure_directory hback hshort ((Grows.of_ensure h).kept (lookup_set_self d (by simp) _))]
      exact ih h c'
    | directory hback hshort hentry =>
      rw [ensure_directory hback hshort hentry] at h
      rw [ensure_directory hback hshort ((Grows.of_ensure h).kept hentry)]
      exact ih h c'
    | blocked hback hshort f hentry hne =>
      rw [ensure_blocked hback hshort hentry hne] at h
      obtain ⟨-, rfl⟩ := Prod.mk.inj h
      exact ⟨_, ensure_blocked hback hshort hentry hne⟩

/-- Another attempt, with more to do as well, ends as it would have without the first one. -/
theorem ensure_again (d : Disk) (c c' : Bool) (at' : Location) (hdot : "." ∉ xs)
    (ys : List String) : SameButCause ((d.ensure c at' xs).2.ensure c' at' (xs ++ ys))
      (d.ensure c at' (xs ++ ys)) := by
  refine .symm ((ensure_append d c c' at' hdot ys).trans ?_)
  rcases hfirst : d.ensure c at' xs with ⟨e | _, d'⟩
  · obtain ⟨e', he'⟩ := ensure_of_failed hfirst c' ys
    rw [he']
    exact ⟨rfl, rfl⟩
  · rw [(leadsTo_of_ensure hdot hfirst).ensure hdot]
    exact .refl _

/-- Nothing blocks the way below a directory with nothing in it. -/
theorem ensure_of_fresh (hname : ∀ s ∈ todo, s ≠ "..")
    (hfresh : ∀ n, d.lookup (at' ++ [n]) = none) :
    d.ensure c at' todo = d.ensure c' at' todo := by
  cases todo with
  | nil => rfl
  | cons part rest =>
    have hback := hname _ (.head _)
    by_cases hlong : 255 < part.length
    · rw [ensure_long hback hlong, ensure_long hback hlong]
    · rw [ensure_missing hback hlong (hfresh part), ensure_missing hback hlong (hfresh part)]

/-- Where the parts do not lead back another attempt ends with the same error, too. -/
theorem ensure_again_of_names (h : d.WellFormed) (hat : d.lookup at' = some .directory)
    (xs ys : List String) (hnames : ∀ s ∈ xs ++ ys, IsName s) :
    (d.ensure false at' xs).2.ensure false at' (xs ++ ys) = d.ensure false at' (xs ++ ys) := by
  induction xs generalizing d at' with
  | nil => rfl
  | cons part rest ih =>
    have hpart : IsName part := hnames _ (.head _)
    have hrest : ∀ s ∈ rest ++ ys, IsName s := fun s hs => hnames s (.tail _ hs)
    have hback := hpart.2.2.1
    rw [List.cons_append]
    cases move d at' part with
    | back hback' => exact absurd hback' hback
    | long _ hlong => rw [ensure_long (d := d) hback hlong]
    | missing _ hshort hentry =>
      have hnew : (d.set (at' ++ [part]) .directory).lookup (at' ++ [part]) = some .directory :=
        lookup_set_self d (by simp) _
      have hfresh (n : String) :
          (d.set (at' ++ [part]) .directory).lookup (at' ++ [part] ++ [n]) = none := by
        rw [lookup_set_of_ne d (by simp)]
        exact h.lookup_below (by simp [hentry]) (List.prefix_append _ _) (by simp)
      have hsame (todo : List String) (htodo : ∀ s ∈ todo, IsName s) :
          (d.set (at' ++ [part]) .directory).ensure true (at' ++ [part]) todo =
            (d.set (at' ++ [part]) .directory).ensure false (at' ++ [part]) todo :=
        ensure_of_fresh (fun s hs => (htodo s hs).2.2.1) hfresh
      rw [ensure_missing (d := d) hback hshort hentry, ensure_missing (d := d) hback hshort hentry,
        hsame rest fun s hs => hrest s (List.mem_append_left _ hs), hsame _ hrest,
        ensure_directory hback hshort ((grows_ensure ..).kept hnew)]
      exact ih (h.set hat hpart fun _ => rfl) hnew hrest
    | directory _ hshort hentry =>
      rw [ensure_directory (d := d) hback hshort hentry,
        ensure_directory (d := d) hback hshort hentry,
        ensure_directory hback hshort ((grows_ensure ..).kept hentry)]
      exact ih h hentry hrest
    | blocked _ hshort e hentry hne => rw [ensure_blocked (d := d) hback hshort hentry hne]

end Disk

/-! ## Attempts at a path -/

/-- Why no directory of a path can be created, whatever there is. -/
def Path.refusal? (p : Path) : Option IoError :=
  if p.toList.contains '\x00' then some .nulInPath
  else if Disk.maxPathLength < p.length then some .nameTooLong
  else none

theorem Path.refusal?_eq_none {p : Path} (hnul : '\x00' ∉ p.toList)
    (hsize : p.length ≤ Disk.maxPathLength) : p.refusal? = none := by
  rw [refusal?, if_neg (by simpa using hnul), if_neg (Nat.not_lt.2 hsize)]

namespace Disk

/-- A path is refused, or its directory is created from its steps. -/
theorem createDirectories_eq_makeDirectories (d : Disk) (p : Path) :
    d.createDirectories p = match p.refusal? with
      | some e => (.error e, d)
      | none => d.makeDirectories (p.base d.workingDirectory) p.steps.reverse := by
  unfold createDirectories Path.refusal?
  split
  next hempty =>
    obtain rfl : p = "" := by simpa using hempty
    rfl
  split
  · rfl
  split
  · rfl
  rw [Path.filter_parts]
  rfl

/-- Without links the directory of a path is created by one walk. -/
theorem createDirectories_eq {d : Disk} {p : Path} (hlinks : d.LinkFree (p.way d.workingDirectory)) :
    d.createDirectories p = match p.refusal? with
      | some e => (.error e, d)
      | none => d.ensure false (p.base d.workingDirectory) p.steps := by
  have hdot := Path.dot_not_mem_steps p
  rw [createDirectories_eq_makeDirectories, makeDirectories_eq_ensure hdot hlinks]

/-! ## Following a path through directories -/

section

variable {d : Disk} {p : Path}

/-- What is followed is no longer than a path may be. -/
theorem length_le_of_follow {links : Bool} {pl : Place} (h : d.follow links p = .ok pl) :
    p.length ≤ maxPathLength := by
  by_contra hlong
  rw [follow, if_pos (Nat.not_le.1 hlong)] at h
  split at h
  next => cases h
  next => split at h <;> cases h

/-- A path that is not refused is followed by walking. -/
theorem follow_eq_walk {links : Bool} (hp : p ≠ "") (hrefused : p.refusal? = none) :
    d.follow links p = d.walk links 40 (p.base d.workingDirectory) (parts p) := by
  have hempty : p.isEmpty = false := by simpa using hp
  unfold Path.refusal? at hrefused
  unfold Disk.follow
  split at hrefused
  · cases hrefused
  rw [if_neg ‹_›, hempty, if_neg Bool.false_ne_true]
  split at hrefused
  · cases hrefused
  rw [if_neg ‹_›]
  rfl

/-- A path that leads to a directory ends there. -/
theorem LeadsTo.follow (h : d.LeadsTo (p.base d.workingDirectory) p.steps) (hp : p ≠ "")
    (hrefused : p.refusal? = none) (links : Bool) :
    d.follow links p = .ok ⟨p.place d.workingDirectory, some .directory⟩ := by
  have hdot := Path.dot_not_mem_steps p
  have hwalk : d.walk links 40 (p.base d.workingDirectory) (parts p) =
      .ok ⟨p.place d.workingDirectory, some .directory⟩ := by
    obtain ⟨onLink, hwalk⟩ := walk_eq_walkTo d links 40 (p.base d.workingDirectory) (parts p)
    rw [hwalk]
    obtain hparts | hparts := Path.parts_eq_steps p
    · rw [hparts]
      exact h links onLink
    · rw [hparts, h.walkTo hdot]
      rfl
  exact (follow_eq_walk hp hrefused).trans hwalk

/-- A name in a directory that a path leads to is followed to what is there. -/
theorem LeadsTo.follow_join {n : String} (h : d.LeadsTo (p.base d.workingDirectory) p.steps)
    (hn : IsName n) (hshort : ¬ 255 < n.length) (hrefused : (Path.join p n).refusal? = none)
    (hlink : ∀ t, d.lookup (p.place d.workingDirectory ++ [n]) ≠ some (.link t)) (links : Bool) :
    d.follow links (Path.join p n) = .ok ⟨p.place d.workingDirectory ++ [n],
      d.lookup (p.place d.workingDirectory ++ [n])⟩ := by
  have hdot := Path.dot_not_mem_steps p
  have hwalk : d.walk links 40 ((Path.join p n).base d.workingDirectory) (parts (Path.join p n)) =
      .ok ⟨p.place d.workingDirectory ++ [n], d.lookup (p.place d.workingDirectory ++ [n])⟩ := by
    obtain ⟨onLink, hwalk⟩ := walk_eq_walkTo d links 40 ((Path.join p n).base d.workingDirectory)
      (parts (Path.join p n))
    rw [hwalk, Path.parts_join hn, Path.base_join hn, h.walkTo hdot]
    rw [Path.place] at hlink ⊢
    cases hentry : d.lookup (resolve (p.base d.workingDirectory) p.steps ++ [n]) with
    | none => rw [walkTo_missing hn.2.1 hn.2.2.1 hshort hentry, if_pos rfl]
    | some e =>
      cases e with
      | directory =>
        rw [walkTo_directory hn.2.1 hn.2.2.1 hshort hentry]
        rfl
      | file content executable =>
        rw [walkTo_file hn.2.1 hn.2.2.1 hshort hentry, if_pos rfl]
      | link target => exact absurd hentry (hlink target)
      | special =>
        rw [walkTo_special hn.2.1 hn.2.2.1 hshort hentry, if_pos rfl]
  exact (follow_eq_walk (Path.join_ne_empty hn p) hrefused).trans hwalk

/-- A file in a directory that a path leads to is read, if it is there. -/
theorem LeadsTo.read_join {n : String} (h : d.LeadsTo (p.base d.workingDirectory) p.steps)
    (hn : IsName n) (hshort : ¬ 255 < n.length) (hrefused : (Path.join p n).refusal? = none) :
    (d.lookup (p.place d.workingDirectory ++ [n]) = none → d.read (Path.join p n) = .error .notFound) ∧
      ∀ content executable, d.lookup (p.place d.workingDirectory ++ [n]) = some (.file content executable) →
        d.read (Path.join p n) = .ok content := by
  have hfollow := h.follow_join hn hshort hrefused
  constructor
  · intro hnone
    unfold Disk.read Disk.entry
    rw [hfollow (by simp [hnone]), hnone]
    rfl
  · intro content executable hfile
    unfold Disk.read Disk.entry
    rw [hfollow (by simp [hfile]), hfile]
    rfl

/-- A link in a directory that a path leads to is read as what it leads to. -/
theorem LeadsTo.read_link {n : String} {target : Path}
    (h : d.LeadsTo (p.base d.workingDirectory) p.steps) (hn : IsName n) (hshort : ¬ 255 < n.length)
    (hrefused : (Path.join p n).refusal? = none)
    (hlink : d.lookup (p.place d.workingDirectory ++ [n]) = some (.link target))
    (habsolute : Path.isAbsolute target = true) (htarget : target.refusal? = none)
    (hfree : d.LinkFree (target.way d.workingDirectory)) : d.read (Path.join p n) = d.read target := by
  have hdot := Path.dot_not_mem_steps p
  have hne : target ≠ "" := by
    rintro rfl
    cases habsolute
  have hbase : target.base d.workingDirectory = [] := if_pos habsolute
  -- at the link the walk starts anew at the top, with one link less to follow
  have hwalk : d.walk true 40 ((Path.join p n).base d.workingDirectory) (parts (Path.join p n)) =
      d.walk true 39 [] (parts target) := by
    rw [Path.place] at hlink
    rw [Path.parts_join hn, Path.base_join hn, walk, h.walkTo hdot,
      walkTo_link hn.2.1 hn.2.2.1 hshort hlink, if_neg (by simp), if_neg (by simpa using hne),
      if_pos habsolute, List.append_nil]
  rw [Path.way, hbase, ← Path.passed_parts] at hfree
  unfold Disk.read Disk.entry
  rw [follow_eq_walk (Path.join_ne_empty hn p) hrefused, hwalk, follow_eq_walk hne htarget, hbase,
    walk_congr (fun _ _ => rfl) hfree]

end

end Disk

end ServiceCall
