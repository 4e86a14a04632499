import ServiceCall.Proofs.Basic.Except
import ServiceCall.Proofs.Disk.Attempts
/-!
# Walking through links

What has been reached on a disk with links stays within reach when directories and files are added:
a walk only passes directories and links, and no operation but removing takes these away
(`Disk.Keeps`). So a directory that was created can be walked to (`Disk.isDirectory_createDirectories`),
and what was written to a file is read from it again (`Disk.read_write`), however many links lead
there.
-/

namespace ServiceCall

namespace Disk

variable {d d' d₁ d₂ : Disk} {at' : Location} {todo : List String} {pl : Place} {n : Nat}

/-! ## Where walks end -/

/-- What a walk ends at is what the disk holds there, unless it is a directory. -/
def Holds (d : Disk) (pl : Place) : Prop :=
  pl.entry = some .directory ∨ d.lookup pl.location = pl.entry

theorem walkTo_holds {follow : Bool}
    {onLink : Location → Path → List String → Except IoError Place}
    (hlink : ∀ at' target rest pl, onLink at' target rest = .ok pl → d.Holds pl)
    (h : walkTo d follow onLink at' todo = .ok pl) : d.Holds pl := by
  induction todo generalizing at' with
  | nil => exact .inl (Except.ok.inj h ▸ rfl)
  | cons part rest ih =>
    by_cases hdot : part = "."
    · rw [walkTo, if_pos hdot] at h
      exact ih h
    by_cases hback : part = ".."
    · rw [walkTo_back hback] at h
      exact ih h
    by_cases hlong : 255 < part.length
    · rw [walkTo_long hdot hback hlong] at h
      cases h
    cases hentry : d.lookup (at' ++ [part]) with
    | none =>
      rw [walkTo_missing hdot hback hlong hentry] at h
      split at h
      · exact .inr (Except.ok.inj h ▸ hentry)
      · cases h
    | some e =>
      cases e with
      | directory =>
        rw [walkTo_directory hdot hback hlong hentry] at h
        exact ih h
      | file content executable =>
        rw [walkTo_file hdot hback hlong hentry] at h
        split at h
        · exact .inr (Except.ok.inj h ▸ hentry)
        · cases h
      | link target =>
        rw [walkTo_link hdot hback hlong hentry] at h
        split at h
        · exact .inr (Except.ok.inj h ▸ hentry)
        · exact hlink _ _ _ _ h
      | special =>
        rw [walkTo_special hdot hback hlong hentry] at h
        split at h
        · exact .inr (Except.ok.inj h ▸ hentry)
        · cases h

theorem walk_holds {follow : Bool} (h : d.walk follow n at' todo = .ok pl) : d.Holds pl := by
  induction n generalizing at' todo pl with
  | zero => exact walkTo_holds (fun _ _ _ _ hlink => by cases hlink) h
  | succ n ih =>
    refine walkTo_holds (fun _ _ _ _ hlink => ?_) h
    split at hlink
    · cases hlink
    · exact ih hlink

/-- A place where nothing is, or a file, is not the root. -/
theorem Holds.ne_nil (h : d.Holds pl) (hentry : pl.entry ≠ some .directory) : pl.location ≠ [] := by
  intro hnil
  have hroot : d.lookup pl.location = some .directory := by
    rw [hnil]
    rfl
  exact hentry ((h.resolve_left hentry).symm.trans hroot)

/-! ## Going the same way again -/

/-- Whatever is no file on one disk is on the other, too. -/
structure Keeps (d d' : Disk) : Prop where
  workingDirectory : d'.workingDirectory = d.workingDirectory
  lookup : ∀ l e, d.lookup l = some e → e.isFile = false → d'.lookup l = some e

theorem Keeps.refl (d : Disk) : Keeps d d := ⟨rfl, fun _ _ h _ => h⟩

theorem Keeps.trans (h : Keeps d d₁) (h' : Keeps d₁ d₂) : Keeps d d₂ :=
  ⟨h'.workingDirectory.trans h.workingDirectory,
    fun l e hl he => h'.lookup l e (h.lookup l e hl he) he⟩

/-- What is put where nothing is, or a file, takes nothing else away. -/
theorem Holds.keeps_set (h : d.Holds pl) (hfile : ∀ e, pl.entry = some e → e.isFile = true)
    (e : Entry) : Keeps d (d.set pl.location e) := by
  have hdirectory : pl.entry ≠ some .directory := fun hentry => nomatch hfile _ hentry
  refine ⟨rfl, fun l e' hl he' => ?_⟩
  have hheld := h.resolve_left hdirectory
  rw [lookup_set d (h.ne_nil hdirectory)]
  split
  next heq =>
    rw [heq, hheld] at hl
    rw [hfile e' hl] at he'
    cases he'
  next => exact hl

/-- What is at the end of a walk that is gone again. -/
def Place.on (d : Disk) (pl : Place) : Place :=
  ⟨pl.location, if pl.entry = some .directory then some .directory else d.lookup pl.location⟩

theorem walkTo_keeps (hkeeps : Keeps d d') {follow : Bool}
    {on₁ on₂ : Location → Path → List String → Except IoError Place}
    (hpl : ∀ t, pl.entry ≠ some (.link t))
    (hend : pl.entry ≠ some .directory → ∀ t, d'.lookup pl.location ≠ some (.link t))
    (hon : ∀ at' target rest, on₁ at' target rest = .ok pl → on₂ at' target rest = .ok (pl.on d'))
    (h : walkTo d follow on₁ at' todo = .ok pl) :
    walkTo d' true on₂ at' todo = .ok (pl.on d') := by
  induction todo generalizing at' with
  | nil =>
    obtain rfl := Except.ok.inj h
    rfl
  | cons part rest ih =>
    by_cases hdot : part = "."
    · rw [walkTo, if_pos hdot] at h ⊢
      exact ih h
    by_cases hback : part = ".."
    · rw [walkTo_back hback] at h ⊢
      exact ih h
    by_cases hlong : 255 < part.length
    · rw [walkTo_long hdot hback hlong] at h
      cases h
    -- a walk that ends here ends here again, at what is there now
    have hlast {e : Option Entry} (hrest : rest = []) (he : e ≠ some .directory)
        (hpl : pl = ⟨at' ++ [part], e⟩) :
        walkTo d' true on₂ at' (part :: rest) = .ok (pl.on d') := by
      subst hpl
      subst hrest
      rw [Place.on, if_neg he]
      cases hentry : d'.lookup (at' ++ [part]) with
      | none => rw [walkTo_missing hdot hback hlong hentry, if_pos rfl]
      | some e =>
        cases e with
        | directory =>
          rw [walkTo_directory hdot hback hlong hentry]
          rfl
        | file content executable => rw [walkTo_file hdot hback hlong hentry, if_pos rfl]
        | link t => exact absurd hentry (hend he t)
        | special => rw [walkTo_special hdot hback hlong hentry, if_pos rfl]
    cases hentry : d.lookup (at' ++ [part]) with
    | none =>
      rw [walkTo_missing hdot hback hlong hentry] at h
      split at h
      next hrest => exact hlast hrest (by simp) (Except.ok.inj h).symm
      next => cases h
    | some e =>
      cases e with
      | directory =>
        rw [walkTo_directory hdot hback hlong hentry] at h
        rw [walkTo_directory hdot hback hlong (hkeeps.lookup _ _ hentry rfl)]
        exact ih h
      | file content executable =>
        rw [walkTo_file hdot hback hlong hentry] at h
        split at h
        next hrest => exact hlast hrest (by simp) (Except.ok.inj h).symm
        next => cases h
      | link target =>
        rw [walkTo_link hdot hback hlong hentry] at h
        rw [walkTo_link hdot hback hlong (hkeeps.lookup _ _ hentry rfl), if_neg (by simp)]
        split at h
        · exact absurd (Except.ok.inj h ▸ rfl) (hpl target)
        · exact hon _ _ _ h
      | special =>
        rw [walkTo_special hdot hback hlong hentry] at h
        split at h
        next hrest => exact hlast hrest (by simp) (Except.ok.inj h).symm
        next => cases h

/-- A walk that ended at no link can be gone again once more is there, unless it now ends at one. -/
theorem walk_keeps (hkeeps : Keeps d d') {follow : Bool} (hpl : ∀ t, pl.entry ≠ some (.link t))
    (hend : pl.entry ≠ some .directory → ∀ t, d'.lookup pl.location ≠ some (.link t))
    (h : d.walk follow n at' todo = .ok pl) :
    d'.walk true n at' todo = .ok (pl.on d') := by
  induction n generalizing at' todo with
  | zero => exact walkTo_keeps hkeeps hpl hend (fun _ _ _ hon => by cases hon) h
  | succ n ih =>
    refine walkTo_keeps hkeeps hpl hend (fun _ _ _ hon => ?_) h
    split at hon
    next => cases hon
    next hempty =>
      rw [if_neg hempty]
      exact ih hon

/-! ## Creating directories -/

theorem isDirectoryAt_eq_true :
    d.isDirectoryAt at' todo = true ↔ ∃ l, d.walk true 40 at' todo = .ok ⟨l, some .directory⟩ := by
  unfold isDirectoryAt
  split
  next l heq => exact iff_of_true rfl ⟨l, heq⟩
  next hnot =>
    refine iff_of_false Bool.false_ne_true fun hfound => ?_
    obtain ⟨l, hl⟩ := hfound
    exact hnot l hl

/-- What is a directory stays one. -/
theorem Keeps.isDirectoryAt (h : Keeps d d') (hat : d.isDirectoryAt at' todo = true) :
    d'.isDirectoryAt at' todo = true := by
  obtain ⟨l, hl⟩ := isDirectoryAt_eq_true.1 hat
  exact isDirectoryAt_eq_true.2 ⟨l, walk_keeps h (by simp) (fun hne => absurd rfl hne) hl⟩

/-- Where directories are added everything else stays. -/
theorem Grows.keeps (h : Grows d d') : Keeps d d' :=
  ⟨h.workingDirectory, fun _ _ hl _ => h.kept hl⟩

/-- A directory is created where nothing was, and can be walked to. -/
theorem of_makeDirectoryAt (h : d.makeDirectoryAt at' todo = .ok d') :
    ∃ l ≠ [], d.lookup l = none ∧ d' = d.set l .directory ∧
      d'.walk true 40 at' todo = .ok ⟨l, some .directory⟩ := by
  obtain ⟨pl, hwalk, h⟩ := Except.bind_eq_ok.1 h
  split at h
  next hnone =>
    obtain rfl := Except.ok.inj h
    have hholds := walk_holds hwalk
    have hdirectory : pl.entry ≠ some .directory := by simp [hnone]
    have hlink (t : Path) : pl.entry ≠ some (.link t) := by simp [hnone]
    have hne := hholds.ne_nil hdirectory
    have hmissing := (hholds.resolve_left hdirectory).trans hnone
    have hmade := lookup_set_self d hne .directory
    have hagain := walk_keeps (Grows.set hne hmissing).keeps hlink (fun _ t => by simp [hmade]) hwalk
    rw [Place.on, if_neg hdirectory, hmade] at hagain
    exact ⟨pl.location, hne, hmissing, rfl, hagain⟩
  next => cases h

/-- A directory that is created is one, and takes nothing away. -/
theorem isDirectoryAt_makeDirectoryAt (h : d.makeDirectoryAt at' todo = .ok d') :
    Keeps d d' ∧ d'.isDirectoryAt at' todo = true := by
  obtain ⟨l, hne, hmissing, rfl, hwalk⟩ := of_makeDirectoryAt h
  exact ⟨(Grows.set hne hmissing).keeps, isDirectoryAt_eq_true.2 ⟨l, hwalk⟩⟩

/-- Once a directory was created, or was not because it is there, it is there. -/
theorem isDirectoryAt_of_attempt {e : IoError}
    (h : (if d.isDirectoryAt at' todo = true then (.ok (), d) else (.error e, d)) =
      ((.ok (), d') : Except IoError Unit × Disk)) : d' = d ∧ d.isDirectoryAt at' todo = true := by
  split at h
  next hdirectory => exact ⟨(Prod.mk.inj h).2.symm, hdirectory⟩
  next => cases h

/-- Directories that are created take nothing away, and the last one is there. -/
theorem isDirectoryAt_makeDirectories {up : List String}
    (h : d.makeDirectories at' up = (.ok (), d')) :
    Keeps d d' ∧ (up ≠ [] → d'.isDirectoryAt at' up.reverse = true) := by
  induction up generalizing d' with
  | nil =>
    obtain rfl := (Prod.mk.inj h).2
    exact ⟨.refl d, fun hnil => absurd rfl hnil⟩
  | cons part up ih =>
    rw [makeDirectories] at h
    split at h
    next d₁ hmade =>
      obtain rfl := (Prod.mk.inj h).2
      obtain ⟨hkeeps, hdirectory⟩ := isDirectoryAt_makeDirectoryAt hmade
      exact ⟨hkeeps, fun _ => hdirectory⟩
    next =>
      split at h
      next => cases h
      next d₁ habove =>
        have hkeeps := (ih habove).1
        split at h
        next d₂ hmade =>
          obtain rfl := (Prod.mk.inj h).2
          obtain ⟨hmore, hdirectory⟩ := isDirectoryAt_makeDirectoryAt hmade
          exact ⟨hkeeps.trans hmore, fun _ => hdirectory⟩
        next =>
          obtain ⟨rfl, hdirectory⟩ := isDirectoryAt_of_attempt h
          exact ⟨hkeeps, fun _ => hdirectory⟩
    next =>
      obtain ⟨rfl, hdirectory⟩ := isDirectoryAt_of_attempt h
      exact ⟨.refl d', fun _ => hdirectory⟩

theorem isDirectory_eq_true {p : Path} :
    d.isDirectory p = true ↔ ∃ l, d.follow true p = .ok ⟨l, some .directory⟩ := by
  unfold isDirectory entry
  cases d.follow true p with
  | error e => simp [bind, Except.bind]
  | ok pl =>
    obtain ⟨l, e⟩ := pl
    cases e with
    | none => simp [bind, Except.bind]
    | some e => cases e <;> simp [bind, Except.bind]

/-- What a path leads to it leads to again once more is there, unless there is a link now. -/
theorem follow_keeps (hkeeps : Keeps d d') {links : Bool} {p : Path}
    (hpl : ∀ t, pl.entry ≠ some (.link t))
    (hend : pl.entry ≠ some .directory → ∀ t, d'.lookup pl.location ≠ some (.link t))
    (h : d.follow links p = .ok pl) : d'.follow true p = .ok (pl.on d') := by
  unfold follow at h ⊢
  split at h
  · cases h
  rw [if_neg ‹_›]
  split at h
  · cases h
  rw [if_neg ‹_›]
  split at h
  · cases h
  rw [if_neg ‹_›, hkeeps.workingDirectory]
  exact walk_keeps hkeeps hpl hend h

theorem Keeps.isDirectory (h : Keeps d d') {p : Path} (hp : d.isDirectory p = true) :
    d'.isDirectory p = true := by
  obtain ⟨l, hl⟩ := isDirectory_eq_true.1 hp
  exact isDirectory_eq_true.2 ⟨l, follow_keeps h (by simp) (fun hne => absurd rfl hne) hl⟩

/-- A directory that is created at a path without a slash at its end is one, and takes nothing
away. -/
theorem isDirectory_createDirectories {p : Path} (hparts : parts p = p.steps) (hsteps : p.steps ≠ [])
    (h : d.createDirectories p = (.ok (), d')) : Keeps d d' ∧ d'.isDirectory p = true := by
  have hp : p ≠ "" := by
    rintro rfl
    exact hsteps rfl
  obtain ⟨hrefused, hmade⟩ : p.refusal? = none ∧
      d.makeDirectories (p.base d.workingDirectory) p.steps.reverse = (.ok (), d') := by
    rw [createDirectories_eq_makeDirectories] at h
    split at h
    next => cases h
    next hrefused => exact ⟨hrefused, h⟩
  obtain ⟨hkeeps, hdirectory⟩ := isDirectoryAt_makeDirectories hmade
  have hdirectory := hdirectory (by simpa using hsteps)
  rw [List.reverse_reverse, ← hkeeps.workingDirectory] at hdirectory
  obtain ⟨l, hl⟩ := isDirectoryAt_eq_true.1 hdirectory
  exact ⟨hkeeps, isDirectory_eq_true.2 ⟨l, (follow_eq_walk hp hrefused).trans (hparts ▸ hl)⟩⟩

/-! ## Writing -/

/-- What was written is read again, and nothing but a file is replaced. -/
theorem read_write {p : Path} {content : Bytes} (h : d.write p content = .ok d') :
    Keeps d d' ∧ d'.read p = .ok content := by
  obtain ⟨pl, hfollow, h⟩ := Except.bind_eq_ok.1 h
  have hholds : d.Holds pl := by
    unfold follow at hfollow
    split at hfollow
    · cases hfollow
    split at hfollow
    · cases hfollow
    split at hfollow
    · cases hfollow
    exact walk_holds hfollow
  have hset {executable : Bool} (hfile : ∀ e, pl.entry = some e → e.isFile = true) :
      Keeps d (d.set pl.location (.file content executable)) ∧
        (d.set pl.location (.file content executable)).read p = .ok content := by
    have hdirectory : pl.entry ≠ some .directory := fun hentry => nomatch hfile _ hentry
    have hlink (t : Path) : pl.entry ≠ some (.link t) := fun hentry => nomatch hfile _ hentry
    have hkeeps := hholds.keeps_set hfile (.file content executable)
    have hwritten := lookup_set_self d (hholds.ne_nil hdirectory) (.file content executable)
    have hagain := follow_keeps hkeeps hlink (fun _ t => by simp [hwritten]) hfollow
    rw [Place.on, if_neg hdirectory, hwritten] at hagain
    refine ⟨hkeeps, ?_⟩
    unfold read entry
    rw [hagain]
    rfl
  split at h
  next hnone =>
    obtain rfl := Except.ok.inj h
    exact hset (by simp [hnone])
  next executable hfile =>
    obtain rfl := Except.ok.inj h
    exact hset (by simp [hfile, Entry.isFile])
  next => cases h
  next => cases h

end Disk

end ServiceCall
