import ServiceCall.Proofs.Disk.Walk
/-!
# Disks that are alike

Two disks are alike but for what is hidden if they hold the same wherever one of them holds something
that is not hidden (`Disk.Alike`). What is read through locations where nothing is hidden is the same
on both, and what is written there keeps them alike.
-/

namespace ServiceCall

/-- What is hidden at a location. -/
abbrev Hiding := Location → Option Entry → Prop

/-- Nothing is hidden at the location. -/
def Hiding.Shows (hidden : Hiding) (l : Location) : Prop := ∀ e, ¬ hidden l e

/-- What is at some locations is hidden. -/
def Hiding.at (ls : Location → Prop) : Hiding := fun l _ => ls l

theorem Hiding.shows_at {ls : Location → Prop} {l : Location} : (Hiding.at ls).Shows l ↔ ¬ ls l :=
  ⟨fun h => h none, fun h _ => h⟩

namespace Disk

/-- The disks hold the same but for what is hidden. -/
structure Alike (hidden : Hiding) (d₁ d₂ : Disk) : Prop where
  workingDirectory : d₁.workingDirectory = d₂.workingDirectory
  lookup : ∀ l, d₁.lookup l = d₂.lookup l ∨ hidden l (d₁.lookup l) ∧ hidden l (d₂.lookup l)

/-- All links of the disk are hidden. -/
def Clear (hidden : Hiding) (d : Disk) : Prop :=
  ∀ l t, d.lookup l = some (.link t) → hidden l (some (.link t))

/-- There are no links on the disk. -/
def Linkless (d : Disk) : Prop := ∀ l t, d.lookup l ≠ some (.link t)

/-- None of the locations holds a link. -/
def LinklessAt (d : Disk) (ls : Location → Prop) : Prop := ∀ l t, ls l → d.lookup l ≠ some (.link t)

theorem Linkless.linkFree {d : Disk} (h : d.Linkless) (ls : List Location) : d.LinkFree ls :=
  fun l _ => h l

theorem Linkless.linklessAt {d : Disk} (h : d.Linkless) (ls : Location → Prop) : d.LinklessAt ls :=
  fun l t _ => h l t

variable {hidden hidden' : Hiding} {d d₁ d₂ d₃ : Disk}

namespace Alike

theorem refl (hidden : Hiding) (d : Disk) : Alike hidden d d := ⟨rfl, fun _ => .inl rfl⟩

theorem symm (h : Alike hidden d₁ d₂) : Alike hidden d₂ d₁ :=
  ⟨h.workingDirectory.symm, fun l => (h.lookup l).imp Eq.symm And.symm⟩

theorem trans (h : Alike hidden d₁ d₂) (h' : Alike hidden d₂ d₃) : Alike hidden d₁ d₃ := by
  refine ⟨h.workingDirectory.trans h'.workingDirectory, fun l => ?_⟩
  obtain h | h := h.lookup l <;> obtain h' | h' := h'.lookup l
  · exact .inl (h.trans h')
  · exact .inr ⟨h ▸ h'.1, h'.2⟩
  · exact .inr ⟨h.1, h' ▸ h.2⟩
  · exact .inr ⟨h.1, h'.2⟩

theorem mono (h : Alike hidden d₁ d₂) (himp : ∀ l e, hidden l e → hidden' l e) :
    Alike hidden' d₁ d₂ :=
  ⟨h.workingDirectory, fun l => (h.lookup l).imp id fun h => ⟨himp _ _ h.1, himp _ _ h.2⟩⟩

theorem lookup_of_shows (h : Alike hidden d₁ d₂) {l : Location} (hl : hidden.Shows l) :
    d₁.lookup l = d₂.lookup l :=
  (h.lookup l).resolve_right fun h => hl _ h.1

theorem agree (h : Alike hidden d₁ d₂) {ls : List Location} (hls : ∀ l ∈ ls, hidden.Shows l) :
    d₁.Agree d₂ ls :=
  fun l hl => h.lookup_of_shows (hls l hl)

/-- Disks that hold the same but at some locations are alike. -/
theorem of_lookup {ls : Location → Prop} (hwd : d₁.workingDirectory = d₂.workingDirectory)
    (h : ∀ l, ¬ ls l → d₁.lookup l = d₂.lookup l) : Alike (Hiding.at ls) d₁ d₂ :=
  ⟨hwd, fun l => (em (ls l)).elim (fun hl => .inr ⟨hl, hl⟩) fun hl => .inl (h l hl)⟩

theorem set (h : Alike hidden d₁ d₂) {l : Location} (hl : l ≠ []) (e : Entry) :
    Alike hidden (d₁.set l e) (d₂.set l e) := by
  refine ⟨h.workingDirectory, fun l' => ?_⟩
  rw [lookup_set d₁ hl, lookup_set d₂ hl]
  by_cases heq : l' = l
  · rw [if_pos heq, if_pos heq]
    exact .inl rfl
  · rw [if_neg heq, if_neg heq]
    exact h.lookup l'

end Alike

namespace Clear

theorem mono (h : d.Clear hidden) (himp : ∀ l e, hidden l e → hidden' l e) : d.Clear hidden' :=
  fun l t hl => himp _ _ (h l t hl)

theorem linkFree (h : d.Clear hidden) {ls : List Location} (hls : ∀ l ∈ ls, hidden.Shows l) :
    d.LinkFree ls :=
  fun l hl t hlink => hls l hl _ (h l t hlink)

theorem linklessAt (h : d.Clear hidden) {ls : Location → Prop} (hls : ∀ l, ls l → hidden.Shows l) :
    d.LinklessAt ls :=
  fun l t hl hlink => hls l hl _ (h l t hlink)

theorem set (h : d.Clear hidden) {l : Location} (hl : l ≠ []) {e : Entry}
    (he : ∀ t, e ≠ .link t) : (d.set l e).Clear hidden := by
  intro l' t hlink
  rw [lookup_set d hl] at hlink
  split at hlink
  · exact absurd (Option.some.inj hlink) (he t)
  · exact h l' t hlink

/-- A disk without links is clear. -/
theorem of_linkless (h : d.Linkless) (hidden : Hiding) : d.Clear hidden :=
  fun l t hlink => absurd hlink (h l t)

/-- A disk that is alike hides its links, too. -/
theorem of_alike (h : d₁.Clear hidden) (halike : Alike hidden d₁ d₂) : d₂.Clear hidden := by
  intro l t hlink
  obtain hsame | hboth := halike.lookup l
  · exact h l t (hsame.trans hlink)
  · exact hlink ▸ hboth.2

end Clear

/-! ## Reading and writing -/

section

variable {p : Path} (h : Alike hidden d₁ d₂) (hclear : d₁.Clear hidden)
  (hway : ∀ l ∈ p.way d₁.workingDirectory, hidden.Shows l)
include h hclear hway

theorem Alike.follow (k : Bool) : d₁.follow k p = d₂.follow k p :=
  follow_congr h.workingDirectory (h.agree hway) (hclear.linkFree hway)

theorem Alike.read : d₁.read p = d₂.read p :=
  read_congr h.workingDirectory (h.agree hway) (hclear.linkFree hway)

/-- Writing the same file on disks that are alike fails on both or keeps them alike. -/
theorem Alike.write (hwell : d₁.WellFormed) (content : Bytes) :
    (∃ e, d₁.write p content = .error e ∧ d₂.write p content = .error e) ∨
      ∃ d₁' d₂', d₁.write p content = .ok d₁' ∧ d₂.write p content = .ok d₂' ∧
        Alike hidden d₁' d₂' := by
  unfold Disk.write
  rw [← h.follow hclear hway true]
  cases hfollow : d₁.follow true p with
  | error e => exact .inl ⟨e, rfl, rfl⟩
  | ok pl =>
    have hends := hwell.endsAt_of_follow (hclear.linkFree hway) hfollow
    have hset (hentry : pl.entry ≠ some .directory) (e : Entry) :
        Alike hidden (d₁.set pl.location e) (d₂.set pl.location e) := by
      obtain ⟨l, n, -, -, -, hl, -⟩ := hends.parent hentry
      exact h.set (by simp [hl]) e
    simp only [bind, Except.bind]
    cases hentry : pl.entry with
    | none => exact .inr ⟨_, _, rfl, rfl, hset (by simp [hentry]) _⟩
    | some e =>
      cases e with
      | file _ executable => exact .inr ⟨_, _, rfl, rfl, hset (by simp [hentry]) _⟩
      | directory => exact .inl ⟨_, rfl, rfl⟩
      | link target => exact .inl ⟨_, rfl, rfl⟩
      | special => exact .inl ⟨_, rfl, rfl⟩

end

theorem WellFormed.clear_write {p : Path} {d' : Disk} {content : Bytes} (hwell : d.WellFormed)
    (hclear : d.Clear hidden) (hway : ∀ l ∈ p.way d.workingDirectory, hidden.Shows l)
    (hwrite : d.write p content = .ok d') : d'.Clear hidden := by
  obtain ⟨l, n, -, -, -, -, rfl⟩ := hwell.of_write (hclear.linkFree hway) hwrite
  exact hclear.set (by simp) fun t => by simp

/-! ## Twins -/

/-- Two disks with a working directory that hold the same, and no links, but for what is hidden. -/
structure Twins (wd : Location) (hidden : Hiding) (d₁ d₂ : Disk) : Prop where
  left : d₁.WellFormed
  right : d₂.WellFormed
  workingDirectory : d₁.workingDirectory = wd
  clear : d₁.Clear hidden
  alike : Alike hidden d₁ d₂

namespace Twins

variable {wd : Location} {p : Path}

theorem refl (h : d.WellFormed) (hclear : d.Clear hidden) : Twins d.workingDirectory hidden d d :=
  ⟨h, h, rfl, hclear, .refl _ _⟩

theorem symm (h : Twins wd hidden d₁ d₂) : Twins wd hidden d₂ d₁ :=
  ⟨h.right, h.left, h.alike.workingDirectory.symm.trans h.workingDirectory, h.clear.of_alike h.alike,
    h.alike.symm⟩

theorem mono (h : Twins wd hidden d₁ d₂) (himp : ∀ l e, hidden l e → hidden' l e) :
    Twins wd hidden' d₁ d₂ :=
  ⟨h.left, h.right, h.workingDirectory, h.clear.mono himp, h.alike.mono himp⟩

variable (h : Twins wd hidden d₁ d₂) (hway : ∀ l ∈ p.way wd, hidden.Shows l)
include h hway

theorem linkFree : d₁.LinkFree (p.way d₁.workingDirectory) :=
  h.workingDirectory ▸ h.clear.linkFree hway

theorem read : d₁.read p = d₂.read p :=
  h.alike.read h.clear (h.workingDirectory ▸ hway)

/-- Writing the same file on twins fails on both or keeps them twins. -/
theorem write (content : Bytes) :
    (∃ e, d₁.write p content = .error e ∧ d₂.write p content = .error e) ∨
      ∃ d₁' d₂', d₁.write p content = .ok d₁' ∧ d₂.write p content = .ok d₂' ∧
        Twins wd hidden d₁' d₂' := by
  have hway₁ : ∀ l ∈ p.way d₁.workingDirectory, hidden.Shows l := h.workingDirectory ▸ hway
  obtain ⟨e, h₁, h₂⟩ | ⟨d₁', d₂', h₁, h₂, halike⟩ := h.alike.write h.clear hway₁ h.left content
  · exact .inl ⟨e, h₁, h₂⟩
  · obtain ⟨l, n, -, -, -, -, hset⟩ := h.left.of_write (h.linkFree hway) h₁
    have hwd : d₁'.workingDirectory = d₁.workingDirectory := hset ▸ rfl
    exact .inr ⟨d₁', d₂', h₁, h₂, h.left.write (h.linkFree hway) h₁,
      h.right.write (h.symm.linkFree hway) h₂, hwd.trans h.workingDirectory,
      h.left.clear_write h.clear hway₁ h₁, halike⟩

end Twins

end Disk

end ServiceCall
