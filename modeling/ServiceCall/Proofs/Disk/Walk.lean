import ServiceCall.Proofs.Disk.Tree
/-!
# Where paths lead

Without symbolic links the place that a path names can be told from its parts (`Path.place`), and
so can the locations it leads through (`Path.way`). What following a path gives depends on what the
disk holds there and on nothing else (`Disk.follow_congr`).
-/

namespace ServiceCall

/-! ## Resolving parts -/

namespace Location

/-- The location that a part leads to. -/
def step (at' : Location) (part : String) : Location :=
  if part = "." then at' else if part = ".." then at'.dropLast else at' ++ [part]

/-- The location that parts lead to. -/
def resolve (at' : Location) (todo : List String) : Location := todo.foldl step at'

/-- The locations that parts lead through, the last one included. -/
def passed (at' : Location) : List String → List Location
  | [] => []
  | part :: rest =>
    if part = "." then passed at' rest else step at' part :: passed (step at' part) rest

variable {at' : Location} {part : String} {todo rest : List String}

theorem step_of_isName (h : IsName part) : step at' part = at' ++ [part] := by
  rw [step, if_neg h.2.1, if_neg h.2.2.1]

theorem resolve_cons : resolve at' (part :: rest) = resolve (step at' part) rest := rfl

theorem resolve_append : resolve at' (todo ++ rest) = resolve (resolve at' todo) rest :=
  List.foldl_append

theorem passed_append : passed at' (todo ++ rest) = passed at' todo ++ passed (resolve at' todo) rest := by
  induction todo generalizing at' with
  | nil => rfl
  | cons part more ih =>
    rw [List.cons_append, passed, passed, resolve_cons]
    by_cases h : part = "."
    · rw [if_pos h, if_pos h, ih, step, if_pos h]
    · rw [if_neg h, if_neg h, ih, List.cons_append]

theorem passed_of_isName (h : IsName part) : passed at' [part] = [at' ++ [part]] := by
  rw [passed, if_neg h.2.1, step_of_isName h]
  rfl

end Location

open Location (resolve passed)

namespace Path

variable {wd : Location} {n : String} {p : Path}

/-- Where a path starts. -/
def base (wd : Location) (p : Path) : Location := if isAbsolute p then [] else wd

/-- The location that a path names where there are no links. -/
def place (wd : Location) (p : Path) : Location := resolve (base wd p) (steps p)

/-- The locations that a path leads through, its place included. -/
def way (wd : Location) (p : Path) : List Location := passed (base wd p) (steps p)

/-- The location is one that a path leads through, or below its place. -/
def Names (wd : Location) (p : Path) (l : Location) : Prop := l ∈ p.way wd ∨ p.place wd <+: l

/-- The location is below the place of a path. -/
def Inside (wd : Location) (p : Path) (l : Location) : Prop := p.place wd <+: l ∧ p.place wd ≠ l

instance (l : Location) : Decidable (p.Inside wd l) :=
  inferInstanceAs (Decidable (p.place wd <+: l ∧ p.place wd ≠ l))

theorem Inside.names {l : Location} (h : p.Inside wd l) : p.Names wd l := .inr h.1

theorem Inside.ne_nil {l : Location} (h : p.Inside wd l) : l ≠ [] := by
  rintro rfl
  exact h.2 (List.prefix_nil.1 h.1)

theorem resolve_parts (at' : Location) (p : Path) :
    resolve at' (Disk.parts p) = resolve at' (steps p) := by
  obtain h | h := parts_eq_steps p
  · rw [h]
  · rw [h, Location.resolve_append]
    rfl

theorem passed_parts (at' : Location) (p : Path) :
    passed at' (Disk.parts p) = passed at' (steps p) := by
  obtain h | h := parts_eq_steps p
  · rw [h]
  · rw [h, Location.passed_append]
    exact List.append_nil _

theorem base_join (hn : IsName n) : base wd (join p n) = base wd p := by
  rw [base, base, isAbsolute_join hn]

theorem place_join (hn : IsName n) : place wd (join p n) = place wd p ++ [n] := by
  rw [place, place, base_join hn, steps_join hn, Location.resolve_append]
  exact Location.step_of_isName hn

theorem way_join (hn : IsName n) : way wd (join p n) = way wd p ++ [place wd p ++ [n]] := by
  rw [way, way, base_join hn, steps_join hn, Location.passed_append, Location.passed_of_isName hn]
  rfl

theorem names_of_mem_way_join (hn : IsName n) {l : Location} (hl : l ∈ way wd (join p n)) :
    p.Names wd l := by
  rw [way_join hn, List.mem_append, List.mem_singleton] at hl
  obtain hl | rfl := hl
  · exact .inl hl
  · exact .inr (List.prefix_append ..)

end Path

namespace Disk

/-! ## One step of a walk -/

section

variable {d : Disk} {follow : Bool} {onLink : Location → Path → List String → Except IoError Place}
  {at' : Location} {part : String} {rest : List String}

theorem walkTo_back (hback : part = "..") :
    walkTo d follow onLink at' (part :: rest) = walkTo d follow onLink at'.dropLast rest := by
  subst hback
  rfl

variable (hdot : part ≠ ".") (hback : part ≠ "..")
include hdot hback

theorem walkTo_long (hlong : 255 < part.length) :
    walkTo d follow onLink at' (part :: rest) = .error .nameTooLong := by
  rw [walkTo, if_neg hdot, if_neg hback, if_pos hlong]

variable (hshort : ¬ 255 < part.length)
include hshort

theorem walkTo_missing (hentry : d.lookup (at' ++ [part]) = none) :
    walkTo d follow onLink at' (part :: rest) =
      if rest = [] then .ok ⟨at' ++ [part], none⟩ else .error .notFound := by
  rw [walkTo, if_neg hdot, if_neg hback, if_neg hshort]
  simp only [hentry]

theorem walkTo_directory (hentry : d.lookup (at' ++ [part]) = some .directory) :
    walkTo d follow onLink at' (part :: rest) = walkTo d follow onLink (at' ++ [part]) rest := by
  rw [walkTo, if_neg hdot, if_neg hback, if_neg hshort]
  simp only [hentry]

theorem walkTo_file {content : Bytes} {executable : Bool}
    (hentry : d.lookup (at' ++ [part]) = some (.file content executable)) :
    walkTo d follow onLink at' (part :: rest) =
      if rest = [] then .ok ⟨at' ++ [part], some (.file content executable)⟩
      else .error .notDirectory := by
  rw [walkTo, if_neg hdot, if_neg hback, if_neg hshort]
  simp only [hentry]

theorem walkTo_link {target : Path} (hentry : d.lookup (at' ++ [part]) = some (.link target)) :
    walkTo d follow onLink at' (part :: rest) =
      if rest = [] ∧ !follow then .ok ⟨at' ++ [part], some (.link target)⟩
      else onLink at' target rest := by
  rw [walkTo, if_neg hdot, if_neg hback, if_neg hshort]
  simp only [hentry]

theorem walkTo_special (hentry : d.lookup (at' ++ [part]) = some .special) :
    walkTo d follow onLink at' (part :: rest) =
      if rest = [] then .ok ⟨at' ++ [part], some .special⟩ else .error .notDirectory := by
  rw [walkTo, if_neg hdot, if_neg hback, if_neg hshort]
  simp only [hentry]

end

/-! ## Walking without links -/

/-- None of the locations holds a link. -/
def LinkFree (d : Disk) (ls : List Location) : Prop := ∀ l ∈ ls, ∀ t, d.lookup l ≠ some (.link t)

/-- The disks hold the same at all of the locations. -/
def Agree (d₁ d₂ : Disk) (ls : List Location) : Prop := ∀ l ∈ ls, d₁.lookup l = d₂.lookup l

variable {d d₁ d₂ : Disk}

/-- Walking depends on what the parts lead through. -/
theorem walkTo_congr {f₁ f₂ : Bool} {on₁ on₂ : Location → Path → List String → Except IoError Place}
    {at' : Location} {todo : List String} (hagree : d₁.Agree d₂ (passed at' todo))
    (hlinks : d₁.LinkFree (passed at' todo)) :
    walkTo d₁ f₁ on₁ at' todo = walkTo d₂ f₂ on₂ at' todo := by
  induction todo generalizing at' with
  | nil => rfl
  | cons part rest ih =>
    rw [passed] at hagree hlinks
    by_cases hdot : part = "."
    · rw [walkTo, walkTo, if_pos hdot, if_pos hdot]
      rw [if_pos hdot] at hagree hlinks
      exact ih hagree hlinks
    · rw [if_neg hdot] at hagree hlinks
      have ih := ih (fun l hl => hagree l (.tail _ hl)) fun l hl => hlinks l (.tail _ hl)
      rw [Location.step, if_neg hdot] at ih hagree hlinks
      by_cases hback : part = ".."
      · rw [walkTo_back hback, walkTo_back hback]
        rwa [if_pos hback] at ih
      · rw [if_neg hback] at ih hagree hlinks
        by_cases hlong : 255 < part.length
        · rw [walkTo_long hdot hback hlong, walkTo_long hdot hback hlong]
        · have hsame := hagree _ (.head _)
          have hlink := hlinks _ (.head _)
          cases hentry : d₁.lookup (at' ++ [part]) with
          | none =>
            rw [walkTo_missing hdot hback hlong hentry,
              walkTo_missing hdot hback hlong (hsame.symm.trans hentry)]
          | some e =>
            cases e with
            | directory =>
              rw [walkTo_directory hdot hback hlong hentry,
                walkTo_directory hdot hback hlong (hsame.symm.trans hentry)]
              exact ih
            | file content executable =>
              rw [walkTo_file hdot hback hlong hentry,
                walkTo_file hdot hback hlong (hsame.symm.trans hentry)]
            | link target => exact absurd hentry (hlink target)
            | special =>
              rw [walkTo_special hdot hback hlong hentry,
                walkTo_special hdot hback hlong (hsame.symm.trans hentry)]

theorem walk_congr {f₁ f₂ : Bool} {n₁ n₂ : Nat} {at' : Location} {todo : List String}
    (hagree : d₁.Agree d₂ (passed at' todo)) (hlinks : d₁.LinkFree (passed at' todo)) :
    d₁.walk f₁ n₁ at' todo = d₂.walk f₂ n₂ at' todo := by
  cases n₁ <;> cases n₂ <;> exact walkTo_congr hagree hlinks

theorem follow_congr {k₁ k₂ : Bool} {p : Path} (hwd : d₁.workingDirectory = d₂.workingDirectory)
    (hagree : d₁.Agree d₂ (p.way d₁.workingDirectory))
    (hlinks : d₁.LinkFree (p.way d₁.workingDirectory)) : d₁.follow k₁ p = d₂.follow k₂ p := by
  unfold follow
  rw [Path.way, Path.base, ← Path.passed_parts] at hagree hlinks
  rw [← hwd, walk_congr hagree hlinks]

theorem entry_congr {p : Path} (hwd : d₁.workingDirectory = d₂.workingDirectory)
    (hagree : d₁.Agree d₂ (p.way d₁.workingDirectory))
    (hlinks : d₁.LinkFree (p.way d₁.workingDirectory)) : d₁.entry p = d₂.entry p := by
  unfold entry
  rw [follow_congr hwd hagree hlinks]

theorem read_congr {p : Path} (hwd : d₁.workingDirectory = d₂.workingDirectory)
    (hagree : d₁.Agree d₂ (p.way d₁.workingDirectory))
    (hlinks : d₁.LinkFree (p.way d₁.workingDirectory)) : d₁.read p = d₂.read p := by
  unfold read
  rw [entry_congr hwd hagree hlinks]

/-! ## Where a walk ends -/

/-- What the end of a walk without links is: the location that the parts lead to, with what is
there, and in a directory unless it is one. -/
structure EndsAt (d : Disk) (at' : Location) (todo : List String) (pl : Place) : Prop where
  location : pl.location = resolve at' todo
  entry : pl.entry = d.lookup pl.location
  parent : pl.entry ≠ some .directory →
    ∃ l, ∃ n ∈ todo, n ≠ "." ∧ n ≠ ".." ∧ pl.location = l ++ [n] ∧ d.lookup l = some .directory

theorem EndsAt.cons {at' next : Location} {part : String} {rest : List String} {pl : Place}
    (h : EndsAt d next rest pl) (hnext : Location.step at' part = next) :
    EndsAt d at' (part :: rest) pl := by
  refine ⟨?_, h.entry, fun hentry => ?_⟩
  · rw [Location.resolve_cons, hnext, h.location]
  · obtain ⟨l, n, hn, hdot, hback, hl, hparent⟩ := h.parent hentry
    exact ⟨l, n, .tail _ hn, hdot, hback, hl, hparent⟩

/-- A walk from a directory ends where the parts lead to. -/
theorem WellFormed.endsAt_of_walkTo (h : d.WellFormed) {follow : Bool}
    {onLink : Location → Path → List String → Except IoError Place} {at' : Location}
    {todo : List String} {pl : Place} (hat : d.lookup at' = some .directory)
    (hlinks : d.LinkFree (passed at' todo)) (hwalk : walkTo d follow onLink at' todo = .ok pl) :
    EndsAt d at' todo pl := by
  induction todo generalizing at' with
  | nil =>
    obtain rfl := Except.ok.inj hwalk
    exact ⟨rfl, hat.symm, fun hentry => absurd rfl hentry⟩
  | cons part rest ih =>
    rw [passed] at hlinks
    by_cases hdot : part = "."
    · rw [walkTo, if_pos hdot] at hwalk
      rw [if_pos hdot] at hlinks
      exact (ih hat hlinks hwalk).cons (by rw [Location.step, if_pos hdot])
    · rw [if_neg hdot] at hlinks
      have hrest := fun l hl => hlinks l (.tail _ hl)
      by_cases hback : part = ".."
      · have hstep : Location.step at' part = at'.dropLast := by
          rw [Location.step, if_neg hdot, if_pos hback]
        rw [walkTo_back hback] at hwalk
        rw [hstep] at hrest
        exact (ih (h.lookup_dropLast hat) hrest hwalk).cons hstep
      · have hstep : Location.step at' part = at' ++ [part] := by
          rw [Location.step, if_neg hdot, if_neg hback]
        rw [hstep] at hlinks hrest
        by_cases hlong : 255 < part.length
        · rw [walkTo_long hdot hback hlong] at hwalk
          cases hwalk
        · -- a walk ends at something that is not a directory only when no part is left
          have hlast (hrest : rest = []) : EndsAt d at' (part :: rest)
              ⟨at' ++ [part], d.lookup (at' ++ [part])⟩ := by
            subst hrest
            exact ⟨hstep.symm, rfl, fun _ => ⟨at', part, .head _, hdot, hback, rfl, hat⟩⟩
          cases hentry : d.lookup (at' ++ [part]) with
          | none =>
            rw [walkTo_missing hdot hback hlong hentry] at hwalk
            split at hwalk
            next hnil => exact Except.ok.inj hwalk ▸ hentry ▸ hlast hnil
            next => cases hwalk
          | some e =>
            cases e with
            | directory =>
              rw [walkTo_directory hdot hback hlong hentry] at hwalk
              exact (ih hentry hrest hwalk).cons hstep
            | file content executable =>
              rw [walkTo_file hdot hback hlong hentry] at hwalk
              split at hwalk
              next hnil => exact Except.ok.inj hwalk ▸ hentry ▸ hlast hnil
              next => cases hwalk
            | link target => exact absurd hentry (hlinks _ (.head _) target)
            | special =>
              rw [walkTo_special hdot hback hlong hentry] at hwalk
              split at hwalk
              next hnil => exact Except.ok.inj hwalk ▸ hentry ▸ hlast hnil
              next => cases hwalk

theorem WellFormed.lookup_base (h : d.WellFormed) (p : Path) :
    d.lookup (p.base d.workingDirectory) = some .directory := by
  rw [Path.base]
  split
  · rfl
  · exact h.workingDirectory

/-- A path that is followed ends at its place. -/
theorem WellFormed.endsAt_of_follow (h : d.WellFormed) {links : Bool} {p : Path} {pl : Place}
    (hlinks : d.LinkFree (p.way d.workingDirectory)) (hfollow : d.follow links p = .ok pl) :
    EndsAt d (p.base d.workingDirectory) (parts p) pl := by
  unfold follow at hfollow
  split at hfollow
  · cases hfollow
  split at hfollow
  · cases hfollow
  split at hfollow
  · cases hfollow
  rw [Path.way, ← Path.passed_parts] at hlinks
  exact h.endsAt_of_walkTo (h.lookup_base p) hlinks hfollow

/-- The permission to run of what a file replaces. -/
def isExecutable : Option Entry → Bool
  | some (.file _ executable) => executable
  | _ => false

/-- A file is written at its place, which lies in a directory and is none. -/
theorem WellFormed.of_write {d' : Disk} (h : d.WellFormed) {p : Path} {content : Bytes}
    (hlinks : d.LinkFree (p.way d.workingDirectory)) (hwrite : d.write p content = .ok d') :
    ∃ l n, p.place d.workingDirectory = l ++ [n] ∧ IsName n ∧ d.lookup l = some .directory ∧
      d.lookup (l ++ [n]) ≠ some .directory ∧
      d' = d.set (l ++ [n]) (.file content (isExecutable (d.lookup (l ++ [n])))) := by
  unfold write at hwrite
  cases hfollow : d.follow true p with
  | error e =>
    rw [hfollow] at hwrite
    cases hwrite
  | ok pl =>
    rw [hfollow] at hwrite
    have hends := h.endsAt_of_follow hlinks hfollow
    have hplace : p.place d.workingDirectory = pl.location := by
      rw [hends.location, Path.resolve_parts, Path.place]
    have hentry := hends.entry
    have hnot : pl.entry ≠ some .directory := by
      intro hdirectory
      simp only [Except.bind, bind, hdirectory] at hwrite
      cases hwrite
    obtain ⟨l, n, hn, hdot, hback, hl, hparent⟩ := hends.parent hnot
    have hname : IsName n := by
      obtain hparts | hparts := Path.parts_eq_steps p
      · exact Path.isName_of_mem_steps (hparts ▸ hn) hback
      · rw [hparts, List.mem_append, List.mem_singleton] at hn
        exact Path.isName_of_mem_steps (hn.resolve_right hdot) hback
    refine ⟨l, n, hplace.trans hl, hname, hparent, ?_, ?_⟩
    · rw [← hl, ← hentry]
      exact hnot
    · rw [← hl, ← hentry]
      simp only [Except.bind, bind] at hwrite
      split at hwrite
      next hnone => rw [hnone]; exact (Except.ok.inj hwrite).symm
      next _ executable hfile => rw [hfile]; exact (Except.ok.inj hwrite).symm
      next => cases hwrite
      next => cases hwrite

theorem WellFormed.write {d' : Disk} (h : d.WellFormed) {p : Path} {content : Bytes}
    (hlinks : d.LinkFree (p.way d.workingDirectory)) (hwrite : d.write p content = .ok d') :
    d'.WellFormed := by
  obtain ⟨l, n, -, hname, hparent, hnot, rfl⟩ := h.of_write hlinks hwrite
  exact h.set hparent hname fun hdirectory => absurd hdirectory hnot

theorem WellFormed.linkFree_write {d' : Disk} (h : d.WellFormed) {p : Path} {content : Bytes}
    (hlinks : d.LinkFree (p.way d.workingDirectory)) (hwrite : d.write p content = .ok d')
    {ls : List Location} (hls : d.LinkFree ls) : d'.LinkFree ls := by
  obtain ⟨l, n, -, -, -, -, rfl⟩ := h.of_write hlinks hwrite
  intro l' hl' t hlink
  rw [lookup_set d (by simp)] at hlink
  split at hlink
  · cases hlink
  · exact hls l' hl' t hlink

/-- A walk that ended at no directory ends at a file that is put there. -/
theorem walkTo_set {follow : Bool} {on₁ on₂ : Location → Path → List String → Except IoError Place}
    {at' : Location} {todo : List String} {pl : Place} {content : Bytes} {executable : Bool}
    (hlinks : d.LinkFree (passed at' todo)) (hwalk : walkTo d follow on₁ at' todo = .ok pl)
    (hentry : pl.entry ≠ some .directory) (hlookup : d.lookup pl.location ≠ some .directory) :
    walkTo (d.set pl.location (.file content executable)) follow on₂ at' todo =
      .ok ⟨pl.location, some (.file content executable)⟩ := by
  induction todo generalizing at' with
  | nil =>
    obtain rfl := Except.ok.inj hwalk
    exact absurd rfl hentry
  | cons part rest ih =>
    rw [passed] at hlinks
    by_cases hdot : part = "."
    · rw [walkTo, if_pos hdot] at hwalk ⊢
      rw [if_pos hdot] at hlinks
      exact ih hlinks hwalk
    · rw [if_neg hdot] at hlinks
      have ih := @ih (Location.step at' part) fun l hl => hlinks l (.tail _ hl)
      rw [Location.step, if_neg hdot] at ih hlinks
      by_cases hback : part = ".."
      · rw [walkTo_back hback] at hwalk ⊢
        rw [if_pos hback] at ih
        exact ih hwalk
      · rw [if_neg hback] at ih hlinks
        by_cases hlong : 255 < part.length
        · rw [walkTo_long hdot hback hlong] at hwalk
          cases hwalk
        · -- unless the next location is the end of the walk it is a directory on both disks
          have hlast (hend : at' ++ [part] = pl.location) (hrest : rest = []) :
              walkTo (d.set pl.location (.file content executable)) follow on₂ at' (part :: rest) =
                .ok ⟨pl.location, some (.file content executable)⟩ := by
            have hself : (d.set pl.location (.file content executable)).lookup (at' ++ [part]) =
                some (.file content executable) := by
              rw [← hend, lookup_set_self d (by simp)]
            rw [walkTo_file hdot hback hlong hself, if_pos hrest, hend]
          cases hnext : d.lookup (at' ++ [part]) with
          | none =>
            rw [walkTo_missing hdot hback hlong hnext] at hwalk
            split at hwalk
            next hnil => exact hlast (congrArg Place.location (Except.ok.inj hwalk)) hnil
            next => cases hwalk
          | some e =>
            cases e with
            | directory =>
              have hne : at' ++ [part] ≠ pl.location := fun heq => hlookup (heq ▸ hnext)
              rw [walkTo_directory hdot hback hlong hnext] at hwalk
              rw [walkTo_directory hdot hback hlong ((lookup_set_of_ne d hne _).trans hnext)]
              exact ih hwalk
            | file content executable =>
              rw [walkTo_file hdot hback hlong hnext] at hwalk
              split at hwalk
              next hnil => exact hlast (congrArg Place.location (Except.ok.inj hwalk)) hnil
              next => cases hwalk
            | link target => exact absurd hnext (hlinks _ (.head _) target)
            | special =>
              rw [walkTo_special hdot hback hlong hnext] at hwalk
              split at hwalk
              next hnil => exact hlast (congrArg Place.location (Except.ok.inj hwalk)) hnil
              next => cases hwalk

/-- What was written before to a place does not matter to what is written there. -/
theorem WellFormed.write_write {d' : Disk} (h : d.WellFormed) {p : Path} {content : Bytes}
    (hlinks : d.LinkFree (p.way d.workingDirectory)) (hwrite : d.write p content = .ok d')
    (content' : Bytes) : d'.write p content' = d.write p content' := by
  have hagain {pl : Place} (hfollow : d.follow true p = .ok pl)
      (hentry : pl.entry ≠ some .directory) (executable : Bool) :
      (d.set pl.location (.file content executable)).follow true p =
        .ok ⟨pl.location, some (.file content executable)⟩ := by
    have hends := h.endsAt_of_follow hlinks hfollow
    have hlookup : d.lookup pl.location ≠ some .directory := hends.entry ▸ hentry
    rw [Path.way, Path.base, ← Path.passed_parts] at hlinks
    unfold Disk.follow at hfollow ⊢
    split at hfollow
    · cases hfollow
    rw [if_neg ‹_›]
    split at hfollow
    · cases hfollow
    rw [if_neg ‹_›]
    split at hfollow
    · cases hfollow
    rw [if_neg ‹_›]
    exact walkTo_set hlinks hfollow hentry hlookup
  unfold Disk.write at hwrite
  cases hfollow : d.follow true p with
  | error e =>
    rw [hfollow] at hwrite
    cases hwrite
  | ok pl =>
    have hagain := hagain hfollow
    rw [hfollow] at hwrite
    unfold Disk.write
    simp only [Except.bind, bind] at hwrite
    split at hwrite
    next hentry =>
      obtain rfl := Except.ok.inj hwrite
      rw [hagain (by simp [hentry]), hfollow]
      simp only [Except.bind, bind, hentry, set_set]
    next _ executable hentry =>
      obtain rfl := Except.ok.inj hwrite
      rw [hagain (by simp [hentry]), hfollow]
      simp only [Except.bind, bind, hentry, set_set]
    next => cases hwrite
    next => cases hwrite

end Disk

end ServiceCall
