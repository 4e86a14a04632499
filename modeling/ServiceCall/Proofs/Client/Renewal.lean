import ServiceCall.Build.Protoc
import ServiceCall.Proofs.Client.Collaborators
/-!
# Collaborators that start anew

A generator and a toolchain that empty the directory they are given and leave one file in it keep to
what they are asked for (`Generator.renewing_confined`, `Toolchain.renewing_confined`) and find nothing of
what was there before (`Generator.renewing_overlooks`, `Toolchain.renewing_ignoresOutput`). With a link
beside the file they still write nowhere else (`Generator.linking_confined`) and are led by nothing else
(`Generator.linking_local`), but what is read through the link is not theirs.
-/

namespace ServiceCall

open Disk (Twins Alike)

/-! ## Emptying a directory -/

namespace Disk

variable {d d' d₁ d₂ : Disk} {l : Location} {dir : Path} {n : String} {content : Bytes}

/-- The disk without what is below a location. -/
def clearBelow (d : Disk) (l : Location) : Disk :=
  { d with entries := d.entries.filter fun x => ¬ (l <+: x.1 ∧ l ≠ x.1) }

theorem find?_filter (keep : Location → Bool) (l : Location) (t : List (Location × Entry)) :
    find? l (t.filter (keep ·.1)) = if keep l then find? l t else none := by
  induction t with
  | nil => simp [find?]
  | cons x rest ih =>
    rw [List.filter_cons]
    by_cases hx : x.1 = l
    · subst hx
      by_cases hkeep : keep x.1
      · simp [find?, hkeep]
      · simp [hkeep, ih]
    · by_cases hkeep : keep x.1 <;> simp [find?, hkeep, hx, ih]

theorem lookup_clearBelow (d : Disk) (l l' : Location) :
    (d.clearBelow l).lookup l' = if l <+: l' ∧ l ≠ l' then none else d.lookup l' := by
  unfold lookup clearBelow
  by_cases hl : l' = []
  · subst hl
    have hnot : ¬ (l <+: [] ∧ l ≠ []) := fun h => h.2 (List.prefix_nil.1 h.1)
    rw [if_pos rfl, if_neg hnot, if_pos rfl]
  · rw [if_neg hl, if_neg hl, find?_filter fun l' => ¬ (l <+: l' ∧ l ≠ l')]
    by_cases hbelow : l <+: l' ∧ l ≠ l' <;> simp [hbelow]

theorem WellFormed.clearBelow (h : d.WellFormed)
    (hwd : ¬ (l <+: d.workingDirectory ∧ l ≠ d.workingDirectory)) : (d.clearBelow l).WellFormed where
  nodup := h.nodup.sublist (List.filter_sublist.map _)
  nonempty x hx := h.nonempty x (List.mem_filter.1 hx).1
  names x hx := h.names x (List.mem_filter.1 hx).1
  parents x hx := by
    obtain ⟨hmem, hkept⟩ := List.mem_filter.1 hx
    have hkept : ¬ (l <+: x.1 ∧ l ≠ x.1) := of_decide_eq_true hkept
    rw [lookup_clearBelow, if_neg fun hparent => hkept ?_]
    · exact h.parents x hmem
    · refine ⟨hparent.1.trans (List.dropLast_prefix _), fun heq => ?_⟩
      have hle := hparent.1.length_le
      have hne := h.nonempty x hmem
      have hpos := List.length_pos_iff.2 hne
      rw [heq, List.length_dropLast] at hle
      omega
  workingDirectory := by
    have hworking : (d.clearBelow l).lookup d.workingDirectory = some .directory := by
      rw [lookup_clearBelow, if_neg hwd, h.workingDirectory]
    exact hworking

/-- The disk with one file in a directory and nothing else below it, unless it is none or the working
directory is below it. -/
def renew? (d : Disk) (dir : Path) (n : String) (content : Bytes) : Option Disk :=
  if d.lookup (dir.place d.workingDirectory) = some .directory ∧
      ¬ dir.Inside d.workingDirectory d.workingDirectory then
    some ((d.clearBelow (dir.place d.workingDirectory)).set (dir.place d.workingDirectory ++ [n])
      (.file content false))
  else none

theorem exists_renew (hdirectory : d.lookup (dir.place d.workingDirectory) = some .directory)
    (hapart : ¬ dir.Inside d.workingDirectory d.workingDirectory) (n : String) (content : Bytes) :
    ∃ d', d.renew? dir n content = some d' := by
  unfold renew?
  rw [if_pos ⟨hdirectory, hapart⟩]
  exact ⟨_, rfl⟩

/-- What is there after a directory was emptied for a file. -/
theorem lookup_renew (h : d.renew? dir n content = some d') (l : Location) :
    d'.lookup l = if l = dir.place d.workingDirectory ++ [n] then some (.file content false)
      else if dir.Inside d.workingDirectory l then none else d.lookup l := by
  unfold renew? at h
  split at h
  · obtain rfl := Option.some.inj h
    rw [lookup_set _ (by simp), lookup_clearBelow]
    rfl
  · cases h

theorem WellFormed.renew (h : d.WellFormed) (hn : IsName n)
    (hrenew : d.renew? dir n content = some d') : d'.WellFormed := by
  unfold renew? at hrenew
  split at hrenew
  next hdir =>
    obtain rfl := Option.some.inj hrenew
    refine (h.clearBelow hdir.2).set ?_ hn fun hdirectory => ?_
    · rw [lookup_clearBelow, if_neg fun hbelow => hbelow.2 rfl, hdir.1]
    · rw [lookup_clearBelow, if_pos ⟨List.prefix_append .., by simp⟩] at hdirectory
      cases hdirectory
  next => cases hrenew

theorem workingDirectory_renew (hrenew : d.renew? dir n content = some d') :
    d'.workingDirectory = d.workingDirectory := by
  unfold renew? at hrenew
  split at hrenew
  next => exact Option.some.inj hrenew ▸ rfl
  next => cases hrenew

theorem alike_renew (hrenew : d.renew? dir n content = some d') :
    Alike (Hiding.at (dir.Inside d.workingDirectory)) d d' := by
  refine .of_lookup (workingDirectory_renew hrenew).symm fun l hl => ?_
  have hne : l ≠ dir.place d.workingDirectory ++ [n] := by
    rintro rfl
    exact hl ⟨List.prefix_append .., by simp⟩
  rw [lookup_renew hrenew, if_neg hne, if_neg hl]

theorem LinklessAt.renew {ls : Location → Prop} (h : d.LinklessAt ls)
    (hrenew : d.renew? dir n content = some d') : d'.LinklessAt ls := by
  intro l t hl hlink
  rw [lookup_renew hrenew] at hlink
  split at hlink
  · cases hlink
  split at hlink
  · cases hlink
  · exact h l t hl hlink

theorem Linkless.renew (h : d.Linkless) (hrenew : d.renew? dir n content = some d') : d'.Linkless :=
  fun l t => (h.linklessAt fun _ => True).renew hrenew l t trivial

/-- A file is all there is in a directory. -/
def HoldsOnly (d : Disk) (dir : Path) (n : String) (content : Bytes) : Prop :=
  ∀ l, dir.Inside d.workingDirectory l →
    d.lookup l = if l = dir.place d.workingDirectory ++ [n] then some (.file content false) else none

theorem holdsOnly_renew (hrenew : d.renew? dir n content = some d') : d'.HoldsOnly dir n content := by
  intro l hl
  rw [workingDirectory_renew hrenew] at hl ⊢
  rw [lookup_renew hrenew, if_pos hl]

theorem HoldsOnly.lookup_file (h : d.HoldsOnly dir n content) :
    d.lookup (dir.place d.workingDirectory ++ [n]) = some (.file content false) :=
  (h _ ⟨List.prefix_append .., by simp⟩).trans (if_pos rfl)

theorem HoldsOnly.lookup_ne (h : d.HoldsOnly dir n content) {l : Location}
    (hl : dir.Inside d.workingDirectory l) : d.lookup l ≠ some .directory := by
  rw [h l hl]
  split <;> simp

/-- What is no directory on one of two twins is none on the other, and has nothing below it. -/
theorem Twins.of_no_directory {wd : Location} {hidden : Hiding} (h : Twins wd hidden d₁ d₂)
    (hplace : hidden.Shows (dir.place wd)) (hdir : d₁.lookup (dir.place wd) ≠ some .directory) :
    Twins wd (fun l e => hidden l e ∧ ¬ dir.Inside wd l) d₁ d₂ := by
  have hsame := h.alike.lookup_of_shows hplace
  have hnone {l : Location} (hl : dir.Inside wd l) : d₁.lookup l = none ∧ d₂.lookup l = none :=
    ⟨h.left.lookup_below hdir hl.1 hl.2, h.right.lookup_below (hsame ▸ hdir) hl.1 hl.2⟩
  refine ⟨h.left, h.right, h.workingDirectory, fun l t hlink => ⟨h.clear l t hlink, fun hl => ?_⟩,
    h.alike.workingDirectory, fun l => ?_⟩
  · rw [(hnone hl).1] at hlink
    cases hlink
  · by_cases hl : dir.Inside wd l
    · exact .inl ((hnone hl).1.trans (hnone hl).2.symm)
    · exact (h.alike.lookup l).imp id fun hboth => ⟨⟨hboth.1, hl⟩, ⟨hboth.2, hl⟩⟩

/-- On twins a directory that shows is emptied in the same way, and nothing below it is hidden then. -/
theorem Twins.renew {wd : Location} {hidden : Hiding} (h : Twins wd hidden d₁ d₂) (hn : IsName n)
    (hplace : hidden.Shows (dir.place wd)) (content : Bytes) :
    (d₁.renew? dir n content = none ∧ d₂.renew? dir n content = none ∧
        (dir.Inside wd wd ∨ Twins wd (fun l e => hidden l e ∧ ¬ dir.Inside wd l) d₁ d₂)) ∨
      ∃ e₁ e₂, d₁.renew? dir n content = some e₁ ∧ d₂.renew? dir n content = some e₂ ∧
        Twins wd (fun l e => hidden l e ∧ ¬ dir.Inside wd l) e₁ e₂ := by
  have hwd₁ := h.workingDirectory
  have hwd₂ := h.symm.workingDirectory
  have hsame := h.alike.lookup_of_shows hplace
  by_cases hdir : d₁.lookup (dir.place wd) = some .directory ∧ ¬ dir.Inside wd wd
  · have hrenew {d : Disk} (hwd : d.workingDirectory = wd)
        (hlookup : d.lookup (dir.place wd) = some .directory) :
        ∃ e, d.renew? dir n content = some e := by
      unfold renew?
      rw [hwd, if_pos ⟨hlookup, hdir.2⟩]
      exact ⟨_, rfl⟩
    obtain ⟨e₁, he₁⟩ := hrenew hwd₁ hdir.1
    obtain ⟨e₂, he₂⟩ := hrenew hwd₂ (hsame ▸ hdir.1)
    have hlookup₁ := lookup_renew he₁
    have hlookup₂ := lookup_renew he₂
    rw [hwd₁] at hlookup₁
    rw [hwd₂] at hlookup₂
    refine .inr ⟨e₁, e₂, he₁, he₂, h.left.renew hn he₁, h.right.renew hn he₂,
      (workingDirectory_renew he₁).trans hwd₁, fun l t hlink => ?_,
      (workingDirectory_renew he₁).trans (hwd₁.trans (hwd₂.symm.trans
        (workingDirectory_renew he₂).symm)), fun l => ?_⟩
    · rw [hlookup₁] at hlink
      split at hlink
      · cases hlink
      split at hlink
      · cases hlink
      next hinside => exact ⟨h.clear l t hlink, hinside⟩
    · rw [hlookup₁, hlookup₂]
      split
      · exact .inl rfl
      split
      · exact .inl rfl
      next hinside =>
        exact (h.alike.lookup l).imp id fun hboth => ⟨⟨hboth.1, hinside⟩, ⟨hboth.2, hinside⟩⟩
  · refine .inl ⟨?_, ?_, or_iff_not_imp_left.2 fun hworking => ?_⟩
    · unfold renew?
      rw [hwd₁, if_neg hdir]
    · unfold renew?
      rw [hwd₂, ← hsame, if_neg hdir]
    · exact h.of_no_directory hplace fun h => hdir ⟨h, hworking⟩

/-! ## A link beside the file -/

/-- The disk with a source and a link in a directory and nothing else below it, if there is a directory
to empty. -/
def relink? (d : Disk) (dir target : Path) : Option Disk :=
  (d.renew? dir "service.proto" []).map
    (·.set (dir.place d.workingDirectory ++ ["imported"]) (.link target))

variable {target : Path}

theorem lookup_relink (h : d.relink? dir target = some d') (l : Location) :
    d'.lookup l = if l = dir.place d.workingDirectory ++ ["imported"] then some (.link target)
      else if l = dir.place d.workingDirectory ++ ["service.proto"] then some (.file [] false)
      else if dir.Inside d.workingDirectory l then none else d.lookup l := by
  obtain ⟨e, hrenew, rfl⟩ := Option.map_eq_some_iff.1 h
  rw [lookup_set _ (by simp), lookup_renew hrenew]

theorem lookup_relink_ne (h : d.relink? dir target = some d') {l : Location}
    (hl : dir.Inside d.workingDirectory l) : d'.lookup l ≠ some .directory := by
  rw [lookup_relink h, if_pos hl]
  split
  · simp
  · split <;> simp

theorem WellFormed.relink (h : d.WellFormed) (hrelink : d.relink? dir target = some d') :
    d'.WellFormed := by
  obtain ⟨e, hrenew, rfl⟩ := Option.map_eq_some_iff.1 hrelink
  have hdirectory : d.lookup (dir.place d.workingDirectory) = some .directory := by
    unfold renew? at hrenew
    split at hrenew
    next hdir => exact hdir.1
    next => cases hrenew
  refine (h.renew (by decide) hrenew).set ?_ (by decide) ?_
  · rw [lookup_renew hrenew, if_neg (by simp), if_neg fun hinside => hinside.2 rfl, hdirectory]
  · rw [lookup_renew hrenew, if_neg (by simp), if_pos ⟨List.prefix_append .., by simp⟩]
    simp

theorem alike_relink (hrelink : d.relink? dir target = some d') :
    Alike (Hiding.at (dir.Inside d.workingDirectory)) d d' := by
  obtain ⟨e, hrenew, rfl⟩ := Option.map_eq_some_iff.1 hrelink
  refine .of_lookup (workingDirectory_renew hrenew).symm fun l hl => ?_
  have hinside (n : String) : l ≠ dir.place d.workingDirectory ++ [n] := by
    rintro rfl
    exact hl ⟨List.prefix_append .., by simp⟩
  rw [lookup_relink hrelink, if_neg (hinside _), if_neg (hinside _), if_neg hl]

theorem exists_relink (hdirectory : d.lookup (dir.place d.workingDirectory) = some .directory)
    (hapart : ¬ dir.Inside d.workingDirectory d.workingDirectory) (target : Path) :
    ∃ d', d.relink? dir target = some d' := by
  obtain ⟨d', hrenew⟩ := exists_renew hdirectory hapart "service.proto" []
  unfold relink?
  rw [hrenew]
  exact ⟨_, rfl⟩

/-- Through the link its target is read. -/
theorem read_relink (hrelink : d.relink? dir target = some d')
    (hleads : d'.LeadsTo (dir.base d'.workingDirectory) dir.steps)
    (hrefused : (Path.join dir "imported").refusal? = none) (habsolute : Path.isAbsolute target = true)
    (htarget : target.refusal? = none) (hfree : d'.LinkFree (target.way d'.workingDirectory)) :
    d'.read (Path.join dir "imported") = d'.read target := by
  refine hleads.read_link (by decide) (by decide) hrefused ?_ habsolute htarget hfree
  rw [lookup_relink hrelink, (alike_relink hrelink).workingDirectory, if_pos rfl]

/-- On twins a directory that shows is emptied for the same file and link, or on neither of them. -/
theorem Twins.relink {wd : Location} {hidden : Hiding} (h : Twins wd hidden d₁ d₂)
    (hplace : hidden.Shows (dir.place wd)) (target : Path) :
    (d₁.relink? dir target = none ∧ d₂.relink? dir target = none) ∨
      ∃ e₁ e₂, d₁.relink? dir target = some e₁ ∧ d₂.relink? dir target = some e₂ ∧
        Alike hidden e₁ e₂ := by
  unfold relink?
  obtain ⟨h₁, h₂, -⟩ | ⟨e₁, e₂, h₁, h₂, htwins⟩ := h.renew (n := "service.proto") (by decide) hplace []
  · rw [h₁, h₂]
    exact .inl ⟨rfl, rfl⟩
  · rw [h₁, h₂, h.workingDirectory, h.symm.workingDirectory]
    exact .inr ⟨_, _, rfl, rfl, (htwins.alike.mono fun l e => And.left).set (by simp) _⟩

end Disk

/-! ## A generator -/

/-- The generator that empties its directory, leaves one file there and reports some declarations. -/
def Generator.renewing (n : String) (content : Bytes) (model : Declarations) : Generator := fun r d =>
  match d.renew? r.outputDir n content with
  | some d' => (.ok model, d')
  | none => (.error (.other "no directory"), d)

theorem Generator.renewing_eq {n : String} {content : Bytes} {model : Declarations}
    {r : GenerateRequest} {d d' : Disk} (h : d.renew? r.outputDir n content = some d') :
    renewing n content model r d = (.ok model, d') := by
  unfold renewing
  rw [h]

namespace Generator

variable {n : String} (hn : IsName n) (content : Bytes) (model : Declarations)
include hn

theorem renewing_confined : (renewing n content model).Confined := by
  intro r d h _
  unfold renewing
  cases hrenew : d.renew? r.outputDir n content with
  | none => exact ⟨h, .refl _ _⟩
  | some d' => exact ⟨h.renew hn hrenew, Disk.alike_renew hrenew⟩

/-- What is below its directory is not found by the generator, and is not there any more. -/
theorem renewing_overlooks {wd : Location} {before after : Hiding} {r : GenerateRequest}
    (hplace : before.Shows (r.outputDir.place wd)) (hwd : ¬ r.outputDir.Inside wd wd)
    (hafter : ∀ l e, before l e → ¬ r.outputDir.Inside wd l → after l e) :
    (renewing n content model).Overlooks wd before after r := by
  intro d₁ d₂ h
  unfold renewing
  obtain ⟨h₁, h₂, htwins⟩ | ⟨e₁, e₂, h₁, h₂, htwins⟩ := h.renew hn hplace content
  · rw [h₁, h₂]
    exact ⟨rfl, (htwins.resolve_left hwd).mono fun l e hhidden => hafter l e hhidden.1 hhidden.2⟩
  · rw [h₁, h₂]
    exact ⟨rfl, htwins.mono fun l e hhidden => hafter l e hhidden.1 hhidden.2⟩

end Generator

/-- The generator that empties its directory and leaves a source and a link there. -/
def Generator.linking (target : Path) : Generator := fun r d =>
  match d.relink? r.outputDir target with
  | some d' => (.ok ⟨[], []⟩, d')
  | none => (.error (.other "no directory"), d)

namespace Generator

variable (target : Path)

theorem linking_disregards {wd : Location} {hidden : Hiding} {r : GenerateRequest}
    (hplace : hidden.Shows (r.outputDir.place wd)) : (linking target).Disregards wd hidden r := by
  intro d₁ d₂ h
  unfold linking
  obtain ⟨h₁, h₂⟩ | ⟨e₁, e₂, h₁, h₂, halike⟩ := h.relink hplace target
  · rw [h₁, h₂]
    exact ⟨rfl, h.alike⟩
  · rw [h₁, h₂]
    exact ⟨rfl, halike⟩

end Generator

/-! ## A toolchain -/

/-- The toolchain that empties its directory and leaves one file there as its artifact. -/
def Toolchain.renewing (n : String) (content : Bytes) : Toolchain where
  sourceExtension := "proto"
  isMarker _ := false
  compile r d := match d.renew? r.outputDir n content with
    | some d' => (.ok ⟨true, [Path.join r.outputDir n], []⟩, d')
    | none => (.error .notFound, d)

namespace Toolchain

variable {n : String} (hn : IsName n) (content : Bytes)
include hn

theorem renewing_confined : (renewing n content).Confined fun _ => True := by
  intro r d h _
  unfold renewing
  dsimp only
  cases hrenew : d.renew? r.outputDir n content with
  | none => exact ⟨h, .refl _ _⟩
  | some d' =>
    exact ⟨h.renew hn hrenew, (Disk.alike_renew hrenew).mono fun l e hl => ⟨hl, trivial⟩⟩

/-- What is below its directory is not found by the toolchain. -/
theorem renewing_ignoresOutput (kind : Option Entry → Prop) :
    (renewing n content).IgnoresOutput kind := by
  intro wd r d₁ d₂ h
  unfold renewing
  obtain ⟨h₁, h₂, -⟩ | ⟨e₁, e₂, h₁, h₂, htwins⟩ :=
    h.renew hn (fun e hhidden => hhidden.1.2 rfl) content
  · constructor
    · dsimp only
      rw [h₁, h₂]
    · dsimp only
      rw [h₁]
      exact fun outcome houtcome => nomatch houtcome
  · constructor
    · dsimp only
      rw [h₁, h₂]
    · dsimp only
      rw [h₁, h₂]
      exact fun outcome _ p _ => htwins.read fun l _ e hhidden => hhidden.2 hhidden.1.1

end Toolchain

/-- The toolchain that reads what is imported beside the sources, and writes nothing. -/
def Toolchain.importing : Toolchain where
  sourceExtension := "proto"
  isMarker _ := false
  compile r d := (match d.read (Path.join r.sourceRoot "imported") with
    | .ok _ => .ok ⟨true, [], []⟩
    | .error e => .error e, d)

namespace Toolchain

theorem names_of_mem_way_imported {wd l : Location} {r : CompileRequest}
    (hl : l ∈ (Path.join r.sourceRoot "imported").way wd) : Path.Name wd r.inputs l :=
  ⟨_, .head _, Path.names_of_mem_way_join (by decide) hl⟩

/-- What is no input is not read, unless a link leads to it. -/
theorem importing_ignoresOutput (kind : Option Entry → Prop) : importing.IgnoresOutput kind := by
  intro wd r d₁ d₂ h
  have hread : d₁.read (Path.join r.sourceRoot "imported") =
      d₂.read (Path.join r.sourceRoot "imported") :=
    h.read fun l hl e hhidden => hhidden.2.1 (names_of_mem_way_imported hl)
  unfold importing
  constructor
  · dsimp only
    rw [hread]
  · dsimp only
    intro outcome houtcome p hp
    split at houtcome
    · obtain rfl := Except.ok.inj houtcome
      exact absurd hp List.not_mem_nil
    · cases houtcome

end Toolchain

/-- A toolchain that is not there. -/
def Toolchain.absent : Toolchain := ⟨"proto", fun _ => false, fun _ d => (.error .notFound, d)⟩

/-- Collaborators that start anew, for a description on the web. -/
def Collaborators.renewing {World : Type} (model : Declarations) (host : Pool)
    (factory : Except IoError (ProxyFactory World)) : Collaborators World where
  web _ := .ok []
  generator := .renewing "service.proto" [] model
  toolchain := .renewing Protoc.descriptorSetName []
  host := host
  factory := factory

namespace Collaborators

variable {World : Type} (model : Declarations) (host : Pool)
  (factory : Except IoError (ProxyFactory World))

theorem renewing_confined : (renewing model host factory).Confined fun _ => True :=
  ⟨Generator.renewing_confined (by decide) _ _, Toolchain.renewing_confined (by decide) _⟩

end Collaborators

namespace Client

/-- A factory that makes no proxy. -/
def refusing : ProxyFactory Unit := ⟨fun _ _ address w => (.error (.address address "refused"), w)⟩

/-- Collaborators that start anew and declare nothing. -/
def anew : Collaborators Unit := .renewing ⟨[], []⟩ .empty (.ok refusing)

end Client

end ServiceCall
