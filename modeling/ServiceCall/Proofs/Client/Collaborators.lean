import ServiceCall.Client.Init
import ServiceCall.Proofs.Workspace.Prepare
/-!
# What collaborators may do

A generator and a toolchain get a request that names paths, and may do anything to the disk. The
statements about several runs are about collaborators that keep to what they were asked for: they
write only below the directory they were given (`Generator.Confined`, `Toolchain.Confined`), what they
do depends on nothing but the request and what it names (`Generator.Local`, `Toolchain.Local`), or, less
than that, not on what is hidden (`Generator.Overlooks`, `Toolchain.IgnoresOutput`), and they leave
nothing that leads elsewhere (`Collaborators.Tidy`).
-/

namespace ServiceCall

open Disk (Twins Alike)

/-! ## What a request names -/

/-- The paths of a generator's request. -/
def GenerateRequest.paths (r : GenerateRequest) : List Path :=
  r.document :: r.outputDir ::
    if Description.isWebAddress r.address then [] else [Description.filePath r.address]

/-- The paths that a toolchain reads. -/
def CompileRequest.inputs (r : CompileRequest) : List Path :=
  r.sourceRoot :: (r.sources ++ r.includePaths)

/-- One of the paths names the location. -/
def Path.Name (wd : Location) (ps : List Path) (l : Location) : Prop := ∃ p ∈ ps, p.Names wd l

theorem CompileRequest.name_inputs {wd l : Location} {r : CompileRequest}
    (h : Path.Name wd r.inputs l) :
    r.sourceRoot.Names wd l ∨ Path.Name wd r.sources l ∨ Path.Name wd r.includePaths l := by
  obtain ⟨p, hp, hl⟩ := h
  rw [inputs, List.mem_cons, List.mem_append] at hp
  obtain rfl | hp | hp := hp
  · exact .inl hl
  · exact .inr (.inl ⟨p, hp, hl⟩)
  · exact .inr (.inr ⟨p, hp, hl⟩)

/-- The generator writes only below the directory of its request, unless it is led elsewhere by a
link, and leaves a disk. -/
def Generator.Confined (g : Generator) : Prop :=
  ∀ r d, d.WellFormed → d.LinklessAt (r.outputDir.Names d.workingDirectory) →
    (g r d).2.WellFormed ∧ Alike (Hiding.at (r.outputDir.Inside d.workingDirectory)) d (g r d).2

/-- On twins the generator reports the same and leaves disks that are alike. -/
def Generator.Disregards (g : Generator) (wd : Location) (hidden : Hiding) (r : GenerateRequest) :
    Prop :=
  ∀ d₁ d₂, Twins wd hidden d₁ d₂ →
    (g r d₁).1 = (g r d₂).1 ∧ Alike hidden (g r d₁).2 (g r d₂).2

/-- On twins the generator reports the same and leaves twins, with less or more in common: disks that
are alike, without links but where something is hidden. -/
def Generator.Overlooks (g : Generator) (wd : Location) (before after : Hiding)
    (r : GenerateRequest) : Prop :=
  ∀ d₁ d₂, Twins wd before d₁ d₂ → (g r d₁).1 = (g r d₂).1 ∧ Twins wd after (g r d₁).2 (g r d₂).2

/-! ## Toolchains -/

/-- The toolchain changes entries of a kind below the directory of its request and nothing else, unless
it is led elsewhere by a link, and leaves a disk. -/
def Toolchain.Confined (t : Toolchain) (kind : Option Entry → Prop) : Prop :=
  ∀ r d, d.WellFormed → d.LinklessAt (r.outputDir.Names d.workingDirectory) →
    (t.compile r d).2.WellFormed ∧
      Alike (fun l e => r.outputDir.Inside d.workingDirectory l ∧ kind e) d (t.compile r d).2

/-- The toolchain does the same on two disks: it reports the same, and what it reports as artifacts
reads the same. -/
structure Toolchain.SameOn (t : Toolchain) (r : CompileRequest) (d₁ d₂ : Disk) : Prop where
  report : (t.compile r d₁).1 = (t.compile r d₂).1
  artifacts : ∀ outcome, (t.compile r d₁).1 = .ok outcome → ∀ p ∈ outcome.artifacts,
    (t.compile r d₁).2.read p = (t.compile r d₂).2.read p

/-- The toolchain writes what it reports as artifacts, and does the same whatever entries of a kind it
finds below the directory that it writes to, unless they are its inputs. -/
def Toolchain.IgnoresOutput (t : Toolchain) (kind : Option Entry → Prop) : Prop :=
  ∀ wd r d₁ d₂,
    Twins wd (fun l e => r.outputDir.Inside wd l ∧ ¬ Path.Name wd r.inputs l ∧ kind e) d₁ d₂ →
      t.SameOn r d₁ d₂

/-! ## Both together -/

/-- The generator and the toolchain are confined. -/
structure Collaborators.Confined {World : Type} (k : Collaborators World)
    (kind : Option Entry → Prop) : Prop where
  generator : k.generator.Confined
  toolchain : k.toolchain.Confined kind

section

variable {wd : Location} {hidden : Hiding} {dir : Path} {d₁ d₂ d₁' d₂' : Disk}

end

end ServiceCall
