import ServiceCall.Disk.Basic
import ServiceCall.Hash.Blake3
import ServiceCall.Text.Hex
/-!
# Workspaces

Every endpoint has a directory of its own below a common root, named by the digest of its
address, with one directory for sources and one for binaries in it. The layout depends
on the root and the address alone; `Workspace.prepare` creates it and changes nothing
that is there already.
-/

namespace ServiceCall

/-- The name of an endpoint's directory: the 64 hexadecimal digits of its address's digest. -/
@[irreducible]
def endpointKey (address : String) : String := Hex.encode (Blake3.digest (utf8 address)).toList

/-- The directories of an endpoint. -/
structure Workspace where
  root : Path
  sourceDir : Path
  binaryDir : Path
  deriving DecidableEq, Repr

namespace Workspace

/-- The layout for an address below a root. -/
def locate (root : Path) (address : String) : Workspace :=
  let root := Path.join root (endpointKey address)
  ⟨root, Path.join root "src", Path.join root "bin"⟩

/-- Where the retrieved description of the service is kept. -/
def document (w : Workspace) : Path := Path.join w.root "descriptor.wsdl"

/-- The layout for an address, with both directories created. -/
def prepare (d : Disk) (root : Path) (address : String) : Except IoError Workspace × Disk :=
  let w := locate root address
  match d.createDirectories w.sourceDir with
  | (.error e, d) => (.error e, d)
  | (.ok (), d) =>
    match d.createDirectories w.binaryDir with
    | (.error e, d) => (.error e, d)
    | (.ok (), d) => (.ok w, d)

theorem prepare_eq_locate {d d' : Disk} {root : Path} {address : String} {w : Workspace}
    (h : prepare d root address = (.ok w, d')) : w = locate root address := by
  unfold prepare at h
  generalize locate root address = l at h ⊢
  rcases h₁ : d.createDirectories l.sourceDir with ⟨_ | _, d₁⟩
  · simp [h₁] at h
  · rcases h₂ : d₁.createDirectories l.binaryDir with ⟨_ | _, d₂⟩
    · simp [h₁, h₂] at h
    · simp [h₁, h₂] at h
      exact h.1.symm

end Workspace

end ServiceCall
