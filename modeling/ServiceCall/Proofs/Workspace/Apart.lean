import ServiceCall.Proofs.Disk.Ancestor
import ServiceCall.Proofs.Workspace.Prepare
/-!
# Workspaces are apart

Addresses with different digests have different keys (`endpointKey_inj`), and a key is a component of
its own. So no path of a workspace is, contains or lies below a path of another one, and
the paths in a workspace lie side by side right below its root (`Workspace.apart_of_digest_ne`),
however the root is written.
-/

namespace ServiceCall

/-! ## Digests and keys -/

namespace Hex

theorem digit_injective {m n : Nat} (hm : m < 16) (hn : n < 16) (h : digit m = digit n) : m = n := by
  have hall : ∀ m < 16, ∀ n < 16, digit m = digit n → m = n := by decide
  exact hall m hm n hn h

theorem ofByte_injective : Function.Injective ofByte := by
  intro a b h
  have ha := a.toNat_lt
  have hb := b.toNat_lt
  simp only [ofByte, List.cons.injEq, and_true] at h
  have hhigh := digit_injective (by omega) (by omega) h.1
  have hlow := digit_injective (by omega) (by omega) h.2
  exact UInt8.toNat_inj.1 (by omega)

/-- Byte strings are told apart by their digits. -/
theorem encode_injective : Function.Injective encode := by
  intro xs ys h
  replace h := String.ofList_injective h
  induction xs generalizing ys with
  | nil =>
    cases ys with
    | nil => rfl
    | cons y ys => cases h
  | cons x xs ih =>
    cases ys with
    | nil => cases h
    | cons y ys =>
      rw [List.flatMap_cons, List.flatMap_cons] at h
      obtain ⟨hbyte, hrest⟩ := List.append_inj h rfl
      rw [ofByte_injective hbyte, ih hrest]

end Hex

/-- Addresses have the same key exactly if they have the same digest. -/
theorem endpointKey_inj {address address' : String} :
    endpointKey address = endpointKey address' ↔
      Blake3.digest (utf8 address) = Blake3.digest (utf8 address') := by
  unfold endpointKey
  exact Hex.encode_injective.eq_iff.trans Vector.toList_inj

namespace Workspace

variable {root : Path} {address address' : String}

/-! ## Paths of a workspace -/

/-- The paths that lie in the directory of an endpoint. -/
def contents (w : Workspace) : List Path := [w.sourceDir, w.binaryDir, w.document]

/-- The paths of a workspace. -/
def paths (w : Workspace) : List Path := w.root :: w.contents

theorem components_root (root : Path) (address : String) :
    (locate root address).root.components =
      root.components ++ [Path.Component.name (endpointKey address)] :=
  Path.components_join (isName_endpointKey address) root

/-- What lies in the directory of an endpoint lies right below it. -/
theorem mem_contents {p : Path} (hp : p ∈ (locate root address).contents) :
    ∃ n ∈ [sourceName, binaryName, documentName],
      p.components = (locate root address).root.components ++ [Path.Component.name n] := by
  rw [contents, sourceDir_eq, binaryDir_eq, document_eq] at hp
  simp only [List.mem_cons, List.not_mem_nil, or_false] at hp
  obtain rfl | rfl | rfl := hp
  · exact ⟨sourceName, by simp, Path.components_join isName_sourceName _⟩
  · exact ⟨binaryName, by simp, Path.components_join isName_binaryName _⟩
  · exact ⟨documentName, by simp, Path.components_join isName_documentName _⟩

/-- Every path of a workspace is its root's, and what follows. -/
theorem contains_of_mem_paths {p : Path} (hp : p ∈ (locate root address).paths) :
    (locate root address).root.Contains p := by
  obtain rfl | hp := List.mem_cons.1 hp
  · exact List.prefix_refl _
  · obtain ⟨n, -, hn⟩ := mem_contents hp
    rw [Path.Contains, hn]
    exact List.prefix_append ..

/-- No path of a workspace contains a path of one with another key. -/
theorem not_contains_of_ne (hkey : endpointKey address ≠ endpointKey address') {p q : Path}
    (hp : p ∈ (locate root address).paths) (hq : q ∈ (locate root address').paths) :
    ¬ p.Contains q := by
  intro hcontains
  have hroot := (contains_of_mem_paths hp).trans hcontains
  have hshort := List.prefix_of_prefix_length_le hroot (contains_of_mem_paths hq)
    (by simp [components_root])
  rw [components_root, components_root] at hshort
  have heq := List.append_cancel_left (hshort.eq_of_length (by simp))
  exact hkey (Path.Component.name.inj (List.singleton_inj.1 heq))

/-- Of two paths of different names right below a path none contains the other. -/
theorem not_contains_of_name_ne {p q : Path} (r : Path) {m n : String} (hne : m ≠ n)
    (hp : p.components = r.components ++ [Path.Component.name m])
    (hq : q.components = r.components ++ [Path.Component.name n]) :
    ¬ p.Contains q ∧ ¬ q.Contains p := by
  rw [Path.Contains, Path.Contains, hp, hq]
  refine ⟨fun hcontains => ?_, fun hcontains => ?_⟩
  · have heq := List.append_cancel_left (hcontains.eq_of_length (by simp))
    exact hne (Path.Component.name.inj (List.singleton_inj.1 heq))
  · have heq := List.append_cancel_left (hcontains.eq_of_length (by simp))
    exact hne (Path.Component.name.inj (List.singleton_inj.1 heq)).symm

/-- The paths of workspaces whose addresses have different digests are apart; and in a workspace the
directories and the document lie side by side right below the root. -/
theorem apart_of_digest_ne (root : Path) (address address' : String) :
    (Blake3.digest (utf8 address) ≠ Blake3.digest (utf8 address') →
      ∀ p ∈ (locate root address).paths, ∀ q ∈ (locate root address').paths,
        p ≠ q ∧ ¬ p.Contains q ∧ ¬ q.Contains p) ∧
    (∀ p ∈ (locate root address).contents,
      ∃ n, p.components = (locate root address).root.components ++ [.name n]) ∧
    (locate root address).contents.Pairwise fun p q => ¬ p.Contains q ∧ ¬ q.Contains p := by
  refine ⟨fun hdigest p hp q hq => ?_, fun p hp => ?_, ?_⟩
  · have hkey : endpointKey address ≠ endpointKey address' :=
      fun h => hdigest (endpointKey_inj.1 h)
    have hnot := not_contains_of_ne hkey hp hq
    exact ⟨fun heq => hnot (heq ▸ List.prefix_refl _), hnot, not_contains_of_ne hkey.symm hq hp⟩
  · obtain ⟨n, -, hn⟩ := mem_contents hp
    exact ⟨n, hn⟩
  · have hsources := Path.components_join isName_sourceName (locate root address).root
    have hbinaries := Path.components_join isName_binaryName (locate root address).root
    have hdocument := Path.components_join isName_documentName (locate root address).root
    rw [contents, sourceDir_eq, binaryDir_eq, document_eq]
    generalize (locate root address).root = r at hsources hbinaries hdocument ⊢
    rw [List.pairwise_cons, List.pairwise_pair]
    refine ⟨fun q hq => ?_, not_contains_of_name_ne r (by decide) hbinaries hdocument⟩
    obtain rfl | rfl := List.mem_pair.1 hq
    · exact not_contains_of_name_ne r (by decide) hsources hbinaries
    · exact not_contains_of_name_ne r (by decide) hsources hdocument

/-- Two endpoints below a root that leads back and ends in a slash. -/
theorem apart_from_digests :
    Blake3.digest (utf8 "http://a") ≠ Blake3.digest (utf8 "http://b") ∧
      ∀ p ∈ (locate "./ws/..//" "http://a").paths, ∀ q ∈ (locate "./ws/..//" "http://b").paths,
        p ≠ q ∧ ¬ p.Contains q ∧ ¬ q.Contains p := by
  have hdigest : Blake3.digest (utf8 "http://a") ≠ Blake3.digest (utf8 "http://b") := by
    rw [Ne, ← endpointKey_inj, endpointKey_a, endpointKey_b]
    decide
  obtain ⟨hapart, -⟩ := apart_of_digest_ne "./ws/..//" "http://a" "http://b"
  exact ⟨hdigest, hapart hdigest⟩

end Workspace

end ServiceCall
