import ServiceCall.Proofs.Disk.Attempts
import ServiceCall.Workspace
/-!
# Where workspaces lie

The key of an address is a name of 64 digits, so a workspace is a directory right below the root
(`Workspace.location`), whose directories and document lie right below it. Workspaces with different
keys have no location in common.
-/

namespace ServiceCall

/-! ## Keys -/

namespace Hex

/-- A digit can stand in a name. -/
theorem digit_spec {n : Nat} (h : n < 16) : digit n ≠ '/' ∧ digit n ≠ '\x00' := by
  revert n
  decide

theorem mem_encode {bytes : Bytes} {c : Char} (h : c ∈ (encode bytes).toList) :
    ∃ n < 16, c = digit n := by
  rw [encode, String.toList_ofList, List.mem_flatMap] at h
  obtain ⟨b, -, hc⟩ := h
  rw [ofByte, List.mem_pair] at hc
  have hb := b.toNat_lt
  obtain rfl | rfl := hc
  · exact ⟨_, by omega, rfl⟩
  · exact ⟨_, by omega, rfl⟩

end Hex

/-- A key is written in digits. -/
theorem mem_endpointKey {address : String} {c : Char} (h : c ∈ (endpointKey address).toList) :
    c ≠ '/' ∧ c ≠ '\x00' := by
  unfold endpointKey at h
  obtain ⟨n, hn, rfl⟩ := Hex.mem_encode h
  exact Hex.digit_spec hn

theorem length_endpointKey (address : String) : (endpointKey address).length = 64 := by
  unfold endpointKey Hex.encode
  rw [String.length_ofList, Hex.length_flatMap_ofByte, Vector.length_toList]

theorem isName_endpointKey (address : String) : IsName (endpointKey address) := by
  have hlength := length_endpointKey address
  refine ⟨?_, ?_, ?_, fun h => (mem_endpointKey h).1 rfl⟩
  all_goals
    intro h
    rw [h] at hlength
    exact absurd hlength (by decide)

theorem endpointKey_a : endpointKey "http://a" =
    "f9217a7d1a5f32f981a7ee568eb11448c1babc4e56e2b1397708f33bf28f106a" := by decide +kernel

theorem endpointKey_b : endpointKey "http://b" =
    "2c1eeac46a45a87c20ee08ef1cb03af42dd3a587e26cde0feba08996df1df499" := by decide +kernel

/-! ## Locations -/

namespace Workspace

/-- The directory of an endpoint below a root. -/
def location (wd : Location) (root : Path) (address : String) : Location :=
  root.place wd ++ [endpointKey address]

/-- The name of the directory of sources. -/
def sourceName : String := "src"

/-- The name of the directory of binaries. -/
def binaryName : String := "bin"

/-- The name of the stored description. -/
def documentName : String := "descriptor.wsdl"

variable {wd : Location} {root : Path} {address : String} {n : String}

theorem place_root : (locate root address).root.place wd = location wd root address :=
  Path.place_join (isName_endpointKey address)

theorem way_root :
    (locate root address).root.way wd = root.way wd ++ [location wd root address] :=
  Path.way_join (isName_endpointKey address)

theorem place_join_root (hn : IsName n) :
    (Path.join (locate root address).root n).place wd = location wd root address ++ [n] := by
  rw [Path.place_join hn, place_root]

theorem way_join_root (hn : IsName n) : (Path.join (locate root address).root n).way wd =
    root.way wd ++ [location wd root address, location wd root address ++ [n]] := by
  rw [Path.way_join hn, way_root, place_root, List.append_assoc]
  rfl

theorem names_join_root (hn : IsName n) {l : Location} :
    (Path.join (locate root address).root n).Names wd l ↔
      l ∈ root.way wd ∨ l = location wd root address ∨ location wd root address ++ [n] <+: l := by
  rw [Path.Names, way_join_root hn, place_join_root hn, List.mem_append, List.mem_pair]
  constructor
  · rintro ((hl | rfl | rfl) | hl)
    · exact .inl hl
    · exact .inr (.inl rfl)
    · exact .inr (.inr (List.prefix_refl _))
    · exact .inr (.inr hl)
  · rintro (hl | rfl | hl)
    · exact .inl (.inl hl)
    · exact .inl (.inr (.inl rfl))
    · exact .inr hl

/-- What is below one place in a workspace is apart from another one, and from the way there unless
the root leads through it. -/
theorem not_inside_of_names {n' : String} (hn : IsName n) (hn' : IsName n') (hne : n' ≠ n)
    {l : Location}
    (hroot : ∀ l ∈ root.way wd, ¬ (Path.join (locate root address).root n').Inside wd l)
    (hl : (Path.join (locate root address).root n).Names wd l) :
    ¬ (Path.join (locate root address).root n').Inside wd l := by
  obtain hl | rfl | hl := (names_join_root hn).1 hl
  · exact hroot l hl
  · rw [Path.Inside, place_join_root hn']
    intro hinside
    have hle := hinside.1.length_le
    simp at hle
  · rw [Path.Inside, place_join_root hn']
    intro hinside
    have hlength : (location wd root address ++ [n']).length =
        (location wd root address ++ [n]).length := by simp
    have hshort := List.prefix_of_prefix_length_le hinside.1 hl hlength.le
    have heq := List.append_cancel_left (hshort.eq_of_length hlength)
    exact hne (List.singleton_inj.1 heq)

/-- What is below a place in a workspace is below the workspace. -/
theorem inside_root {l : Location} (hn : IsName n)
    (hl : (Path.join (locate root address).root n).place wd <+: l) :
    (locate root address).root.Inside wd l := by
  rw [place_join_root hn] at hl
  rw [Path.Inside, place_root]
  refine ⟨(List.prefix_append ..).trans hl, fun heq => ?_⟩
  have hle := hl.length_le
  rw [← heq] at hle
  simp at hle

theorem steps_join_root (hn : IsName n) : Path.steps (Path.join (locate root address).root n) =
    Path.steps root ++ [endpointKey address, n] := by
  rw [Path.steps_join hn, locate, Path.steps_join (isName_endpointKey address), List.append_assoc]
  rfl

theorem base_join_root (hn : IsName n) :
    (Path.join (locate root address).root n).base wd = root.base wd := by
  rw [Path.base_join hn]
  exact Path.base_join (isName_endpointKey address)

/-- A path below the directory of an endpoint is the root's, the key and the name. -/
theorem join_root_eq (hn : IsName n) : Path.join (locate root address).root n =
    Path.front root ++ endpointKey address ++ "/" ++ n := by
  rw [Path.join_of_isName hn, locate, Path.front_join (isName_endpointKey address),
    Path.join_of_isName (isName_endpointKey address)]

theorem nul_not_mem_endpointKey (address : String) : '\x00' ∉ (endpointKey address).toList :=
  fun h => (mem_endpointKey h).2 rfl

/-- Whether a path below the directory of an endpoint is refused depends neither on the endpoint
nor on more than the length of the name. -/
theorem refusal?_join_root {n' : String} (hn : IsName n) (hn' : IsName n')
    (hnul : '\x00' ∉ n.toList) (hnul' : '\x00' ∉ n'.toList)
    (hsize : n.length = n'.length) (address' : String) :
    Path.refusal? (Path.join (locate root address).root n) =
      Path.refusal? (Path.join (locate root address').root n') := by
  unfold Path.refusal?
  rw [join_root_eq hn, join_root_eq hn']
  simp [nul_not_mem_endpointKey, hnul, hnul', hsize, length_endpointKey]

/-- A path below the directory of an endpoint is not refused if the root is short enough. -/
theorem refusal?_join_root_eq_none (hn : IsName n) (hnul : '\x00' ∉ n.toList)
    (hroot : '\x00' ∉ root.toList)
    (hsize : root.length + n.length + 66 ≤ Disk.maxPathLength) :
    Path.refusal? (Path.join (locate root address).root n) = none := by
  have hkey := isName_endpointKey address
  have hlength := Path.length_join_le hkey root
  have hlength' := Path.length_join_le hn (Path.join root (endpointKey address))
  have hsize' := length_endpointKey address
  exact Path.refusal?_eq_none
    (Path.nul_not_mem_join hn hnul (Path.nul_not_mem_join hkey (nul_not_mem_endpointKey address) hroot))
    (show (Path.join (Path.join root (endpointKey address)) n).length ≤ _ by omega)

end Workspace

end ServiceCall
