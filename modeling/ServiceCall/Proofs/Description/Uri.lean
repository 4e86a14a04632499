import ServiceCall.Http.Address
import ServiceCall.Http.Exchange
import ServiceCall.Proofs.Description.Retrieval
/-!
# File URIs

The URI of a file is the text of its path with every byte escaped that may not stand in a URI
(`Uri.encode`). An address loses its scheme and nothing else, so the URI of a path is read at the path as it
is encoded (`Description.sameDocument_file`). That is the path itself if no byte had to be escaped
(`Uri.encode_eq_self`), and another file if one had to, although decoding would give the path back
(`Uri.percentDecode_encode`).
-/

namespace ServiceCall

namespace Uri

/-- The byte may stand in the path of a URI, slashes included. -/
def isPathByte (b : UInt8) : Bool := Http.isAlphanumeric b || Http.oneOf "/-._~!$&'()*+,;=:@" b

/-- A byte in the path of a URI. -/
def escaped (b : UInt8) : Bytes :=
  if isPathByte b then [b] else 0x25 :: (Hex.ofByte b).map fun c => Http.byteOf c.toUpper

/-- The text of a path in a URI. -/
def encode (p : String) : String :=
  String.ofList (((utf8 p).flatMap escaped).map fun b => Char.ofNat b.toNat)

/-- The URI of the path with a text. -/
def file (p : String) : String := "file://" ++ encode p

/-! ## Encoding -/

theorem utf8_ofList_ascii {bs : Bytes} (h : ∀ b ∈ bs, b < 0x80) :
    utf8 (String.ofList (bs.map fun b => Char.ofNat b.toNat)) = bs := by
  rw [utf8, String.toList_ofList]
  induction bs with
  | nil => rfl
  | cons b bs ih =>
    have hb : b.toNat < 128 := h b List.mem_cons_self
    have hchar : String.utf8EncodeChar (Char.ofNat b.toNat) = [b] := by
      have hvalue : (Char.ofNat b.toNat).val.toNat = b.toNat := by
        rw [Char.ofNat, dif_pos (.inl (by omega))]
        rfl
      rw [String.utf8EncodeChar, hvalue, if_pos (by omega), UInt8.ofNat_toNat]
    rw [List.map_cons, List.flatMap_cons, hchar, ih fun x hx => h x (List.mem_cons_of_mem _ hx)]
    rfl

/-- What is true of the bytes one by one. -/
theorem forall_byte {P : UInt8 → Prop} (h : ∀ n < 256, P (UInt8.ofNat n)) (b : UInt8) : P b := by
  have hb := h b.toNat b.toNat_lt
  rwa [UInt8.ofNat_toNat] at hb

theorem lt_of_mem_escaped {b x : UInt8} (h : x ∈ escaped b) : x < 0x80 := by
  -- A Boolean test for all members: the quantifier over a list is decided far slower.
  have hall : ∀ n < 256, (escaped (UInt8.ofNat n)).all (· < 0x80) = true := by decide +kernel
  have hb := forall_byte (P := fun b => (escaped b).all (· < 0x80) = true) hall b
  exact of_decide_eq_true (List.all_eq_true.1 hb x h)

theorem length_escaped_pos (b : UInt8) : 0 < (escaped b).length := by
  rw [escaped]
  split <;> simp

theorem utf8_encode (p : String) : utf8 (encode p) = (utf8 p).flatMap escaped := by
  refine utf8_ofList_ascii fun x hx => ?_
  obtain ⟨b, -, hb⟩ := List.mem_flatMap.1 hx
  exact lt_of_mem_escaped hb

theorem length_le_flatMap_escaped (bs : Bytes) : bs.length ≤ (bs.flatMap escaped).length := by
  induction bs with
  | nil => exact Nat.le_refl 0
  | cons b bs ih =>
    have hb := length_escaped_pos b
    rw [List.flatMap_cons, List.length_append, List.length_cons]
    omega

theorem flatMap_escaped_eq_self {bs : Bytes} :
    bs.flatMap escaped = bs ↔ ∀ b ∈ bs, isPathByte b = true := by
  induction bs with
  | nil => simp
  | cons b bs ih =>
    rw [List.flatMap_cons, List.forall_mem_cons]
    by_cases hb : isPathByte b = true
    · rw [escaped, if_pos hb, List.singleton_append, List.cons_inj_right, and_iff_right hb]
      exact ih
    · -- A byte that is escaped makes the list longer, and no byte behind it makes it shorter again.
      refine iff_of_false (fun h => ?_) fun h => hb h.1
      have hlength := congrArg List.length h
      have hbs := length_le_flatMap_escaped bs
      rw [escaped, if_neg hb] at hlength
      simp only [Hex.ofByte, List.map_cons, List.map_nil, List.length_append, List.length_cons,
        List.length_nil] at hlength
      omega

theorem utf8_injective {s t : String} (h : utf8 s = utf8 t) : s = t :=
  Option.some.inj (by rw [← Utf8.decode?_utf8 s, h, Utf8.decode?_utf8])

/-- A path is encoded as itself exactly if each of its bytes may stand in a URI. -/
theorem encode_eq_self {p : String} : encode p = p ↔ ∀ b ∈ utf8 p, isPathByte b = true := by
  rw [← flatMap_escaped_eq_self, ← utf8_encode]
  exact ⟨congrArg utf8, utf8_injective⟩

theorem percentDecode_escaped (b : UInt8) (rest : Bytes) :
    Http.percentDecode (escaped b ++ rest) = b :: Http.percentDecode rest := by
  by_cases hb : isPathByte b = true
  · have hsign : b ≠ 0x25 := by
      rintro rfl
      revert hb
      decide
    rw [escaped, if_pos hb, List.singleton_append]
    cases rest with
    | nil => rfl
    | cons x rest =>
      cases rest with
      | nil => rfl
      | cons y rest => rw [Http.percentDecode, Http.escapedByte?, if_neg hsign]
  · have hall : ∀ n < 256, Http.escapedByte? 0x25 (Http.byteOf (Hex.digit (n / 16)).toUpper)
        (Http.byteOf (Hex.digit (n % 16)).toUpper) = some (UInt8.ofNat n) := by decide +kernel
    have hbyte := hall b.toNat b.toNat_lt
    rw [UInt8.ofNat_toNat] at hbyte
    rw [escaped, if_neg hb, Hex.ofByte, List.map_cons, List.map_cons, List.map_nil, List.cons_append,
      List.cons_append, List.cons_append, List.nil_append, Http.percentDecode, hbyte]

/-- What is encoded is read back, whatever bytes the path is made of. -/
theorem percentDecode_encode (p : String) : Http.percentDecode (utf8 (encode p)) = utf8 p := by
  rw [utf8_encode]
  induction utf8 p with
  | nil => rfl
  | cons b bs ih => rw [List.flatMap_cons, percentDecode_escaped, ih]

end Uri

namespace Description

/-! ## The file at an address -/

theorem isWebAddress_file (p : String) : isWebAddress (Uri.file p) = false := by
  simp [isWebAddress, Uri.file, String.toList_append, List.isPrefixOf]

theorem filePath_file (p : String) : filePath (Uri.file p) = Path.ofText (Uri.encode p) := by
  refine congrArg Path.ofText ?_
  rw [withoutScheme, Uri.file, String.toList_append, List.drop_left, String.ofList_toList]
  exact if_pos (List.isPrefixOf_iff_prefix.2 (List.prefix_append _ _))

section

variable {p : String} (hp : (Path.ofText p).isAbsolute = true)
include hp

theorem exists_of_isAbsolute : ∃ rest, p.toList = '/' :: rest := by
  have hhead : (Path.ofText p).toList.head? = some '/' := beq_iff_eq.1 hp
  exact List.head?_eq_some_iff.1 ((Octets.head?_ofText (by decide)).1 hhead)

theorem isWebAddress_of_isAbsolute : isWebAddress p = false := by
  obtain ⟨rest, hrest⟩ := exists_of_isAbsolute hp
  simp [isWebAddress, hrest, List.isPrefixOf]

theorem filePath_of_isAbsolute : filePath p = Path.ofText p := by
  obtain ⟨rest, hrest⟩ := exists_of_isAbsolute hp
  simp [filePath, withoutScheme, hrest, List.isPrefixOf]

end

/-- The generator is called on a file's document once that is stored, and only then. -/
theorem called_iff (web : Fetcher) (g : Generator) {address : String}
    (haddress : isWebAddress address = false) (w : Workspace) (d stored : Disk) :
    (generate web g address w d).2.1 = some ⟨request address w, stored⟩ ↔
      ∃ document, d.read (filePath address) = .ok document ∧
        d.write w.document document = .ok stored := by
  cases course_of_generate web haddress w d with
  | unread hread hgenerate => simp [hread, hgenerate]
  | unstored hread hwrite hgenerate => simp [hread, hwrite, hgenerate]
  | called hread hwrite _ _ hgenerate =>
    obtain ⟨result, hresult, -⟩ := hgenerate g
    simp [hread, hwrite, hresult, request]

/-- Generating from one address calls the generator with the same document at the same place as from the
other, or for neither. -/
def SameDocument (web : Fetcher) (a b : String) (w : Workspace) (d : Disk) : Prop :=
  ∀ (g : Generator) (stored : Disk), (generate web g a w d).2.1 = some ⟨request a w, stored⟩ ↔
    (generate web g b w d).2.1 = some ⟨request b w, stored⟩

/-- The URI of a path goes with the path as it is encoded: the document of the path itself is taken exactly
if it is found there too, and nothing but a byte that has to be escaped tells the two paths apart. -/
theorem sameDocument_file {p : String} {document : Bytes} {stored : Disk} (web : Fetcher)
    (hp : (Path.ofText p).isAbsolute = true) (w : Workspace) (d : Disk)
    (hread : d.read (Path.ofText p) = .ok document)
    (hwrite : d.write w.document document = .ok stored) :
    (SameDocument web (Uri.file p) p w d ↔ d.read (Path.ofText (Uri.encode p)) = .ok document) ∧
      (Uri.encode p = p ↔ ∀ b ∈ utf8 p, Uri.isPathByte b = true) := by
  have hfile (g : Generator) (after : Disk) := called_iff web g (isWebAddress_file p) w d after
  have hplain (g : Generator) (after : Disk) := called_iff web g (isWebAddress_of_isAbsolute hp) w d after
  simp only [filePath_file] at hfile
  simp only [filePath_of_isAbsolute hp] at hplain
  refine ⟨⟨fun hsame => ?_, fun hencoded g after => ?_⟩, Uri.encode_eq_self⟩
  · -- What is stored is read from the disk it is stored on, so both documents are the stored one.
    let g : Generator := fun _ d => (.error (.other ""), d)
    have hcalled := (hsame g stored).2 ((hplain g stored).2 ⟨document, hread, hwrite⟩)
    obtain ⟨document', hread', hwrite'⟩ := (hfile g stored).1 hcalled
    have hstored := (Disk.read_write hwrite).2
    rw [(Disk.read_write hwrite').2] at hstored
    exact Except.ok.inj hstored ▸ hread'
  · rw [hfile, hplain, hencoded, hread]

/-- A directory for a workspace, and a document. -/
def beside (name : String) : Disk := ⟨[], [(["ws"], .directory), ([name], .file [60, 47, 62] false)]⟩

/-- The URI of a path of characters that stand in URIs names the document of the path. -/
theorem sameDocument_spelled :
    (beside "a~(1)").read "/a~(1)" = .ok [60, 47, 62] ∧
      SameDocument (offline id) "file:///a~(1)" "/a~(1)" ⟨"/ws", "/ws/src", "/ws/bin"⟩ (beside "a~(1)") := by
  have hread : (beside "a~(1)").read "/a~(1)" = .ok [60, 47, 62] :=
    Except.toOption_eq_some.1 (by decide +kernel)
  have hwrite : ((beside "a~(1)").write "/ws/descriptor.wsdl" [60, 47, 62]).isOk = true := by
    decide +kernel
  have hfile : Uri.file "/a~(1)" = "file:///a~(1)" := by decide +kernel
  have hbytes : ∀ b ∈ utf8 "/a~(1)", Uri.isPathByte b = true := by decide +kernel
  have hpath : Workspace.document ⟨"/ws", "/ws/src", "/ws/bin"⟩ = "/ws/descriptor.wsdl" := by decide +kernel
  have htext : Path.ofText "/a~(1)" = "/a~(1)" := by decide +kernel
  obtain ⟨stored, hstored⟩ := Except.exists_of_isOk hwrite
  rw [← hpath] at hstored
  rw [← htext] at hread
  obtain ⟨hsame, hself⟩ :=
    sameDocument_file (offline id) (p := "/a~(1)") (by decide +kernel) _ _ hread hstored
  rw [hfile, hself.2 hbytes] at hsame
  exact ⟨htext ▸ hread, hsame.2 hread⟩

/-- A document at a path with a blank in it is not found at the URI of that path. -/
theorem not_sameDocument_blank :
    Uri.file "/a b" = "file:///a%20b" ∧ (beside "a b").read "/a b" = .ok [60, 47, 62] ∧
      ¬ SameDocument (offline id) "file:///a%20b" "/a b" ⟨"/ws", "/ws/src", "/ws/bin"⟩ (beside "a b") := by
  have hread : (beside "a b").read "/a b" = .ok [60, 47, 62] :=
    Except.toOption_eq_some.1 (by decide +kernel)
  have hwrite : ((beside "a b").write "/ws/descriptor.wsdl" [60, 47, 62]).isOk = true := by decide +kernel
  have hmissing : ((beside "a b").read "/a%20b").toOption = none := by decide +kernel
  have hpath : Workspace.document ⟨"/ws", "/ws/src", "/ws/bin"⟩ = "/ws/descriptor.wsdl" := by decide +kernel
  have hplain : filePath "/a b" = "/a b" := by decide +kernel
  have hfile : filePath "file:///a%20b" = "/a%20b" := by decide +kernel
  obtain ⟨stored, hstored⟩ := Except.exists_of_isOk hwrite
  rw [← hpath] at hstored
  refine ⟨by decide +kernel, hread, fun hsame => ?_⟩
  let g : Generator := fun _ d => (.error (.other ""), d)
  have hcalled := (called_iff (offline id) g (by decide) _ _ stored).2 ⟨_, hplain ▸ hread, hstored⟩
  have hother := (hsame g stored).2 hcalled
  obtain ⟨document, hencoded, -⟩ := (called_iff (offline id) g (by decide) _ _ stored).1 hother
  rw [hfile] at hencoded
  rw [hencoded] at hmissing
  cases hmissing

end Description

end ServiceCall
