import Mathlib.Tactic.SplitIfs
import ServiceCall.Text.Octets
/-!
# Text is read back from its bytes

The reader takes a character off the front of a byte string before it looks at what stands
behind it (`scan_encodeChar`), so the bytes of a text are read as that text (`decode?_utf8`), and the text
of the bytes stands for it (`Octets.toText_ofText`). For ASCII the two are one (`Octets.ofText_eq_self`).
-/

namespace ServiceCall.Utf8

/-- The reader takes a byte that continues a character, and more are to come. -/
theorem scan_continue {p : Pending} {b : UInt8} {rest : Bytes} (hb : p.low ≤ b ∧ b ≤ p.high)
    (hleft : 1 < p.left) :
    scan (some p) (b :: rest)
      = scan (some ⟨p.left - 1, 0x80, 0xBF, p.value * 64 + b.toNat % 64⟩) rest := by
  rw [scan, if_pos hb]
  simp only [if_neg (Nat.not_le.2 hleft)]

/-- The reader takes the last byte of a character. -/
theorem scan_last {p : Pending} {b : UInt8} {rest : Bytes} (hb : p.low ≤ b ∧ b ≤ p.high)
    (hleft : p.left ≤ 1) :
    scan (some p) (b :: rest)
      = some (Char.ofNat (p.value * 64 + b.toNat % 64)) :: scan none rest := by
  rw [scan, if_pos hb]
  simp only [if_pos hleft]

/-- The reader takes the first byte of a character of several bytes. -/
theorem scan_lead {b : UInt8} {left : Nat} {low high : UInt8} {rest : Bytes}
    (hb : 0x80 ≤ b.toNat) (h : lead? b = some (left, low, high)) :
    scan none (b :: rest)
      = scan (some ⟨left, low, high, b.toNat % Nat.pow 2 (6 - left)⟩) rest := by
  have hn : ¬b < 0x80 := by
    rw [UInt8.lt_iff_toNat_lt]
    exact Nat.not_lt.2 hb
  rw [scan, if_neg hn, h]

/-- A byte of a range, by their numbers. -/
theorem between_ofNat {n : Nat} {low high : UInt8} (hl : low.toNat ≤ n) (hh : n ≤ high.toNat) :
    low ≤ UInt8.ofNat n ∧ UInt8.ofNat n ≤ high := by
  have := high.toNat_lt
  rw [UInt8.le_iff_toNat_le, UInt8.le_iff_toNat_le, UInt8.toNat_ofNat', Nat.mod_eq_of_lt (by omega)]
  exact ⟨hl, hh⟩

/-- The first byte of a character asks for what the character's number needs. -/
theorem lead?_ofNat {n : Nat} (hl : 0xC2 ≤ n) (hh : n ≤ 0xF4) :
    lead? (UInt8.ofNat n) =
      if n ≤ 0xDF then some (1, 0x80, 0xBF)
      else if n = 0xE0 then some (2, 0xA0, 0xBF)
      else if n = 0xED then some (2, 0x80, 0x9F)
      else if n ≤ 0xEF then some (2, 0x80, 0xBF)
      else if n = 0xF0 then some (3, 0x90, 0xBF)
      else if n ≤ 0xF3 then some (3, 0x80, 0xBF)
      else some (3, 0x80, 0x8F) := by
  have key : ∀ m : Fin 51, lead? (UInt8.ofNat (0xC2 + m)) =
      if 0xC2 + m.val ≤ 0xDF then some (1, 0x80, 0xBF)
      else if 0xC2 + m.val = 0xE0 then some (2, 0xA0, 0xBF)
      else if 0xC2 + m.val = 0xED then some (2, 0x80, 0x9F)
      else if 0xC2 + m.val ≤ 0xEF then some (2, 0x80, 0xBF)
      else if 0xC2 + m.val = 0xF0 then some (3, 0x90, 0xBF)
      else if 0xC2 + m.val ≤ 0xF3 then some (3, 0x80, 0xBF)
      else some (3, 0x80, 0x8F) := by decide
  have := key ⟨n - 0xC2, by omega⟩
  rwa [Nat.add_sub_cancel' hl] at this

/-- The number of a byte below 256. -/
theorem toNat_ofNat_of_lt {n : Nat} (h : n < 256) : (UInt8.ofNat n).toNat = n := by
  rw [UInt8.toNat_ofNat', Nat.mod_eq_of_lt h]

/-- A byte that only continues a character. -/
theorem continuation (n : Nat) :
    (0x80 : UInt8) ≤ UInt8.ofNat (n % 64 + 128) ∧ UInt8.ofNat (n % 64 + 128) ≤ 0xBF :=
  between_ofNat (Nat.le_add_left 128 _) (by show _ ≤ 191; omega)

/-- Of a character of three bytes the first says which second byte may follow. -/
theorem lead?_three {v : Nat} (hl : 0x800 ≤ v) (hh : v < 0x10000)
    (hv : v < 0xD800 ∨ 0xDFFF < v) :
    ∃ low high, lead? (UInt8.ofNat (v / 4096 % 16 + 224)) = some (2, low, high) ∧
      low ≤ UInt8.ofNat (v / 64 % 64 + 128) ∧ UInt8.ofNat (v / 64 % 64 + 128) ≤ high := by
  rw [lead?_ofNat (by omega) (by omega), if_neg (by omega)]
  split_ifs with h0 hD hF
  · exact ⟨_, _, rfl, between_ofNat (by show 160 ≤ _; omega) (by show _ ≤ 191; omega)⟩
  · exact ⟨_, _, rfl, between_ofNat (by show 128 ≤ _; omega) (by show _ ≤ 159; omega)⟩
  · exact ⟨_, _, rfl, continuation _⟩
  all_goals omega

/-- Of a character of four bytes the first says which second byte may follow. -/
theorem lead?_four {v : Nat} (hl : 0x10000 ≤ v) (hh : v < 0x110000) :
    ∃ low high, lead? (UInt8.ofNat (v / 262144 % 8 + 240)) = some (3, low, high) ∧
      low ≤ UInt8.ofNat (v / 4096 % 64 + 128) ∧ UInt8.ofNat (v / 4096 % 64 + 128) ≤ high := by
  rw [lead?_ofNat (by omega) (by omega), if_neg (by omega), if_neg (by omega), if_neg (by omega),
    if_neg (by omega)]
  split_ifs with h0 h3
  · exact ⟨_, _, rfl, between_ofNat (by show 144 ≤ _; omega) (by show _ ≤ 191; omega)⟩
  · exact ⟨_, _, rfl, continuation _⟩
  · exact ⟨_, _, rfl, between_ofNat (by show 128 ≤ _; omega) (by show _ ≤ 143; omega)⟩

theorem scan_encodeChar (c : Char) (rest : Bytes) :
    scan none (String.utf8EncodeChar c ++ rest) = some c :: scan none rest := by
  have hc : Char.ofNat c.val.toNat = c := Char.ofNat_toNat c
  have hv := c.valid
  simp only [UInt32.isValidChar, Nat.isValidChar] at hv
  simp only [String.utf8EncodeChar]
  generalize c.val.toNat = v at hc hv
  split
  · have hb : UInt8.ofNat v < 0x80 := by
      rw [UInt8.lt_iff_toNat_lt, toNat_ofNat_of_lt (by omega)]
      exact Nat.lt_succ_of_le ‹_›
    rw [List.singleton_append, scan, if_pos hb, toNat_ofNat_of_lt (by omega), hc]
  split
  · have hlead := lead?_ofNat (n := v / 64 % 32 + 192) (by omega) (by omega)
    rw [if_pos (by omega)] at hlead
    have hvalue : (v / 64 % 32 + 192) % 32 * 64 + (v % 64 + 128) % 64 = v := by omega
    rw [List.cons_append, List.singleton_append,
      scan_lead (by rw [toNat_ofNat_of_lt (by omega)]; omega) hlead,
      scan_last (continuation v) (Nat.le_refl 1),
      toNat_ofNat_of_lt (by omega), toNat_ofNat_of_lt (by omega)]
    simp only [Nat.pow_eq, Nat.reduceSub, Nat.reducePow, hvalue, hc]
  split
  · obtain ⟨low, high, hlead, hnext⟩ := lead?_three (v := v) (by omega) (by omega) (by omega)
    have hvalue : ((v / 4096 % 16 + 224) % 16 * 64 + (v / 64 % 64 + 128) % 64) * 64
        + (v % 64 + 128) % 64 = v := by omega
    rw [List.cons_append, List.cons_append, List.singleton_append,
      scan_lead (by rw [toNat_ofNat_of_lt (by omega)]; omega) hlead,
      scan_continue hnext (Nat.lt_succ_self 1), scan_last (continuation v) (Nat.le_refl 1),
      toNat_ofNat_of_lt (by omega), toNat_ofNat_of_lt (by omega), toNat_ofNat_of_lt (by omega)]
    simp only [Nat.pow_eq, Nat.reduceSub, Nat.reducePow, hvalue, hc]
  · obtain ⟨low, high, hlead, hnext⟩ := lead?_four (v := v) (by omega) (by omega)
    have hvalue : (((v / 262144 % 8 + 240) % 8 * 64 + (v / 4096 % 64 + 128) % 64) * 64
        + (v / 64 % 64 + 128) % 64) * 64 + (v % 64 + 128) % 64 = v := by omega
    rw [List.cons_append, List.cons_append, List.cons_append, List.singleton_append,
      scan_lead (by rw [toNat_ofNat_of_lt (by omega)]; omega) hlead,
      scan_continue hnext (by show 1 < 3; omega),
      scan_continue (continuation _) (Nat.lt_succ_self 1),
      scan_last (continuation v) (Nat.le_refl 1),
      toNat_ofNat_of_lt (by omega), toNat_ofNat_of_lt (by omega), toNat_ofNat_of_lt (by omega),
      toNat_ofNat_of_lt (by omega)]
    simp only [Nat.pow_eq, Nat.reduceSub, Nat.reducePow, hvalue, hc]

theorem symbols_flatMap_encodeChar (cs : List Char) :
    symbols (cs.flatMap String.utf8EncodeChar) = cs.map some := by
  induction cs with
  | nil => rfl
  | cons c cs ih =>
    rw [symbols] at ih ⊢
    rw [List.flatMap_cons, scan_encodeChar, ih, List.map_cons]

/-- The bytes of a text are read as that text. -/
theorem decode?_utf8 (s : String) : decode? (utf8 s) = some s := by
  have hall : (s.toList.map some).mapM id = some s.toList := by
    induction s.toList with
    | nil => rfl
    | cons c cs ih => simp [ih]
  rw [decode?, utf8, symbols_flatMap_encodeChar, hall, Option.map_some, String.ofList_toList]

/-- Nothing is lost of a text that is read from its bytes. -/
theorem lossy_utf8 (s : String) : lossy (utf8 s) = s := by
  rw [lossy, utf8, symbols_flatMap_encodeChar, List.map_map]
  exact (congrArg String.ofList s.toList.map_id).trans String.ofList_toList

end ServiceCall.Utf8

/-! ## Texts of bytes -/

namespace ServiceCall.Octets

variable {s : String} {c : Char}

theorem toList_ofText (s : String) :
    (ofText s).toList = s.toList.flatMap fun c => ofBytes (String.utf8EncodeChar c) := by
  rw [ofText, String.toList_ofList, ofBytes, utf8, List.map_flatMap]
  rfl

theorem toBytes_ofText (s : String) : toBytes (ofText s).toList = utf8 s := by
  rw [ofText, String.toList_ofList, toBytes_ofBytes]

@[simp] theorem toText_ofText (s : String) : toText (ofText s) = s := by
  rw [toText, toBytes_ofText, Utf8.lossy_utf8]

@[simp] theorem toText?_ofText (s : String) : toText? (ofText s) = some s := by
  rw [toText?, toBytes_ofText, Utf8.decode?_utf8]

/-! ### ASCII -/

theorem toNat_ofByte (b : UInt8) : (ofByte b).toNat = b.toNat := by
  have hb : b.toNat.isValidChar := .inl (Nat.lt_trans b.toNat_lt (by decide))
  rw [ofByte, Char.ofNat, dif_pos hb]
  rfl

/-- An ASCII character is one byte. -/
theorem ofBytes_encodeChar (h : c.toNat < 128) : ofBytes (String.utf8EncodeChar c) = [c] := by
  have hv : c.val.toNat ≤ 0x7F := Nat.le_of_lt_succ h
  have hbyte : (UInt8.ofNat c.val.toNat).toNat = c.val.toNat := Utf8.toNat_ofNat_of_lt (by omega)
  rw [String.utf8EncodeChar, if_pos hv, ofBytes, List.map_singleton, ofByte, hbyte]
  exact congrArg (fun c => [c]) (Char.ofNat_toNat c)

/-- The bytes of any other character are none of ASCII. -/
theorem le_of_mem_encodeChar (h : 128 ≤ c.toNat) :
    ∀ x ∈ ofBytes (String.utf8EncodeChar c), 128 ≤ x.toNat := by
  have hbyte (n : Nat) (hn : 128 ≤ n ∧ n < 256) : 128 ≤ (ofByte (UInt8.ofNat n)).toNat := by
    rw [toNat_ofByte, Utf8.toNat_ofNat_of_lt hn.2]
    exact hn.1
  have hv : ¬ c.val.toNat ≤ 0x7F := Nat.not_le.2 h
  have hvalid := c.valid
  simp only [UInt32.isValidChar, Nat.isValidChar] at hvalid
  rw [ofBytes, String.utf8EncodeChar, if_neg hv]
  split
  · simp only [List.map_cons, List.map_nil, List.forall_mem_cons]
    exact ⟨hbyte _ (by omega), hbyte _ (by omega), by simp⟩
  split
  · simp only [List.map_cons, List.map_nil, List.forall_mem_cons]
    exact ⟨hbyte _ (by omega), hbyte _ (by omega), hbyte _ (by omega), by simp⟩
  · simp only [List.map_cons, List.map_nil, List.forall_mem_cons]
    exact ⟨hbyte _ (by omega), hbyte _ (by omega), hbyte _ (by omega), hbyte _ (by omega), by simp⟩

/-- A text of ASCII characters is the text of its bytes. -/
theorem ofText_eq_self (h : ∀ c ∈ s.toList, c.toNat < 128) : ofText s = s := by
  rw [← String.toList_inj, toList_ofText]
  generalize s.toList = cs at h ⊢
  induction cs with
  | nil => rfl
  | cons c cs ih =>
    obtain ⟨hc, hcs⟩ := List.forall_mem_cons.1 h
    rw [List.flatMap_cons, ofBytes_encodeChar hc, ih hcs, List.singleton_append]

/-- A text starts with an ASCII character if its bytes do. -/
theorem head?_ofText (hc : c.toNat < 128) :
    (ofText s).toList.head? = some c ↔ s.toList.head? = some c := by
  rw [toList_ofText]
  cases hs : s.toList with
  | nil => rfl
  | cons x xs =>
    rw [List.flatMap_cons, List.head?_cons, Option.some_inj]
    by_cases hx : x.toNat < 128
    · rw [ofBytes_encodeChar hx, List.singleton_append, List.head?_cons, Option.some_inj]
    · have hbytes := le_of_mem_encodeChar (Nat.not_lt.1 hx)
      refine iff_of_false (fun hhead => ?_) fun heq => hx (heq ▸ hc)
      cases hfirst : ofBytes (String.utf8EncodeChar x) with
      | nil =>
        rw [ofBytes, List.map_eq_nil_iff] at hfirst
        exact absurd hfirst String.utf8EncodeChar_ne_nil
      | cons y ys =>
        rw [hfirst, List.cons_append, List.head?_cons, Option.some_inj] at hhead
        exact absurd hc (Nat.not_lt.2 (hhead ▸ hbytes y (hfirst ▸ List.mem_cons_self)))

end ServiceCall.Octets
