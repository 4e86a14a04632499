import Mathlib.Data.List.Forall2
import ServiceCall.Json.Printer
import ServiceCall.Json.Scan
import ServiceCall.Proofs.Number.Decimal
/-!
# Spelling documents

The grammar of JSON texts: `Spells v t` says that the text spells the document, `Pads v t` that it does
so with blanks around it. Only documents without a fault are spelled. What the printer writes is one
spelling among many (`spells_quote`, `spells_array`, `spells_object`).
-/

namespace ServiceCall.Json

/-! ## Tokens -/

/-- Nothing but blanks. -/
def Blank (s : List Char) : Prop := ∀ c ∈ s, Scan.isSpace c = true

instance (s : List Char) : Decidable (Blank s) := List.decidableBAll _ s

/-- The letters that stand behind a backslash for a character. -/
def letters : List (Char × Char) :=
  [('"', '"'), ('\\', '\\'), ('/', '/'), ('b', '\x08'), ('f', '\x0c'), ('n', '\n'), ('r', '\r'),
    ('t', '\t')]

/-- Four hexadecimal digits. -/
inductive SpellsUnit : Nat → List Char → Prop
  | mk {p q r s : Char} {i j k l : Nat} (hp : Hex.value? p = some i) (hq : Hex.value? q = some j)
    (hr : Hex.value? r = some k) (hs : Hex.value? s = some l) :
    SpellsUnit (((i * 16 + j) * 16 + k) * 16 + l) [p, q, r, s]

/-- What stands for a character between quotes: itself, a letter behind a backslash, the digits of its
number, or those of the two halves of a surrogate pair. -/
inductive SpellsChar : Char → List Char → Prop
  | plain {c : Char} (hcontrol : 0x20 ≤ c.toNat) (hquote : c ≠ '"') (hslash : c ≠ '\\') :
    SpellsChar c [c]
  | letter {l c : Char} (h : (l, c) ∈ letters) : SpellsChar c ['\\', l]
  | unit {c : Char} {t : List Char} (h : SpellsUnit c.toNat t) : SpellsChar c ('\\' :: 'u' :: t)
  | pair {c : Char} {m n : Nat} {t t' : List Char} (h : SpellsUnit m t) (h' : SpellsUnit n t')
    (hm : 0xD800 ≤ m ∧ m ≤ 0xDBFF) (hn : 0xDC00 ≤ n ∧ n ≤ 0xDFFF)
    (hc : c.toNat = 0x10000 + (m - 0xD800) * 0x400 + (n - 0xDC00)) :
    SpellsChar c ('\\' :: 'u' :: t ++ '\\' :: 'u' :: t')

/-- What stands for characters between quotes. -/
inductive SpellsChars : List Char → List Char → Prop
  | nil : SpellsChars [] []
  | cons {c : Char} {cs t ts : List Char} (h : SpellsChar c t) (hs : SpellsChars cs ts) :
    SpellsChars (c :: cs) (t ++ ts)

/-- At least one digit. -/
def Digits (ds : List Char) : Prop := ds ≠ [] ∧ ∀ c ∈ ds, isDigit c = true

/-- The digits in front of a point. -/
inductive SpellsWhole : List Char → Prop
  | zero : SpellsWhole ['0']
  | digits {ds : List Char} (h : Digits ds) (hzero : ds.head? ≠ some '0') : SpellsWhole ds

/-- What stands for a fraction. -/
inductive SpellsFraction : Option (List Char) → List Char → Prop
  | none : SpellsFraction none []
  | some {ds : List Char} (h : Digits ds) : SpellsFraction (some ds) ('.' :: ds)

/-- The sign in front of an exponent. -/
inductive SpellsSign : Bool → List Char → Prop
  | none : SpellsSign false []
  | plus : SpellsSign false ['+']
  | minus : SpellsSign true ['-']

/-- What stands for an exponent. -/
inductive SpellsExponent : Option (Bool × List Char) → List Char → Prop
  | none : SpellsExponent none []
  | some {e : Char} {negative : Bool} {sign ds : List Char} (he : e = 'e' ∨ e = 'E')
    (hsign : SpellsSign negative sign) (h : Digits ds) :
    SpellsExponent (some (negative, ds)) (e :: (sign ++ ds))

/-- The minus of a number. -/
def minus (negative : Bool) : List Char := if negative then ['-'] else []

/-- What stands for a number. -/
inductive SpellsNumber : RawNumber → List Char → Prop
  | mk {negative : Bool} {w f e : List Char} {fraction : Option (List Char)}
    {exponent : Option (Bool × List Char)} (hw : SpellsWhole w) (hf : SpellsFraction fraction f)
    (he : SpellsExponent exponent e) :
    SpellsNumber ⟨negative, w, fraction, exponent⟩ (minus negative ++ (w ++ (f ++ e)))

/-- What stands for a key: the key in quotes with blanks around it, and a colon. -/
inductive SpellsKey : String → List Char → Prop
  | mk {k : String} {b t b' : List Char} (hb : Blank b) (h : SpellsChars k.toList t)
    (hb' : Blank b') : SpellsKey k (b ++ '"' :: t ++ '"' :: b' ++ [':'])

/-! ## Documents -/

/-- The content of a string that was read to its end. -/
def RawString.ofString (s : String) : RawString := ⟨s.toList.map .char, none⟩

namespace Document

/-- The document of a text. -/
def ofText (s : String) : Document := .string (.ofString s)

/-- The document of a list of texts. -/
def ofTexts (ss : List String) : Document := .array (ss.map ofText) none

/-- The members of an object, their keys as they are read. -/
def keyed (ms : List (String × Document)) : List (RawString × Document) :=
  ms.map fun m => (.ofString m.1, m.2)

/-- The document of an object. -/
def ofObject (ms : List (String × Document)) : Document := .object (keyed ms) none

end Document

open Document (ofText ofTexts ofObject)

mutual

/-- The text spells the document. -/
inductive Spells : Document → List Char → Prop
  | null : Spells .null ['n', 'u', 'l', 'l']
  | yes : Spells (.bool true) ['t', 'r', 'u', 'e']
  | no : Spells (.bool false) ['f', 'a', 'l', 's', 'e']
  | number {n : RawNumber} {t : List Char} (h : SpellsNumber n t) : Spells (.number n) t
  | string {s : String} {t : List Char} (h : SpellsChars s.toList t) :
    Spells (ofText s) ('"' :: t ++ ['"'])
  | emptyArray {b : List Char} (hb : Blank b) : Spells (.array [] none) ('[' :: b ++ [']'])
  | array {vs : List Document} {t : List Char} (h : SpellsItems vs t) :
    Spells (.array vs none) ('[' :: t ++ [']'])
  | emptyObject {b : List Char} (hb : Blank b) : Spells (ofObject []) ('{' :: b ++ ['}'])
  | object {ms : List (String × Document)} {t : List Char} (h : SpellsMembers ms t) :
    Spells (ofObject ms) ('{' :: t ++ ['}'])

/-- The text spells the document, with blanks around it. -/
inductive Pads : Document → List Char → Prop
  | mk {v : Document} {b t b' : List Char} (hb : Blank b) (h : Spells v t) (hb' : Blank b') :
    Pads v (b ++ t ++ b')

/-- The text spells the items of an array, of which there is at least one. -/
inductive SpellsItems : List Document → List Char → Prop
  | one {v : Document} {t : List Char} (h : Pads v t) : SpellsItems [v] t
  | more {v : Document} {vs : List Document} {t ts : List Char} (h : Pads v t)
    (hs : SpellsItems vs ts) : SpellsItems (v :: vs) (t ++ ',' :: ts)

/-- The text spells the members of an object, of which there is at least one. -/
inductive SpellsMembers : List (String × Document) → List Char → Prop
  | one {k : String} {v : Document} {kt t : List Char} (hk : SpellsKey k kt) (h : Pads v t) :
    SpellsMembers [(k, v)] (kt ++ t)
  | more {k : String} {v : Document} {ms : List (String × Document)} {kt t ts : List Char}
    (hk : SpellsKey k kt) (h : Pads v t) (hs : SpellsMembers ms ts) :
    SpellsMembers ((k, v) :: ms) (kt ++ (t ++ ',' :: ts))

end

/-! ## What the printer writes -/

theorem blank_nil : Blank [] := fun _ hc => absurd hc List.not_mem_nil

theorem Spells.pads {v : Document} {t : List Char} (h : Spells v t) : Pads v t := by
  have hpads := Pads.mk blank_nil h blank_nil
  rwa [List.nil_append, List.append_nil] at hpads

theorem value?_digit {n : Nat} (h : n < 16) : Hex.value? (Hex.digit n) = some n := by
  have hall : ∀ n < 16, Hex.value? (Hex.digit n) = some n := by decide
  exact hall n h

theorem spellsChar_control {c : Char} (h : c.toNat < 0x20) :
    SpellsChar c ['\\', 'u', '0', '0', Hex.digit (c.toNat / 16), Hex.digit (c.toNat % 16)] := by
  have hunit := SpellsUnit.mk (value?_digit (n := 0) (by decide)) (value?_digit (n := 0) (by decide))
    (value?_digit (n := c.toNat / 16) (by omega)) (value?_digit (n := c.toNat % 16) (by omega))
  rw [show ((0 * 16 + 0) * 16 + c.toNat / 16) * 16 + c.toNat % 16 = c.toNat by omega] at hunit
  exact .unit hunit

theorem spellsChar_escape (c : Char) : SpellsChar c (escape c) := by
  have hletter {l d : Char} (hc : c = d) (h : (l, d) ∈ letters) : SpellsChar c ['\\', l] :=
    hc ▸ .letter h
  unfold escape
  refine iteInduction (motive := SpellsChar c) (fun hc => hletter hc (by decide)) fun hquote => ?_
  refine iteInduction (motive := SpellsChar c) (fun hc => hletter hc (by decide)) fun hslash => ?_
  -- The other letters stand for control characters.
  iterate 5 refine iteInduction (motive := SpellsChar c) (fun hc => hletter hc (by decide)) fun _ => ?_
  refine iteInduction (motive := SpellsChar c) spellsChar_control fun hcontrol => ?_
  exact .plain (Nat.not_lt.1 hcontrol) hquote hslash

theorem spellsChars_escape (cs : List Char) : SpellsChars cs (cs.flatMap escape) := by
  induction cs with
  | nil => exact .nil
  | cons c cs ih => exact .cons (spellsChar_escape c) ih

/-- A text in quotes spells its document. -/
theorem spells_quote (s : String) : Spells (ofText s) (quote s) := .string (spellsChars_escape _)

theorem spellsKey_quote (k : String) : SpellsKey k (quote k ++ [':']) :=
  .mk blank_nil (spellsChars_escape _) blank_nil

theorem spells_compactItems {vs : List Json} {ds : List Document}
    (h : List.Forall₂ (fun v d => Spells d (compactChars v)) vs ds) (hne : vs ≠ []) :
    SpellsItems ds (compactItems vs) := by
  induction h with
  | nil => exact absurd rfl hne
  | @cons v d vs ds hv hvs ih =>
    cases hvs with
    | nil => exact .one hv.pads
    | cons hw hws => exact .more hv.pads (ih (List.cons_ne_nil _ _))

/-- A printed array spells the documents of its items. -/
theorem spells_array {vs : List Json} {ds : List Document}
    (h : List.Forall₂ (fun v d => Spells d (compactChars v)) vs ds) :
    Spells (.array ds none) (compactChars (.array vs)) := by
  cases h with
  | nil => exact .emptyArray blank_nil
  | cons hv hvs => exact .array (spells_compactItems (.cons hv hvs) (List.cons_ne_nil _ _))

theorem spells_compactMembers {ms : List (String × Json)} {ds : List (String × Document)}
    (h : List.Forall₂ (fun m d => m.1 = d.1 ∧ Spells d.2 (compactChars m.2)) ms ds) (hne : ms ≠ []) :
    SpellsMembers ds (compactMembers ms) := by
  induction h with
  | nil => exact absurd rfl hne
  | @cons m d ms ds hm hms ih =>
    obtain ⟨k, v⟩ := m
    obtain ⟨k', d⟩ := d
    obtain ⟨rfl, hv⟩ := hm
    cases hms with
    | nil =>
      rw [compactMembers, List.append_cons]
      exact .one (spellsKey_quote k) hv.pads
    | cons hw hws =>
      rw [compactMembers, List.append_assoc, List.cons_append, List.append_cons]
      exact .more (spellsKey_quote k) hv.pads (ih (List.cons_ne_nil _ _))

/-- A printed object spells the documents of its members. -/
theorem spells_object {ms : List (String × Json)} {ds : List (String × Document)}
    (h : List.Forall₂ (fun m d => m.1 = d.1 ∧ Spells d.2 (compactChars m.2)) ms ds) :
    Spells (ofObject ds) (compactChars (.object ms)) := by
  cases h with
  | nil => exact .emptyObject blank_nil
  | cons hm hms => exact .object (spells_compactMembers (.cons hm hms) (List.cons_ne_nil _ _))

end ServiceCall.Json
