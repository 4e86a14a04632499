import ServiceCall.Display.Basic
import ServiceCall.Proofs.Text.Lines
/-!
# Texts without control sequences

A terminal takes a text for more than its characters only behind an escape character. The program writes
numbers, its own words and whatever it shows in quotes without one, so the message of an error has none in it
if none of the strings has that the message holds as they are (`strings`).
-/

namespace ServiceCall

namespace Text

/-- The text has no escape character in it. -/
def Unmarked (s : List Char) : Prop := '\x1b' ∉ s

instance (s : List Char) : Decidable (Unmarked s) := inferInstanceAs (Decidable (¬ '\x1b' ∈ s))

@[simp]
theorem unmarked_nil : Unmarked [] := List.not_mem_nil

@[simp]
theorem unmarked_cons {c : Char} {s : List Char} : Unmarked (c :: s) ↔ c ≠ '\x1b' ∧ Unmarked s := by
  rw [Unmarked, List.mem_cons, not_or, ne_comm]
  rfl

@[simp]
theorem unmarked_append {s t : List Char} : Unmarked (s ++ t) ↔ Unmarked s ∧ Unmarked t := by
  rw [Unmarked, List.mem_append, not_or]
  rfl

theorem unmarked_flatMap {α : Type} {f : α → List Char} {xs : List α} :
    Unmarked (xs.flatMap f) ↔ ∀ x ∈ xs, Unmarked (f x) := by
  simp [Unmarked, List.mem_flatMap]

theorem unmarked_intercalate {sep : List Char} (hsep : Unmarked sep) {xs : List (List Char)}
    (h : ∀ s ∈ xs, Unmarked s) : Unmarked (sep.intercalate xs) := fun hmem =>
  List.forall_mem_intercalate (P := (· ≠ '\x1b')) (fun _ hc he => hsep (he ▸ hc))
    (fun s hs _ hc he => h s hs (he ▸ hc)) _ hmem rfl

/-- A word of the program is compared character by character, without its bytes being read. -/
theorem unmarked_word {cs : List Char} (h : Unmarked cs) : Unmarked (String.ofList cs).toList := by
  rwa [String.toList_ofList]

theorem unmarked_between {s : String} {a b : List Char} (hs : Unmarked s.toList) (ha : Unmarked a)
    (hb : Unmarked b) : Unmarked (String.ofList a ++ s ++ String.ofList b).toList := by
  simp [hs, ha, hb]

theorem unmarked_between₂ {s t : String} {a b c : List Char} (hs : Unmarked s.toList)
    (ht : Unmarked t.toList) (ha : Unmarked a) (hb : Unmarked b) (hc : Unmarked c) :
    Unmarked (String.ofList a ++ s ++ String.ofList b ++ t ++ String.ofList c).toList := by
  simp [hs, ht, ha, hb, hc]

/-! ## Numbers and quoted texts -/

theorem unmarked_toDigits {b : Nat} (hb : 1 < b) (n : Nat) : Unmarked (Nat.toDigits b n) := by
  have hdigit (k : Nat) : k.digitChar ≠ '\x1b' := by
    grind [Nat.digitChar]
  induction n using Nat.strongRecOn with
  | ind n ih =>
    rw [Nat.toDigits_eq_if hb]
    split
    · exact unmarked_cons.2 ⟨hdigit n, unmarked_nil⟩
    · have hlt : n / b < n := Nat.div_lt_self (by omega) hb
      exact unmarked_append.2 ⟨ih (n / b) hlt, unmarked_cons.2 ⟨hdigit (n % b), unmarked_nil⟩⟩

@[simp]
theorem unmarked_digits (n : Nat) : Unmarked (Nat.toDigits 10 n) := unmarked_toDigits (by decide) n

theorem unmarked_nat (n : Nat) : Unmarked (toString n).toList := Nat.toList_repr ▸ unmarked_digits n

@[simp]
theorem unmarked_repr (i : Int) : Unmarked i.repr.toList := by
  cases i with
  | ofNat n => exact Nat.toList_repr ▸ unmarked_digits n
  | negSucc n =>
    have htext : (Int.negSucc n).repr.toList = '-' :: Nat.toDigits 10 (n + 1) := by
      rw [← Nat.toList_repr]
      show ("-" ++ (n + 1).repr).toList = _
      rw [String.toList_append]
      rfl
    exact htext ▸ unmarked_cons.2 ⟨by decide, unmarked_digits (n + 1)⟩

theorem unmarked_escapeChar (c : Char) : Unmarked (escapeChar c) := by
  unfold escapeChar
  iterate 4 refine iteInduction (motive := Unmarked) (fun _ => by decide) fun _ => ?_
  refine iteInduction (motive := Unmarked) (fun hquote => ?_) fun _ => ?_
  · obtain rfl | rfl := hquote <;> decide
  · refine iteInduction (motive := Unmarked) (fun _ => ?_) fun hshown => ?_
    · have hdigits : Unmarked (Nat.toDigits 16 c.toNat) := unmarked_toDigits (by decide) c.toNat
      rw [Hex.ofNat, String.toList_ofList]
      simp [hdigits]
    · -- The escape character is hidden.
      have hc : c ≠ '\x1b' := fun hc => hshown (hc ▸ by decide)
      exact unmarked_cons.2 ⟨hc, unmarked_nil⟩

@[simp]
theorem unmarked_escaped (s : String) : Unmarked (escaped s).toList := by
  rw [escaped, String.toList_ofList]
  simp [unmarked_flatMap, unmarked_escapeChar]

@[simp]
theorem unmarked_replicate {c : Char} (hc : c ≠ '\x1b') (n : Nat) : Unmarked (List.replicate n c) :=
  fun h => hc (List.eq_of_mem_replicate h).symm

@[simp]
theorem Unmarked.take {s : List Char} (h : Unmarked s) (n : Nat) : Unmarked (s.take n) :=
  fun hmem => h (List.mem_of_mem_take hmem)

@[simp]
theorem Unmarked.drop {s : List Char} (h : Unmarked s) (n : Nat) : Unmarked (s.drop n) :=
  fun hmem => h (List.mem_of_mem_drop hmem)

end Text

open Text

namespace Double

theorem unmarked_text (x : Double) : Unmarked x.text.toList := by
  have hdigits : Unmarked (Nat.toDigits 10 x.shortest.digits) := unmarked_digits _
  -- The mantissa splits the digits, so what is known of them has to stand in the goal.
  revert hdigits
  simp only [text, String.toList_ofList]
  generalize Nat.toDigits 10 x.shortest.digits = digits
  repeat' split
  all_goals simp +contextual

theorem unmarked_plainText (x : Double) : Unmarked x.plainText.toList := by
  simp only [plainText, String.toList_ofList]
  repeat' split
  all_goals simp

end Double

namespace Json

theorem unmarked_digit {n : Nat} (h : n < 16) : Hex.digit n ≠ '\x1b' := by
  have hall : ∀ n < 16, Hex.digit n ≠ '\x1b' := by decide
  exact hall n h

theorem unmarked_escape (c : Char) : Unmarked (escape c) := by
  unfold escape
  iterate 7 refine iteInduction (motive := Unmarked) (fun _ => by decide) fun _ => ?_
  refine iteInduction (motive := Unmarked) (fun hcontrol => ?_) fun hplain => ?_
  · have hhigh := unmarked_digit (n := c.toNat / 16) (by omega)
    have hlow := unmarked_digit (n := c.toNat % 16) (by omega)
    simp [hhigh, hlow]
  · -- The escape character is a control character.
    have hc : c ≠ '\x1b' := fun hc => hplain (hc ▸ by decide)
    exact unmarked_cons.2 ⟨hc, unmarked_nil⟩

@[simp]
theorem unmarked_quote (s : String) : Unmarked (quote s) := by
  simp [quote, unmarked_flatMap, unmarked_escape]

@[simp]
theorem unmarked_newline (level : Nat) : Unmarked (newline level) :=
  unmarked_cons.2 ⟨by decide, unmarked_replicate (by decide) _⟩

@[simp]
theorem unmarked_integerText (i : Int) : Unmarked (integerText i) := by
  unfold integerText
  split <;> simp

mutual

/-- A JSON value is written without an escape character, whatever its strings hold. -/
theorem unmarked_prettyChars (level : Nat) : ∀ v : Json, Unmarked (prettyChars level v)
  | .null | .bool true | .bool false => by simp [prettyChars]
  | .integer i => unmarked_integerText i
  | .float x => by
    rw [prettyChars]
    split
    · exact x.unmarked_text
    · decide
  | .string s => unmarked_quote s
  | .array [] | .object [] => by simp [prettyChars]
  | .array (v :: rest) => by
    simp [prettyChars, unmarked_prettyItems level (v :: rest)]
  | .object (m :: rest) => by
    simp [prettyChars, unmarked_prettyMembers level (m :: rest)]

theorem unmarked_prettyItems (level : Nat) : ∀ vs : List Json, Unmarked (prettyItems level vs)
  | [] => unmarked_nil
  | [v] => unmarked_prettyChars (level + 1) v
  | v :: w :: rest => by
    simp [prettyItems, unmarked_prettyChars (level + 1) v, unmarked_prettyItems level (w :: rest)]

theorem unmarked_prettyMembers (level : Nat) :
    ∀ ms : List (String × Json), Unmarked (prettyMembers level ms)
  | [] => unmarked_nil
  | [(k, v)] => by
    simp [prettyMembers, unmarked_prettyChars (level + 1) v]
  | (k, v) :: m :: rest => by
    simp [prettyMembers, unmarked_prettyChars (level + 1) v, unmarked_prettyMembers level (m :: rest)]

end

end Json

/-! ## Messages

Each kind of error with the strings that stand in its message as they are, paths as they are shown. What
stands there in quotes of its own, such as a string of a JSON value or the message of a status, is left out. -/

namespace IoError

def strings : IoError → List String
  | other message => [message]
  | _ => []

theorem unmarked_message {e : IoError} (h : ∀ s ∈ e.strings, Unmarked s.toList) :
    Unmarked e.message.toList := by
  have hreason : Unmarked e.reason.toList := by
    cases e with
    | other message => exact h message List.mem_cons_self
    | _ => exact unmarked_word (by decide)
  unfold message
  split
  · simp only [String.toList_append, unmarked_append]
    exact ⟨⟨⟨hreason, unmarked_word (by decide)⟩, unmarked_nat _⟩, unmarked_word (by decide)⟩
  · exact hreason

end IoError

namespace ExitStatus

theorem unmarked_signalName {n : Nat} {name : String} (h : signalName? n = some name) :
    Unmarked name.toList := by
  unfold signalName? at h
  split at h <;> cases h <;> exact unmarked_word (by decide)

theorem unmarked_text (s : ExitStatus) : Unmarked s.text.toList := by
  cases s with
  | code n =>
    unfold text
    simp only [String.toList_append, unmarked_append]
    exact ⟨unmarked_word (by decide), unmarked_nat n⟩
  | signal n =>
    unfold text
    cases hname : signalName? n with
    | none =>
      simp only [hname, String.toList_append, unmarked_append]
      exact ⟨unmarked_word (by decide), unmarked_nat n⟩
    | some name =>
      simp only [hname, String.toList_append, unmarked_append]
      exact ⟨⟨⟨⟨unmarked_word (by decide), unmarked_nat n⟩, unmarked_word (by decide)⟩,
        unmarked_signalName hname⟩, unmarked_word (by decide)⟩

end ExitStatus

namespace GenerateError

def strings : GenerateError → List String
  | launch program cause => program :: cause.strings
  | rejected _ stderr => [stderr]
  | invalidModel _ cause => [cause]
  | other message => [message]

theorem unmarked_message {e : GenerateError} (h : ∀ s ∈ e.strings, Unmarked s.toList) :
    Unmarked e.message.toList := by
  unfold message
  cases e with
  | launch program cause =>
    obtain ⟨hprogram, hcause⟩ := List.forall_mem_cons.1 h
    exact unmarked_between₂ hprogram (IoError.unmarked_message hcause) (by decide)
      (by decide) (by decide)
  | rejected status stderr =>
    simp only [String.toList_append, unmarked_append]
    exact ⟨⟨⟨unmarked_word (by decide), status.unmarked_text⟩, unmarked_word (by decide)⟩,
      h stderr List.mem_cons_self⟩
  | invalidModel category cause =>
    exact unmarked_between (h cause List.mem_cons_self) (by decide) (by decide)
  | other message => exact h message List.mem_cons_self

end GenerateError

namespace DescriptionError

def strings : DescriptionError → List String
  | unreachable address cause | store address cause => address :: cause.strings
  | malformed address cause | generator address cause => address :: cause.strings

theorem unmarked_message {e : DescriptionError} (h : ∀ s ∈ e.strings, Unmarked s.toList) :
    Unmarked e.message.toList := by
  unfold message
  cases e with
  | unreachable address cause | store address cause =>
    obtain ⟨haddress, hcause⟩ := List.forall_mem_cons.1 h
    exact unmarked_between₂ haddress (IoError.unmarked_message hcause) (by decide)
      (by decide) (by decide)
  | malformed address cause | generator address cause =>
    obtain ⟨haddress, hcause⟩ := List.forall_mem_cons.1 h
    exact unmarked_between₂ haddress (GenerateError.unmarked_message hcause) (by decide)
      (by decide) (by decide)

end DescriptionError

namespace BuildError

def strings : BuildError → List String
  | failed ds => ds.map (·.text)
  | toolchain cause => cause.strings
  | scan dir path cause => dir.shown :: path.shown :: cause.strings

theorem unmarked_message {e : BuildError} (h : ∀ s ∈ e.strings, Unmarked s.toList) :
    Unmarked e.message.toList := by
  unfold message
  cases e with
  | failed ds =>
    have hrender : Unmarked (Diagnostic.render ds).toList := by
      rw [Diagnostic.render, String.toList_intercalate]
      refine unmarked_intercalate (by decide) fun s hs => ?_
      obtain ⟨t, ht, rfl⟩ := List.mem_map.1 hs
      exact h t ht
    simp only [String.toList_append, unmarked_append]
    exact ⟨unmarked_word (by decide), hrender⟩
  | toolchain cause =>
    exact unmarked_between (IoError.unmarked_message h) (by decide) (by decide)
  | scan dir path cause =>
    obtain ⟨hdir, h⟩ := List.forall_mem_cons.1 h
    obtain ⟨hpath, hcause⟩ := List.forall_mem_cons.1 h
    simp only [String.toList_append, unmarked_append]
    exact ⟨⟨⟨⟨⟨⟨unmarked_word (by decide), hdir⟩, unmarked_word (by decide)⟩, hpath⟩,
      unmarked_word (by decide)⟩, IoError.unmarked_message hcause⟩, unmarked_word (by decide)⟩

end BuildError

namespace SchemaError

def strings : SchemaError → List String
  | duplicateFile name | duplicateName name none | missingImport name | undefined name
  | notMessage name | notType name | jsonNameUsed name | noExtensionNumber name _ => [name]
  | duplicateName first (some second) | camelCaseConflict first second | shadowed first second
  | defaultValue first second => [first, second]
  | _ => []

theorem unmarked_quoted {s : String} (h : Unmarked s.toList) : Unmarked (quoted s).toList := by
  simp [quoted, h]

theorem unmarked_range (first last : Int) : Unmarked (range first last).toList :=
  unmarked_quoted (by simp)

theorem unmarked_message {e : SchemaError} (h : ∀ s ∈ e.strings, Unmarked s.toList) :
    Unmarked e.message.toList := by
  have hint (i : Int) : Unmarked (quoted (toString i)).toList := unmarked_quoted (unmarked_repr i)
  unfold message
  cases e with
  | missingTypeName path =>
    have hpath : Unmarked (", ".intercalate (path.map toString)).toList := by
      rw [String.toList_intercalate, List.map_map]
      exact unmarked_intercalate (by decide) (by simp)
    exact unmarked_between hpath (by decide) (by decide)
  | duplicateName name file =>
    cases file
    all_goals
      simp only [String.toList_append, unmarked_append]
      and_intros
    all_goals with_reducible first
      | exact unmarked_word (by decide)
      | exact unmarked_quoted (h _ (by simp [strings]))
  | _ =>
    -- What is left are words, names in quotes, and numbers and ranges in quotes.
    simp only [String.toList_append, unmarked_append]
    and_intros
    all_goals with_reducible first
      | exact unmarked_word (by decide)
      | exact hint _
      | exact unmarked_range _ _
      | exact unmarked_quoted (h _ (by simp [strings]))

end SchemaError

namespace LoadError

def strings : LoadError → List String
  | artifact path cause => path.shown :: cause.strings
  | decode path cause => path.shown :: cause.strings
  | missing d | notAnInterface d => [d.fullName, d.name]

theorem unmarked_message {e : LoadError} (h : ∀ s ∈ e.strings, Unmarked s.toList) :
    Unmarked e.message.toList := by
  unfold message
  cases e with
  | artifact path cause =>
    obtain ⟨hpath, hcause⟩ := List.forall_mem_cons.1 h
    exact unmarked_between₂ hpath (IoError.unmarked_message hcause) (by decide) (by decide) (by decide)
  | decode path cause =>
    obtain ⟨hpath, hcause⟩ := List.forall_mem_cons.1 h
    exact unmarked_between₂ hpath (SchemaError.unmarked_message hcause) (by decide)
      (by decide) (by decide)
  | missing d | notAnInterface d =>
    obtain ⟨hfullName, hname⟩ := List.forall_mem_cons.1 h
    exact unmarked_between₂ hfullName (hname d.name List.mem_cons_self) (by decide)
      (by decide) (by decide)

end LoadError

namespace InitError

def strings : InitError → List String
  | workspace root cause => root.shown :: cause.strings
  | description e => e.strings
  | build e => e.strings
  | load e => e.strings
  | transport cause => cause.strings

theorem unmarked_title (e : InitError) : Unmarked e.title.toList := by
  unfold title
  repeat' split
  all_goals exact unmarked_word (by decide)

theorem unmarked_message {e : InitError} (h : ∀ s ∈ e.strings, Unmarked s.toList) :
    Unmarked e.message.toList := by
  unfold message
  cases e with
  | workspace root cause =>
    obtain ⟨hroot, hcause⟩ := List.forall_mem_cons.1 h
    exact unmarked_between₂ hroot (IoError.unmarked_message hcause) (by decide) (by decide) (by decide)
  | description e => exact DescriptionError.unmarked_message h
  | build e => exact BuildError.unmarked_message h
  | load e =>
    exact unmarked_between (LoadError.unmarked_message h) (by decide) (by decide)
  | transport cause =>
    exact unmarked_between (IoError.unmarked_message h) (by decide) (by decide)

end InitError

namespace RequestError

def strings : RequestError → List String
  | notFound _ name => [name]
  | empty _ => []
  | noSuchMethod interface method => interface :: method.toList
  | proxy (.address first second) | proxy (.create first second) => [first, second]

theorem unmarked_message {e : RequestError} (h : ∀ s ∈ e.strings, Unmarked s.toList) :
    Unmarked e.message.toList := by
  have hkind (kind : SymbolKind) : Unmarked kind.text.toList := by
    cases kind <;> exact unmarked_word (by decide)
  unfold message
  cases e with
  | notFound kind name =>
    exact unmarked_between₂ (hkind kind) (h name List.mem_cons_self) (by decide) (by decide) (by decide)
  | empty kind =>
    simp only [String.toList_append, unmarked_append]
    exact ⟨unmarked_word (by decide), hkind kind⟩
  | noSuchMethod interface method =>
    have hmethod : Unmarked (methodText method).toList := by
      cases method with
      | none => exact unmarked_word (by decide)
      | some name => simp [methodText, h name (by simp [strings])]
    exact unmarked_between₂ hmethod (h interface List.mem_cons_self) (by decide) (by decide) (by decide)
  | proxy e =>
    unfold ProxyError.message
    cases e with
    | address first second | create first second =>
      exact unmarked_between₂ (h first (by simp [strings])) (h second (by simp [strings])) (by decide)
        (by decide) (by decide)

end RequestError

/-! ### Values that do not fit -/

namespace Wire.Fault

def strings : Fault → List String
  | within place f => place :: f.strings
  | _ => []

theorem unmarked_name (t : WireType) : Unmarked t.name.toList := by
  cases t <;> exact unmarked_word (by decide)

theorem unmarked_text (f : Fault) : Unmarked f.text.toList := by
  induction f with
  | within place f ih => exact ih
  | key n | wireType n =>
    unfold text
    simp only [String.toList_append, unmarked_append]
    exact ⟨unmarked_word (by decide), unmarked_nat n⟩
  | mismatch actual expected =>
    unfold text
    exact unmarked_between₂ (unmarked_name actual) (unmarked_name expected) (by decide)
      (by decide) (by decide)
  | _ => exact unmarked_word (by decide)

theorem unmarked_trace {f : Fault} (h : ∀ s ∈ f.strings, Unmarked s.toList) :
    Unmarked f.trace.toList := by
  induction f with
  | within place f ih =>
    obtain ⟨hplace, hrest⟩ := List.forall_mem_cons.1 h
    unfold trace
    simp only [String.toList_append, unmarked_append]
    exact ⟨⟨ih hrest, hplace⟩, unmarked_word (by decide)⟩
  | _ => exact unmarked_word (by decide)

theorem unmarked_message {f : Fault} (h : ∀ s ∈ f.strings, Unmarked s.toList) :
    Unmarked f.message.toList := by
  unfold message
  simp only [String.toList_append, unmarked_append]
  exact ⟨⟨unmarked_word (by decide), unmarked_trace h⟩, unmarked_text f⟩

end Wire.Fault

namespace Timestamp

theorem unmarked_foundText (c : Option Char) : Unmarked (foundText c).toList := by
  cases c with
  | none => exact unmarked_word (by decide)
  | some c =>
    unfold foundText
    simp only [String.toList_append, unmarked_append, String.toList_ofList]
    refine ⟨⟨unmarked_word (by decide), ?_⟩, unmarked_word (by decide)⟩
    iterate 3 refine iteInduction (motive := Unmarked) (fun _ => by decide) fun _ => ?_
    refine iteInduction (motive := Unmarked) (fun hquote => ?_) fun _ => ?_
    · obtain rfl | rfl | rfl := hquote <;> decide
    · refine iteInduction (motive := Unmarked) (fun hshown => ?_) fun _ => ?_
      · -- The escape character is no printed one.
        have hc : c ≠ '\x1b' := by
          rintro rfl
          exact absurd hshown.1 (by decide)
        exact unmarked_cons.2 ⟨hc, unmarked_nil⟩
      · have hdigits : Unmarked (Nat.toDigits 16 c.toNat) := unmarked_toDigits (by decide) c.toNat
        simp [hdigits]

theorem Fault.unmarked_message (f : Fault) : Unmarked f.message.toList := by
  unfold message
  cases f with
  | separator c | zone c | trailing c =>
    simp only [String.toList_append, unmarked_append]
    exact ⟨unmarked_word (by decide), unmarked_foundText c⟩
  | _ => exact unmarked_word (by decide)

end Timestamp

theorem Base64.Fault.unmarked_message (f : Base64.Fault) : Unmarked f.message.toList := by
  unfold message
  cases f with
  | symbol offset byte =>
    exact unmarked_between₂ (unmarked_nat _) (unmarked_nat _) (by decide) (by decide) (by decide)
  | length n =>
    simp only [String.toList_append, unmarked_append]
    exact ⟨unmarked_word (by decide), unmarked_nat n⟩

theorem Json.unmarked_kindText (v : Json) : Unmarked v.kindText.toList := by
  unfold kindText
  cases v with
  | bool b => cases b <;> exact unmarked_word (by decide)
  | integer i =>
    exact unmarked_between (unmarked_repr i) (by decide) (by decide)
  | float x =>
    exact unmarked_between x.unmarked_plainText (by decide) (by decide)
  | string s =>
    simp only [String.toList_append, unmarked_append]
    exact ⟨unmarked_word (by decide), unmarked_escaped s⟩
  | null | array items | object members => exact unmarked_word (by decide)

namespace MappingFault

def strings : MappingFault → List String
  | enumValue name | unknownField name | oneof name | typeUrl name | unknownMessage name => [name]
  | wire f => f.strings
  | _ => []

theorem unmarked_message {f : MappingFault} (h : ∀ s ∈ f.strings, Unmarked s.toList) :
    Unmarked f.message.toList := by
  have hexpected (e : Expected) : Unmarked e.text.toList := by
    cases e <;> exact unmarked_word (by decide)
  unfold message
  cases f with
  | kind found expected =>
    simp only [String.toList_append, unmarked_append]
    exact ⟨⟨⟨unmarked_word (by decide), found.unmarked_kindText⟩, unmarked_word (by decide)⟩,
      hexpected expected⟩
  | setAside found expected =>
    simp only [String.toList_append, unmarked_append]
    refine ⟨⟨⟨unmarked_word (by decide), ?_⟩, unmarked_word (by decide)⟩, hexpected expected⟩
    split
    · exact unmarked_word (by decide)
    · exact found.unmarked_kindText
  | integer f => cases f <;> exact unmarked_word (by decide)
  | literal f => cases f <;> exact unmarked_word (by decide)
  | duration f => cases f <;> exact unmarked_word (by decide)
  | timestamp f => exact f.unmarked_message
  | base64 f =>
    simp only [String.toList_append, unmarked_append]
    exact ⟨unmarked_word (by decide), f.unmarked_message⟩
  | enumValue name | unknownField name | oneof name | typeUrl name | unknownMessage name =>
    exact unmarked_between (h name List.mem_cons_self) (by decide) (by decide)
  | wire f =>
    simp only [String.toList_append, unmarked_append]
    exact ⟨unmarked_word (by decide), Wire.Fault.unmarked_message h⟩
  | _ => exact unmarked_word (by decide)

end MappingFault

/-! ### Calls -/

theorem Grpc.Status.unmarked_text (s : Status) : Unmarked s.text.toList := by
  have hdescribe : Unmarked (describe s.code).toList := by
    unfold describe
    split <;> exact unmarked_word (by decide)
  unfold text
  simp only [String.toList_append, unmarked_append]
  refine ⟨⟨⟨unmarked_word (by decide), hdescribe⟩, unmarked_word (by decide)⟩, ?_⟩
  split
  · exact unmarked_word (by decide)
  · rw [String.toList_append, unmarked_append]
    exact ⟨unmarked_word (by decide), unmarked_escaped s.message⟩

namespace CallFault

def strings : CallFault → List String
  | grpc (.notReady s) | grpc (.streaming s) => [s]
  | grpc (.path s cause) => [s, cause]
  | grpc (.status _) => []
  | other message => [message]

theorem unmarked_message {f : CallFault} (h : ∀ s ∈ f.strings, Unmarked s.toList) :
    Unmarked f.message.toList := by
  unfold message
  cases f with
  | grpc f =>
    unfold GrpcFault.message
    cases f with
    | notReady s | streaming s =>
      exact unmarked_between (h s List.mem_cons_self) (by decide) (by decide)
    | path s cause =>
      obtain ⟨hs, hcause⟩ := List.forall_mem_cons.1 h
      exact unmarked_between₂ hs (hcause cause List.mem_cons_self) (by decide) (by decide) (by decide)
    | status s =>
      exact unmarked_between s.unmarked_text (by decide) (by decide)
  | other message => exact h message List.mem_cons_self

end CallFault

namespace InvocationError

def strings : InvocationError → List String
  | arguments method (.tooMany _ _) => [method]
  | arguments method (.mapping f) => method :: f.strings
  | remote method cause => method :: cause.strings

theorem unmarked_message {e : InvocationError} (h : ∀ s ∈ e.strings, Unmarked s.toList) :
    Unmarked e.message.toList := by
  unfold message
  cases e with
  | arguments method reason =>
    have hmethod : Unmarked method.toList := by
      cases reason <;> exact h method List.mem_cons_self
    have hreason : Unmarked reason.message.toList := by
      cases reason with
      | tooMany limit given =>
        unfold ArgumentFault.message
        simp only [String.toList_append, unmarked_append]
        exact ⟨⟨⟨unmarked_word (by decide), unmarked_nat limit⟩, unmarked_word (by decide)⟩,
          unmarked_nat given⟩
      | mapping f => exact MappingFault.unmarked_message (List.forall_mem_cons.1 h).2
    unfold argumentsMessage
    simp only [String.toList_append, unmarked_append]
    exact ⟨⟨⟨unmarked_word (by decide), hmethod⟩, unmarked_word (by decide)⟩, hreason⟩
  | remote method cause =>
    obtain ⟨hmethod, hcause⟩ := List.forall_mem_cons.1 h
    exact unmarked_between₂ hmethod (CallFault.unmarked_message hcause) (by decide)
      (by decide) (by decide)

end InvocationError

/-- The strings of a signature. -/
def Signature.strings (s : Signature) : List String :=
  s.name :: s.returns :: s.input :: s.output :: s.parameters.flatMap fun p => [p.1, p.2]

end ServiceCall
