import ServiceCall.Json.Document
import ServiceCall.Text.Utf8
import ServiceCall.Text.Hex
/-!
# Scanning JSON text

`Scan.document` reads a text into the document it spells. The scanner never fails: where
the text goes wrong it leaves the fault in the document and reads no further.
-/

namespace ServiceCall.Json

namespace Scan

open Utf8 (Symbol)

/-- The blanks of JSON. -/
def isSpace (c : Char) : Bool := c = ' ' || c = '\n' || c = '\t' || c = '\r'

/-- The text after its leading blanks. -/
def skipSpace : List Symbol → List Symbol
  | some c :: rest => if isSpace c then skipSpace rest else some c :: rest
  | s => s

/-- The number of bytes of a text, counted up to `limit`. -/
def atLeastBytes : Nat → List Symbol → Bool
  | 0, _ => true
  | _, [] => false
  | n + 1, some c :: rest => atLeastBytes (n + 1 - c.utf8Size) rest
  | n + 1, none :: rest => atLeastBytes n rest

/-- The four hexadecimal digits of an escape. -/
def hex4 (s : List Symbol) : Except Fault (Nat × List Symbol) :=
  match s with
  | some a :: some b :: some c :: some d :: rest =>
    match Hex.value? a, Hex.value? b, Hex.value? c, Hex.value? d with
    | some a, some b, some c, some d => .ok (((a * 16 + b) * 16 + c) * 16 + d, rest)
    | _, _, _, _ => if atLeastBytes 4 s then .error .malformed else .error .unfinished
  | _ => if atLeastBytes 4 s then .error .malformed else .error .unfinished

/-- The character of an escape of one letter. -/
def escaped? : Char → Option Char
  | '"' => some '"'
  | '\\' => some '\\'
  | '/' => some '/'
  | 'b' => some '\x08'
  | 'f' => some '\x0c'
  | 'n' => some '\n'
  | 'r' => some '\r'
  | 't' => some '\t'
  | _ => none

/-- The piece of a code unit that is not joined with another. -/
def unitPiece (n : Nat) : Piece :=
  if 0xD800 ≤ n ∧ n ≤ 0xDBFF then .surrogate true
  else if 0xDC00 ≤ n ∧ n ≤ 0xDFFF then .surrogate false
  else .char (Char.ofNat n)

/-- Joins half of a surrogate pair with the other half, if that is what follows. -/
def joinPieces (unit : Nat) (rest : List Symbol) : Piece × List Symbol :=
  if 0xD800 ≤ unit ∧ unit ≤ 0xDBFF then
    match rest with
    | some '\\' :: some 'u' :: rest' =>
      match hex4 rest' with
      | .ok (low, rest'') =>
        if 0xDC00 ≤ low ∧ low ≤ 0xDFFF then
          (.char (Char.ofNat (0x10000 + (unit - 0xD800) * 0x400 + (low - 0xDC00))), rest'')
        else (unitPiece unit, rest)
      | .error _ => (unitPiece unit, rest)
    | _ => (unitPiece unit, rest)
  else (unitPiece unit, rest)

/-- Puts a piece in front of a string. -/
def cons (p : Piece) (s : RawString) : RawString := { s with pieces := p :: s.pieces }

/-- The content of a string, from behind its opening quote. -/
def stringBody : Nat → List Symbol → RawString × Option (List Symbol)
  | 0, _ => (⟨[], some .unfinished⟩, none)
  | fuel + 1, s =>
    match s with
    | [] => (⟨[], some .unfinished⟩, none)
    | none :: rest =>
      let (body, rest) := stringBody fuel rest
      (cons .stray body, rest)
    | some '"' :: rest => (⟨[], none⟩, some rest)
    | [some '\\'] => (⟨[], some .unfinished⟩, none)
    | some '\\' :: some 'u' :: rest =>
      match hex4 rest with
      | .error f => (⟨[], some f⟩, none)
      | .ok (unit, rest) =>
        let (piece, rest) := joinPieces unit rest
        let (body, rest) := stringBody fuel rest
        (cons piece body, rest)
    | some '\\' :: some c :: rest =>
      match escaped? c with
      | none => (⟨[], some .malformed⟩, none)
      | some c =>
        let (body, rest) := stringBody fuel rest
        (cons (.char c) body, rest)
    | some '\\' :: none :: _ => (⟨[], some .malformed⟩, none)
    | some c :: rest =>
      if c.toNat < 0x20 then (⟨[], some .malformed⟩, none)
      else
        let (body, rest) := stringBody fuel rest
        (cons (.char c) body, rest)

/-- A string, from behind its opening quote. -/
def string (s : List Symbol) : RawString × Option (List Symbol) := stringBody (s.length + 1) s

/-- The digits a text starts with, and what follows them. -/
def digits : List Symbol → List Char × List Symbol
  | some c :: rest =>
    if isDigit c then
      let (ds, rest) := digits rest
      (c :: ds, rest)
    else ([], some c :: rest)
  | s => ([], s)

/-- At least one digit. -/
def digits1 (s : List Symbol) : Except Fault (List Char × List Symbol) :=
  match digits s with
  | ([], []) => .error .unfinishedNumber
  | ([], _) => .error .malformed
  | r => .ok r

/-- The exponent of a number. -/
def exponent (s : List Symbol) : Except Fault (Option (Bool × List Char) × List Symbol) :=
  match s with
  | some e :: rest =>
    if e = 'e' ∨ e = 'E' then
      let (negative, rest) := match rest with
        | some '-' :: r => (true, r)
        | some '+' :: r => (false, r)
        | r => (false, r)
      (digits1 rest).map fun (ds, rest) => (some (negative, ds), rest)
    else .ok (none, s)
  | [] | none :: _ => .ok (none, s)

/-- The fraction of a number. -/
def fraction (s : List Symbol) : Except Fault (Option (List Char) × List Symbol) :=
  match s with
  | some '.' :: rest => (digits1 rest).map fun (ds, rest) => (some ds, rest)
  | s => .ok (none, s)

/-- The digits before the point, without leading zeros. -/
def whole (s : List Symbol) : Except Fault (List Char × List Symbol) :=
  match s with
  | some '0' :: rest =>
    match rest with
    | some c :: _ => if isDigit c then .error .malformed else .ok (['0'], rest)
    | _ => .ok (['0'], rest)
  | s => digits1 s

/-- A number, from its first character. -/
def number (s : List Symbol) : Except Fault (RawNumber × List Symbol) := do
  let (negative, s) := match s with
    | some '-' :: r => (true, r)
    | s => (false, s)
  let (w, s) ← whole s
  let (f, s) ← fraction s
  let (e, s) ← exponent s
  return (⟨negative, w, f, e⟩, s)

/-- The rest of a name such as `null`. -/
def name : List Char → List Symbol → Except Fault (List Symbol)
  | [], s => .ok s
  | _ :: _, [] => .error .unfinished
  | c :: cs, some d :: rest => if c = d then name cs rest else .error .malformed
  | _ :: _, none :: _ => .error .malformed

/-- A faulty value, behind which nothing is read. -/
def broken (f : Fault) : Document × Option (List Symbol) := (.fault f, none)

/-- A value that stands for a name, if the name is complete. -/
def named (v : Document) (cs : List Char) (s : List Symbol) : Document × Option (List Symbol) :=
  match name cs s with
  | .ok rest => (v, some rest)
  | .error f => broken f

mutual

/-- A value, after blanks. -/
def value : Nat → List Symbol → Document × Option (List Symbol)
  | 0, _ => broken .malformed
  | fuel + 1, s =>
    match skipSpace s with
    | [] => broken .unfinished
    | none :: _ => broken .malformed
    | some '[' :: rest =>
      match skipSpace rest with
      | [] => (.array [] (some .unfinished), none)
      | some ']' :: rest => (.array [] none, some rest)
      | rest =>
        let (vs, stop, rest) := items fuel rest
        (.array vs stop, rest)
    | some '{' :: rest =>
      match skipSpace rest with
      | [] => (.object [] (some .unfinished), none)
      | some '}' :: rest => (.object [] none, some rest)
      | rest =>
        let (ms, stop, rest) := members fuel rest
        (.object ms stop, rest)
    | some '"' :: rest =>
      let (s, rest) := string rest
      (.string s, rest)
    | some 'n' :: rest => named .null ['u', 'l', 'l'] rest
    | some 't' :: rest => named (.bool true) ['r', 'u', 'e'] rest
    | some 'f' :: rest => named (.bool false) ['a', 'l', 's', 'e'] rest
    | some c :: rest =>
      if c = '-' ∨ isDigit c then
        match number (some c :: rest) with
        | .ok (n, rest) => (.number n, some rest)
        | .error f => broken f
      else broken .malformed

/-- The items of an array from one item on, up to its closing bracket. -/
def items : Nat → List Symbol → List Document × Option Fault × Option (List Symbol)
  | 0, _ => ([], some .malformed, none)
  | fuel + 1, s =>
    match value fuel s with
    | (v, none) => ([v], none, none)
    | (v, some rest) =>
      match skipSpace rest with
      | [] => ([v], some .unfinished, none)
      | some ']' :: rest => ([v], none, some rest)
      | some ',' :: rest =>
        match skipSpace rest with
        | some ']' :: _ => ([v, .fault .malformed], none, none)
        | _ =>
          let (vs, stop, rest) := items fuel rest
          (v :: vs, stop, rest)
      | _ => ([v], some .malformed, none)

/-- The members of an object from one member on, up to its closing brace. -/
def members : Nat → List Symbol →
    List (RawString × Document) × Option Fault × Option (List Symbol)
  | 0, _ => ([], some .malformed, none)
  | fuel + 1, s =>
    match skipSpace s with
    | [] => ([], some .unfinished, none)
    | some '"' :: rest =>
      match string rest with
      | (k, none) => ([(k, .fault .malformed)], none, none)
      | (k, some rest) =>
        match skipSpace rest with
        | [] => ([(k, .fault .unfinished)], none, none)
        | some ':' :: rest =>
          match value fuel rest with
          | (v, none) => ([(k, v)], none, none)
          | (v, some rest) =>
            match skipSpace rest with
            | [] => ([(k, v)], some .unfinished, none)
            | some '}' :: rest => ([(k, v)], none, some rest)
            | some ',' :: rest =>
              let (ms, stop, rest) := members fuel rest
              ((k, v) :: ms, stop, rest)
            | _ => ([(k, v)], some .malformed, none)
        | _ => ([(k, .fault .malformed)], none, none)
    | _ => ([], some .malformed, none)

end

/-- A text read as one value, and whether anything but blanks follows it. -/
def document (s : List Symbol) : Document × Bool :=
  match value (2 * s.length + 2) s with
  | (v, some rest) => (v, !(skipSpace rest).isEmpty)
  | (v, none) => (v, false)

end Scan

/-- Reads a whole text; what follows the value is looked at last. -/
def readText (reader : Document → Except Category α) (s : List Utf8.Symbol) :
    Except Category α := do
  let (document, more) := Scan.document s
  let v ← reader document
  if more then .error .malformed else .ok v

/-- The symbols of a text. -/
def symbols (s : String) : List Utf8.Symbol := s.toList.map some

/-- The value of a JSON text. -/
def parse (s : String) : Except Category Json :=
  readText (Document.readValue Document.maxDepth) (symbols s)

end ServiceCall.Json
