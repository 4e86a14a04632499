import ServiceCall.Number.Literal
import ServiceCall.Shell.Arithmetic
/-!
# Printing

How values are laid out, and what the programs that print texts and formats write.
-/

namespace ServiceCall.Shell

/-! ## Laid out values

How a conversion lays out a text or a number: its flags, the least width, and a precision,
which bounds the length of a text, the digits of an integer from below, and the places of
a fraction.
-/

/-- How a value is laid out. -/
structure Layout where
  flags : List Char
  width : Nat
  precision : Option Nat
  deriving Repr

namespace Layout

def has (l : Layout) (c : Char) : Bool := l.flags.contains c

/-- A body behind a sign or other lead, filled up to the width. -/
def fill (l : Layout) (zeros : Bool) (lead body : List Char) : List Char :=
  let missing := l.width - (lead.length + body.length)
  if l.has '-' then lead ++ body ++ List.replicate missing ' '
  else if zeros ∧ l.has '0' then lead ++ List.replicate missing '0' ++ body
  else List.replicate missing ' ' ++ lead ++ body

/-- A text. -/
def text (l : Layout) (s : List Char) : List Char :=
  l.fill false [] (match l.precision with
    | some n => s.take n
    | none => s)

/-- The sign of a number. -/
def sign (l : Layout) (isNegative : Bool) : List Char :=
  if isNegative then ['-'] else if l.has '+' then ['+'] else if l.has ' ' then [' '] else []

/-- The digits of a natural, at least as many as asked for; zero has none if none are asked
for. -/
def digits (l : Layout) (base n : Nat) : List Char :=
  match l.precision, n with
  | some 0, 0 => []
  | p, n =>
    let ds := Nat.toDigits base n
    List.replicate (p.getD 0 - ds.length) '0' ++ ds

/-- An integer in decimal. -/
def integer (l : Layout) (n : Int) : List Char :=
  l.fill l.precision.isNone (l.sign (n < 0)) (l.digits 10 n.natAbs)

/-- A natural as the conversion of a letter writes it. -/
def natural (l : Layout) (conversion : Char) (n : Nat) : List Char :=
  let zeros := l.precision.isNone
  match conversion with
  | 'o' =>
    let ds := l.digits 8 n
    l.fill zeros [] (if l.has '#' ∧ ds.head? ≠ some '0' then '0' :: ds else ds)
  | 'x' => l.fill zeros (if l.has '#' ∧ n ≠ 0 then ['0', 'x'] else []) (l.digits 16 n)
  | 'X' =>
    l.fill zeros (if l.has '#' ∧ n ≠ 0 then ['0', 'X'] else [])
      ((l.digits 16 n).map Char.toUpper)
  | _ => l.fill zeros [] (l.digits 10 n)

/-! ## Fractions -/

/-- Digits with a point in front of the last ones. -/
def pointed (isForced : Bool) (places n : Nat) : List Char :=
  let ds := Nat.toDigits 10 n
  let ds := List.replicate (places + 1 - ds.length) '0' ++ ds
  let whole := ds.take (ds.length - places)
  if places = 0 then (if isForced then whole ++ ['.'] else whole)
  else whole ++ '.' :: ds.drop (ds.length - places)

/-- A quotient with a fixed number of places. -/
def fixed (isForced : Bool) (places n d : Nat) : List Char :=
  pointed isForced places (roundHalfEven (n * Nat.pow 10 places) d)

/-- A quotient scaled by a power of ten. -/
def scaled (n d : Nat) (exponent : Int) : Nat × Nat :=
  (n * Nat.pow 10 exponent.toNat, d * Nat.pow 10 (-exponent).toNat)

/-- The decimal exponent of a quotient once it is rounded to some places behind its first
digit, and its digits. -/
def rounded (places n d : Nat) : Nat → Int → Int × Nat
  | 0, e => (e, 0)
  | fuel + 1, e =>
    let (a, b) := scaled n d (places - e)
    let m := roundHalfEven a b
    if m < Nat.pow 10 places then rounded places n d fuel (e - 1)
    else if Nat.pow 10 (places + 1) ≤ m then
      let (a, b) := scaled n d (places - (e + 1))
      (e + 1, roundHalfEven a b)
    else (e, m)

/-- The exponent and digits of a quotient of doubles. -/
def exponentOf (places n d : Nat) : Int × Nat :=
  if n = 0 then (0, 0)
  else rounded places n d 700 ((Nat.toDigits 10 (n / d)).length - (if n < d then 1 else 0))

/-- The text of an exponent: a sign and at least two digits. -/
def exponentText (e : Int) : List Char :=
  let ds := Nat.toDigits 10 e.natAbs
  (if e < 0 then '-' else '+') :: (List.replicate (2 - ds.length) '0' ++ ds)

/-- A fraction without the zeros at its end. -/
def bare (s : List Char) : List Char :=
  if s.contains '.' then
    (((s.reverse).dropWhile (· = '0')).dropWhile (· = '.')).reverse
  else s

/-- A finite magnitude as the conversion of a lower case letter writes it. -/
def magnitude (l : Layout) (conversion : Char) (n d : Nat) : List Char :=
  let scientific (places : Nat) (e : Int) (m : Nat) (strip : Bool) : List Char :=
    let body := pointed (l.has '#') places m
    (if strip then bare body else body) ++ 'e' :: exponentText e
  match conversion with
  | 'f' => fixed (l.has '#') (l.precision.getD 6) n d
  | 'e' =>
    let places := l.precision.getD 6
    let (e, m) := exponentOf places n d
    scientific places e m false
  | _ =>
    let p := max 1 (l.precision.getD 6)
    let (e, m) := exponentOf (p - 1) n d
    let strip := !l.has '#'
    if -4 ≤ e ∧ e < p then
      let body := fixed (l.has '#') (p - 1 - e).toNat n d
      if strip then bare body else body
    else scientific (p - 1) e m strip

/-- A double in hexadecimal: a binary exponent behind a mantissa that starts with one. -/
def hexadecimal (x : Double) : List Char :=
  let (m, e) := Format.double.split x.number
  if m = 0 then "0x0p+0".toList
  else
    let shift := 52 - m.log2
    let fraction := (m * Nat.pow 2 shift) % Nat.pow 2 52
    let ds := Nat.toDigits 16 fraction
    let ds := List.replicate (13 - ds.length) '0' ++ ds
    let ds := ((ds.reverse).dropWhile (· = '0')).reverse
    let power : Int := (e : Int) - 1022 - shift
    "0x1".toList ++ (if ds.isEmpty then [] else '.' :: ds) ++ 'p' ::
      (if power < 0 then '-' else '+') :: Nat.toDigits 10 power.natAbs

/-- A double as the conversion of a letter writes it. -/
def double (l : Layout) (conversion : Char) (x : Double) : List Char :=
  let lower := conversion.toLower
  let body :=
    if x.isNaN then "nan".toList
    else if x.isInfinite then "inf".toList
    else if lower = 'a' then hexadecimal x
    else
      l.magnitude lower (Format.double.inUnits x.number) (Nat.pow 2 Format.double.units)
  let body := if conversion.isUpper then body.map Char.toUpper else body
  l.fill x.isFinite (l.sign x.negative) body

end Layout

end ServiceCall.Shell

namespace ServiceCall.Shell.Print

/-! ## Printing texts and formats

What `echo` and `printf` write: texts with escapes, and formats that are gone through until
no argument is left.
-/

/-! ## Escapes -/

def isOctal (c : Char) : Bool := '0' ≤ c && c ≤ '7'

/-- The character of up to some number of octal digits, and the text after them. -/
def octal (most : Nat) (s : List Char) : Char × List Char :=
  let ds := (s.take most).takeWhile isOctal
  (Char.ofNat (Arithmetic.value 8 ds % 256), s.drop ds.length)

/-- The character of a letter after a backslash. -/
def letter? : Char → Option Char
  | 'a' => some '\x07'
  | 'b' => some '\x08'
  | 'e' => some '\x1b'
  | 'f' => some '\x0c'
  | 'n' => some '\n'
  | 'r' => some '\r'
  | 't' => some '\t'
  | 'v' => some '\x0b'
  | '\\' => some '\\'
  | _ => none

/-- What a backslash and the text after it stand for, and the rest of that text. -/
def escape (s : List Char) : Char × List Char :=
  match s with
  | c :: rest =>
    if isOctal c then octal 3 s
    else match letter? c with
      | some e => (e, rest)
      | none => ('\\', s)
  | [] => ('\\', [])

/-- A text with its escapes replaced, and whether one of them ends all output. -/
def unescaped : Nat → List Char → List Char × Bool
  | 0, _ => ([], false)
  | _ + 1, [] => ([], false)
  | _ + 1, '\\' :: 'c' :: _ => ([], true)
  | fuel + 1, '\\' :: rest =>
    let (c, rest) := match rest with
      | '0' :: ds => octal 3 ds
      | rest => escape rest
    let (s, isEnd) := unescaped fuel rest
    (c :: s, isEnd)
  | fuel + 1, c :: rest =>
    let (s, isEnd) := unescaped fuel rest
    (c :: s, isEnd)

/-- A text with its escapes replaced. -/
def unescape (s : List Char) : List Char × Bool := unescaped (s.length + 1) s

/-- The line that arguments make; without the line break after `-n`. -/
def echo (args : List String) : List Char :=
  let (isLine, args) := match args with
    | "-n" :: rest => (false, rest)
    | args => (true, args)
  let (s, isEnd) := unescape (" ".intercalate args).toList
  if isLine ∧ !isEnd then s ++ ['\n'] else s

/-! ## Arguments as numbers -/

/-- What is wrong with an argument that ought to be a number. -/
inductive NumberFault where
  | notNumeric
  | notWhole
  | tooLarge
  deriving DecidableEq, Repr

def NumberFault.message : NumberFault → String
  | notNumeric => "expected numeric value"
  | notWhole => "not completely converted"
  | tooLarge => "Numerical result out of range"

/-- What is left of a number's text decides whether it is one. -/
def leftover (isRead : Bool) (rest : List Char) : Option NumberFault :=
  if rest.isEmpty then none else if isRead then some .notWhole else some .notNumeric

/-- A sign and the text after it. -/
def signed (s : List Char) : Bool × List Char :=
  match s.dropWhile Arithmetic.isWhite with
  | '-' :: rest => (true, rest)
  | '+' :: rest => (false, rest)
  | rest => (false, rest)

/-- The code of the character after a quote. -/
def quoted? (s : List Char) : Option Nat :=
  match s with
  | c :: rest => if c = '\'' ∨ c = '"' then some ((rest.head?.map (·.toNat)).getD 0) else none
  | [] => none

/-- An argument as an integer. -/
def integer (s : List Char) : Int × Option NumberFault :=
  match quoted? s with
  | some n => (n, none)
  | none =>
    let (isNegative, digits) := signed s
    match Arithmetic.unsigned? digits with
    | none => (0, leftover false s)
    | some (n, rest) =>
      let n : Int := if isNegative then -(n : Int) else n
      (Arithmetic.clamp n,
        if n ≠ Arithmetic.clamp n ∧ rest.isEmpty then some .tooLarge else leftover true rest)

/-- An argument as a natural of 64 bits; a negative one wraps around. -/
def natural (s : List Char) : Nat × Option NumberFault :=
  match quoted? s with
  | some n => (n, none)
  | none =>
    let (isNegative, digits) := signed s
    match Arithmetic.unsigned? digits with
    | none => (0, leftover false s)
    | some (n, rest) =>
      let size := 0x10000000000000000
      if size ≤ n then (size - 1, if rest.isEmpty then some .tooLarge else leftover true rest)
      else (if isNegative then (size - n) % size else n, leftover true rest)

/-- The exponent a text starts with, after its letter. -/
def exponent (s : List Char) : Int × List Char :=
  match s with
  | c :: rest =>
    if c = 'e' ∨ c = 'E' then
      let (isNegative, digits) := match rest with
        | '-' :: r => (true, r)
        | '+' :: r => (false, r)
        | r => (false, r)
      let ds := digits.takeWhile isDigit
      if ds.isEmpty then (0, s)
      else
        let n : Int := digitsValue ds
        (if isNegative then -n else n, digits.drop ds.length)
    else (0, s)
  | [] => (0, [])

/-- An argument as a double. -/
def double (s : List Char) : Double × Option NumberFault :=
  match quoted? s with
  | some n => (Floating.ofInt .double n, none)
  | none =>
    let (isNegative, digits) := signed s
    let lower := digits.map Char.toLower
    if "inf".toList.isPrefixOf lower then
      (Floating.infinite .double isNegative,
        leftover true (digits.drop (if "infinity".toList.isPrefixOf lower then 8 else 3)))
    else if "nan".toList.isPrefixOf lower then
      ({ Floating.nan .double with negative := isNegative }, leftover true (digits.drop 3))
    else if "0x".toList.isPrefixOf lower then
      match Arithmetic.unsigned? digits with
      | some (n, rest) => (Floating.ofQuotient .double isNegative n 1, leftover true rest)
      | none => (Floating.zero .double false, leftover false s)
    else
      let whole := digits.takeWhile isDigit
      let rest := digits.dropWhile isDigit
      let (fraction, rest) := match rest with
        | '.' :: r => (r.takeWhile isDigit, r.dropWhile isDigit)
        | r => ([], r)
      if whole.isEmpty ∧ fraction.isEmpty then (Floating.zero .double false, leftover false s)
      else
        let (e, rest) := exponent rest
        (Floating.ofDecimal .double isNegative (digitsValue (whole ++ fraction))
          (e - fraction.length), leftover true rest)

/-! ## Formats -/

/-- What is wrong with a format or an argument. -/
inductive Fault where
  | number (argument : String) (fault : NumberFault)
  | directive (text : String)
  /-- The format ends inside a directive. -/
  | unfinished (text : String)
  deriving DecidableEq, Repr

/-- The text of a fault, as a shell words it. -/
def Fault.message : Fault → String
  | number a f => a ++ ": " ++ f.message
  | directive text => text ++ ": invalid directive"
  | unfinished _ => "missing format character"

/-- Where the going through a format stands. -/
structure Printing where
  arguments : List String
  /-- The pieces that were written, the last one first. -/
  output : List (List Char)
  /-- The complaints, the last one first. -/
  faults : List Fault
  status : Nat
  /-- Nothing more is written. -/
  isEnded : Bool

namespace Printing

def put (s : List Char) (p : Printing) : Printing := { p with output := s :: p.output }

/-- A fault that ends the printing. -/
def abandon (f : Fault) (p : Printing) : Printing :=
  { p with faults := f :: p.faults, status := 2, isEnded := true }

/-- Takes an argument and what a reader makes of it. -/
def take (read : List Char → α × Option NumberFault) (p : Printing) : α × Printing :=
  match p.arguments with
  | [] => ((read []).1, p)
  | a :: rest =>
    let (n, fault?) := read a.toList
    let p := { p with arguments := rest }
    match fault? with
    | none => (n, p)
    | some f => (n, { p with faults := .number a f :: p.faults, status := 1 })

/-- Takes an argument as a text. -/
def takeText (p : Printing) : List Char × Printing :=
  match p.arguments with
  | [] => ([], p)
  | a :: rest => (a.toList, { p with arguments := rest })

/-- A number in a directive: digits or a star that takes an argument. -/
def count (s : List Char) (p : Printing) : Int × List Char × Printing :=
  match s with
  | '*' :: rest =>
    let (n, p) := p.take integer
    (n, rest, p)
  | s => (digitsValue (s.takeWhile isDigit), s.dropWhile isDigit, p)

/-- Writes an argument as the conversion of a letter; the directive's text is for complaints. -/
def convert (l : Layout) (conversion : Char) (directive : String) (p : Printing) : Printing :=
  if conversion = 's' then
    let (s, p) := p.takeText
    p.put (l.text s)
  else if conversion = 'b' then
    let (s, p) := p.takeText
    let (s, isEnd) := unescape s
    { p.put (l.text s) with isEnded := isEnd }
  else if conversion = 'c' then
    let (s, p) := p.takeText
    p.put (l.fill false [] [s.headD '\x00'])
  else if conversion = 'd' ∨ conversion = 'i' then
    let (n, p) := p.take integer
    p.put (l.integer n)
  else if "ouxX".toList.contains conversion then
    let (n, p) := p.take natural
    p.put (l.natural conversion n)
  else if "aAeEfFgG".toList.contains conversion then
    let (x, p) := p.take double
    p.put (l.double conversion x)
  else p.abandon (.directive directive)

/-- Writes what a directive stands for; the text after its percent sign is given. -/
def direct (s : List Char) (p : Printing) : List Char × Printing :=
  let isFlag (c : Char) : Bool := "#-+ 0".toList.contains c
  let flags := s.takeWhile isFlag
  let (width, rest, p) := p.count (s.dropWhile isFlag)
  let flags := if width < 0 then '-' :: flags else flags
  let (precision, rest, p) : Option Nat × List Char × Printing := match rest with
    | '.' :: r =>
      let (n, r, p) := p.count r
      (if n < 0 then none else some n.toNat, r, p)
    | r => (none, r, p)
  match rest with
  | [] => ([], p.abandon (.unfinished (String.ofList ('%' :: s))))
  | c :: after =>
    let directive := String.ofList ('%' :: s.take (s.length - after.length))
    (after, p.convert ⟨flags, width.natAbs, precision⟩ c directive)

/-- One pass over a format. -/
def pass : Nat → List Char → Printing → Printing
  | 0, _, p => p
  | _ + 1, [], p => p
  | fuel + 1, '\\' :: rest, p =>
    let (c, rest) := escape rest
    pass fuel rest (p.put [c])
  | fuel + 1, '%' :: '%' :: rest, p => pass fuel rest (p.put ['%'])
  | fuel + 1, '%' :: rest, p =>
    let (rest, p) := p.direct rest
    if p.isEnded then p else pass fuel rest p
  | fuel + 1, c :: rest, p => pass fuel rest (p.put [c])

/-- Passes over a format until no argument is left, or none is taken. -/
def passes (format : List Char) : Nat → Printing → Printing
  | 0, p => p
  | fuel + 1, p =>
    let after := pass (format.length + 1) format p
    if after.isEnded ∨ after.arguments.isEmpty ∨ after.arguments.length = p.arguments.length
    then after
    else passes format fuel after

/-- All that was written. -/
def text (p : Printing) : List Char := p.output.reverse.flatten

end Printing

/-- Prints arguments as a format says. -/
def printf (format : String) (args : List String) : Printing :=
  Printing.passes format.toList (args.length + 1) ⟨args, [], [], 0, false⟩

end ServiceCall.Shell.Print
