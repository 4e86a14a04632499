import ServiceCall.Text.Utf8
/-!
# Addresses of services

Which texts are addresses that a connection can be opened to: an authority alone, a path
alone, or a scheme with an authority and a path. An authority is a host with an optional
port and user, where a host in brackets may hold colons.
-/

namespace ServiceCall.Http

/-! ## Paths of requests

The path of a request and what follows it up to a fragment: which bytes may stand there,
and what of it is the path itself. -/

/-- The byte lies between two bounds. -/
def within (b : UInt8) (low high : Nat) : Bool := low ≤ b.toNat && b.toNat ≤ high

/-- The byte may stand in a path. -/
def isPathByte (b : UInt8) : Bool :=
  within b 0x21 0x22 || within b 0x24 0x3B || within b 0x3D 0x3D || within b 0x40 0x5F ||
    within b 0x61 0x7B || within b 0x7C 0x7E || within b 0x80 0xFF

/-- The byte may stand in a query. -/
def isQueryByte (b : UInt8) : Bool :=
  within b 0x21 0x21 || within b 0x24 0x3B || within b 0x3D 0x3D || within b 0x3F 0x7E ||
    within b 0x80 0xFF

/-- The bytes before a fragment may stand in a query. -/
def isQuery : Bytes → Bool
  | [] => true
  | b :: rest => if b = 0x23 then true else isQueryByte b && isQuery rest

/-- The bytes are those of a path, with a query and a fragment if there are any. -/
def isPath : Bytes → Bool
  | [] => true
  | b :: rest =>
    if b = 0x3F then isQuery rest
    else if b = 0x23 then true
    else isPathByte b && isPath rest

/-- The path of a request, and the query behind its question mark. -/
structure Target where
  path : String
  query : Option String
  deriving DecidableEq, Repr

/-- What a text with a path names. A fragment is left out. -/
def Target.ofText (s : String) : Target :=
  let whole := s.toList.takeWhile (· ≠ '#')
  let query := match whole.dropWhile (· ≠ '?') with
    | _ :: rest => some (String.ofList rest)
    | [] => none
  ⟨String.ofList (whole.takeWhile (· ≠ '?')), query⟩

/-! ## Addresses of services -/

/-- The byte of an ASCII letter or digit. -/
def isAlphanumeric (b : UInt8) : Bool :=
  within b 0x30 0x39 || within b 0x41 0x5A || within b 0x61 0x7A

/-- The byte of a character. -/
def byteOf (c : Char) : UInt8 := UInt8.ofNat c.toNat

/-- The byte is one of the given characters. -/
def oneOf (chars : String) (b : UInt8) : Bool := (utf8 chars).contains b

/-- The byte may stand in a scheme. -/
def isSchemeByte (b : UInt8) : Bool := isAlphanumeric b || oneOf "+-.~" b

/-- The byte may stand in an authority, beside percent signs. -/
def isAuthorityByte (b : UInt8) : Bool := isAlphanumeric b || oneOf "!$&'()*+,-.:;=@[]_~" b

/-- The byte ends an authority. -/
def endsAuthority (b : UInt8) : Bool := oneOf "/?#" b

/-- What has been seen of an authority. -/
structure AuthorityState where
  colons : Nat
  opened : Bool
  closed : Bool
  percent : Bool
  /-- The last byte was an at sign. -/
  atSign : Bool

/-- Takes one more byte of an authority, unless it may not stand there. -/
def AuthorityState.take (s : AuthorityState) (b : UInt8) : Option AuthorityState :=
  let s := { s with atSign := false }
  if b = byteOf ':' then
    if 8 ≤ s.colons then none else some { s with colons := s.colons + 1 }
  else if b = byteOf '[' then
    if s.percent || s.opened then none else some { s with opened := true }
  else if b = byteOf ']' then
    if !s.opened || s.closed then none
    else some { s with closed := true, colons := 0, percent := false }
  else if b = byteOf '@' then some { s with colons := 0, percent := false, atSign := true }
  else if b = byteOf '%' then some { s with percent := true }
  else if isAuthorityByte b then some s
  else none

/-- The authority may end here. -/
def AuthorityState.mayEnd (s : AuthorityState) : Bool :=
  s.opened == s.closed && s.colons ≤ 1 && !s.atSign && !s.percent

/-- What stands behind an authority. -/
def afterAuthority (s : AuthorityState) : Bytes → Option Bytes
  | [] => if s.mayEnd then some [] else none
  | b :: rest =>
    if endsAuthority b then if s.mayEnd then some (b :: rest) else none
    else match s.take b with
      | some s => afterAuthority s rest
      | none => none

/-- What stands behind the authority at the start of an address. -/
def authority? (address : Bytes) : Option Bytes :=
  afterAuthority ⟨0, false, false, false, false⟩ address

/-- What stands behind the two slashes of a scheme. -/
def slashes? : Bytes → Option Bytes
  | a :: b :: rest => if a = byteOf '/' ∧ b = byteOf '/' then some rest else none
  | _ => none

/-- What stands behind a scheme, with the length of the scheme. -/
def schemeFrom : Nat → Bytes → Option (Nat × Bytes)
  | _, [] => none
  | length, b :: rest =>
    if b = byteOf ':' then (slashes? rest).map (length, ·)
    else if isSchemeByte b then schemeFrom (length + 1) rest
    else none

/-- The longest scheme. -/
def maxSchemeLength : Nat := 64

/-- The longest address. -/
def maxAddressLength : Nat := 65534

/-- The bytes are those of an address. -/
def isAddress (address : Bytes) : Bool :=
  address.length ≤ maxAddressLength &&
    match address with
    | [] => false
    | b :: rest =>
      if b = byteOf '/' then isPath address
      else if b = byteOf '*' ∧ rest = [] then true
      else match schemeFrom 0 address with
        | some (length, rest) =>
          length ≤ maxSchemeLength &&
            match authority? rest with
            | some path => path.length < rest.length && isPath path
            | none => false
        | none => authority? address == some []

end ServiceCall.Http
