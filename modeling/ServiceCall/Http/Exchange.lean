import ServiceCall.Http.Address
import ServiceCall.Text.Hex
/-!
# Requests and replies

What a call sends and what comes back. The fields of a reply are found by their names in any
case of letters, the first of several counting.
-/

namespace ServiceCall.Http

/-- Named fields, in their order. -/
abbrev Fields := List (String × String)

/-- A text in lower case, as far as it is ASCII. -/
def lower (s : String) : String := String.ofList (s.toList.map Char.toLower)

/-- The value of a field. -/
def field? (name : String) (fields : Fields) : Option String :=
  (fields.find? fun f => lower f.1 == name).map (·.2)

/-- What a call sends. -/
structure Request where
  verb : String
  target : Target
  headers : Fields
  body : Bytes
  deriving DecidableEq, Repr

/-- What comes back. -/
structure Reply where
  status : Nat
  headers : Fields
  body : Bytes
  /-- The fields behind the body, if it ends with any. -/
  trailers : Option Fields
  deriving DecidableEq, Repr

/-- The reasons that stand behind the numbers of statuses. -/
def reasons : List (Nat × String) :=
  [(100, "Continue"), (101, "Switching Protocols"), (102, "Processing"), (103, "Early Hints"),
    (200, "OK"), (201, "Created"), (202, "Accepted"), (203, "Non Authoritative Information"),
    (204, "No Content"), (205, "Reset Content"), (206, "Partial Content"),
    (207, "Multi-Status"), (208, "Already Reported"), (226, "IM Used"),
    (300, "Multiple Choices"), (301, "Moved Permanently"), (302, "Found"), (303, "See Other"),
    (304, "Not Modified"), (305, "Use Proxy"), (307, "Temporary Redirect"),
    (308, "Permanent Redirect"), (400, "Bad Request"), (401, "Unauthorized"),
    (402, "Payment Required"), (403, "Forbidden"), (404, "Not Found"),
    (405, "Method Not Allowed"), (406, "Not Acceptable"),
    (407, "Proxy Authentication Required"), (408, "Request Timeout"), (409, "Conflict"),
    (410, "Gone"), (411, "Length Required"), (412, "Precondition Failed"),
    (413, "Payload Too Large"), (414, "URI Too Long"), (415, "Unsupported Media Type"),
    (416, "Range Not Satisfiable"), (417, "Expectation Failed"), (418, "I'm a teapot"),
    (421, "Misdirected Request"), (422, "Unprocessable Entity"), (423, "Locked"),
    (424, "Failed Dependency"), (425, "Too Early"), (426, "Upgrade Required"),
    (428, "Precondition Required"), (429, "Too Many Requests"),
    (431, "Request Header Fields Too Large"), (451, "Unavailable For Legal Reasons"),
    (500, "Internal Server Error"), (501, "Not Implemented"), (502, "Bad Gateway"),
    (503, "Service Unavailable"), (504, "Gateway Timeout"), (505, "HTTP Version Not Supported"),
    (506, "Variant Also Negotiates"), (507, "Insufficient Storage"), (508, "Loop Detected"),
    (510, "Not Extended"), (511, "Network Authentication Required")]

/-- A status with its reason. -/
def statusText (status : Nat) : String :=
  toString status ++ " " ++ (reasons.lookup status).getD "<unknown status code>"

/-- The byte that a percent sign and two digits stand for. -/
def escapedByte? (sign x y : UInt8) : Option UInt8 :=
  if sign = 0x25 then do
    let high ← Hex.value? (Char.ofNat x.toNat)
    let low ← Hex.value? (Char.ofNat y.toNat)
    return UInt8.ofNat (16 * high + low)
  else none

/-- The bytes of a text in which bytes may be written as a percent sign and two digits. A
percent sign without digits stands for itself. -/
def percentDecode : Bytes → Bytes
  | b :: x :: y :: rest =>
    match escapedByte? b x y with
    | some v => v :: percentDecode rest
    | none => b :: percentDecode (x :: y :: rest)
  | short => short

end ServiceCall.Http
