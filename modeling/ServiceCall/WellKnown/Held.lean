import ServiceCall.Json.Value
import ServiceCall.Wire.Raw
/-!
# Held JSON values

Three of the well-known types hold JSON values: one any value, one objects, one lists. A JSON
value is put into a raw record, and a raw record is read back as a held value; the last field
of a value counts, but parts of the same kind grow together. Only numbers that are not finite
can be held and have no JSON form.
-/

namespace ServiceCall

open Wire (Raw RawRecord)

namespace Json

mutual

/-- The raw record of the message that holds a JSON value. Numbers become doubles. -/
def toRaw : Json → RawRecord
  | .null => [(1, .varint 0)]
  | .bool b => [(4, .varint (if b then 1 else 0))]
  | .integer i => [(2, .fixed64 (Floating.ofInt Format.double i).toBits)]
  | .float x => [(2, .fixed64 x.toBits)]
  | .string s => [(3, .text s)]
  | .array items => [(6, .record (itemsToRaw items))]
  | .object members => [(5, .record (membersToRaw members))]

/-- The raw record of the message that holds a list. -/
def itemsToRaw : List Json → RawRecord
  | [] => []
  | v :: rest => (1, .record (toRaw v)) :: itemsToRaw rest

/-- The raw record of the message that holds an object. -/
def membersToRaw : List (String × Json) → RawRecord
  | [] => []
  | (key, v) :: rest =>
    (1, .record ((if key.isEmpty then [] else [(1, .text key)]) ++ [(2, .record (toRaw v))])) ::
      membersToRaw rest

end

end Json

/-- A value that a message holds. -/
inductive Held where
  | null
  | double (x : Double)
  | text (s : String)
  | bool (b : Bool)
  | object (members : List (String × Held))
  | list (items : List Held)
  deriving Inhabited

namespace Held

def members : Held → List (String × Held)
  | object members => members
  | _ => []

def items : Held → List Held
  | list items => items
  | _ => []

/-- Puts a member into an object; the value of a key that is there is replaced. -/
def insert (key : String) (v : Held) : List (String × Held) → List (String × Held)
  | [] => [(key, v)]
  | (k, w) :: rest => if k = key then (key, v) :: rest else (k, w) :: insert key v rest

/-- The last text under the number of an entry's key. -/
def entryKey (entry : RawRecord) : String :=
  (entry.filterMap fun
    | (1, .text s) => some s
    | _ => none).getLast?.getD ""

mutual

/-- The value after a field of its message has come. -/
def put (old : Held) (number : Nat) : Raw → Held
  | .varint n => if number = 4 then .bool (n ≠ 0) else if number = 1 then .null else old
  | .fixed64 n => if number = 2 then .double (Floating.ofBits _ n) else old
  | .text s => if number = 3 then .text s else old
  | .record fields =>
    if number = 5 then .object (putMembers old.members fields)
    else if number = 6 then .list (putItems old.items fields)
    else old
  | .fixed32 _ | .bytes _ | .packed _ | .group _ => old

/-- The value after the fields of its message have come. -/
def putAll (old : Held) : List (Nat × Raw) → Held
  | [] => old
  | (number, v) :: rest => putAll (put old number v) rest

/-- The members of an object after the fields of its message have come. -/
def putMembers (members : List (String × Held)) : List (Nat × Raw) → List (String × Held)
  | [] => members
  | (number, v) :: rest => putMembers (putMember members number v) rest

/-- The members of an object after a field of its message has come. -/
def putMember (members : List (String × Held)) (number : Nat) : Raw → List (String × Held)
  | .record entry =>
    if number = 1 then insert (entryKey entry) (entryValue null entry) members else members
  | .varint _ | .fixed64 _ | .fixed32 _ | .text _ | .bytes _ | .packed _ | .group _ => members

/-- The value of an entry. -/
def entryValue (old : Held) : List (Nat × Raw) → Held
  | [] => old
  | (number, v) :: rest => entryValue (if number = 2 then nested old v else old) rest

/-- The value after a message that holds one has come. -/
def nested (old : Held) : Raw → Held
  | .record fields => putAll old fields
  | .varint _ | .fixed64 _ | .fixed32 _ | .text _ | .bytes _ | .packed _ | .group _ => old

/-- The items of a list after the fields of its message have come. -/
def putItems (items : List Held) : List (Nat × Raw) → List Held
  | [] => items
  | (number, v) :: rest =>
    putItems (if number = 1 then items ++ [nested null v] else items) rest

end

mutual

/-- The JSON value of a held one, unless some number in it is not finite. -/
def toJson? : Held → Option Json
  | null => some .null
  | double x => if x.isFinite then some (.float x) else none
  | text s => some (.string s)
  | bool b => some (.bool b)
  | object members => .object <$> membersToJson? members
  | list items => .array <$> itemsToJson? items

def membersToJson? : List (String × Held) → Option (List (String × Json))
  | [] => some []
  | (key, v) :: rest => do return Json.insertMember key (← toJson? v) (← membersToJson? rest)

def itemsToJson? : List Held → Option (List Json)
  | [] => some []
  | v :: rest => do return (← toJson? v) :: (← itemsToJson? rest)

end

end Held

end ServiceCall
