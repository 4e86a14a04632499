import ServiceCall.Message.Json.Read
/-!
# Messages as JSON

A message is written as an object with the declared names of its fields as keys, extensions
by their full names in brackets. Fields that tell being unset apart are written only when
they are set, all others always. What the type of a message does not know is left out.
-/

namespace ServiceCall

namespace Message

/-- The JSON form of an enum value: its name, or its number if it has none. -/
def enumToJson (p : Pool) (name : String) (number : Int) : Json :=
  if name = WellKnown.nullName then .null
  else match (p.referredEnum? name).bind (·.valueOf? number) with
    | some value => .string value.name
    | none => .integer number

/-- The JSON form of a scalar or of an enum value. -/
def scalarToJson (p : Pool) (k : Kind) (v : Value) : Json :=
  match k, v with
  | .scalar s, v => s.toJson v
  | .enumeration name, .integer i => enumToJson p name i
  | _, _ => .null

/-- The kind of the values of a map. -/
def mapValueKind (p : Pool) (f : Field) : Kind :=
  match p.shape f with
  | .map _ value => value
  | .one k | .list k => k

/-- The JSON form of the default of a field. -/
def defaultToJson (p : Pool) (f : Field) : Json :=
  match p.fieldDefault f with
  | .list _ => .array []
  | .map _ => .object []
  | v => scalarToJson p f.kind v

/-- Members of an object in the order in which they came about. -/
abbrev Members := List (String × Json)

/-- The members of fields that are not set but written all the same. -/
def defaultMembers (p : Pool) (type : String) (fields : List (Nat × Value)) : Members :=
  ((p.messageType type).fields.filter fun f =>
    !f.hasPresence && (numbered? f.number fields).isNone).map fun f => (f.name, defaultToJson p f)

/-- What a message of any type that holds a message is written as, given how the held one is
written. -/
abbrev PayloadWriter := Message → Except MappingFault Members

mutual

/-- The members of a message's fields. -/
def toMembers (p : Pool) (payload : PayloadWriter) : Message → Except MappingFault Members
  | .mk type fields _ => do
    let own ← fieldMembers p payload type false fields
    let extending ← fieldMembers p payload type true fields
    return defaultMembers p type fields ++ own ++ extending

/-- The members of fields that are set, either of those of the type itself or of its
extensions. -/
def fieldMembers (p : Pool) (payload : PayloadWriter) (type : String) (extending : Bool) :
    List (Nat × Value) → Except MappingFault Members
  | [] => .ok []
  | (number, v) :: rest =>
    match (p.messageType type).field? number with
    | some f =>
      if extending then fieldMembers p payload type extending rest
      else do
        let j ← valueToJson p payload f.kind (mapValueKind p f) v
        return (f.name, j) :: (← fieldMembers p payload type extending rest)
    | none =>
      match (p.extensionsOf type).find? (·.number == number) with
      | some f =>
        if extending && (f.hasPresence || !f.isDefault p v) then do
          let j ← valueToJson p payload f.kind (mapValueKind p f) v
          return (Pool.extensionKey f, j) :: (← fieldMembers p payload type extending rest)
        else fieldMembers p payload type extending rest
      | none => fieldMembers p payload type extending rest

/-- The JSON form of a value. -/
def valueToJson (p : Pool) (payload : PayloadWriter) (k mapped : Kind) :
    Value → Except MappingFault Json
  | .record m =>
    match WellKnown.ofName? m.type with
    | none => Json.ofMembers <$> toMembers p payload m
    | some .any => Json.ofMembers <$> payload m
    | some w => w.toJson p m
  | .list items => .array <$> itemsToJson p payload k items
  | .map entries => Json.ofMembers <$> entriesToJson p payload mapped entries
  | .bool b => .ok (scalarToJson p k (.bool b))
  | .integer i => .ok (scalarToJson p k (.integer i))
  | .single x => .ok (scalarToJson p k (.single x))
  | .double x => .ok (scalarToJson p k (.double x))
  | .text t => .ok (scalarToJson p k (.text t))
  | .bytes b => .ok (scalarToJson p k (.bytes b))

def itemsToJson (p : Pool) (payload : PayloadWriter) (k : Kind) :
    List Value → Except MappingFault (List Json)
  | [] => .ok []
  | v :: rest => do
    let j ← valueToJson p payload k k v
    return j :: (← itemsToJson p payload k rest)

def entriesToJson (p : Pool) (payload : PayloadWriter) (mapped : Kind) :
    List (Value × Value) → Except MappingFault Members
  | [] => .ok []
  | (key, v) :: rest => do
    let j ← valueToJson p payload mapped mapped v
    return (key.keyText, j) :: (← entriesToJson p payload mapped rest)

end

/-- The JSON form of a message, given how messages of any type are written. -/
def writeJson (p : Pool) (payload : PayloadWriter) (m : Message) : Except MappingFault Json :=
  valueToJson p payload (.message m.type) (.message m.type) (.record m)

/-- The members of a message of any type: the address of the type and the members of the held
message, or that message as a whole if it is of a well-known type. The depth bounds how often
such messages may hold one another. -/
def payloadMembers (p : Pool) : Nat → PayloadWriter
  | 0, _ => .error (.wire .tooDeep)
  | depth + 1, m => do
    let r ← WellKnown.recordOf p m
    let url := (WellKnown.textsIn 1 r).getLast?.getD ""
    match TypeUrl.typeName? url with
    | none => .error (.typeUrl url)
    | some name =>
      if (p.message? name).isNone then .error (.unknownMessage name)
      else
        let held ← (decode p (Pool.bareName name) (WellKnown.bytesIn 2 r)).mapError .wire
        if (WellKnown.ofName? name).isSome then
          let j ← writeJson p (payloadMembers p depth) held
          return [(typeKey, .string url), (payloadKey, j)]
        else
          let members ← toMembers p (payloadMembers p depth) held
          return (typeKey, .string url) :: members

/-- The JSON form of a message. Messages that hold one another in their bytes cannot be nested
deeper than there are bytes. -/
def toJson (p : Pool) (m : Message) : Except MappingFault Json :=
  writeJson p (payloadMembers p ((m.encode p).length + 1)) m

end Message

end ServiceCall
