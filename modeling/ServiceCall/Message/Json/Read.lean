import ServiceCall.Message.Json.WellKnown
import ServiceCall.WellKnown.Basic
/-!
# Messages from JSON

A message is an object. A member's key is the JSON name of a field, its declared name, or an
extension's full name in brackets, and is looked for in this order. Members are taken in the
order of their keys, and the first one that does not fit is the reason to refuse the whole.
Null leaves a field unset, unless null is a value of its type.
-/

namespace ServiceCall

/-- The shape of a field's values. -/
inductive Shape where
  | one (k : Kind)
  | list (k : Kind)
  | map (key value : Kind)
  deriving DecidableEq, Repr

namespace Pool

/-- The shape of a field's values. -/
def shape (p : Pool) (f : Field) : Shape :=
  match p.mapEntry? f with
  | some entry =>
    let part (number : Nat) : Kind := ((entry.field? number).map (·.kind)).getD (.scalar .string)
    .map (part 1) (part 2)
  | none => if f.isRepeated then .list f.kind else .one f.kind

/-- The key of an extension in JSON. -/
def extensionKey (f : Field) : String := "[" ++ f.fullName ++ "]"

/-- The field that a key of a JSON object names. -/
def fieldOfKey? (p : Pool) (type key : String) : Option Field :=
  (p.messageType type).fields.find? (·.jsonName == key) <|>
    (p.messageType type).fields.find? (·.name == key) <|>
    (p.extensionsOf type).find? (extensionKey · == key)

/-- What null makes of a field: the values of two types may be null, and a list or a single
field of such a type then holds that one value. -/
def nullValue (p : Pool) (f : Field) : Except MappingFault (Option Value) :=
  match p.shape f with
  | .map _ _ => .ok none
  | .one k | .list k =>
    match k with
    | .message name =>
      if name = WellKnown.valueName then
        (fun m => some (.record m)) <$> Message.ofRaw p name (Json.toRaw .null)
      else .ok none
    | .enumeration name => .ok (if name = WellKnown.nullName then some (.integer 0) else none)
    | _ => .ok none

/-- Another field of the oneof is set already, or the field itself. -/
def oneofTaken? (p : Pool) (m : Message) (f : Field) : Option String :=
  match f.oneofIndex with
  | none => none
  | some i =>
    let t := p.messageType m.type
    if t.declared.any fun g => g.oneofIndex == some i && m.has p g then t.oneofs[i]? else none

/-- The message with a field set, unless its oneof is. -/
def putOnce (p : Pool) (m : Message) (f : Field) (v : Value) : Except MappingFault Message :=
  match p.oneofTaken? m f with
  | some name => .error (.oneof name)
  | none => .ok (m.put p f v)

end Pool

namespace Message

/-- The key under which a message of any type says its type. -/
def typeKey : String := "@type"

/-- The key under which a message of any type holds one of a well-known type. -/
def payloadKey : String := "value"

/-- The number of an enum value. -/
def enumOfJson (p : Pool) (name : String) (v : Json) : Except MappingFault Value :=
  if name = WellKnown.nullName then
    match v with
    | .null => .ok (.integer 0)
    | .string s => if s = "NULL_VALUE" then .ok (.integer 0) else .error .notNull
    | v => .error (.kind v .null)
  else
    match v with
    | .string s =>
      match (p.referredEnum? name).bind (·.valueNamed? s) with
      | some value => .ok (.integer value.number)
      | none => .error (.enumValue s)
    | .integer i => .integer <$> IntegerRange.int32.ofJson .enumeration (.integer i)
    | v => .error (.kind v .enumeration)

/-- The type that a message of any type says it is of: the address and the full name. -/
def payloadType (p : Pool) (members : List (String × Json)) :
    Except MappingFault (String × String) :=
  match Json.member? typeKey members with
  | none => .error .noTypeUrl
  | some (.string url) =>
    match TypeUrl.typeName? url with
    | none => .error (.typeUrl url)
    | some name =>
      if (p.message? name).isSome then .ok (url, name) else .error (.unknownMessage name)
  | some v => .error (.kind v .string)

/-- The message of any type that holds the given one. -/
def pack (p : Pool) (url : String) (m : Message) : Except MappingFault Message :=
  let bytes := m.encode p
  ofRaw p "google.protobuf.Any"
    ((if url.isEmpty then [] else [(1, .text url)]) ++
      (if bytes.isEmpty then [] else [(2, .bytes bytes)]))

/-- The value of a shape that a JSON value stands for whose parts are not themselves values of
fields. -/
def leafOfJson (p : Pool) (shape : Shape) (v : Json) : Except MappingFault Value :=
  match shape with
  | .list _ => .error (.kind v .list)
  | .map _ _ => .error (.kind v .object)
  | .one (.scalar s) => s.ofJson v
  | .one (.enumeration name) => enumOfJson p name v
  | .one (.message name) | .one (.group name) =>
    match WellKnown.ofName? name with
    | none => .error (.kind v .object)
    | some w => do return .record (← ofRaw p name (← w.rawOfJson v))

mutual

/-- The value of a shape that a JSON value stands for. -/
def valueOfJson (p : Pool) (shape : Shape) : Json → Except MappingFault Value
  | .object members =>
    match shape with
    | .map (.scalar key) value => .map <$> entriesOfJson p key value [] members
    | .one (.message name) | .one (.group name) =>
      match WellKnown.ofName? name with
      | none => .record <$> membersOfJson p false (.empty name) members
      | some .any => do
        let (url, payload) ← payloadType p members
        if (WellKnown.ofName? payload).isSome then
          match ← payloadOfJson p payload members with
          | none => .error .noPayload
          | some m =>
            match members.find? fun (key, _) => key ≠ typeKey ∧ key ≠ payloadKey with
            | some (key, _) => .error (.unknownField key)
            | none => .record <$> pack p url m
        else
          .record <$> pack p url (← membersOfJson p true (.empty (Pool.bareName payload)) members)
      | some _ => leafOfJson p shape (.object members)
    | _ => leafOfJson p shape (.object members)
  | .array items =>
    match shape with
    | .list k => .list <$> itemsOfJson p k items
    | _ => leafOfJson p shape (.array items)
  | v => leafOfJson p shape v

/-- The values of a list. -/
def itemsOfJson (p : Pool) (k : Kind) : List Json → Except MappingFault (List Value)
  | [] => .ok []
  | v :: rest => do
    let value ← valueOfJson p (.one k) v
    return value :: (← itemsOfJson p k rest)

/-- The entries of a map; two keys may stand for the same one, of which the last counts. -/
def entriesOfJson (p : Pool) (key : Scalar) (value : Kind) (entries : List (Value × Value)) :
    List (String × Json) → Except MappingFault (List (Value × Value))
  | [] => .ok entries
  | (k, v) :: rest => do
    let k ← key.ofKey k
    let v ← valueOfJson p (.one value) v
    entriesOfJson p key value (Value.insertEntry k v entries) rest

/-- The message with the fields set that members stand for. In a message of any type the
member that says the type is passed over; those before it are set aside until it comes. -/
def membersOfJson (p : Pool) (passType : Bool) (m : Message) :
    List (String × Json) → Except MappingFault Message
  | [] => .ok m
  | (key, v) :: rest =>
    if passType ∧ key = typeKey then membersOfJson p passType m rest
    else match p.fieldOfKey? m.type key with
      | none => .error (.unknownField key)
      | some f => do
        let value? ← Except.mapError (fun e => if passType ∧ key < typeKey then e.later else e)
          (match v with
            | .null => p.nullValue f
            | v => some <$> valueOfJson p (p.shape f) v)
        match value? with
        | none => membersOfJson p passType m rest
        | some value => membersOfJson p passType (← p.putOnce m f value) rest

/-- The message of a well-known type that the members of a message of any type hold. -/
def payloadOfJson (p : Pool) (type : String) :
    List (String × Json) → Except MappingFault (Option Message)
  | [] => .ok none
  | (key, v) :: rest =>
    if key ≠ payloadKey then payloadOfJson p type rest
    else do
      match ← valueOfJson p (.one (.message type)) v with
      | .record m => return some m
      | _ => return none

end

/-- What a JSON value makes of a field: its value, or nothing if it leaves the field unset. -/
def fieldOfJson (p : Pool) (f : Field) (v : Json) : Except MappingFault (Option Value) :=
  match v with
  | .null => p.nullValue f
  | v => some <$> valueOfJson p (p.shape f) v

/-- The message of a type that a JSON value stands for. -/
def ofJson (p : Pool) (type : String) (v : Json) : Except MappingFault Message := do
  match ← valueOfJson p (.one (.message type)) v with
  | .record m => return m
  | _ => return .empty type

end Message

end ServiceCall
