import ServiceCall.Schema.Default
import ServiceCall.Schema.Lookup
import ServiceCall.Schema.Names
/-!
# Adding files to a pool

A set of files is added as a whole or not at all. Files whose names the pool has already are
left out; then the others' names are put into the table, and then every reference in them
is resolved and every rule about numbers, defaults and oneofs is checked, file by file and
in the order of their contents. At last the options are read with all extensions known. The
first error is the answer.
-/

namespace ServiceCall

namespace Resolve

/-- What the references of a file are resolved against. -/
structure Context where
  scope : Lookup.Scope
  /-- Every enum, known or new. -/
  enums : List EnumType
  edition : Source.Edition

/-- Numbers that fields may have. -/
def isFieldNumber (n : Int) : Bool :=
  1 ≤ n && n ≤ 536870911 && !(19000 ≤ n && n ≤ 19999)

/-- The range that holds a number. -/
def rangeOf? (n : Int) (ranges : List Source.NumberRange) : Option Source.NumberRange :=
  ranges.find? fun r => r.first ≤ n && n < r.stop

/-- The scalar of a type's number; what is no known number counts as the first one. -/
def scalarOf (code : Int) : Scalar :=
  match code with
  | 2 => .float
  | 3 => .int64
  | 4 => .uint64
  | 5 => .int32
  | 6 => .fixed64
  | 7 => .fixed32
  | 8 => .bool
  | 9 => .string
  | 12 => .bytes
  | 13 => .uint32
  | 15 => .sfixed32
  | 16 => .sfixed64
  | 17 => .sint32
  | 18 => .sint64
  | _ => .double

/-- The kind of a field. A named type decides for itself what it is. -/
def kind (c : Context) (fullName : String) (path : List Nat) (f : Source.Field) :
    Except SchemaError Kind :=
  if f.typeName.isEmpty then
    if f.typeCode = 10 ∨ f.typeCode = 11 ∨ f.typeCode = 14 then
      .error (.missingTypeName (path ++ [6]))
    else .ok (.scalar (scalarOf f.typeCode))
  else do
    let d ← Lookup.type c.scope fullName f.typeName
    if d.kind = .enumeration then .ok (.enumeration d.name)
    else if f.typeCode = 10 then .ok (.group d.name)
    else .ok (.message d.name)

/-- The declared default of a field. -/
def declaredDefault (c : Context) (k : Kind) (f : Source.Field) :
    Except SchemaError (Option Value) :=
  match f.defaultValue with
  | none => .ok none
  | some s =>
    match Default.value? c.enums s k with
    | some v => .ok (some v)
    | none => .error (.defaultValue s (Default.typeName k))

/-- The name of a field in JSON when none is given: underscores go, and what follows one is
written large. -/
def camelCase : List Char → List Char
  | [] => []
  | '_' :: rest =>
    match rest with
    | [] => []
    | c :: rest => if c = '_' then camelCase (c :: rest) else c.toUpper :: camelCase rest
  | c :: rest => c :: camelCase rest

/-- A field tells being unset from holding its default. -/
def hasPresence (edition : Source.Edition) (k : Kind) (f : Source.Field) : Bool :=
  f.proto3Optional || f.oneofIndex.isSome ||
    (f.label ≠ .repeated &&
      match k with
      | .message _ | .group _ => true
      | _ => edition = .proto2)

/-- A list of the field is written as one run. -/
def isPacked (edition : Source.Edition) (k : Kind) (f : Source.Field) : Bool :=
  f.label = .repeated && k.isPackable && f.packed.getD (edition = .proto3)

/-- The field of a declaration whose kind is known; it is in no oneof. -/
def complete (c : Context) (fullName jsonName : String) (k : Kind) (fallback : Option Value)
    (presence : Bool) (f : Source.Field) : Field where
  name := f.name
  fullName
  number := f.number.toNat
  jsonName
  kind := k
  isRepeated := f.label = .repeated
  hasPresence := presence
  isPacked := isPacked c.edition k f
  oneofIndex := none
  declaredDefault := fallback

/-- Checks a condition. -/
def check (condition : Bool) (e : SchemaError) : Except SchemaError Unit :=
  if condition then .ok () else .error e

/-- The numbers that a message has set aside. -/
structure Numbers where
  message : String
  reserved : List Source.NumberRange
  extensionRanges : List Source.NumberRange

/-- Checks the number of a field or an extension against the message that it is for. Whether the
number has to be one for extensions is said by the declaration naming a message to extend. -/
def number (n : Numbers) (f : Source.Field) : Except SchemaError Unit := do
  check (isFieldNumber f.number) (.fieldNumber f.number)
  match rangeOf? f.number n.reserved with
  | some r => .error (.reservedNumber f.number r.first (r.stop - 1))
  | none => .ok ()
  match f.extendee, rangeOf? f.number n.extensionRanges with
  | none, some r => .error (.extensionNumber f.number r.first (r.stop - 1))
  | some _, none => .error (.noExtensionNumber n.message f.number)
  | _, _ => .ok ()

/-- Resolves a field of a message whose earlier fields are given. -/
def field (c : Context) (m : Source.MessageType) (full : String) (path : List Nat)
    (earlier : List Field) (f : Source.Field) : Except SchemaError Field := do
  number ⟨full, m.reserved, m.extensionRanges⟩ f
  let fullName := nameWithin full f.name
  let k ← kind c fullName path f
  let fallback ← declaredDefault c k f
  match f.oneofIndex with
  | some i => check (0 ≤ i && i < m.oneofs.length) .oneofIndex
  | none => .ok ()
  check (!earlier.any (·.number == f.number.toNat)) (.numberUsed f.number)
  let jsonName := f.jsonName.getD (String.ofList (camelCase f.name.toList))
  check (!earlier.any (·.jsonName == jsonName)) (.jsonNameUsed (f.jsonName.getD ""))
  return { complete c fullName jsonName k fallback (hasPresence c.edition k f) f with
    oneofIndex := f.oneofIndex.map Int.toNat }

/-- Resolves fields in their order. -/
def fields (c : Context) (m : Source.MessageType) (full : String) (path : List Nat) :
    Nat → List Field → List Source.Field → Except SchemaError (List Field)
  | _, earlier, [] => .ok earlier
  | index, earlier, f :: rest => do
    let resolved ← field c m full (path ++ [2, index]) earlier f
    fields c m full path (index + 1) (earlier ++ [resolved]) rest

/-- Checks the values of an enum. -/
def enumValues (e : Source.Enumeration) : List Int → List EnumValue → Except SchemaError Unit
  | _, [] => .ok ()
  | seen, v :: rest => do
    match e.reserved.find? fun r => r.first ≤ v.number && v.number ≤ r.stop with
    | some r => .error (.reservedEnumNumber v.number r.first r.stop)
    | none => .ok ()
    check (e.allowAlias || !seen.contains v.number) (.enumNumberUsed v.number)
    enumValues e (v.number :: seen) rest

/-- Resolves an extension. It is in no oneof, and one that is no list tells being unset from
holding its default. -/
def extension (c : Context) (numbers : String → Numbers) (scope : String) (path : List Nat)
    (f : Source.Field) : Except SchemaError Extension := do
  let fullName := nameWithin scope f.name
  let extendee ← Lookup.message c.scope fullName (f.extendee.getD "")
  number (numbers extendee) f
  let k ← kind c fullName path f
  let fallback ← declaredDefault c k f
  let jsonName := "[" ++ fullName ++ "]"
  return ⟨complete c fullName jsonName k fallback (f.label ≠ .repeated) f, extendee⟩

/-- Resolves extensions in their order; `tag` is their place in the path. -/
def extensions (c : Context) (numbers : String → Numbers) (scope : String)
    (path : List Nat) (tag : Nat) : Nat → List Source.Field → Except SchemaError (List Extension)
  | _, [] => .ok []
  | index, f :: rest => do
    let x ← extension c numbers scope (path ++ [tag, index]) f
    return x :: (← extensions c numbers scope path tag (index + 1) rest)

mutual

/-- Resolves a message with what it holds. -/
def message (c : Context) (numbers : String → Numbers) (scope : String)
    (path : List Nat) : Source.MessageType → Except SchemaError (List MessageType × List Extension)
  | ⟨name, declared, oneofs, messages, enums, exts, extensionRanges, reserved, mapEntry⟩ => do
    let full := nameWithin scope name
    let m : Source.MessageType :=
      ⟨name, declared, oneofs, messages, enums, exts, extensionRanges, reserved, mapEntry⟩
    let own ← fields c m full path 0 [] declared
    let (nested, nestedExts) ← messageList c numbers full (path ++ [3]) 0 messages
    enums.forM fun e => enumValues e [] e.values
    let ownExts ← extensions c numbers full path 6 0 exts
    return (⟨name, full, own, oneofs, mapEntry, extensionRanges, reserved⟩ :: nested,
      nestedExts ++ ownExts)

def messageList (c : Context) (numbers : String → Numbers) (scope : String)
    (path : List Nat) : Nat → List Source.MessageType →
      Except SchemaError (List MessageType × List Extension)
  | _, [] => .ok ([], [])
  | index, m :: rest => do
    let (ms, xs) ← message c numbers scope (path ++ [index]) m
    let (ms', xs') ← messageList c numbers scope path (index + 1) rest
    return (ms ++ ms', xs ++ xs')

end

/-- Resolves a service. -/
def service (c : Context) (package : String) (s : Source.Service) : Except SchemaError Service := do
  let full := nameWithin package s.name
  let methods ← s.methods.mapM fun m => do
    let fullName := nameWithin full m.name
    let input ← Lookup.message c.scope fullName m.input
    let output ← Lookup.message c.scope fullName m.output
    return (⟨m.name, fullName, input, output, m.clientStreaming, m.serverStreaming⟩ : Method)
  return ⟨s.name, full, methods⟩

/-- The file with what it passes on. -/
def poolFile (f : Source.File) : PoolFile where
  name := f.name
  dependencies := f.dependencies
  publicDependencies := f.publicDependencies.filterMap fun i =>
    if 0 ≤ i then f.dependencies[i.toNat]? else none

/-- The files that a file passes on. -/
def passedOn (files : List PoolFile) (name : String) : List String :=
  match files.find? (·.name == name) with
  | some f => f.publicDependencies
  | none => []

/-- The files that are seen from a file: itself and its imports. With each import come the files
that are passed on by any file then seen, itself left aside. -/
def visible (files : List PoolFile) (f : Source.File) : List String :=
  f.name :: f.dependencies.foldl (fun seen d =>
    let seen := seen ++ [d]
    (seen ++ seen.flatMap (passedOn files)).eraseDups) []

/-- Checks the imports of a file. -/
def imports (files : List PoolFile) (f : Source.File) : Except SchemaError Unit := do
  f.dependencies.forM fun d => check (files.any (·.name == d)) (.missingImport d)
  (f.publicDependencies ++ f.weakDependencies).forM fun i =>
    check (0 ≤ i && i < f.dependencies.length) .importIndex

/-- What a file adds to a pool. -/
structure Additions where
  messages : List MessageType
  services : List Service
  extensions : List Extension

/-- Resolves a file. -/
def file (files : List PoolFile) (names : List Definition) (enums : List EnumType)
    (numbers : String → Numbers) (f : Source.File) :
    Except SchemaError Additions := do
  imports files f
  let c : Context := ⟨⟨names, visible files f⟩, enums, f.edition⟩
  let (messages, exts) ← messageList c numbers f.package [4] 0 f.messages
  f.enums.forM fun e => enumValues e [] e.values
  let services ← f.services.mapM (service c f.package)
  let topExts ← extensions c numbers f.package [] 7 0 f.extensions
  return ⟨messages, services, exts ++ topExts⟩

end Resolve

namespace Pool

/-- Options can be read as messages of the pool, which may know extensions of them. Where the
pool does not know their type nothing is asked of them. -/
def readsOptions (p : Pool) (type : String) (options : Wire.RawRecord) : Bool :=
  let name := "google.protobuf." ++ type
  match p.message? name with
  | none => true
  | some _ => (Wire.read p.layout name (Wire.Raw.writeFields options)).isOk

/-- The pool with a set of files. -/
def add (p : Pool) (set : List Source.File) : Except SchemaError Pool := do
  let fresh := set.filter fun f => !p.files.any (·.name == f.name)
  let names ← Names.files [] fresh p.names
  let files := p.files ++ fresh.map Resolve.poolFile
  let enums := p.enums ++ fresh.flatMap fun f =>
    Names.enumTypes f.package f.enums ++ Names.enumsOfList f.package f.messages
  let declared := fresh.flatMap fun f => Names.messagesOfList f.package f.messages
  let numbers (name : String) : Resolve.Numbers :=
    match declared.find? (·.1 == name) with
    | some (_, m) => ⟨name, m.reserved, m.extensionRanges⟩
    | none =>
      let m := p.messageType name
      ⟨name, m.reserved, m.extensionRanges⟩
  let additions ← fresh.mapM (Resolve.file files names enums numbers)
  let pool : Pool := {
    files, names, enums
    messages := p.messages ++ additions.flatMap (·.messages)
    services := p.services ++ additions.flatMap (·.services)
    extensions := p.extensions ++ additions.flatMap (·.extensions) }
  fresh.forM fun f => f.options.forM fun (type, options) =>
    Resolve.check (pool.readsOptions type options) .undecodable
  return pool

/-- The pool with the files of a file set given as bytes. -/
def addSet (p : Pool) (bytes : Bytes) : Except SchemaError Pool :=
  match Source.FileSet.read bytes with
  | .ok set => p.add set
  | .error _ => .error .undecodable

end Pool

end ServiceCall
