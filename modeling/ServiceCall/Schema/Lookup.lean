import ServiceCall.Schema.Error
import ServiceCall.Schema.Pool
/-!
# Looking a name up

A reference is a full name behind a dot, or a name that is looked for in the scopes around
the place where it stands, from the innermost outwards. Of a dotted name only the first part
is looked for in this way: the first scope in which it names something with members decides,
and the rest has to be there. A definition is only seen from its own file and from the files
to which that file has come by imports; a package belongs to the file that is the first to
name it.
-/

namespace ServiceCall.Lookup

/-- Where a reference stands: the table of names and the files that are seen. -/
structure Scope where
  names : List Definition
  visible : List String

/-- Why a reference leads nowhere. -/
inductive Failure where
  | missing
  | wrongKind (name : String)
  | invisible (name : String)
  | shadowed (name : String)
  deriving DecidableEq, Repr

/-- What a full name stands for, if it is seen and of a wanted kind. -/
def exact (s : Scope) (wanted : DefinitionKind → Bool) (name : String) :
    Except Failure Definition :=
  match s.names.find? (·.name == name) with
  | none => .error .missing
  | some d =>
    if !s.visible.contains d.file then .error (.invisible name)
    else if wanted d.kind then .ok d
    else .error (.wrongKind name)

/-- The scopes around a full name, itself first and the outermost one last. -/
def scopes (scope : String) : List String :=
  let parts := scope.splitOn "."
  if scope.isEmpty then [""]
  else ((List.range parts.length).map fun n => ".".intercalate (parts.take (n + 1))).reverse ++ [""]

/-- Looks for a name without dots. The first failure that is not a missing name is kept. -/
def simple (s : Scope) (wanted : DefinitionKind → Bool) (name : String) :
    Failure → List String → Except Failure Definition
  | failure, [] => .error failure
  | failure, scope :: rest =>
    match exact s wanted (nameWithin scope name) with
    | .ok d => .ok d
    | .error f => simple s wanted name (if failure = .missing then f else failure) rest

/-- A full name stands for something with members, seen or not. -/
def isParent (s : Scope) (name : String) : Bool :=
  (s.names.find? (·.name == name)).any (·.kind.isParent)

/-- Looks for a dotted name. -/
def dotted (s : Scope) (wanted : DefinitionKind → Bool) (first name : String) :
    List String → Except Failure Definition
  | [] => .error .missing
  | scope :: rest =>
    if isParent s (nameWithin scope first) then
      match exact s wanted (nameWithin scope name) with
      | .error .missing => .error (.shadowed (nameWithin scope name))
      | r => r
    else dotted s wanted first name rest

/-- What a reference in a scope stands for. -/
def resolve (s : Scope) (wanted : DefinitionKind → Bool) (scope name : String) :
    Except Failure Definition :=
  match name.toList with
  | '.' :: full => exact s wanted (String.ofList full)
  | _ =>
    match name.splitOn "." with
    | first :: _ :: _ => dotted s wanted first name (scopes scope)
    | _ => simple s wanted name .missing (scopes scope)

/-- The error of a reference that leads nowhere. -/
def Failure.error (refuse : String → SchemaError) (name : String) : Failure → SchemaError
  | missing => .undefined name
  | wrongKind full => refuse full
  | invisible full => .undefined full
  | shadowed full => .shadowed name full

/-- The message that a reference names. -/
def message (s : Scope) (scope name : String) : Except SchemaError String :=
  match resolve s (· == .message) scope name with
  | .ok d => .ok d.name
  | .error f => .error (f.error .notMessage name)

/-- The message or enum that a reference names. -/
def type (s : Scope) (scope name : String) : Except SchemaError Definition :=
  match resolve s (fun k => k == .message || k == .enumeration) scope name with
  | .ok d => .ok d
  | .error f => .error (f.error .notType name)

end ServiceCall.Lookup
