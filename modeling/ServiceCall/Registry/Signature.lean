import ServiceCall.Schema.Pool
/-!
# Signatures

How a method looks to someone who calls it: the fields of its input as parameters, and as
what it returns the only field of its output, or the output itself if that has none or
several.
-/

namespace ServiceCall

/-- The signature of a method. -/
structure Signature where
  name : String
  /-- Names with types. -/
  parameters : List (String × String)
  returns : String
  /-- The full names of the input and output types. -/
  input : String
  output : String
  deriving DecidableEq, Repr, Inhabited

namespace Signature

/-- The type of a field as it is written. -/
def typeText (p : Pool) (f : Field) : String :=
  match p.mapEntry? f with
  | some entry =>
    let part (number : Nat) : String := ((entry.field? number).map (·.kind.name)).getD ""
    "map<" ++ part 1 ++ ", " ++ part 2 ++ ">"
  | none => if f.isRepeated then "repeated " ++ f.kind.name else f.kind.name

/-- The only field of a message type. -/
def onlyField? (t : MessageType) : Option Field :=
  match t.fields with
  | [f] => some f
  | _ => none

/-- What a method returns, by its output type. -/
def returnsText (p : Pool) (output : MessageType) : String :=
  match onlyField? output with
  | some f => typeText p f
  | none => output.fullName

/-- The signature of a method of a pool. -/
def ofMethod (p : Pool) (m : Method) : Signature where
  name := m.name
  parameters := (p.messageType m.input).fields.map fun f => (f.name, typeText p f)
  returns := returnsText p (p.messageType m.output)
  input := m.input
  output := m.output

/-- The parameters as they are written. -/
def parametersText (ps : List (String × String)) : String :=
  ", ".intercalate (ps.map fun (name, type) => name ++ ": " ++ type)

/-- The signature in one line. -/
def text (s : Signature) : String :=
  s.name ++ "(" ++ parametersText s.parameters ++ ") -> " ++ s.returns

end Signature

end ServiceCall
