import ServiceCall.Json.Printer
import ServiceCall.Json.Record
/-!
# What a service description declares

A generator reads a description and reports the interfaces and services it declares, each
with the name users know it by and the full name of its compiled definition. The report is
a JSON record; both lists may be left out.
-/

namespace ServiceCall

/-- A declared interface or service. -/
structure Declaration where
  name : String
  fullName : String
  deriving DecidableEq, Repr

/-- The interfaces and services of a description, in the generator's order. -/
structure Declarations where
  interfaces : List Declaration
  services : List Declaration
  deriving DecidableEq, Repr

namespace Declaration

/-- The fields as far as they are given. -/
structure Given where
  name : Option String
  fullName : Option String

/-- How a declaration is read. -/
def record : Json.Record Given where
  names := ["name", "full_name"]
  set
    | "name", v, g => do return { g with name := some (← v.text) }
    | "full_name", v, g => do return { g with fullName := some (← v.text) }
    | _, _, g => .ok g

/-- Both names are required. -/
def Given.complete (g : Given) : Except Json.Category Declaration :=
  match g.name, g.fullName with
  | some name, some fullName => .ok ⟨name, fullName⟩
  | _, _ => .error .unfit

def ofDocument (v : Json.Document) : Except Json.Category Declaration := do
  (← record.read ⟨none, none⟩ v).complete

def toJson (d : Declaration) : Json :=
  .object [("name", .string d.name), ("full_name", .string d.fullName)]

end Declaration

namespace Declarations

/-- The fields as far as they are given. -/
structure Given where
  interfaces : Option (List Declaration)
  services : Option (List Declaration)

/-- How a report is read. -/
def record : Json.Record Given where
  names := ["interfaces", "services"]
  set
    | "interfaces", v, g => do
      return { g with interfaces := some (← v.listOf Declaration.ofDocument) }
    | "services", v, g => do
      return { g with services := some (← v.listOf Declaration.ofDocument) }
    | _, _, g => .ok g

/-- A list that is left out is empty. -/
def Given.complete (g : Given) : Declarations := ⟨g.interfaces.getD [], g.services.getD []⟩

def ofDocument (v : Json.Document) : Except Json.Category Declarations :=
  (record.read ⟨none, none⟩ v).map Given.complete

/-- The report in a generator's output. -/
def read (output : Bytes) : Except Json.Category Declarations :=
  Json.readText ofDocument (Utf8.symbols output)

/-- The report in a text. -/
def parse (s : String) : Except Json.Category Declarations :=
  Json.readText ofDocument (Json.symbols s)

/-- A report as JSON. -/
def toJson (m : Declarations) : Json :=
  .object [("interfaces", .array (m.interfaces.map Declaration.toJson)),
    ("services", .array (m.services.map Declaration.toJson))]

end Declarations

end ServiceCall
