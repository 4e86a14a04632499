import ServiceCall.Client.Basic
import ServiceCall.Configuration
import ServiceCall.Json.Printer
import ServiceCall.Text.Blank
/-!
# What is shown

A text for a terminal is made of pieces, some of them in colour. It is written with its
colours or without them; a piece in colour stands between a sequence that starts its ink and
one that ends all inks. So are shown lists of names, signatures, the methods of an interface,
JSON values, and errors below a title that says what failed.
-/

namespace ServiceCall

/-! ## Coloured text -/

/-- What a piece is coloured for. -/
inductive Ink where
  /-- What went wrong. -/
  | failure
  /-- What something is called. -/
  | name
  /-- What type something has, and what there is nothing of. -/
  | note
  /-- A word that is always there. -/
  | keyword
  deriving DecidableEq, Repr

namespace Ink

/-- The sequence that starts an ink. -/
def start : Ink → List Char
  | failure => "\x1b[1;31m".toList
  | name => "\x1b[32m".toList
  | note => "\x1b[33m".toList
  | keyword => "\x1b[36m".toList

/-- The sequence that ends all inks. -/
def stop : List Char := "\x1b[0m".toList

/-- Text with an ink started again wherever the text itself ends all inks. -/
def restart (i : Ink) : List Char → List Char
  | '\x1b' :: '[' :: '0' :: 'm' :: rest => stop ++ i.start ++ restart i rest
  | c :: rest => c :: restart i rest
  | [] => []

/-- Text that ends no ink needs none to be started again. -/
theorem restart_of_not_mem (i : Ink) (s : List Char) (h : '\x1b' ∉ s) : i.restart s = s := by
  fun_induction restart i s with
  | case1 rest ih => simp at h
  | case2 c rest _ ih => rw [ih fun hc => h (List.mem_cons_of_mem _ hc)]
  | case3 => rfl

/-- Text in an ink. -/
def paint (i : Ink) (s : List Char) : List Char := i.start ++ i.restart s ++ stop

end Ink

/-- A piece of a text for a terminal. -/
inductive Piece where
  | plain (s : String)
  | painted (i : Ink) (s : String)
  deriving DecidableEq, Repr

namespace Piece

/-- The characters of a piece, with colours or without. -/
def chars (coloured : Bool) : Piece → List Char
  | plain s => s.toList
  | painted i s => if coloured then i.paint s.toList else s.toList

end Piece

/-- Without colours a piece is its text. -/
def Piece.bare : Piece → String
  | .plain s => s
  | .painted _ s => s

/-- A text for a terminal. -/
abbrev Display := List Piece

namespace Display

/-- The characters of a text, with colours or without. -/
def chars (coloured : Bool) (d : Display) : List Char := d.flatMap (Piece.chars coloured)

/-- The text, with colours or without. -/
def text (coloured : Bool) (d : Display) : String := String.ofList (d.chars coloured)

/-- A text as it is shown: below an empty line and with the end of its last line. -/
def shown (text : String) : String := "\n" ++ text ++ "\n"

/-- The environment asks for colours whatever shows the text. -/
def isForced (env : Environment) : Bool :=
  match env.get? "CLICOLOR_FORCE" with
  | some v => v ≠ "0"
  | none => false

/-- Whether to write colours, by the environment and by whether a terminal shows the text. -/
def isColoured (env : Environment) (terminal : Bool) : Bool :=
  isForced env ||
    ((env.get? "NO_COLOR").isNone && env.get? "CLICOLOR" ≠ some "0" && terminal)

theorem chars_append (coloured : Bool) (d e : Display) :
    chars coloured (d ++ e) = chars coloured d ++ chars coloured e :=
  List.flatMap_append

end Display

/-! ## Answers and errors -/

/-- The title above an error that kept a client from being made. -/
def InitError.title : InitError → String
  | workspace _ _ => "Workspace Error:"
  | description e => if e.isUnreachable then "Descriptor Unreachable:" else "Descriptor Rejected:"
  | build _ => "Compilation Failed:"
  | load _ => "Loading Failed:"
  | transport _ => "Transport Error:"

/-- The title above an error that kept a method from being bound. -/
def RequestError.title (_ : RequestError) : String := "Symbol Lookup Failed:"

/-- The title above an error that kept a call from being answered. -/
def InvocationError.title : InvocationError → String
  | arguments _ _ => "Invalid Arguments:"
  | remote _ _ => "Call Failed:"

namespace Display

/-- One name of a list. -/
def listed (name : String) : Display := [.plain "  - ", .painted .name name, .plain "\n"]

/-- The lines of a list of names. -/
def nameLines (kind : String) (names : List String) : Display :=
  .plain ("Available " ++ kind ++ ":\n") :: names.flatMap listed

/-- A list of names of a kind, without blank characters at its end. -/
def names (coloured : Bool) (kind : String) (names : List String) : String :=
  if names.isEmpty then text coloured [.painted .note ("No " ++ kind ++ " found.")]
  else trimRight (text coloured (nameLines kind names))

/-- One parameter of a method. -/
def parameter (p : String × String) : Display := [.plain (p.1 ++ ": "), .painted .note p.2]

/-- The signature of a method in one line. -/
def signature (s : Signature) : Display :=
  [.painted .name s.name, .plain "("] ++
    [.plain ", "].intercalate (s.parameters.map parameter) ++
    [.plain ") -> ", .painted .note s.returns]

/-- A method in the block of its interface, with the types of its input and output. -/
def method (s : Signature) : Display :=
  [.plain "  "] ++ signature s ++
    [.plain "\n    ", .painted .keyword "in", .plain (" " ++ s.input ++ " "),
      .painted .keyword "out", .plain (" " ++ s.output ++ "\n\n")]

/-- An interface with its methods. -/
def interface (name : String) (methods : List Signature) : Display :=
  [.painted .keyword "interface", .plain " ", .painted .name name, .plain " \x7b\n"] ++
    methods.flatMap method ++ [.plain "\x7d"]

/-- A JSON value over several lines. -/
def json (v : Json) : Display := [.plain v.pretty]

/-- An error below its title. -/
def failure (title message : String) : Display :=
  [.painted .failure title, .plain ("\n\n'" ++ message ++ "'")]

/-- The error that kept a client from being made. -/
def initError (e : InitError) : Display := failure e.title e.message

/-- The error that kept a method from being bound. -/
def requestError (e : RequestError) : Display := failure e.title e.message

/-- The error that kept a call from being answered. -/
def invocationError (e : InvocationError) : Display := failure e.title e.message

/-- An error with the errors that it comes from, the outermost one first. -/
def errorChain (messages : List String) : Display := failure "Error:" (": ".intercalate messages)

end Display

end ServiceCall
