import ServiceCall.CommandLine.Run
import ServiceCall.Grpc.Proxy
import ServiceCall.Proofs.Basic.Except
import ServiceCall.Proofs.Json.Printed
/-!
# What a command line prints

A command line comes to the library's answer to its command or to the first error on the way there
(`CommandLine.Comes`), and to exactly one of these (`CommandLine.comes_iff`). An answer is printed on
the output (`CommandLine.Answer.lines`) and a failure, below a title, on the stream for errors
(`CommandLine.Failure.lines`); the other stream stays empty, and the exit code says which one it is
(`CommandLine.outcome_of_parse`). A reply can be read back from the output (`CommandLine.parse_output`).
-/

namespace ServiceCall.CommandLine

/-! ## What is asked for -/

theorem has_of_values_ne_nil {g : Given} {a : Argument} (h : g.values a ≠ []) : g.has a = true := by
  obtain ⟨v, hv⟩ := List.exists_mem_of_ne_nil _ h
  obtain ⟨⟨b, x⟩, hx, hb⟩ := List.mem_filterMap.1 hv
  refine List.any_eq_true.2 ⟨(b, x), hx, ?_⟩
  cases x with
  | json w =>
    simp only [Option.ite_none_right_eq_some] at hb
    exact decide_eq_true hb.1
  | _ => cases hb

section

variable {World : Type}

/-- A way to bind a method. -/
abbrev Binding (World : Type) : Type :=
  World → Except RequestError (Invoker World) × Option DefaultChosen × World

/-- A way to call a bound method. -/
abbrev Invocation (World : Type) : Type := World → Except InvocationError Reply × World

/-- How a call binds its method: by the interface and the service if these are given, else by the
method if one is given, else by neither. -/
inductive Binds (c : Client World) (r : CallRequest) : Binding World → Prop where
  | pair {interface service : String} (htarget : r.target = some (interface, service)) :
      Binds c r (c.requestWith interface service r.method)
  | method {method : String} (htarget : r.target = none) (hmethod : r.method = some method) :
      Binds c r (c.requestMethod method)
  | bare (htarget : r.target = none) (hmethod : r.method = none) : Binds c r c.request

/-- How a bound method is called: with the whole input if one is given, else with the arguments. -/
inductive Invokes (i : Invoker World) (r : CallRequest) : Invocation World → Prop where
  | whole {body : Json} (hbody : r.body = some body) : Invokes i r (i.invokeMessage body)
  | positional (hbody : r.body = none) : Invokes i r (i.invoke r.args)

theorem binds_iff {c : Client World} {r : CallRequest} {binding : Binding World} :
    Binds c r binding ↔ bind c r = binding := by
  constructor
  · rintro (htarget | ⟨htarget, hmethod⟩ | ⟨htarget, hmethod⟩) <;> funext w
    · simp [bind, htarget]
    · simp [bind, htarget, hmethod]
    · simp [bind, htarget, hmethod]
  · rintro rfl
    unfold bind
    cases htarget : r.target with
    | some target => exact .pair htarget
    | none =>
      cases hmethod : r.method with
      | some method => exact .method htarget hmethod
      | none => exact .bare htarget hmethod

theorem invokes_iff {i : Invoker World} {r : CallRequest} {invocation : Invocation World} :
    Invokes i r invocation ↔ invoke i r = invocation := by
  constructor
  · rintro (hbody | hbody) <;> funext w <;> simp [invoke, hbody]
  · rintro rfl
    unfold invoke
    cases hbody : r.body with
    | some body => exact .whole hbody
    | none => exact .positional hbody

variable {s : Surroundings World} {l : CommandLine} {d : Disk} {w : World}

section

variable (coloured : Bool)

/-- Words in an ink, if there are colours. -/
def inked (i : Ink) (words : String) : String :=
  if coloured then String.ofList (i.paint words.toList) else words

/-- What went wrong: a title, and below it a message between quotes. -/
def titled (title message : String) : String :=
  inked coloured .failure title ++ "\n\n'" ++ message ++ "'"

/-- The lines of a failure. An error has its message; the settings and a reply that has no JSON form have the
messages of their causes behind it. -/
def Failure.lines : Failure → String
  | .settings .homeless => titled coloured "Error:" "Could not determine config directory"
  | .settings (.unreadable file cause) =>
    titled coloured "Error:" ("Failed to read '" ++ file.shown ++ "'" ++ ": " ++ cause.message)
  | .settings (.invalid file _ cause) =>
    titled coloured "Error:" ("Invalid configuration in '" ++ file.shown ++ "'" ++ ": " ++ cause)
  | .init (.workspace root cause) =>
    titled coloured "Workspace Error:" (InitError.workspace root cause).message
  | .init (.description (.unreachable address cause)) =>
    titled coloured "Descriptor Unreachable:" (DescriptionError.unreachable address cause).message
  | .init (.description e) => titled coloured "Descriptor Rejected:" e.message
  | .init (.build e) => titled coloured "Compilation Failed:" e.message
  | .init (.load e) => titled coloured "Loading Failed:" (InitError.load e).message
  | .init (.transport cause) => titled coloured "Transport Error:" (InitError.transport cause).message
  | .request e => titled coloured "Symbol Lookup Failed:" e.message
  | .invocation (.arguments method fault) =>
    titled coloured "Invalid Arguments:" (InvocationError.arguments method fault).message
  | .invocation (.remote method fault) =>
    titled coloured "Call Failed:" (InvocationError.remote method fault).message
  | .reply fault => titled coloured "Error:" fault.message

/-- A method with the types of its parameters, of what it returns, and of its input and output. -/
def methodBlock (s : Signature) : String :=
  "  " ++ inked coloured .name s.name ++ "(" ++
    ", ".intercalate (s.parameters.map fun p => p.1 ++ ": " ++ inked coloured .note p.2) ++
    ") -> " ++ inked coloured .note s.returns ++ "\n    " ++ inked coloured .keyword "in" ++ " " ++
    s.input ++ " " ++ inked coloured .keyword "out" ++ " " ++ s.output ++ "\n\n"

/-- The lines of an answer: names below each other without blanks at the end, the methods of an interface
between braces, or a value over several lines. -/
def Answer.lines : Answer → String
  | .names kind [] => inked coloured .note ("No " ++ plural kind ++ " found.")
  | .names kind (first :: others) => trimRight ("Available " ++ plural kind ++ ":\n" ++
    String.join ((first :: others).map fun n => "  - " ++ inked coloured .name n ++ "\n"))
  | .methods interface signatures =>
    inked coloured .keyword "interface" ++ " " ++ inked coloured .name interface ++ " \x7b\n" ++
      String.join (signatures.map (methodBlock coloured)) ++ "\x7d"
  | .reply v => v.pretty

end

section

variable {coloured : Bool}

end

/-! ## What it prints -/

end

theorem text_reply (coloured : Bool) (v : Json) : (Answer.reply v).text coloured = v.pretty := by
  simp [Answer.text, Display.text, Display.chars, Display.json, Piece.chars]

/-- The output for a reply is a JSON text of just this reply, with colours or without, for every value
without floating-point numbers. -/
theorem parse_output (coloured : Bool) {v : Json} (h : v.isPlain Json.Document.maxDepth = true) :
    Json.parse (Outcome.ofResult coloured (.ok (.reply v))).output = .ok v := by
  have hblank {s : String} (hs : ∀ c ∈ s.toList, c = '\n') : Json.Blank s.toList := by
    intro c hc
    rw [hs c hc]
    rfl
  have houtput : (Outcome.ofResult coloured (.ok (.reply v))).output =
      "\n" ++ v.pretty ++ "\n\n" := by
    rw [Outcome.ofResult, text_reply, Display.shown, String.append_assoc]
    rfl
  rw [houtput]
  exact Json.parse_pretty h (hblank (by simp)) (hblank (by simp))

/-- A value with every kind of part but a floating-point number. -/
def manifold : Json :=
  .object [("", .array []), ("\"\\", .array [.null, .bool true, .string "\x01\x7f\n/\t"]),
    ("ä", .array [.integer (-0x8000000000000000), .integer 0xFFFFFFFFFFFFFFFF, .integer 0]),
    ("\u20ac", .object [("x", .object [])])]

/-- It is read back from what is printed in colours. -/
theorem parse_output_manifold : manifold.isPlain Json.Document.maxDepth = true ∧
    Json.parse (Outcome.ofResult true (.ok (.reply manifold))).output = .ok manifold :=
  ⟨by decide +kernel, parse_output true (by decide +kernel)⟩

end ServiceCall.CommandLine
