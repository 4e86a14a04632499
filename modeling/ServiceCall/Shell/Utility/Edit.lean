import ServiceCall.Shell.Editor.Reader
import ServiceCall.Shell.Editor.Run
import ServiceCall.Shell.Utility.Path
/-!
# The line editor

Files edited by a script, to the output or in their places.
-/

namespace ServiceCall.Shell.Utility

/-- Arguments in which editing in place is asked for in words. -/
def inPlace (args : List String) : List String :=
  args.flatMap fun a =>
    match a.toList with
    | '-' :: cs =>
      let flags := cs.takeWhile fun c => "nErsuz".toList.contains c
      match cs.drop flags.length with
      | 'i' :: suffix =>
        (if flags.isEmpty then [] else ["-" ++ String.ofList flags]) ++
          ["--in-place=" ++ String.ofList suffix]
      | _ => [a]
    | _ => [a]

/-- The texts of the script, and the files to edit. -/
def editorTexts (g : Given) : Work (Except String (List String × List String)) := do
  let collected ← g.options.foldlM (fun (acc : Except String (List String)) (key, value) => do
    match acc, key with
    | .error e, _ => return .error e
    | .ok ts, "e" => return .ok (ts ++ [value])
    | .ok ts, "f" =>
      match ← textOf value with
      | .ok s => return .ok (ts ++ [String.ofList (Octets.trimEnd s)])
      | .error e => return .error ("couldn't open file " ++ value ++ ": " ++ e.reason)
    | acc, _ => return acc) (.ok [])
  return collected.map fun ts =>
    if ts.isEmpty then ([g.operands.headD ""], g.operands.drop 1) else (ts, g.operands)

/-- A label that is jumped to and does not exist. -/
def missingLabel? (program : List Editor.Command) : Option String :=
  program.findSome? fun c =>
    let missing (name : String) : Option String :=
      if (Editor.target? program name).isNone then some name else none
    match c.action with
    | .jump name => missing name
    | .jumpIf _ name => missing name
    | _ => none

/-- Writes the files that a script has written to. -/
def writeEdited (name : String) (files : List (String × List Char)) : Work Nat :=
  Work.worst files fun (path, s) => do
    match ← Work.writeFile path s with
    | .ok () => return 0
    | .error e =>
      Work.complain (name ++ ": couldn't open file " ++ path ++ ": " ++ e.reason)
      return 4

/-- Edits each of some files on its own, in its place or to the output. -/
def editEach (name : String) (t : Editor.Setting) (suffix? : Option String)
    (paths : List String) : Work Nat :=
  Work.worst paths fun path => do
    let d := (← get).disk
    match ← textOf path with
    | .error .isDirectory =>
      Work.complain (name ++ ": couldn't edit " ++ path ++ ": not a regular file")
      return 4
    | .error e =>
      Work.complain (name ++ ": can't read " ++ path ++ ": " ++ e.reason)
      return 2
    | .ok s =>
      match Editor.edit t (Editor.linesOf path s) with
      | .error message =>
        Work.complain (name ++ ": -e expression #1, char 0: " ++ message)
        return 1
      | .ok r =>
        match suffix? with
        | none => Work.put r.text
        | some suffix =>
          unless suffix.isEmpty do
            let _ ← Work.writeFile (path ++ suffix) s
          let isRunnable := match d.entry path with
            | .ok (.file _ x) => x
            | _ => false
          let _ ← Work.writeFile path r.text
          let _ ← Work.change fun d => d.setExecutable path isRunnable
        return max r.status (← writeEdited name r.files)

/-- Edits files as one text. A directory ends it. -/
def editAll (name : String) (t : Editor.Setting) (paths : List String) : Work Nat := do
  let (status, lines) ← paths.foldlM (fun (status, lines) path => do
    if status = 4 then return (status, lines)
    match ← textOf path with
    | .ok s => return (status, lines ++ Editor.linesOf path s)
    | .error .isDirectory =>
      Work.complain (name ++ ": read error on " ++ path ++ ": Is a directory")
      return (4, lines)
    | .error e =>
      Work.complain (name ++ ": can't read " ++ path ++ ": " ++ e.reason)
      return (2, lines)) (0, ([] : List Editor.Line))
  match Editor.edit t lines with
  | .error message =>
    Work.complain (name ++ ": -e expression #1, char 0: " ++ message)
    return 1
  | .ok r =>
    Work.put r.text
    let written ← writeEdited name r.files
    return if r.status ≠ 0 then r.status else max status written

/-- Edits files by a script. -/
def sed : Utility := fun start args =>
  withOptions ⟨"nEre:f:suzl:", [("quiet", "n", .nothing), ("silent", "n", .nothing),
      ("expression", "e", .required), ("file", "f", .required), ("in-place", "i", .optional),
      ("regexp-extended", "E", .nothing), ("separate", "s", .nothing),
      ("posix", "posix", .nothing), ("unbuffered", "u", .nothing), ("null-data", "z", .nothing),
      ("line-length", "l", .required)]⟩ true 1 (fun _ name g => do
    let fault (status : Nat) (message : String) : Work ExitStatus := do
      Work.complain (name ++ ": " ++ message)
      return .code status
    if g.operands.isEmpty ∧ !g.has "e" ∧ !g.has "f" then
      Work.complain ("Usage: " ++ name ++
        " [OPTION]... \x7bscript-only-if-no-other-script\x7d [input-file]...")
      return .code 1
    else
      match ← editorTexts g with
      | .error message => fault 4 message
      | .ok (texts, operands) =>
        let dialect : Regex.Dialect := if g.has "E" ∨ g.has "r" then .extended else .basic
        match Editor.readScript dialect texts with
        | .error message => fault 1 message
        | .ok program =>
          match missingLabel? program with
          | some label => fault 4 ("can't find label for jump to \x60" ++ label ++ "'")
          | none =>
            let d := (← get).disk
            let isQuiet := g.has "n" || "#n\n".toList.isPrefixOf ((texts.headD "") ++ "\n").toList
            let read (path : String) : List Char :=
              ((d.read path).toOption.map Octets.ofBytes).getD []
            let t : Editor.Setting := ⟨program, isQuiet, read⟩
            let paths := if operands.isEmpty then ["-"] else operands
            return .code (← if g.has "i" ∨ g.has "s" then editEach name t (g.value? "i") paths
              else editAll name t paths)) start
    (args.take 1 ++ inPlace (args.drop 1))

end ServiceCall.Shell.Utility
