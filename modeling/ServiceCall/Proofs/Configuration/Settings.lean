import ServiceCall.CommandLine.Settings
import ServiceCall.Proofs.Disk.Path
import ServiceCall.Proofs.Json.Record
/-!
# Settings that are written down

What a text says about settings are the values of the keys it has, whatever their order, whatever the
blanks around them and whatever other members there are (`Content.Written`). Such a text is read as
these values, with the defaults of the environment for the keys it does not have
(`Content.Written.parse`). The text that settings are kept as has every key, so no environment shows
through. There is one as long as a text stands for each of their paths.

The settings for a command line come in three layers: what the command line says, what the file says,
and the defaults. Each field is that of the first layer that has it (`layered`), whatever the other
fields are; only the include directories of the first two layers are put together. Which file that is
depends on the user's home directory unless the command line names it (`Configuration.Locates`).
-/

namespace ServiceCall

open Json (Document)
open Json.Document (ofText ofTexts ofObject)

/-- The path of a text is read from it. -/
theorem Path.ofDocument_ofText (t : String) : Path.ofDocument (Document.ofText t) = .ok (Path.ofText t) := by
  rw [Path.ofDocument, Document.text_ofText]
  rfl

namespace GeneratorCommand

/-- What a text says about a command: the values of the keys it has. -/
structure Content where
  program : Option String
  arguments : Option (List String)

namespace Content

/-- The fields that are given by a text. -/
def given (c : Content) : Given := ⟨c.program.map Path.ofText, c.arguments⟩

/-- The members for the keys that a text has. -/
def members (c : Content) : List (String × Document) :=
  Json.optional "program" ofText c.program ++ Json.optional "args" ofTexts c.arguments

theorem keys_members (c : Content) : (c.members.map (·.1)).Sublist record.names := by
  rw [members, List.map_append]
  exact Json.keys_optional.append Json.keys_optional

theorem distinct_members (c : Content) : (c.members.map (·.1)).Nodup :=
  c.keys_members.nodup (by decide)

end Content

/-- The fields that members give. -/
def Given.ofMembers (ms : List (String × Document)) : Given where
  program := Json.field Path.ofDocument "program" ms
  arguments := Json.field (Document.listOf Document.text) "args" ms

theorem Content.ofMembers_members (c : Content) : Given.ofMembers c.members = c.given := by
  have hprogram : Json.field Path.ofDocument "program" c.members = c.program.map Path.ofText :=
    Json.field_eq_map (by simp [members, Json.member?_append]) fun t _ => Path.ofDocument_ofText t
  have harguments : Json.field (Document.listOf Document.text) "args" c.members = c.arguments :=
    Json.field_eq (by simp [members, Json.member?_append]) Document.listOf_ofTexts
  rw [Given.ofMembers, hprogram, harguments, given]

theorem tracks : record.Tracks Given.ofMembers := by
  rintro ⟨k, v⟩ before hname ⟨s, hs⟩
  simp only [record, List.mem_cons, List.not_mem_nil, or_false] at hname
  obtain rfl | rfl := hname
  · obtain ⟨p, hp, -⟩ := Except.bind_eq_ok.1 hs
    have hset : record.set "program" v (.ofMembers before) =
      Path.ofDocument v >>= fun p => .ok { Given.ofMembers before with program := some p } := rfl
    rw [hset, hp, Given.ofMembers, Given.ofMembers, Json.field_cons_self hp,
      Json.field_cons_ne (by decide)]
    rfl
  · obtain ⟨as, has, -⟩ := Except.bind_eq_ok.1 hs
    have hset : record.set "args" v (.ofMembers before) =
      v.listOf Document.text >>= fun as => .ok { Given.ofMembers before with arguments := some as } := rfl
    rw [hset, has, Given.ofMembers, Given.ofMembers, Json.field_cons_self has,
      Json.field_cons_ne (by decide)]
    rfl

/-- A command is read from an object that lists its members, with the defaults for what is not given. -/
theorem ofDocument_of_lists {c : Content} {gs : List (String × Document)}
    (h : record.Lists c.members gs) (hskip : ∀ m ∈ gs, m.2.skip = .ok ()) :
    ofDocument (ofObject gs) = .ok c.given.complete := by
  have hfits : ∀ m ∈ c.members, ∃ s, record.set m.1 m.2 (.ofMembers []) = .ok s := by
    intro m hm
    simp only [Content.members, List.mem_append, Json.mem_optional] at hm
    obtain ⟨p, -, rfl⟩ | ⟨as, -, rfl⟩ := hm
    · exact ⟨_, Except.bind_eq_ok.2 ⟨_, Path.ofDocument_ofText p, rfl⟩⟩
    · exact ⟨_, Except.bind_eq_ok.2 ⟨as, Document.listOf_ofTexts as, rfl⟩⟩
  obtain ⟨taken, htaken, hread⟩ := tracks.read_ofObject h c.distinct_members hfits hskip
  have hstate : Given.ofMembers taken = c.given := by
    rw [← c.ofMembers_members, Given.ofMembers, Given.ofMembers,
      Json.field_perm htaken c.distinct_members, Json.field_perm htaken c.distinct_members]
  rw [hstate] at hread
  exact Except.map_eq_ok.2 ⟨c.given, hread, rfl⟩

/-- All there is to say about a generator. -/
def whole (g : GeneratorCommand) : Content := ⟨some g.program.shown, some g.arguments⟩

theorem complete_whole {g : GeneratorCommand} (h : g.program.HasText) : g.whole.given.complete = g := by
  have hprogram : Path.ofText g.program.shown = g.program := h.ofText_shown
  simp only [whole, Content.given, Given.complete, Option.map_some, Option.getD_some, hprogram]

end GeneratorCommand

namespace Configuration

/-- What a text says about settings: the values of the keys it has. -/
structure Content where
  workspaceRoot : Option String
  includePaths : Option (List String)
  protoc : Option String
  generator : Option GeneratorCommand.Content
  /-- The address may be null. -/
  serviceAddress : Option (Option String)

/-- The document of an address. -/
def ofAddress : Option String → Document
  | some a => ofText a
  | none => .null

@[simp]
theorem text?_ofAddress (a : Option String) : (ofAddress a).text? = .ok a := by
  cases a with
  | none => rfl
  | some a => exact Document.text?_ofText a

namespace Content

/-- The members for the keys that a text has; those of the generator are given, as they may stand in
any order. -/
def members (c : Content) (generator : List (String × Document)) : List (String × Document) :=
  Json.optional "workspace_root" ofText c.workspaceRoot ++
    (Json.optional "include_paths" ofTexts c.includePaths ++
      (Json.optional "protoc" ofText c.protoc ++
        (Json.optional "generator" (fun _ => ofObject generator) c.generator ++
          Json.optional "service_address" ofAddress c.serviceAddress)))

/-- The text is an object with these values under these keys. Its members may come in any order, at the
top and for the generator, with blanks around them and with members of other names between them. -/
def Written (c : Content) (s : String) : Prop :=
  ∃ gs ms, (∀ g ∈ c.generator, GeneratorCommand.record.Lists g.members gs) ∧
    record.Lists (c.members gs) ms ∧ Json.Pads (ofObject ms) s.toList

/-- The settings that are given by a text. -/
def given (c : Content) : Given where
  workspaceRoot := c.workspaceRoot.map Path.ofText
  includePaths := c.includePaths.map fun ts => ts.map Path.ofText
  protoc := c.protoc.map Path.ofText
  generator := c.generator.map (·.given.complete)
  serviceAddress := c.serviceAddress

end Content

/-- The fields that members give. -/
def Given.ofMembers (ms : List (String × Document)) : Given where
  workspaceRoot := Json.field Path.ofDocument "workspace_root" ms
  includePaths := Json.field (Document.listOf Path.ofDocument) "include_paths" ms
  protoc := Json.field Path.ofDocument "protoc" ms
  generator := Json.field GeneratorCommand.ofDocument "generator" ms
  serviceAddress := Json.field Document.text? "service_address" ms

theorem tracks : record.Tracks Given.ofMembers := by
  rintro ⟨k, v⟩ before hname ⟨s, hs⟩
  simp only [record, List.mem_cons, List.not_mem_nil, or_false] at hname
  -- What is read under a key is put into its field, and the other fields stay.
  obtain rfl | rfl | rfl | rfl | rfl := hname
  all_goals
    obtain ⟨a, ha, -⟩ := Except.bind_eq_ok.1 hs
    simp [record, Given.ofMembers, Json.field_cons_self ha, Json.field_cons_ne, ha, bind, Except.bind,
      pure, Except.pure]

namespace Content

theorem keys_members (c : Content) (gs : List (String × Document)) :
    ((c.members gs).map (·.1)).Sublist record.names := by
  simp only [members, List.map_append]
  exact Json.keys_optional.append (Json.keys_optional.append
    (Json.keys_optional.append (Json.keys_optional.append Json.keys_optional)))

theorem distinct_members (c : Content) (gs : List (String × Document)) :
    ((c.members gs).map (·.1)).Nodup :=
  (c.keys_members gs).nodup (by decide)

theorem ofMembers_members (c : Content) {gs : List (String × Document)}
    (h : ∀ g ∈ c.generator, GeneratorCommand.ofDocument (ofObject gs) = .ok g.given.complete) :
    Given.ofMembers (c.members gs) = c.given := by
  have hroot : Json.field Path.ofDocument "workspace_root" (c.members gs) =
      c.workspaceRoot.map Path.ofText :=
    Json.field_eq_map (by simp [members, Json.member?_append]) fun t _ => Path.ofDocument_ofText t
  have hpaths : Json.field (Document.listOf Path.ofDocument) "include_paths" (c.members gs) =
      c.includePaths.map fun ts => ts.map Path.ofText :=
    Json.field_eq_map (by simp [members, Json.member?_append]) fun ts _ =>
      Document.listOf_ofTexts_map Path.ofDocument_ofText ts
  have hprotoc : Json.field Path.ofDocument "protoc" (c.members gs) = c.protoc.map Path.ofText :=
    Json.field_eq_map (by simp [members, Json.member?_append]) fun t _ => Path.ofDocument_ofText t
  have hgenerator : Json.field GeneratorCommand.ofDocument "generator" (c.members gs) =
      c.generator.map (·.given.complete) :=
    Json.field_eq_map (by simp [members, Json.member?_append]) h
  have haddress : Json.field Document.text? "service_address" (c.members gs) = c.serviceAddress :=
    Json.field_eq (by simp [members, Json.member?_append]) text?_ofAddress
  rw [Given.ofMembers, hroot, hpaths, hprotoc, hgenerator, haddress, given]

theorem fits_members (c : Content) {gs : List (String × Document)}
    (h : ∀ g ∈ c.generator, GeneratorCommand.ofDocument (ofObject gs) = .ok g.given.complete) :
    ∀ m ∈ c.members gs, ∃ s, record.set m.1 m.2 (.ofMembers []) = .ok s := by
  intro m hm
  simp only [members, List.mem_append, Json.mem_optional] at hm
  obtain ⟨p, -, rfl⟩ | ⟨ps, -, rfl⟩ | ⟨p, -, rfl⟩ | ⟨g, hg, rfl⟩ | ⟨a, -, rfl⟩ := hm
  · exact ⟨_, Except.bind_eq_ok.2 ⟨_, Path.ofDocument_ofText p, rfl⟩⟩
  · exact ⟨_, Except.bind_eq_ok.2 ⟨_, Document.listOf_ofTexts_map Path.ofDocument_ofText ps, rfl⟩⟩
  · exact ⟨_, Except.bind_eq_ok.2 ⟨_, Path.ofDocument_ofText p, rfl⟩⟩
  · exact ⟨_, Except.bind_eq_ok.2 ⟨_, h g hg, rfl⟩⟩
  · exact ⟨_, Except.bind_eq_ok.2 ⟨a, text?_ofAddress a, rfl⟩⟩

/-- A text is read as what is written in it, with the defaults of the environment for the rest. -/
theorem Written.parse {c : Content} {s : String} (h : c.Written s) (env : Environment) :
    parse env s = .ok (c.given.complete env) := by
  obtain ⟨gs, ms, hgs, hms, hpads⟩ := h
  have hskip := Document.skip_ofObject.1 (Json.skip_of_pads hpads)
  have hgenerator : ∀ g ∈ c.generator,
      GeneratorCommand.ofDocument (ofObject gs) = .ok g.given.complete := by
    intro g hg
    refine GeneratorCommand.ofDocument_of_lists (hgs g hg) (Document.skip_ofObject.1 ?_)
    have hmem : ("generator", ofObject gs) ∈ c.members gs := by
      simp [members, Json.mem_optional, Option.mem_def.1 hg]
    exact hskip _ (List.mem_filter.1 (hms.mem_iff.2 hmem)).1
  obtain ⟨taken, htaken, hread⟩ :=
    tracks.read_ofObject hms (c.distinct_members gs) (c.fits_members hgenerator) hskip
  have hstate : Given.ofMembers taken = c.given := by
    rw [← c.ofMembers_members hgenerator]
    simp only [Given.ofMembers, Json.field_perm htaken (c.distinct_members gs)]
  rw [Configuration.parse, Json.readText_of_pads hpads]
  exact Except.map_eq_ok.2 ⟨c.given, hstate ▸ hread, rfl⟩

end Content

/-! ## Which objects are understood -/

theorem steady : record.Steady := by
  intro k v s t ⟨x, hx⟩
  simp only [record] at hx ⊢
  split at hx
  all_goals
    first
    | exact ⟨_, rfl⟩
    | obtain ⟨a, ha, -⟩ := Except.bind_eq_ok.1 hx
      exact ⟨_, Except.bind_eq_ok.2 ⟨a, ha, rfl⟩⟩

/-- An object is understood as settings, in whatever environment, exactly if no key of settings comes
twice in it and the value of each fits. -/
theorem understood_iff {ms : List (String × Document)} {s : String}
    (h : Json.Pads (ofObject ms) s.toList) (env : Environment) :
    (∃ c, parse env s = .ok c) ↔ ((record.known ms).map (·.1)).Nodup ∧
      ∀ m ∈ record.known ms, ∃ g, record.set m.1 m.2 .none = .ok g := by
  have hskip := Document.skip_ofObject.1 (Json.skip_of_pads h)
  refine Iff.trans ?_ (tracks.exists_read_iff steady hskip)
  rw [parse, Json.readText_of_pads h]
  constructor
  · rintro ⟨c, hc⟩
    obtain ⟨g, hg, -⟩ := Except.map_eq_ok.1 hc
    exact ⟨g, hg⟩
  · rintro ⟨g, hg⟩
    exact ⟨_, Except.map_eq_ok.2 ⟨g, hg, rfl⟩⟩

/-! ## Settings that are kept -/

/-- All there is to say about settings. -/
def whole (c : Configuration) : Content where
  workspaceRoot := some c.workspaceRoot.shown
  includePaths := some (c.includePaths.map Path.shown)
  protoc := some c.protoc.shown
  generator := some c.generator.whole
  serviceAddress := some c.serviceAddress

/-- A text stands for each path of the settings. -/
structure HasTexts (c : Configuration) : Prop where
  workspaceRoot : c.workspaceRoot.HasText
  includePaths : ∀ p ∈ c.includePaths, p.HasText
  protoc : c.protoc.HasText
  program : c.generator.program.HasText

theorem HasTexts.isText {c : Configuration} (h : c.HasTexts) : c.isText = true := by
  simp only [Configuration.isText, Bool.and_eq_true, List.all_eq_true]
  exact ⟨⟨⟨h.workspaceRoot.isText, fun p hp => (h.includePaths p hp).isText⟩, h.protoc.isText⟩,
    h.program.isText⟩

/-- What is all there is to say about settings gives these, whatever the defaults are. -/
theorem HasTexts.complete_whole {c : Configuration} (h : c.HasTexts) (env : Environment) :
    c.whole.given.complete env = c := by
  have hroot := h.workspaceRoot.ofText_shown
  have hprotoc := h.protoc.ofText_shown
  have hgenerator := GeneratorCommand.complete_whole h.program
  have hpaths : (c.includePaths.map Path.shown).map Path.ofText = c.includePaths := by
    rw [List.map_map]
    exact (List.map_congr_left fun p hp => (h.includePaths p hp).ofText_shown).trans (List.map_id _)
  simp only [whole, Content.given, Given.complete, Option.map_some, Option.getD_some, hroot, hprotoc,
    hgenerator, hpaths]

theorem spells_texts (ss : List String) :
    Json.Spells (ofTexts ss) (Json.compactChars (.array (ss.map .string))) := by
  refine Json.spells_array ?_
  rw [List.forall₂_map_left_iff, List.forall₂_map_right_iff]
  exact List.forall₂_same.2 fun s _ => Json.spells_quote s

theorem spells_address (a : Option String) : Json.Spells (ofAddress a)
    (Json.compactChars (match a with | some a => .string a | none => .null)) := by
  cases a with
  | none => exact .null
  | some a => exact Json.spells_quote a

theorem spells_generator (g : GeneratorCommand) :
    Json.Spells (ofObject g.whole.members) (Json.compactChars g.toJson) :=
  Json.spells_object (.cons ⟨rfl, Json.spells_quote _⟩ (.cons ⟨rfl, spells_texts _⟩ .nil))

theorem spells_paths (ps : List Path) : Json.Spells (ofTexts (ps.map Path.shown))
    (Json.compactChars (.array (ps.map fun p => .string p.shown))) := by
  have hspells := spells_texts (ps.map Path.shown)
  rwa [List.map_map] at hspells

/-- The text that settings are kept as says all there is to say about them. -/
theorem written_compact (c : Configuration) : c.whole.Written c.toJson.compact := by
  have hspells : Json.Spells (ofObject (c.whole.members c.generator.whole.members))
      (Json.compactChars c.toJson) :=
    Json.spells_object (.cons ⟨rfl, Json.spells_quote _⟩ (.cons ⟨rfl, spells_paths _⟩
      (.cons ⟨rfl, Json.spells_quote _⟩ (.cons ⟨rfl, spells_generator _⟩
        (.cons ⟨rfl, spells_address _⟩ .nil)))))
  refine ⟨c.generator.whole.members, c.whole.members _, fun g hg => ?_,
    Json.Record.lists_self (c.whole.keys_members _), ?_⟩
  · obtain rfl := Option.some.inj hg
    exact Json.Record.lists_self (GeneratorCommand.Content.keys_members _)
  · rw [Json.compact, String.toList_ofList]
    exact hspells.pads

/-- The generator with its members in the opposite order and another one between them. -/
def reversedGenerator (g : GeneratorCommand) : Json :=
  .object [("args", .array (g.arguments.map .string)), ("Program", .array [.null]),
    ("program", .string g.program.shown)]

/-- Settings with their members in the opposite order and another one between them. -/
def reversed (c : Configuration) : Json :=
  .object [
    ("service_address", match c.serviceAddress with
      | some a => .string a
      | none => .null),
    ("generator", reversedGenerator c.generator),
    ("protoc", .string c.protoc.shown),
    ("Protoc", .null),
    ("include_paths", .array (c.includePaths.map fun p => .string p.shown)),
    ("workspace_root", .string c.workspaceRoot.shown)]

theorem written_reversed (c : Configuration) :
    c.whole.Written (String.ofList ('\n' :: c.reversed.compactChars ++ [' '])) := by
  let gs : List (String × Document) := [("args", ofTexts c.generator.arguments),
    ("Program", .array [.null] none), ("program", ofText c.generator.program.shown)]
  have hgenerator : Json.Spells (ofObject gs) (reversedGenerator c.generator).compactChars :=
    Json.spells_object (.cons ⟨rfl, spells_texts _⟩ (.cons ⟨rfl, Json.spells_array (.cons .null .nil)⟩
      (.cons ⟨rfl, Json.spells_quote _⟩ .nil)))
  let ms : List (String × Document) := [("service_address", ofAddress c.serviceAddress),
    ("generator", ofObject gs), ("protoc", ofText c.protoc.shown), ("Protoc", .null),
    ("include_paths", ofTexts (c.includePaths.map Path.shown)),
    ("workspace_root", ofText c.workspaceRoot.shown)]
  have hspells : Json.Spells (ofObject ms) c.reversed.compactChars :=
    Json.spells_object (.cons ⟨rfl, spells_address _⟩ (.cons ⟨rfl, hgenerator⟩
      (.cons ⟨rfl, Json.spells_quote _⟩ (.cons ⟨rfl, .null⟩ (.cons ⟨rfl, spells_paths _⟩
        (.cons ⟨rfl, Json.spells_quote _⟩ .nil))))))
  refine ⟨gs, ms, fun g hg => ?_, List.reverse_perm (c.whole.members gs), ?_⟩
  · obtain rfl := Option.some.inj hg
    exact List.reverse_perm c.generator.whole.members
  · rw [String.toList_ofList]
    have hline : Json.Blank ['\n'] := by decide
    have hblank : Json.Blank [' '] := by decide
    exact .mk hline hspells hblank

/-- If a text stands for each of their paths, settings come back from every text that says all there is to
say about them, whatever the environment, and the text they are kept as is one. -/
theorem restored_of_written {c : Configuration} (h : c.HasTexts) (env : Environment) :
    (∃ s, c.print? = some s ∧ parse env s = .ok c) ∧ ∀ s, c.whole.Written s → parse env s = .ok c := by
  have hparse {s : String} (hs : c.whole.Written s) : parse env s = .ok c :=
    h.complete_whole env ▸ hs.parse env
  exact ⟨⟨_, if_pos h.isText, hparse c.written_compact⟩, fun _ hs => hparse hs⟩

/-- Settings with paths of all kinds of characters. -/
def quoted : Configuration :=
  ⟨"/a \"b\"", [Path.ofText "", Path.ofText "\\é\n"], "p", ⟨"g", ["-v"]⟩, none⟩

theorem hasTexts_quoted : quoted.HasTexts where
  workspaceRoot := ⟨"/a \"b\"", by decide +kernel⟩
  includePaths := List.forall_mem_cons.2 ⟨⟨_, rfl⟩, List.forall_mem_singleton.2 ⟨_, rfl⟩⟩
  protoc := ⟨"p", by decide +kernel⟩
  program := ⟨"g", by decide +kernel⟩

theorem restored_reversed :
    let s := String.ofList ('\n' :: quoted.reversed.compactChars ++ [' '])
    quoted.whole.Written s ∧ parse ⟨[("PROTOC", "q")], none⟩ s = .ok quoted :=
  ⟨written_reversed _, (restored_of_written hasTexts_quoted _).2 _ (written_reversed _)⟩

/-! ## Layers -/

/-- A text that says nothing. -/
def Content.empty : Content := ⟨none, none, none, none, none⟩

/-- The arguments of the generator that a command line gives, if it gives any. -/
def generatorArguments (l : CommandLine) : Option (List String) :=
  if l.generatorArgs.isEmpty then none else some l.generatorArgs

/-- The settings of the three layers. -/
def layered (env : Environment) (l : CommandLine) (c : Content) : Configuration where
  workspaceRoot := (l.workspaceRoot.or (c.workspaceRoot.map Path.ofText)).getD (default env).workspaceRoot
  includePaths := (c.includePaths.getD []).map Path.ofText ++ l.includePaths
  protoc := (l.protoc.or (c.protoc.map Path.ofText)).getD (default env).protoc
  generator :=
    { program := (l.generator.or ((c.generator.bind (·.program)).map Path.ofText)).getD
        GeneratorCommand.default.program
      arguments := ((generatorArguments l).or (c.generator.bind (·.arguments))).getD
        GeneratorCommand.default.arguments }
  serviceAddress := ((l.serviceAddress.map some).or c.serviceAddress).getD (default env).serviceAddress

theorem complete_generator (g : Option GeneratorCommand.Content) :
    (g.map (·.given.complete)).getD GeneratorCommand.default =
      ⟨((g.bind (·.program)).map Path.ofText).getD GeneratorCommand.default.program,
        (g.bind (·.arguments)).getD GeneratorCommand.default.arguments⟩ := by
  cases g <;> rfl

/-- Putting a command line over the settings of a text puts the layers together. -/
theorem override_complete (env : Environment) (l : CommandLine) (c : Content) :
    override (c.given.complete env) l = layered env l c := by
  have hgenerator : (c.given.complete env).generator = _ := complete_generator c.generator
  have haddress (a : Option String) :
      (l.serviceAddress <|> a) = (l.serviceAddress.map some).getD a := by
    cases l.serviceAddress <;> rfl
  have harguments (as : List String) : (if l.generatorArgs.isEmpty then as else l.generatorArgs) =
      (generatorArguments l).getD as := by
    unfold generatorArguments
    split <;> rfl
  have hpaths : (c.given.complete env).includePaths = (c.includePaths.getD []).map Path.ofText := by
    cases hc : c.includePaths <;> simp [Given.complete, Content.given, hc, default]
  simp only [override, layered, hgenerator, harguments, haddress, hpaths, Option.getD_or]
  rfl

/-- The home directory of a user: what the variable for it says, or what is on record if it says nothing. -/
inductive Lives (env : Environment) : Path → Prop where
  | named {home : Path} (h : env.get? "HOME" = some home) (hne : home ≠ "") : Lives env home
  | recorded {home : Path} (h : env.get? "HOME" = none ∨ env.get? "HOME" = some "")
      (hhome : env.home = some home) : Lives env home

/-- The file for the settings of a command line: the one it names, or one below the directory for settings of
the user, which is in the home directory unless a variable has another one. -/
inductive Locates (env : Environment) (l : CommandLine) : Path → Prop where
  | named {file : Path} (h : l.config = some file) : Locates env l file
  | moved {home dir : Path} (h : l.config = none) (hhome : Lives env home)
      (hdir : env.get? "XDG_CONFIG_HOME" = some dir) (habsolute : dir.isAbsolute = true) :
      Locates env l (Path.join dir "wsreq/config.json")
  | standard {home : Path} (h : l.config = none) (hhome : Lives env home)
      (hdir : ∀ dir, env.get? "XDG_CONFIG_HOME" = some dir → Path.isAbsolute dir = false) :
      Locates env l (Path.join (Path.join home ".config") "wsreq/config.json")

theorem lives_iff {env : Environment} {home : Path} : Lives env home ↔ homeDirectory? env = some home := by
  unfold homeDirectory?
  constructor
  · rintro (⟨h, hne⟩ | ⟨h | h, hhome⟩)
    · simp [h, hne]
    · simp [h, hhome]
    · simp [h, hhome]
  · intro h
    split at h
    next named hnamed =>
      by_cases hempty : named = ""
      · subst hempty
        exact .recorded (.inr hnamed) (by simpa using h)
      · obtain rfl : named = home := by simpa [hempty] using h
        exact .named hnamed hempty
    next hnone => exact .recorded (.inl hnone) h

theorem locates_iff {env : Environment} {l : CommandLine} {file : Path} :
    Locates env l file ↔ settingsFile env l = .ok file := by
  unfold settingsFile defaultFile? settingsDirectory
  constructor
  · rintro (h | ⟨h, hhome, hdir, habsolute⟩ | ⟨h, hhome, hdir⟩)
    · rw [h]
    · rw [h, lives_iff.1 hhome, hdir]
      simp [habsolute]
    · rw [h, lives_iff.1 hhome]
      cases hget : env.get? "XDG_CONFIG_HOME" with
      | none => rfl
      | some dir => simp [hdir dir hget]
  · intro h
    cases hconfig : l.config with
    | some named =>
      rw [hconfig] at h
      exact .named (hconfig.trans (congrArg some (Except.ok.inj h)))
    | none =>
      rw [hconfig] at h
      cases hhome : homeDirectory? env with
      | none =>
        rw [hhome] at h
        cases h
      | some home =>
        rw [hhome] at h
        cases hget : env.get? "XDG_CONFIG_HOME" with
        | none =>
          rw [hget] at h
          obtain rfl := Except.ok.inj h
          exact .standard hconfig (lives_iff.2 hhome) (by simp [hget])
        | some dir =>
          by_cases habsolute : Path.isAbsolute dir = true
          · rw [hget] at h
            obtain rfl := Except.ok.inj h
            simpa [habsolute] using Locates.moved hconfig (lives_iff.2 hhome) hget habsolute
          · rw [hget] at h
            obtain rfl := Except.ok.inj h
            simpa [habsolute] using Locates.standard hconfig (lives_iff.2 hhome) (by simp [hget, habsolute])

/-- The settings for a command line are those of the three layers, if there is no file or its text can
be read and is written with some content. A file that is there and cannot be read, or whose text is not
understood, is an error. There is one also for a user without a home directory, unless a file is named. -/
theorem resolve_layers (wording : Json.Wording) (env : Environment) (d : Disk) (l : CommandLine) :
    (∀ file, Locates env l file →
      (d.pathExists file = false → resolve wording env d l = .ok (layered env l .empty)) ∧
      (d.pathExists file = true →
        (∀ e, readText d file = .error e → resolve wording env d l = .error (.unreadable file e)) ∧
        ∀ s, readText d file = .ok s →
          (∀ c : Content, c.Written s → resolve wording env d l = .ok (layered env l c)) ∧
          ∀ e, parse env s = .error e →
            resolve wording env d l = .error (.invalid file e (wording (utf8 s))))) ∧
    ((∀ file, ¬ Locates env l file) →
      l.config = none ∧ (∀ home, ¬ Lives env home) ∧ resolve wording env d l = .error .homeless) := by
  constructor
  · intro file hlocates
    have hresolve : resolve wording env d l = (load wording env d file).map (override · l) := by
      rw [resolve, locates_iff.1 hlocates]
      rfl
    refine ⟨fun hfile => ?_, fun hfile => ⟨fun e he => ?_, fun s hs => ⟨fun c hc => ?_, fun e he => ?_⟩⟩⟩
    · rw [hresolve, load, hfile, ← override_complete]
      rfl
    · rw [hresolve, load, hfile, he]
      rfl
    · have hparse := hc.parse env
      simp only [hresolve, load, hfile, hs, hparse, ← override_complete]
      rfl
    · simp only [hresolve, load, hfile, hs, he]
      rfl
  · intro hnone
    have hconfig : l.config = none := by
      cases hconfig : l.config with
      | none => rfl
      | some file => exact absurd (.named hconfig) (hnone file)
    have hhome : homeDirectory? env = none := by
      cases hhome : homeDirectory? env with
      | none => rfl
      | some home =>
        refine absurd (locates_iff.2 ?_) (hnone (Path.join (settingsDirectory env home) "wsreq/config.json"))
        rw [settingsFile, hconfig, defaultFile?, hhome]
        rfl
    refine ⟨hconfig, fun home h => ?_, ?_⟩
    · rw [lives_iff, hhome] at h
      cases h
    · rw [resolve, settingsFile, hconfig, defaultFile?, hhome]
      rfl

/-- A text with some of the keys. -/
def partlyText : String :=
  "\x7b\"include_paths\":[\"i\"],\"protoc\":\"p\",\"generator\":\x7b\"args\":[\"-v\"]\x7d\x7d"

/-- What it says. -/
def partly : Content := ⟨none, some ["i"], some "p", some ⟨none, some ["-v"]⟩, none⟩

theorem written_partly : partly.Written partlyText := by
  have hgenerator : Json.Spells (ofObject [("args", ofTexts ["-v"])])
      (Json.compactChars (.object [("args", .array [.string "-v"])])) :=
    Json.spells_object (.cons ⟨rfl, spells_texts ["-v"]⟩ .nil)
  have hspells : Json.Spells (ofObject (partly.members [("args", ofTexts ["-v"])]))
      (Json.compactChars (.object [("include_paths", .array [.string "i"]), ("protoc", .string "p"),
        ("generator", .object [("args", .array [.string "-v"])])])) :=
    Json.spells_object (.cons ⟨rfl, spells_texts ["i"]⟩ (.cons ⟨rfl, Json.spells_quote "p"⟩
      (.cons ⟨rfl, hgenerator⟩ .nil)))
  have htext : partlyText.toList = Json.compactChars (.object [("include_paths", .array [.string "i"]),
      ("protoc", .string "p"), ("generator", .object [("args", .array [.string "-v"])])]) := by
    decide +kernel
  refine ⟨[("args", ofTexts ["-v"])], partly.members _, fun g hg => ?_,
    Json.Record.lists_self (partly.keys_members _), htext ▸ hspells.pads⟩
  obtain rfl := Option.some.inj hg
  exact Json.Record.lists_self (GeneratorCommand.Content.keys_members _)

/-- The program of the generator is the command line's, its arguments and the compiler are the file's, the
directory is the default one. -/
theorem resolve_partly :
    let d : Disk := ⟨[], [(["c.json"], .file (utf8 partlyText) false)]⟩
    let l : CommandLine := ⟨"d.wsdl", some "c.json", none, ["j"], none, some "g", [], some "a", false,
      .list .interface⟩
    resolve (fun _ => "invalid type") ⟨[("PROTOC", "q")], none⟩ d l =
      .ok ⟨"/tmp/org/hsweb/request/ws", ["i", "j"], "p", ⟨"g", ["-v"]⟩, some "a"⟩ := by
  intro d l
  have hfile : d.pathExists "c.json" = true := by decide +kernel
  have hread : d.read "c.json" = .ok (utf8 partlyText) := by decide +kernel
  have htext : readText d "c.json" = .ok partlyText := by
    rw [readText, hread]
    simp only [bind, Except.bind, Utf8.decode?_utf8]
  obtain ⟨hlayers, -⟩ := resolve_layers (fun _ => "invalid type") ⟨[("PROTOC", "q")], none⟩ d l
  have hresolve := (((hlayers "c.json" (.named rfl)).2 hfile).2 partlyText htext).1 partly written_partly
  rw [hresolve]
  refine congrArg Except.ok ?_
  simp only [l]
  decide +kernel

end Configuration

end ServiceCall
