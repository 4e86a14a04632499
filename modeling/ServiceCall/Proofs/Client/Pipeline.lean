import ServiceCall.Proofs.Build.Report
import ServiceCall.Proofs.Client.Stages
import ServiceCall.Proofs.Description.Retrieval
import ServiceCall.Proofs.Workspace.Repeated
/-!
# The stages one after the other

Making a client goes from stage to stage (`Client.Reaches`) until one of them fails (`Client.Fails`) or
the client is put together. Of the collaborators only those calls matter that are among the steps
(`Client.SameCalls`), and no step is done before it is due (`InitStep.Due`): the generator runs in a
prepared workspace that holds the description, the toolchain on sources that it has made, and what is
loaded was built without an error.
-/

namespace ServiceCall

/-! ## How far making a client comes -/

namespace Client

variable {World : Type}

/-- How far making a client has come. -/
inductive Progress where
  | prepared (w : Workspace)
  | described (w : Workspace) (model : Declarations)
  | built (w : Workspace) (model : Declarations) (artifacts : List Path)
  | loaded (w : Workspace) (registry : Registry)

section

variable (k : Collaborators World) (config : Configuration) (address : String) (d : Disk)

/-- Making a client comes so far, with these steps, and leaves this disk: every stage works with what
the one before it has left. -/
inductive Reaches : Progress → List InitStep → Disk → Prop where
  | prepared {w : Workspace} {d₁ : Disk}
      (h : Workspace.prepare d config.workspaceRoot address = (.ok w, d₁)) :
      Reaches (.prepared w) [.prepared w] d₁
  | described {w : Workspace} {steps : List InitStep} {d₁ d₂ : Disk} {model : Declarations}
      {run : Option Description.Generated} (h : Reaches (.prepared w) steps d₁)
      (hmodel : Description.generate k.web k.generator address w d₁ = (.ok model, run, d₂)) :
      Reaches (.described w model) (steps ++ (run.map InitStep.generated).toList) d₂
  | built {w : Workspace} {steps : List InitStep} {d₂ d₃ : Disk} {model : Declarations}
      {artifacts : List Path} {builds : List BuildStep} (h : Reaches (.described w model) steps d₂)
      (hbuild : Build.run k.toolchain config.includePaths w.sourceDir w.binaryDir d₂ =
        (.ok artifacts, builds, d₃)) :
      Reaches (.built w model artifacts) (steps ++ builds.map .built) d₃
  | loaded {w : Workspace} {steps : List InitStep} {d₃ : Disk} {model : Declarations}
      {artifacts : List Path} {registry : Registry} (h : Reaches (.built w model artifacts) steps d₃)
      (hload : Registry.load d₃ k.host artifacts model = .ok registry) :
      Reaches (.loaded w registry) (steps ++ [.loaded artifacts]) d₃

/-- Making a client fails, with these steps, and leaves this disk: a stage that is reached fails, and
no other follows it. -/
inductive Fails : InitError → List InitStep → Disk → Prop where
  | workspace {e : IoError} {d₁ : Disk}
      (h : Workspace.prepare d config.workspaceRoot address = (.error e, d₁)) :
      Fails (.workspace config.workspaceRoot e) [] d₁
  | description {w : Workspace} {steps : List InitStep} {d₁ d₂ : Disk} {e : DescriptionError}
      {run : Option Description.Generated} (h : Reaches k config address d (.prepared w) steps d₁)
      (hmodel : Description.generate k.web k.generator address w d₁ = (.error e, run, d₂)) :
      Fails (.description e) (steps ++ (run.map InitStep.generated).toList) d₂
  | build {w : Workspace} {steps : List InitStep} {d₂ d₃ : Disk} {model : Declarations}
      {e : BuildError} {builds : List BuildStep}
      (h : Reaches k config address d (.described w model) steps d₂)
      (hbuild : Build.run k.toolchain config.includePaths w.sourceDir w.binaryDir d₂ =
        (.error e, builds, d₃)) :
      Fails (.build e) (steps ++ builds.map .built) d₃
  | load {w : Workspace} {steps : List InitStep} {d₃ : Disk} {model : Declarations}
      {artifacts : List Path} {e : LoadError}
      (h : Reaches k config address d (.built w model artifacts) steps d₃)
      (hload : Registry.load d₃ k.host artifacts model = .error e) :
      Fails (.load e) (steps ++ [.loaded artifacts]) d₃
  | transport {w : Workspace} {steps : List InitStep} {d₃ : Disk} {registry : Registry}
      {e : IoError} (h : Reaches k config address d (.loaded w registry) steps d₃)
      (hfactory : k.factory = .error e) : Fails (.transport e) steps d₃

end

variable {k : Collaborators World} {config : Configuration} {address : String} {d : Disk}
  {steps : List InitStep} {final : Disk}

/-- Making a client fails in a stage, or reaches the last one and has a factory. -/
theorem init_cases (k : Collaborators World) (config : Configuration) (address : String) (d : Disk) :
    (∃ e steps final, init k config address d = (.error e, steps, final) ∧
        Fails k config address d e steps final) ∨
      ∃ w registry factory steps final, init k config address d =
          (.ok ⟨address, w, registry, factory, config.serviceAddress.getD address⟩, steps, final) ∧
        Reaches k config address d (.loaded w registry) steps final ∧ k.factory = .ok factory := by
  unfold init
  rcases hprepare : Workspace.prepare d config.workspaceRoot address with ⟨e | w, d₁⟩
  · exact .inl ⟨_, _, _, rfl, .workspace hprepare⟩
  have hprepared := Reaches.prepared (k := k) hprepare
  dsimp only
  rcases hmodel : Description.generate k.web k.generator address w d₁ with ⟨e | model, run, d₂⟩
  · exact .inl ⟨_, _, _, rfl, .description hprepared hmodel⟩
  have hdescribed := hprepared.described hmodel
  dsimp only
  rcases hbuild : Build.run k.toolchain config.includePaths w.sourceDir w.binaryDir d₂ with
    ⟨e | artifacts, builds, d₃⟩
  · exact .inl ⟨_, _, _, rfl, .build hdescribed hbuild⟩
  have hbuilt := hdescribed.built hbuild
  dsimp only [assemble]
  cases hload : Registry.load d₃ k.host artifacts model with
  | error e => exact .inl ⟨_, _, _, rfl, .load hbuilt hload⟩
  | ok registry =>
    have hloaded := hbuilt.loaded hload
    cases hfactory : k.factory with
    | error e => exact .inl ⟨_, _, _, rfl, .transport hloaded hfactory⟩
    | ok factory => exact .inr ⟨w, registry, factory, _, _, rfl, hloaded, rfl⟩

/-- Once it is built the client is put together. -/
theorem init_of_built {w : Workspace} {model : Declarations} {artifacts : List Path}
    (h : Reaches k config address d (.built w model artifacts) steps final) :
    init k config address d =
      (assemble k config address w artifacts model final, steps ++ [InitStep.loaded artifacts], final) := by
  obtain _ | _ | ⟨_ | ⟨⟨hprepare⟩, hmodel⟩, hbuild⟩ := h
  unfold init
  simp only [hprepare, hmodel, hbuild]
  rfl

/-- A stage that fails fails the whole. -/
theorem init_of_fails {e : InitError} (h : Fails k config address d e steps final) :
    init k config address d = (.error e, steps, final) := by
  cases h with
  | workspace h =>
    unfold init
    rw [h]
  | description h hmodel =>
    obtain ⟨hprepare⟩ := h
    unfold init
    simp only [hprepare, hmodel]
    rfl
  | build h hbuild =>
    obtain _ | ⟨⟨hprepare⟩, hmodel⟩ := h
    unfold init
    simp only [hprepare, hmodel, hbuild]
    rfl
  | load h hload =>
    rw [init_of_built h, assemble, hload]
  | transport h hfactory =>
    obtain _ | _ | _ | ⟨h, hload⟩ := h
    rw [init_of_built h, assemble, hload, hfactory]

/-- When every stage succeeds there is a client. -/
theorem init_of_loaded {w : Workspace} {registry : Registry} {factory : ProxyFactory World}
    (h : Reaches k config address d (.loaded w registry) steps final)
    (hfactory : k.factory = .ok factory) :
    init k config address d =
      (.ok ⟨address, w, registry, factory, config.serviceAddress.getD address⟩, steps, final) := by
  obtain _ | _ | _ | ⟨h, hload⟩ := h
  rw [init_of_built h, assemble, hload, hfactory]

/-- Making a client fails with the error of the first stage that fails, and does nothing else. -/
theorem init_eq_error_iff {e : InitError} :
    init k config address d = (.error e, steps, final) ↔ Fails k config address d e steps final := by
  refine ⟨fun h => ?_, init_of_fails⟩
  obtain ⟨e', steps', final', heq, hfails⟩ | ⟨w, registry, factory, steps', final', heq, -, -⟩ :=
    init_cases k config address d
  · rw [heq] at h
    cases h
    exact hfails
  · rw [heq] at h
    cases h

/-- The workspace that is reached is that of the address. -/
theorem Reaches.workspace_eq {w : Workspace} {registry : Registry}
    (h : Reaches k config address d (.loaded w registry) steps final) :
    w = Workspace.locate config.workspaceRoot address := by
  obtain _ | _ | _ | ⟨_ | _ | ⟨_ | ⟨⟨hprepare⟩, -⟩, -⟩, -⟩ := h
  exact Workspace.prepare_eq_locate hprepare

/-- A client is made exactly if all stages succeed, of what they give. -/
theorem init_eq_ok_iff {c : Client World} :
    init k config address d = (.ok c, steps, final) ↔ ∃ registry factory,
      Reaches k config address d (.loaded (Workspace.locate config.workspaceRoot address) registry)
          steps final ∧ k.factory = .ok factory ∧
        c = ⟨address, Workspace.locate config.workspaceRoot address, registry, factory,
          config.serviceAddress.getD address⟩ := by
  constructor
  · intro h
    obtain ⟨e, steps', final', heq, -⟩ | ⟨w, registry, factory, steps', final', heq, hreaches, hfactory⟩ :=
      init_cases k config address d
    · rw [heq] at h
      cases h
    · rw [heq] at h
      cases h
      obtain rfl := hreaches.workspace_eq
      exact ⟨registry, factory, hreaches, hfactory, rfl⟩
  · rintro ⟨registry, factory, hreaches, hfactory, rfl⟩
    exact init_of_loaded hreaches hfactory

/-- A client holds what was loaded of this run's description, and calls where it is told to. -/
theorem exists_loaded {c : Client World} (h : (init k config address d).1 = .ok c) :
    c.address = address ∧ c.workspace = Workspace.locate config.workspaceRoot address ∧
      k.factory = .ok c.factory ∧ c.serviceAddress = config.serviceAddress.getD address ∧
      ∃ made run described model artifacts built,
        Description.generate k.web k.generator address c.workspace made =
          (.ok model, run, described) ∧
        Registry.load built k.host artifacts model = .ok c.registry := by
  rcases hinit : init k config address d with ⟨result, steps, final⟩
  rw [hinit] at h
  obtain rfl : result = .ok c := h
  obtain ⟨registry, factory, hreaches, hfactory, rfl⟩ := init_eq_ok_iff.1 hinit
  refine ⟨rfl, rfl, hfactory, rfl, ?_⟩
  obtain _ | _ | _ | ⟨_ | _ | ⟨_ | ⟨-, hmodel⟩, -⟩, hload⟩ := hreaches
  exact ⟨_, _, _, _, _, _, hmodel, hload⟩

/-! ## What was done before a step -/

end Client

/-- The step may be done after the others: what it needs was done, and it was not done before. -/
def InitStep.Due {World : Type} (k : Collaborators World) (config : Configuration) (address : String)
    (d : Disk) (before : List InitStep) : InitStep → Prop
  | .prepared w => before = [] ∧ ∃ made, Workspace.prepare d config.workspaceRoot address = (.ok w, made)
  | .generated g => (∀ g', .generated g' ∉ before) ∧ ∃ w made content, .prepared w ∈ before ∧
      Workspace.prepare d config.workspaceRoot address = (.ok w, made) ∧
      Description.fetch k.web address made = .ok content ∧
      g.request = Description.request address w ∧ g.disk.read w.document = .ok content ∧
      g.disk.isDirectory w.sourceDir = true ∧ g.disk.isDirectory w.binaryDir = true
  | .built (.compiled unit) => (∀ unit', .built (.compiled unit') ∉ before) ∧
      ∃ w g model after, .prepared w ∈ before ∧ .generated g ∈ before ∧
        k.generator g.request g.disk = (.ok model, after) ∧
        Build.scan after k.toolchain w.sourceDir = .ok unit.sources ∧ unit.sources ≠ []
  | .built (.warned _) => ∃ unit, .built (.compiled unit) ∈ before
  | .loaded artifacts => (∀ artifacts', .loaded artifacts' ∉ before) ∧
      ∃ w g model after, .prepared w ∈ before ∧ .generated g ∈ before ∧
        k.generator g.request g.disk = (.ok model, after) ∧
        (artifacts = [] ∧ Build.scan after k.toolchain w.sourceDir = .ok [] ∧
            (∀ unit, .built (.compiled unit) ∉ before) ∨
          ∃ unit outcome final, .built (.compiled unit) ∈ before ∧
            k.toolchain.compile unit after = (.ok outcome, final) ∧ outcome.success = true ∧
            (∀ x ∈ outcome.diagnostics, x.severity ≠ .error) ∧ artifacts = outcome.artifacts)

namespace Client

variable {World : Type} {k : Collaborators World} {config : Configuration} {address : String}
  {d : Disk} {steps : List InitStep}

/-- Every step is due when it is done. -/
def Ordered (k : Collaborators World) (config : Configuration) (address : String) (d : Disk)
    (steps : List InitStep) : Prop :=
  ∀ before step rest, steps = before ++ step :: rest → step.Due k config address d before

theorem ordered_nil : Ordered k config address d [] := by
  intro before step rest h
  simp at h

/-- A step that is due keeps the order. -/
theorem Ordered.concat (h : Ordered k config address d steps) {s : InitStep}
    (hdue : s.Due k config address d steps) : Ordered k config address d (steps ++ [s]) := by
  intro before step' rest heq
  obtain rfl | ⟨rest, last, rfl⟩ := List.eq_nil_or_concat rest
  · obtain ⟨rfl, hstep⟩ := List.append_inj' heq rfl
    obtain rfl := List.singleton_inj.1 hstep
    exact hdue
  · rw [List.concat_eq_append, ← List.cons_append, ← List.append_assoc] at heq
    exact h before step' rest (List.append_inj' heq rfl).1

/-- Warnings are due once something was compiled. -/
theorem Ordered.warned (h : Ordered k config address d steps) {u : CompileRequest}
    (hunit : .built (.compiled u) ∈ steps) (texts : List String) :
    Ordered k config address d (steps ++ texts.map fun text => InitStep.built (.warned text)) := by
  induction texts using List.reverseRecOn with
  | nil => rwa [List.map_nil, List.append_nil]
  | append_singleton texts text ih =>
    rw [List.map_append, List.map_singleton, ← List.append_assoc]
    exact ih.concat ⟨u, List.mem_append_left _ hunit⟩

end Client

namespace Client

variable {World : Type} {k : Collaborators World} {config : Configuration} {address : String}
  {d d₁ d₂ d₃ : Disk} {steps : List InitStep} {w : Workspace} {model : Declarations}
  {run : Option Description.Generated} {artifacts : List Path} {builds : List BuildStep}

theorem ordered_prepared (hprepare : Workspace.prepare d config.workspaceRoot address = (.ok w, d₁)) :
    Ordered k config address d [.prepared w] :=
  ordered_nil.concat (s := .prepared w) ⟨rfl, d₁, hprepare⟩

/-- Where the description was retrieved the generator may run. -/
theorem Ordered.generated (hprepare : Workspace.prepare d config.workspaceRoot address = (.ok w, d₁))
    {stored : Disk} (hretrieve : Description.retrieve k.web address w d₁ = .ok stored) :
    Ordered k config address d
      [.prepared w, .generated ⟨Description.request address w, stored⟩] := by
  unfold Description.retrieve at hretrieve
  split at hretrieve
  next => cases hretrieve
  next content hfetch =>
    split at hretrieve
    next => cases hretrieve
    next stored' hwrite =>
      obtain rfl := Except.ok.inj hretrieve
      obtain ⟨hkeeps, hread⟩ := Disk.read_write hwrite
      obtain ⟨hsources, hbinaries⟩ := Workspace.isDirectory_of_prepare hprepare
      exact (ordered_prepared hprepare).concat (s := .generated ⟨Description.request address w, stored'⟩)
        ⟨by simp, w, d₁, content, by simp, hprepare, hfetch, rfl, hread,
          hkeeps.isDirectory hsources, hkeeps.isDirectory hbinaries⟩

/-- What is compiled after a generator's run, and what is loaded then, is due. -/
theorem Ordered.built {g : Description.Generated} {result : Except BuildError (List Path)}
    (h : Ordered k config address d [.prepared w, .generated g])
    (hgenerator : k.generator g.request g.disk = (.ok model, d₂))
    (hbuild : Build.run k.toolchain config.includePaths w.sourceDir w.binaryDir d₂ =
      (result, builds, d₃)) :
    Ordered k config address d ([InitStep.prepared w, .generated g] ++ builds.map InitStep.built) ∧
      ∀ artifacts, result = .ok artifacts → Ordered k config address d
        ([InitStep.prepared w, .generated g] ++ builds.map InitStep.built ++
          [InitStep.loaded artifacts]) := by
  have hcompiled {sources : List Path}
      (hscan : Build.scan d₂ k.toolchain w.sourceDir = .ok sources) (hsources : sources ≠ []) :
      Ordered k config address d ([InitStep.prepared w, .generated g] ++
        [InitStep.built (.compiled (Build.request sources w.sourceDir w.binaryDir config.includePaths))]) :=
    h.concat (s := .built (.compiled _))
      ⟨by simp, w, g, model, d₂, by simp, by simp, hgenerator, hscan, hsources⟩
  cases Build.ends_of_run hbuild with
  | unscanned hscan => exact ⟨h, fun artifacts hresult => by cases hresult⟩
  | sourceless hscan =>
    refine ⟨h, fun artifacts hresult => ?_⟩
    obtain rfl := Except.ok.inj hresult
    exact h.concat (s := .loaded [])
      ⟨by simp, w, g, model, d₂, by simp, by simp, hgenerator, .inl ⟨rfl, hscan, by simp⟩⟩
  | unlaunched hscan hsources _ =>
    exact ⟨hcompiled hscan hsources, fun artifacts hresult => by cases hresult⟩
  | refused hscan hsources _ _ =>
    exact ⟨hcompiled hscan hsources, fun artifacts hresult => by cases hresult⟩
  | @finished sources outcome _ hscan hsources hcompile hsuccess hclean =>
    have hwarned := (hcompiled hscan hsources).warned
      (u := Build.request sources w.sourceDir w.binaryDir config.includePaths) (by simp)
      (outcome.diagnostics.map (·.text))
    rw [List.append_assoc] at hwarned
    rw [List.map_cons, List.map_map]
    refine ⟨hwarned, fun artifacts hresult => ?_⟩
    obtain rfl := Except.ok.inj hresult
    exact hwarned.concat (s := .loaded _) ⟨by simp, w, g, model, d₂, by simp, by simp, hgenerator,
      .inr ⟨_, outcome, d₃, by simp, hcompile, hsuccess, hclean, rfl⟩⟩

/-- Up to a description every step is due, and the generator was run for it. -/
theorem Reaches.ordered_described (h : Reaches k config address d (.described w model) steps d₂) :
    ∃ g, steps = [.prepared w, .generated g] ∧
      k.generator g.request g.disk = (.ok model, d₂) ∧ Ordered k config address d steps := by
  obtain _ | ⟨⟨hprepare⟩, hmodel⟩ := h
  cases Description.ends_of_generate hmodel with
  | generated hretrieve hgenerator =>
    exact ⟨_, rfl, hgenerator, Ordered.generated hprepare hretrieve⟩

/-- Up to a build every step is due, and so is loading. -/
theorem Reaches.ordered_built
    (h : Reaches k config address d (.built w model artifacts) steps d₃) :
    Ordered k config address d (steps ++ [InitStep.loaded artifacts]) := by
  obtain _ | _ | ⟨h, hbuild⟩ := h
  obtain ⟨g, rfl, hgenerator, hordered⟩ := h.ordered_described
  exact (hordered.built hgenerator hbuild).2 artifacts rfl

theorem Fails.ordered {e : InitError} (h : Fails k config address d e steps d₃) :
    Ordered k config address d steps := by
  cases h with
  | workspace _ => exact ordered_nil
  | description h hmodel =>
    obtain ⟨hprepare⟩ := h
    cases Description.ends_of_generate hmodel with
    | unretrieved _ => exact ordered_prepared hprepare
    | ungenerated hretrieve _ => exact Ordered.generated hprepare hretrieve
  | build h hbuild =>
    obtain ⟨g, rfl, hgenerator, hordered⟩ := h.ordered_described
    exact (hordered.built hgenerator hbuild).1
  | load h _ => exact h.ordered_built
  | transport h _ =>
    obtain _ | _ | _ | ⟨h, -⟩ := h
    exact h.ordered_built

/-- Every step that is done while a client is made is due. -/
theorem ordered_init (k : Collaborators World) (config : Configuration) (address : String) (d : Disk) :
    Ordered k config address d (init k config address d).2.1 := by
  obtain ⟨e, steps, final, heq, hfails⟩ | ⟨w, registry, factory, steps, final, heq, hreaches, -⟩ :=
    init_cases k config address d
  · rw [heq]
    exact hfails.ordered
  · rw [heq]
    obtain _ | _ | _ | ⟨h, -⟩ := hreaches
    exact h.ordered_built

/-! ## What is called -/

end Client

/-- A build goes the same way if the same files are sources and the toolchain does the same where it
was run. -/
theorem Build.run_congr {t t' : Toolchain} {includes : List Path} {sourceDir binaryDir : Path}
    {d d' : Disk} {result : Except BuildError (List Path)} {builds : List BuildStep}
    (hextension : t'.sourceExtension = t.sourceExtension) (hmarker : t'.isMarker = t.isMarker)
    (ht : ∀ unit, .compiled unit ∈ builds → t'.compile unit = t.compile unit)
    (h : run t includes sourceDir binaryDir d = (result, builds, d')) :
    run t' includes sourceDir binaryDir d = (result, builds, d') := by
  have hscan : scan d t' sourceDir = scan d t sourceDir := by
    unfold scan isSource
    rw [hextension, hmarker]
  have hcompiled {sources : List Path} (hfound : scan d t sourceDir = .ok sources)
      (hsources : sources ≠ [])
      (hunit : .compiled (request sources sourceDir binaryDir includes) ∈ builds) :
      run t' includes sourceDir binaryDir d = run t includes sourceDir binaryDir d := by
    unfold run
    rw [hscan, hfound]
    cases sources with
    | nil => exact absurd rfl hsources
    | cons source rest => simp only [ht _ hunit]
  have hskipped (hfound : ∀ source rest, scan d t sourceDir ≠ .ok (source :: rest)) :
      run t' includes sourceDir binaryDir d = run t includes sourceDir binaryDir d := by
    unfold run
    rw [hscan]
    cases hsources : scan d t sourceDir with
    | error e => rfl
    | ok sources =>
      cases sources with
      | nil => rfl
      | cons source rest => exact absurd hsources (hfound source rest)
  rw [← h]
  cases ends_of_run h with
  | unscanned hfound => exact hskipped fun _ _ => by simp [hfound]
  | sourceless hfound => exact hskipped fun _ _ => by simp [hfound]
  | unlaunched hfound hsources _ => exact hcompiled hfound hsources (.head _)
  | refused hfound hsources _ _ => exact hcompiled hfound hsources (.head _)
  | finished hfound hsources _ _ _ => exact hcompiled hfound hsources (.head _)

namespace Client

variable {World : Type} {k k' : Collaborators World} {config : Configuration} {address : String}
  {d d₁ d₂ d₃ final : Disk} {steps : List InitStep}

/-- The collaborators do the same where they were called on the way. -/
structure SameCalls (k k' : Collaborators World) (address : String) (steps : List InitStep) : Prop where
  web : ∀ w, .prepared w ∈ steps → k'.web address = k.web address
  generator : ∀ g, .generated g ∈ steps →
    k'.generator g.request g.disk = k.generator g.request g.disk
  sources : ∀ g, .generated g ∈ steps →
    k'.toolchain.sourceExtension = k.toolchain.sourceExtension ∧
      k'.toolchain.isMarker = k.toolchain.isMarker
  toolchain : ∀ unit, .built (.compiled unit) ∈ steps →
    k'.toolchain.compile unit = k.toolchain.compile unit
  loading : ∀ artifacts, .loaded artifacts ∈ steps → k'.host = k.host ∧ k'.factory = k.factory

theorem SameCalls.left {more : List InitStep} (h : SameCalls k k' address (steps ++ more)) :
    SameCalls k k' address steps where
  web w hw := h.web w (List.mem_append_left _ hw)
  generator g hg := h.generator g (List.mem_append_left _ hg)
  sources g hg := h.sources g (List.mem_append_left _ hg)
  toolchain unit hunit := h.toolchain unit (List.mem_append_left _ hunit)
  loading artifacts hartifacts := h.loading artifacts (List.mem_append_left _ hartifacts)

/-- A generator that does the same where it was run gives the same description. -/
theorem SameCalls.generate {w : Workspace} {result : Except DescriptionError Declarations}
    {run : Option Description.Generated}
    (h : SameCalls k k' address (steps ++ (run.map InitStep.generated).toList))
    (hw : .prepared w ∈ steps)
    (hmodel : Description.generate k.web k.generator address w d₁ = (result, run, d₂)) :
    Description.generate k'.web k'.generator address w d₁ = (result, run, d₂) := by
  refine Description.generate_congr (h.left.web w hw) (fun g hg => h.generator g ?_) hmodel
  rw [hg]
  exact List.mem_append_right _ (.head _)

/-- A toolchain that does the same where it was run builds the same. -/
theorem SameCalls.build {w : Workspace} {g : Description.Generated}
    {result : Except BuildError (List Path)} {builds : List BuildStep}
    (h : SameCalls k k' address (steps ++ builds.map .built)) (hg : .generated g ∈ steps)
    (hbuild : Build.run k.toolchain config.includePaths w.sourceDir w.binaryDir d₂ =
      (result, builds, d₃)) :
    Build.run k'.toolchain config.includePaths w.sourceDir w.binaryDir d₂ = (result, builds, d₃) := by
  obtain ⟨hextension, hmarker⟩ := h.left.sources g hg
  exact Build.run_congr hextension hmarker
    (fun unit hunit => h.toolchain unit (List.mem_append_right _ (List.mem_map_of_mem hunit))) hbuild

/-- What is reached is reached with all collaborators that do the same on the way. -/
theorem Reaches.congr {p : Progress} (h : Reaches k config address d p steps final)
    (hsame : SameCalls k k' address steps) : Reaches k' config address d p steps final := by
  induction h with
  | prepared h => exact .prepared h
  | described h hmodel ih =>
    refine .described (ih hsame.left) (hsame.generate ?_ hmodel)
    obtain ⟨-⟩ := h
    exact .head _
  | built h hbuild ih =>
    obtain ⟨g, rfl, -, -⟩ := h.ordered_described
    exact .built (ih hsame.left) (hsame.build (.tail _ (.head _)) hbuild)
  | loaded h hload ih =>
    refine .loaded (ih hsame.left) ?_
    rwa [(hsame.loading _ (List.mem_append_right _ (.head _))).1]

/-- A stage that fails fails with all collaborators that do the same on the way. -/
theorem Fails.congr {e : InitError} (h : Fails k config address d e steps final)
    (hsame : SameCalls k k' address steps) : Fails k' config address d e steps final := by
  cases h with
  | workspace h => exact .workspace h
  | description h hmodel =>
    refine .description (h.congr hsame.left) (hsame.generate ?_ hmodel)
    obtain ⟨-⟩ := h
    exact .head _
  | build h hbuild =>
    obtain ⟨g, rfl, -, -⟩ := h.ordered_described
    exact .build (h.congr hsame.left) (hsame.build (.tail _ (.head _)) hbuild)
  | load h hload =>
    refine .load (h.congr hsame.left) ?_
    rwa [(hsame.loading _ (List.mem_append_right _ (.head _))).1]
  | transport h hfactory =>
    have hloading : k'.factory = k.factory := by
      obtain _ | _ | _ | ⟨h, -⟩ := h
      exact (hsame.loading _ (List.mem_append_right _ (.head _))).2
    exact .transport (h.congr hsame) (hloading.trans hfactory)

/-- Of the collaborators only the calls matter that are among the steps. -/
theorem init_congr (hsame : SameCalls k k' address (init k config address d).2.1) :
    init k' config address d = init k config address d := by
  obtain ⟨e, steps, final, heq, hfails⟩ | ⟨w, registry, factory, steps, final, heq, hreaches, hfactory⟩ :=
    init_cases k config address d
  · rw [heq] at hsame ⊢
    exact init_of_fails (hfails.congr hsame)
  · rw [heq] at hsame ⊢
    have hloading : k'.factory = k.factory := by
      obtain _ | _ | _ | ⟨h, -⟩ := hreaches
      exact (hsame.loading _ (List.mem_append_right _ (.head _))).2
    exact init_of_loaded (hreaches.congr hsame) (hloading.trans hfactory)

/-- The factory is handed on as it is: no proxy is made, whatever it would make. -/
theorem init_of_factory (k : Collaborators World) (config : Configuration) (address : String) (d : Disk)
    (f f' : ProxyFactory World) :
    init { k with factory := .ok f' } config address d =
      ((init { k with factory := .ok f } config address d).1.map ({ · with factory := f' }),
        (init { k with factory := .ok f } config address d).2) := by
  unfold init assemble
  dsimp only
  rcases Workspace.prepare d config.workspaceRoot address with ⟨e | w, d₁⟩
  · rfl
  dsimp only
  rcases Description.generate k.web k.generator address w d₁ with ⟨e | model, run, d₂⟩
  · rfl
  dsimp only
  rcases Build.run k.toolchain config.includePaths w.sourceDir w.binaryDir d₂ with
    ⟨e | artifacts, builds, d₃⟩
  · rfl
  dsimp only
  cases Registry.load d₃ k.host artifacts model <;> rfl

/-- Making a client goes stage by stage. No step is done before it is due, nothing but the steps is
asked of the collaborators, and no proxy is made. The first stage that fails gives the error and leaves
the disk; if none does the client has the workspace of the address, what was loaded, and the address of
the service that is configured, or else that of the description. -/
theorem init_pipeline (k : Collaborators World) (config : Configuration) (address : String) (d : Disk) :
    Ordered k config address d (init k config address d).2.1 ∧
    (∀ k', SameCalls k k' address (init k config address d).2.1 →
      init k' config address d = init k config address d) ∧
    (∀ f f' : ProxyFactory World, init { k with factory := .ok f' } config address d =
      ((init { k with factory := .ok f } config address d).1.map ({ · with factory := f' }),
        (init { k with factory := .ok f } config address d).2)) ∧
    (∀ e steps final, init k config address d = (.error e, steps, final) ↔
      Fails k config address d e steps final) ∧
    ∀ c steps final, init k config address d = (.ok c, steps, final) ↔ ∃ registry factory,
      Reaches k config address d (.loaded (Workspace.locate config.workspaceRoot address) registry)
          steps final ∧ k.factory = .ok factory ∧
        c = ⟨address, Workspace.locate config.workspaceRoot address, registry, factory,
          config.serviceAddress.getD address⟩ :=
  ⟨ordered_init k config address d, fun _ => init_congr, init_of_factory k config address d,
    fun _ _ _ => init_eq_error_iff, fun _ _ _ => init_eq_ok_iff⟩

end Client

end ServiceCall
