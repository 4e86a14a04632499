import ServiceCall.Proofs.CommandLine.Reading
import ServiceCall.Proofs.CommandLine.Streams
/-!
# What is written for a call

All that is written for a call stands at its level, and is what is asked for (`Tells`): nothing of it can
stand in front of the command, the interface and the service are written together, arguments are written
behind a method, and not beside a whole input. From there it is handed on: the interface, the service and
the method to the binding (`BindsWritten`), the whole input or the arguments to the invocation
(`InvokesWritten`). So nothing that is written for a call is passed over (`handsOn_of_parse`).
-/

namespace ServiceCall.CommandLine

/-! ## Where arguments stand -/

/-- The arguments of a call itself. -/
def ownOfCall : List Argument := [.method, .values, .body, .interface, .service]

section

variable {l : Level} {os : List Occurrence} {s s' : Stage} {n n' : Nat} {w : String}
  {ws : List String} {below : List (Level × List Occurrence)}

/-- A level's options are all that waits for a value at it. -/
def Stage.Within (l : Level) (s : Stage) : Prop := ∀ a, s = .wanting a → a ∈ l.options

theorem within_free (l : Level) : Stage.Within l .free := fun _ h => by cases h

theorem within_trailing (l : Level) : Stage.Within l .trailing := fun _ h => by cases h

theorem within_wanting {a : Argument} (h : a ∈ l.options) : Stage.Within l (.wanting a) := by
  rintro b hb
  cases hb
  exact h

theorem Letters.within {cs : List Char} (h : Letters l cs os s) :
    (∀ o ∈ os, o.1 ∈ l.options) ∧ s.Within l := by
  induction h with
  | nil => exact ⟨by simp, within_free l⟩
  | mark h ha hs ih => exact ⟨List.forall_mem_cons.2 ⟨List.mem_of_find?_eq_some h, ih.1⟩, ih.2⟩
  | wanting h ha => exact ⟨by simp, within_wanting (List.mem_of_find?_eq_some h)⟩
  | equals h ha => exact ⟨by simpa using List.mem_of_find?_eq_some h, within_free l⟩
  | attached h ha hd => exact ⟨by simpa using List.mem_of_find?_eq_some h, within_free l⟩

theorem Flags.within (h : Flags l w os s) : (∀ o ∈ os, o.1 ∈ l.options) ∧ s.Within l := by
  cases h with
  | mark h ha => exact ⟨by simpa using List.mem_of_find?_eq_some h, within_free l⟩
  | wanting h ha => exact ⟨by simp, within_wanting (List.mem_of_find?_eq_some h)⟩
  | attached h ha => exact ⟨by simpa using List.mem_of_find?_eq_some h, within_free l⟩
  | letters h => exact h.within

theorem Word.within (h : Word l n s w os n' s') (hs : s.Within l) :
    (∀ o ∈ os, o.1 ∈ l.options ++ l.positions) ∧ s'.Within l := by
  cases h with
  | flags h => exact ⟨fun o ho => List.mem_append_left _ (h.within.1 o ho), h.within.2⟩
  | value h => exact ⟨by simpa using .inl (hs _ rfl), within_free l⟩
  | position h hcommand ha => exact ⟨by simpa using .inr (List.mem_of_getElem? ha), within_free l⟩
  | hyphens => exact ⟨by simp, within_trailing l⟩
  | behind ha => exact ⟨by simpa using .inr (List.mem_of_getElem? ha), within_trailing l⟩

/-- What is written at a level are arguments that it knows. -/
theorem Words.within (h : Words l n s ws os below) (hs : s.Within l) :
    ∀ o ∈ os, o.1 ∈ l.options ++ l.positions := by
  induction h with
  | done h => simp
  | word h hws ih =>
    obtain ⟨hos, hs'⟩ := h.within hs
    intro o ho
    rcases List.mem_append.1 ho with ho | ho
    · exact hos o ho
    · exact ih hs' o ho
  | command h hws ih => simp

/-- A call's first word for a position is the method. -/
theorem Word.method (h : Word .call 0 s w os n' s') (hs : s.Within .call) :
    (n' = 0 ∧ ∀ o ∈ os, o.1 ≠ .values) ∨ os = [(.method, some w)] := by
  have hoption {a : Argument} (ha : a ∈ Level.call.options) : a ≠ .values := by
    rintro rfl
    revert ha
    decide
  cases h with
  | flags h => exact .inl ⟨rfl, fun o ho => hoption (h.within.1 o ho)⟩
  | value h => exact .inl ⟨rfl, by simpa using hoption (hs _ rfl)⟩
  | position h hcommand ha =>
    obtain rfl := Option.some.inj ha
    exact .inr rfl
  | hyphens => exact .inl ⟨rfl, by simp⟩
  | behind ha =>
    obtain rfl := Option.some.inj ha
    exact .inr rfl

/-- Arguments of a call stand behind its method. -/
theorem Words.method (h : Words .call 0 s ws os below) (hs : s.Within .call)
    (hvalues : textsOf .values os ≠ []) : textsOf .method os ≠ [] := by
  generalize hl : Level.call = l at h
  generalize hn : 0 = n at h
  induction h with
  | done h => exact absurd rfl hvalues
  | word h hws ih =>
    subst hl hn
    rw [textsOf_append] at hvalues ⊢
    rcases h.method hs with ⟨rfl, hnone⟩ | rfl
    · have hnil : textsOf .values _ = [] := List.filterMap_eq_nil_iff.2 fun o ho => if_neg (hnone o ho)
      rw [hnil] at hvalues
      exact List.append_ne_nil_of_right_ne_nil _ (ih (h.within hs).2 hvalues rfl rfl)
    · simp [textsOf]
  | command h hws ih => exact absurd rfl hvalues

/-- What is written at the levels below begins with a command. -/
theorem Words.below_cases (h : Words l n s ws os below) :
    below = [] ∨ ∃ w m ws' os' below', below = (m, os') :: below' ∧ (w, m) ∈ l.commands ∧
      Words m 0 .free ws' os' below' := by
  induction h with
  | done h => exact .inl rfl
  | word h hs ih => exact ih
  | command h hs ih => exact .inr ⟨_, _, _, _, _, rfl, h, hs⟩

end

/-! ## What is asked for -/

/-- What is written for a call is what is asked for. -/
structure Tells (os : List Occurrence) (r : CallRequest) : Prop where
  interface : textsOf .interface os = (r.target.map (·.1)).toList
  service : textsOf .service os = (r.target.map (·.2)).toList
  method : textsOf .method os = r.method.toList
  args : List.Forall₂ ReadsAs (textsOf .values os) r.args
  body : List.Forall₂ ReadsAs (textsOf .body os) r.body.toList
  alone : r.body = none ∨ r.args = []

section

variable {os : List Occurrence} {g : Given} {a : Argument} {r : CallRequest}

theorem eq_head?_toList {α : Type} {xs : List α} (h : xs.length ≤ 1) : xs = xs.head?.toList := by
  rcases xs with _ | ⟨x, _ | ⟨y, xs⟩⟩
  · rfl
  · rfl
  · simp at h

/-- What is found of an argument that may be given only once is found once. -/
theorem Settled.eq_head?_toList {β : Type} {f : Argument × Operand → Option β} (h : Settled os g)
    (ha : a.isRepeatable = false) (hf : ∀ x y, f x = some y → x.1 = a) :
    g.filterMap f = (g.filterMap f).head?.toList := by
  have hpairwise : (g.filterMap f).Pairwise fun _ _ => False := by
    refine List.pairwise_filterMap.2 (h.single.imp fun {x x'} hxx' y hy y' hy' => ?_)
    have hrepeat := hxx' ((hf x y hy).trans (hf x' y' hy').symm)
    rw [hf x y hy, ha] at hrepeat
    cases hrepeat
  refine CommandLine.eq_head?_toList ?_
  by_contra hlength
  exact List.pairwise_iff_getElem.1 hpairwise 0 1 (by omega) (by omega) Nat.zero_lt_one

/-- The text that is written for an argument that may be given only once. -/
theorem Settled.textsOf_eq (h : Settled os g) (ha : a.form = .text) (hone : a.isRepeatable = false) :
    textsOf a os = (g.text? a).toList := by
  rw [← texts_of_reads (.inl ha) h.reads]
  refine h.eq_head?_toList hone fun x y hxy => ?_
  rcases x with ⟨b, _ | s | v⟩
  · cases hxy
  · simp only [Option.ite_none_right_eq_some] at hxy
    exact hxy.1
  · cases hxy

theorem values_eq_value? (h : Settled os g) (hone : a.isRepeatable = false) :
    g.values a = (g.value? a).toList := by
  refine h.eq_head?_toList hone fun x y hxy => ?_
  rcases x with ⟨b, _ | s | v⟩
  · cases hxy
  · cases hxy
  · simp only [Option.ite_none_right_eq_some] at hxy
    exact hxy.1

theorem target_eq_ok {t : Option (String × String)} (h : target g = .ok t) :
    g.text? .interface = t.map (·.1) ∧ g.text? .service = t.map (·.2) := by
  unfold target at h
  split at h
  next hinterface hservice =>
    obtain rfl := Except.ok.inj h
    exact ⟨hinterface, hservice⟩
  next hinterface hservice =>
    obtain rfl := Except.ok.inj h
    exact ⟨hinterface, hservice⟩
  next => cases h

/-- What is settled at the level of a call is what is asked for. -/
theorem Settled.tells (h : Settled os g) (hr : callRequest g = .ok r) : Tells os r := by
  unfold callRequest at hr
  split_ifs at hr with hboth
  obtain ⟨t, ht, rfl⟩ := Except.map_eq_ok.1 hr
  obtain ⟨hinterface, hservice⟩ := target_eq_ok ht
  have halone : g.value? .body = none ∨ g.values .values = [] := by
    by_contra hne
    obtain ⟨hbody, hvalues⟩ := not_or.1 hne
    refine hboth ⟨has_of_values_ne_nil hvalues, has_of_values_ne_nil fun hnil => hbody ?_⟩
    rw [Given.value?, hnil, List.head?_nil]
  exact {
    interface := by rw [h.textsOf_eq rfl rfl, hinterface]
    service := by rw [h.textsOf_eq rfl rfl, hservice]
    method := h.textsOf_eq rfl rfl
    args := values_of_reads rfl h.reads
    body := values_eq_value? (a := .body) h rfl ▸ values_of_reads rfl h.reads
    alone := halone }

theorem call_of_commandOf {l : Level} (h : commandOf l g = .ok (.call r)) :
    l = .call ∧ callRequest g = .ok r := by
  cases l with
  | call =>
    obtain ⟨r', hr, he⟩ := Except.map_eq_ok.1 h
    cases he
    exact ⟨rfl, hr⟩
  | interfaces | services | program | list => cases h
  | describe =>
    rw [commandOf] at h
    split at h <;> cases h

end

/-- A call is asked for right below the program. -/
theorem Asks.call {words : List String} {front : List Occurrence}
    {below : List (Level × List Occurrence)} {gs : List Given} {r : CallRequest}
    (hasks : Asks ((.program, front) :: below) gs (.call r))
    (hwords : Words .program 0 .free words front below) :
    ∃ ws os, below = [(.call, os)] ∧ Words .call 0 .free ws os [] ∧ Tells os r := by
  -- No command below another leads to a call.
  have hlist {w w' : String} {m m' : Level} (hm : (w, m) ∈ Level.program.commands)
      (hm' : (w', m') ∈ m.commands) : m' ≠ .call ∧ m'.commands = [] := by
    revert hm' hm
    cases m <;> cases m' <;> simp [Level.commands]
  rcases hwords.below_cases with rfl | ⟨w, m, ws, os, below', rfl, hm, hws⟩
  · rcases hasks with ⟨h, hc⟩ | ⟨h, hs⟩
    · cases (call_of_commandOf hc).1
    · cases hs
  · rcases hasks with _ | ⟨h, hasks⟩
    rcases hws.below_cases with rfl | ⟨w', m', ws', os', below'', rfl, hm', hws'⟩
    · rcases hasks with ⟨hg, hc⟩ | ⟨hg, hs⟩
      · obtain ⟨rfl, hr⟩ := call_of_commandOf hc
        exact ⟨ws, os, rfl, hws, hg.tells hr⟩
      · cases hs
    · obtain ⟨hcall, hnone⟩ := hlist hm hm'
      rcases hws'.below_cases with rfl | ⟨w'', m'', _, _, _, -, hm'', -⟩
      · rcases hasks with _ | ⟨hg, ⟨hg', hc⟩ | ⟨hg', hs⟩⟩
        · exact absurd (call_of_commandOf hc).1 hcall
        · cases hs
      · rw [hnone] at hm''
        cases hm''

/-! ## What is handed on -/

section

variable {World : Type} {os : List Occurrence} {r : CallRequest}

/-- A way to bind a method with all that is written about it. -/
inductive BindsWritten (c : Client World) (os : List Occurrence) : Binding World → Prop
  | pair {interface service : String} {method : Option String}
    (hinterface : textsOf .interface os = [interface]) (hservice : textsOf .service os = [service])
    (hmethod : textsOf .method os = method.toList) :
    BindsWritten c os (c.requestWith interface service method)
  | method {method : String} (hinterface : textsOf .interface os = [])
    (hservice : textsOf .service os = []) (hmethod : textsOf .method os = [method]) :
    BindsWritten c os (c.requestMethod method)
  | bare (hinterface : textsOf .interface os = []) (hservice : textsOf .service os = [])
    (hmethod : textsOf .method os = []) : BindsWritten c os c.request

/-- A way to call a method with all that is written as its input. -/
inductive InvokesWritten (i : Invoker World) (os : List Occurrence) : Invocation World → Prop
  | whole {text : String} {body : Json} (hbody : textsOf .body os = [text])
    (hvalues : textsOf .values os = []) (h : ReadsAs text body) :
    InvokesWritten i os (i.invokeMessage body)
  | positional {args : List Json} (hbody : textsOf .body os = [])
    (h : List.Forall₂ ReadsAs (textsOf .values os) args) : InvokesWritten i os (i.invoke args)

theorem Tells.bindsWritten (h : Tells os r) (c : Client World) : BindsWritten c os (bind c r) := by
  have hinterface := h.interface
  have hservice := h.service
  have hmethod := h.method
  rcases htarget : r.target with _ | ⟨interface, service⟩
  all_goals rw [htarget] at hinterface hservice
  · rcases hm : r.method with _ | method
    all_goals rw [hm] at hmethod
    · rw [binds_iff.1 (.bare htarget hm)]
      exact .bare hinterface hservice hmethod
    · rw [binds_iff.1 (.method htarget hm)]
      exact .method hinterface hservice hmethod
  · rw [binds_iff.1 (.pair htarget)]
    exact .pair hinterface hservice hmethod

theorem Tells.invokesWritten (h : Tells os r) (i : Invoker World) :
    InvokesWritten i os (invoke i r) := by
  have hargs := h.args
  have htexts := h.body
  rcases hbody : r.body with _ | body
  all_goals rw [hbody] at htexts
  · rw [invokes_iff.1 (.positional hbody)]
    exact .positional (List.forall₂_nil_right_iff.1 htexts) hargs
  · rw [invokes_iff.1 (.whole hbody)]
    have hnone : r.args = [] := h.alone.resolve_left (by simp [hbody])
    rw [hnone] at hargs
    obtain ⟨text, rest, htext, hrest, hos⟩ := List.forall₂_cons_right_iff.1 htexts
    obtain rfl := List.forall₂_nil_right_iff.1 hrest
    exact .whole hos (List.forall₂_nil_right_iff.1 hargs) htext

end

/-- What is written in front of a call and for it, with the call that is asked for: nothing that is
written for the call is missing in what is handed on. -/
structure HandsOn (front os : List Occurrence) (r : CallRequest) : Prop where
  /-- What is written for a call is not written in front of it. -/
  front : ∀ o ∈ front, o.1 ∉ ownOfCall
  tells : Tells os r
  target : textsOf .interface os ≠ [] ↔ textsOf .service os ≠ []
  alone : textsOf .body os ≠ [] → textsOf .values os = []
  method : textsOf .values os ≠ [] → textsOf .method os ≠ []
  binds : ∀ {World : Type} (c : Client World), BindsWritten c os (bind c r)
  invokes : ∀ {World : Type} (i : Invoker World), InvokesWritten i os (invoke i r)

/-- For every command line that asks for a call, whatever the order of its words. Its words are those of
the program and those of the call in just one way. The interface and the service are written together, a
whole input without arguments, and arguments with a method; all of it is what the call is bound and
invoked with. -/
theorem handsOn_of_parse {words : List String} {l : CommandLine} {r : CallRequest}
    (h : parse words = .ok l) (hr : l.command = .call r) :
    ∃ front os, (∀ levels, Line words levels ↔ levels = [(.program, front), (.call, os)]) ∧
      HandsOn front os r := by
  obtain ⟨levels, gs, hline, hasks, -⟩ := exists_line_of_parse h
  rcases hline with @⟨front, below, hwords⟩
  rw [hr] at hasks
  obtain ⟨ws, os, rfl, hws, htells⟩ := hasks.call hwords
  refine ⟨front, os, fun levels => ⟨fun h' => h'.unique (.mk hwords), fun he => he ▸ .mk hwords⟩, ?_⟩
  exact {
    front := fun o ho hown => by
      have hall : ∀ a ∈ Level.program.options ++ Level.program.positions, a ∉ ownOfCall := by decide
      exact hall o.1 (hwords.within (within_free _) o ho) hown
    tells := htells
    target := by
      rw [htells.interface, htells.service]
      cases r.target <;> simp
    alone := fun hbody => by
      have hbody' : r.body ≠ none := fun hnone => by
        have hnil := htells.body
        rw [hnone] at hnil
        exact hbody (List.forall₂_nil_right_iff.1 hnil)
      have hargs := htells.args
      rw [htells.alone.resolve_left hbody'] at hargs
      exact List.forall₂_nil_right_iff.1 hargs
    method := hws.method (within_free _)
    binds := fun c => htells.bindsWritten c
    invokes := fun i => htells.invokesWritten i }

/-- A call with options in front of, between and behind its positions. -/
def scattered : List String :=
  ["-v", "d.wsdl", "call", "--service=S", "get", "--interface", "P", "[1]", "-I", "inc", "--", "-2"]

/-- All of it is handed on. -/
theorem handsOn_scattered : ∃ l r, parse scattered = .ok l ∧ l.command = .call r ∧
    r.target = some ("P", "S") ∧ r.method = some "get" ∧ r.args.length = 2 ∧
    ∃ front os, (∀ levels, Line scattered levels ↔ levels = [(.program, front), (.call, os)]) ∧
      HandsOn front os r := by
  obtain ⟨l, hl⟩ : ∃ l, parse scattered = .ok l := Except.exists_of_isOk (by decide +kernel)
  have hcall : ((parse scattered).toOption.bind fun l =>
      match l.command with
      | .call r => some (r.target, r.method, r.args.length)
      | _ => none) = some (some ("P", "S"), some "get", 2) := by decide +kernel
  rw [hl, Except.toOption, Option.bind_some] at hcall
  split at hcall
  next r hr =>
    simp only [Option.some.injEq, Prod.mk.injEq] at hcall
    obtain ⟨htarget, hmethod, hargs⟩ := hcall
    exact ⟨l, r, hl, hr, htarget, hmethod, hargs, handsOn_of_parse hl hr⟩
  next => cases hcall

end ServiceCall.CommandLine
