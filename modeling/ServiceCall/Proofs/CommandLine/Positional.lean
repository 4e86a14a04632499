import ServiceCall.Proofs.CommandLine.Reading
/-!
# Arguments of a call

A call has its arguments from the words behind its method, each of which is read as a JSON value. A word
that starts with a hyphen is taken for an option before that: so negative numbers are refused, wherever
they stand, and all other values are arguments (`parse_call`). Behind two hyphens they all are.
-/

namespace ServiceCall.Json

open Scan

/-! ## Values that start with a hyphen -/

/-- A hyphen begins a number, or nothing. -/
theorem exists_digit_of_whole {s : List Utf8.Symbol} {x : List Char × List Utf8.Symbol}
    (h : whole s = .ok x) : ∃ c rest, s = some c :: rest ∧ isDigit c = true := by
  unfold whole at h
  split at h
  next rest => exact ⟨'0', rest, rfl, rfl⟩
  next =>
    rcases s with _ | ⟨_ | c, rest⟩
    · cases h
    · cases h
    · by_cases hc : isDigit c = true
      · exact ⟨c, rest, rfl, hc⟩
      · simp [digits1, digits, hc] at h

theorem value_hyphen (fuel : Nat) (s : List Utf8.Symbol) :
    value (fuel + 1) (some '-' :: s) =
      match number (some '-' :: s) with
      | .ok (n, rest) => (.number n, some rest)
      | .error f => broken f := by
  rw [value.eq_def]
  rfl

/-- Behind a hyphen that begins a value stands a digit. -/
theorem exists_digit_of_parse {s : String} {v : Json} (h : parse s = .ok v)
    (hhyphen : s.toList.head? = some '-') :
    ∃ d cs, s.toList = '-' :: d :: cs ∧ isDigit d = true := by
  obtain ⟨cs, hcs⟩ := List.head?_eq_some_iff.1 hhyphen
  have hsymbols : symbols s = some '-' :: cs.map some := by rw [symbols, hcs, List.map_cons]
  rw [parse, hsymbols, readText, Scan.document, value_hyphen] at h
  rcases hnumber : number (some '-' :: cs.map some) with f | x
  · rw [hnumber] at h
    cases h
  · obtain ⟨y, hwhole, -⟩ := Except.bind_eq_ok.1 hnumber
    obtain ⟨d, rest, hrest, hd⟩ := exists_digit_of_whole hwhole
    rcases cs with _ | ⟨d', cs⟩
    · cases hrest
    · obtain ⟨hd', -⟩ := List.cons.inj hrest
      obtain rfl := Option.some.inj hd'
      exact ⟨d', cs, hcs, hd⟩

end ServiceCall.Json

namespace ServiceCall.CommandLine

open Reading (start)

/-! ## Words behind a method -/

section

variable {l : Level} {r : Reading} {w : String}

theorem take_of_trailing (ht : r.trailing = true) : r.take l w = r.takeWord l w := if_pos ht

/-- A word for which no option waits and that is no option is one for a position. -/
theorem take_of_plain (hawaiting : r.awaiting? = none) (hw : w.toList.head? ≠ some '-') :
    r.take l w = r.takeWord l w := by
  have hnot : r.takesAnything = false := by simp [Reading.takesAnything, hawaiting]
  unfold Reading.take
  split_ifs with ht hanything
  · rfl
  · simp [hnot] at hanything
  · unfold Reading.takeOption
    split
    next h => simp [h] at hw
    next h => simp [h] at hw
    next h => simp [h] at hw
    next => rw [hawaiting]

/-- A hyphen with a letter that no option has. -/
theorem take_of_unknown {c : Char} {cs : List Char} (ht : r.trailing = false)
    (hawaiting : r.awaiting? = none) (hw : w.toList = '-' :: c :: cs) (hc : c ≠ '-')
    (hunknown : l.short? c = none) : r.take l w = .error .unknownArgument := by
  have hnot : r.takesAnything = false := by simp [Reading.takesAnything, hawaiting]
  have hoption : r.takeOption l w = r.takeLetters l (c :: cs) := by
    unfold Reading.takeOption
    rw [hw]
    split
    next h => exact absurd (List.cons.inj (List.cons.inj h).2).1 hc
    next h => exact absurd (List.cons.inj (List.cons.inj h).2).1 hc
    next h =>
      obtain ⟨rfl, rfl⟩ := List.cons.inj (List.cons.inj h).2
      rfl
    next h => exact absurd rfl (h c cs)
  rw [Reading.take, ht, hnot, if_neg Bool.false_ne_true, if_neg Bool.false_ne_true, hoption,
    Reading.takeLetters, hunknown]

end

/-- How far the reading of a call has come behind its method and some words. -/
def behindMethod (method : String) (t : Bool) : List String → Reading
  | [] => ⟨[], some (.method, [method]), 1, t⟩
  | w :: ws => ⟨[(.method, .text method)], some (.values, w :: ws), 1, t⟩

section

variable {method : String} {t : Bool} {ws : List String}

@[simp]
theorem behindMethod_awaiting? : (behindMethod method t ws).awaiting? = none := by cases ws <;> rfl

@[simp]
theorem behindMethod_trailing : (behindMethod method t ws).trailing = t := by cases ws <;> rfl

/-- A word for a position is one more of the arguments. -/
theorem takeWord_behindMethod (w : String) :
    (behindMethod method t ws).takeWord .call w = .ok (behindMethod method t (ws ++ [w])) := by
  cases ws <;> rfl

theorem command?_call (r : Reading) (w : String) : r.command? .call w = none := by
  simp [Reading.command?, Level.commandNames, Level.commands]

theorem readLevels_call_of_take {r r' : Reading} {w : String} (h : r.take .call w = .ok r')
    (rest : List String) : readLevels .call r (w :: rest) = readLevels .call r' rest := by
  rw [readLevels, command?_call, h]
  rfl

theorem readLevels_call_of_error {r : Reading} {w : String} {e : UsageError}
    (h : r.take .call w = .error e) (rest : List String) :
    readLevels .call r (w :: rest) = .error e := by
  rw [readLevels, command?_call, h]
  rfl

/-- Words of which none is taken for an option are arguments. -/
theorem readLevels_behindMethod {texts : List String}
    (h : t = true ∨ ∀ w ∈ texts, w.toList.head? ≠ some '-') :
    readLevels .call (behindMethod method t ws) texts =
      readLevels .call (behindMethod method t (ws ++ texts)) [] := by
  induction texts generalizing ws with
  | nil => rw [List.append_nil]
  | cons w texts ih =>
    have htake : (behindMethod method t ws).take .call w =
        .ok (behindMethod method t (ws ++ [w])) := by
      rw [← takeWord_behindMethod]
      rcases h with ht | h
      · exact take_of_trailing (by rw [behindMethod_trailing, ht])
      · exact take_of_plain behindMethod_awaiting? (h w List.mem_cons_self)
    rw [readLevels_call_of_take htake,
      ih (h.imp_right fun h w hw => h w (List.mem_cons_of_mem _ hw)), List.append_assoc,
      List.singleton_append]

/-- A value that starts with a hyphen is taken for an option. -/
theorem readLevels_hyphen {texts : List String} (htexts : ∀ w ∈ texts, ∃ v, Json.parse w = .ok v)
    (h : ∃ w ∈ texts, w.toList.head? = some '-') :
    readLevels .call (behindMethod method false ws) texts = .error .unknownArgument := by
  induction texts generalizing ws with
  | nil =>
    obtain ⟨w, hw, -⟩ := h
    cases hw
  | cons w texts ih =>
    by_cases hw : w.toList.head? = some '-'
    · obtain ⟨v, hv⟩ := htexts w List.mem_cons_self
      obtain ⟨d, cs, hcs, hd⟩ := Json.exists_digit_of_parse hv hw
      have hall : ∀ a ∈ Level.call.options, a.short?.any isDigit = false := by decide
      have hunknown : Level.call.short? d = none := by
        refine List.find?_eq_none.2 fun a ha hletter => ?_
        have hno := hall a ha
        rw [of_decide_eq_true hletter, Option.any_some, hd] at hno
        cases hno
      have hne : d ≠ '-' := by
        rintro rfl
        cases hd
      exact readLevels_call_of_error
        (take_of_unknown behindMethod_trailing behindMethod_awaiting? hcs hne hunknown) texts
    · rw [readLevels_call_of_take
        ((take_of_plain behindMethod_awaiting? hw).trans (takeWord_behindMethod w))]
      refine ih (fun w hw => htexts w (List.mem_cons_of_mem _ hw)) ?_
      obtain ⟨w', hw', hhead⟩ := h
      rcases List.mem_cons.1 hw' with rfl | hw'
      · exact absurd hhead hw
      · exact ⟨w', hw', hhead⟩

end

/-! ## The call -/

/-- What is given for a call of a method with arguments. -/
def givenFor (method : String) (args : List Json) : Given :=
  (.method, .text method) :: args.map fun v => (.values, .json v)

/-- What is asked for when nothing else is given. -/
def asked (address method : String) (args : List Json) : CommandLine where
  address
  config := none
  workspaceRoot := none
  includePaths := []
  protoc := none
  generator := none
  generatorArgs := []
  serviceAddress := none
  verbose := false
  command := .call ⟨none, some method, args, none⟩

section

variable {address method : String} {texts : List String} {args : List Json}

theorem texts_givenFor (a : Argument) :
    (givenFor method args).texts a = if a = .method then [method] else [] := by
  split_ifs with hm
  · simp [givenFor, Given.texts, hm]
  · simp [givenFor, Given.texts, Ne.symm hm]

theorem has_givenFor {a : Argument} (hm : a ≠ .method) (hv : a ≠ .values) :
    (givenFor method args).has a = false := by
  simp [givenFor, Given.has, Ne.symm hm, Ne.symm hv]

theorem values_givenFor : (givenFor method args).values .values = args := by
  simp [givenFor, Given.values, List.filterMap_map]

theorem value?_givenFor {a : Argument} (hv : a ≠ .values) :
    (givenFor method args).value? a = none := by
  simp [givenFor, Given.value?, Given.values, List.filterMap_map, Ne.symm hv]

/-- What is given at the level of the call when it ends. -/
theorem settled_behindMethod (h : List.Forall₂ ReadsAs texts args)
    (t : Bool) : (behindMethod method t texts).settled = .ok (givenFor method args) := by
  have hread : (texts.mapM fun w => (Argument.values.read w).map fun v => (Argument.values, v)) =
      .ok (args.map fun v => (.values, .json v)) := by
    refine List.mapM_eq_ok.2 (List.forall₂_map_right_iff.2 (h.imp fun s j hj => ?_))
    simp [Argument.read, Argument.form, hj, Except.map, Except.mapError]
  rcases texts with _ | ⟨w, ws⟩
  · rw [List.forall₂_nil_left_iff] at h
    rw [h]
    rfl
  · have hall : Given.readAll .values (w :: ws) = .ok (args.map fun v => (.values, .json v)) := hread
    have hsettle : Given.settle [(.method, .text method)] .values (w :: ws) =
        (Given.readAll .values (w :: ws)).map ([(.method, .text method)] ++ ·) := rfl
    rw [behindMethod, Reading.settled]
    dsimp only
    rw [hsettle, hall]
    rfl

theorem commandOf_givenFor : commandOf .call (givenFor method args) =
    .ok (.call ⟨none, some method, args, none⟩) := by
  have hnot : ¬((givenFor method args).has .values = true ∧ (givenFor method args).has .body = true) := by
    simp [has_givenFor]
  have htarget : target (givenFor method args) = .ok none := by
    simp [target, Given.text?, texts_givenFor]
  rw [commandOf, callRequest, if_neg hnot, htarget]
  simp [Given.text?, texts_givenFor, values_givenFor, value?_givenFor, Except.map]

/-- What is asked for behind the method. -/
theorem readLevels_asked (h : List.Forall₂ ReadsAs texts args) {t : Bool}
    (hplain : t = true ∨ ∀ w ∈ texts, w.toList.head? ≠ some '-') :
    readLevels .call (behindMethod method t []) texts =
      .ok ([givenFor method args], .call ⟨none, some method, args, none⟩) := by
  rw [readLevels_behindMethod hplain, List.nil_append, readLevels, settled_behindMethod h]
  change (commandOf .call (givenFor method args) >>= _) = _
  rw [commandOf_givenFor]
  rfl

/-- A call begins behind the address. -/
theorem readLevels_program (haddress : address.toList.head? ≠ some '-')
    (hcommand : address ∉ Level.program.commandNames) (rest : List String) :
    readLevels .program start (address :: "call" :: rest) =
      readLevels .call start rest >>= fun x => .ok ([(.address, .text address)] :: x.1, x.2) := by
  have hnone : start.command? .program address = none := by simp [Reading.command?, hcommand]
  have htake : start.take .program address = .ok ⟨[], some (.address, [address]), 1, false⟩ :=
    take_of_plain rfl haddress
  have hsome : Reading.command? .program ⟨[], some (.address, [address]), 1, false⟩ "call" =
      some "call" := rfl
  rw [readLevels, hnone]
  dsimp only
  rw [htake]
  change readLevels .program ⟨[], some (.address, [address]), 1, false⟩ ("call" :: rest) = _
  rw [readLevels, hsome]
  rfl

/-- What follows the method. -/
theorem readLevels_method (hmethod : method.toList.head? ≠ some '-') (rest : List String) :
    readLevels .call start (method :: rest) =
      readLevels .call (behindMethod method false []) rest :=
  readLevels_call_of_take (take_of_plain rfl hmethod) rest

/-- What every argument but the method has. -/
theorem innermost_given {a : Argument} (hm : a ≠ .method) :
    innermost [[(.address, .text address)], givenFor method args] a =
      if a = .address then [address] else [] := by
  have hmethod : (givenFor method args).texts a = [] := by rw [texts_givenFor, if_neg hm]
  rw [innermost, List.map_cons, List.map_cons, hmethod]
  split_ifs with ha
  · simp [Given.texts, ha]
  · simp [Given.texts, Ne.symm ha]

/-- A command line on which nothing else is given. -/
theorem parse_of_readLevels {words : List String} (h : readLevels .program start words =
    .ok ([[(.address, .text address)], givenFor method args], .call ⟨none, some method, args, none⟩)) :
    parse words = .ok (asked address method args) := by
  have hprogram : Given.has [(.address, .text address)] .verbose = false := rfl
  have hcall : (givenFor method args).has .verbose = false := has_givenFor (by decide) (by decide)
  unfold parse
  rw [h]
  simp only [Bind.bind, Except.bind, innermost_given (show Argument.address ≠ .method by decide), if_true]
  simp [innermost_given, hprogram, hcall, asked, pure, Except.pure]

/-- For every call of a method with texts that are JSON values. The values are the arguments, in order,
and nothing else is given, if no text starts with a hyphen; if one does, the command line is refused for
an unknown option. Behind two hyphens the values of all texts are the arguments. -/
theorem parse_call (haddress : address.toList.head? ≠ some '-')
    (hcommand : address ∉ Level.program.commandNames) (hmethod : method.toList.head? ≠ some '-')
    (htexts : List.Forall₂ ReadsAs texts args) :
    (parse (address :: "call" :: method :: texts) = .ok (asked address method args) ↔
      ∀ w ∈ texts, w.toList.head? ≠ some '-') ∧
    ((∃ w ∈ texts, w.toList.head? = some '-') →
      parse (address :: "call" :: method :: texts) = .error .unknownArgument) ∧
    parse (address :: "call" :: method :: "--" :: texts) = .ok (asked address method args) := by
  have hyphened (h : ∃ w ∈ texts, w.toList.head? = some '-') :
      parse (address :: "call" :: method :: texts) = .error .unknownArgument := by
    have hjson : ∀ w ∈ texts, ∃ v, Json.parse w = .ok v := by
      intro w hw
      obtain ⟨v, -, hv⟩ := htexts.exists_right hw
      exact ⟨v, hv⟩
    have hread := readLevels_program haddress hcommand (method :: texts)
    rw [readLevels_method hmethod, readLevels_hyphen hjson h] at hread
    rw [parse, hread]
    rfl
  refine ⟨⟨fun haccepted w hw hhead => ?_, fun hplain => ?_⟩, hyphened, ?_⟩
  · rw [hyphened ⟨w, hw, hhead⟩] at haccepted
    cases haccepted
  · refine parse_of_readLevels ?_
    rw [readLevels_program haddress hcommand, readLevels_method hmethod,
      readLevels_asked htexts (.inr hplain)]
    rfl
  · have hhyphens : (behindMethod method false []).take .call "--" = .ok (behindMethod method true []) :=
      rfl
    refine parse_of_readLevels ?_
    rw [readLevels_program haddress hcommand, readLevels_method hmethod,
      readLevels_call_of_take hhyphens, readLevels_asked htexts (.inl rfl)]
    rfl

end

/-- A text and a list with a negative number are arguments, and so is the number behind two hyphens. -/
theorem parse_call_enclosed :
    parse ["d.wsdl", "call", "send", "\"x\"", "[-1]"] =
      .ok (asked "d.wsdl" "send" [.string "x", .array [.integer (-1)]]) ∧
    parse ["d.wsdl", "call", "send", "--", "-1"] = .ok (asked "d.wsdl" "send" [.integer (-1)]) := by
  have hplain : List.Forall₂ ReadsAs ["\"x\"", "[-1]"]
      [.string "x", .array [.integer (-1)]] := .cons rfl (.cons rfl .nil)
  have hnegative : List.Forall₂ ReadsAs ["-1"] [.integer (-1)] :=
    .cons rfl .nil
  exact ⟨(parse_call (by decide) (by decide) (by decide) hplain).1.2 (by decide),
    (parse_call (by decide) (by decide) (by decide) hnegative).2.2⟩

/-- A negative number is a JSON value and no argument. -/
theorem parse_negative_refused : Json.parse "-1" = .ok (.integer (-1)) ∧
    parse ["d.wsdl", "call", "send", "-1"] = .error .unknownArgument := ⟨rfl, rfl⟩

end ServiceCall.CommandLine
