import ServiceCall.Proofs.Display.Unmarked
/-!
# What is shown with colours and without

Without colours every piece is shown as its text, so a signature is shown as the text that it has of its own
(`chars_signature`), and the block of an interface consists of the texts of its methods' signatures in their
order (`text_interface`). With colours the same characters are shown between control sequences: without those
(`strip`) nothing is left but the text without colours (`strip_chars`). Lists of names are an exception, as
they are trimmed after they were coloured: a blank at the end of the last name is only trimmed if no control
sequence stands behind it (`strip_names`).
-/

namespace ServiceCall

open Text

namespace Display

/-! ## Without colours -/

theorem chars_intercalate (coloured : Bool) (e : Display) (ds : List Display) :
    chars coloured (e.intercalate ds) = (chars coloured e).intercalate (ds.map (chars coloured)) := by
  induction ds with
  | nil => rfl
  | cons d ds ih =>
    cases ds with
    | nil => simp
    | cons d' ds =>
      rw [List.intercalate_cons_cons, chars_append, chars_append, ih]
      simp only [List.map_cons, List.intercalate_cons_cons]

theorem chars_parameter (p : String × String) :
    chars false (parameter p) = (p.1 ++ ": " ++ p.2).toList := by
  simp [parameter, chars, Piece.chars]

/-- Without colours a signature is shown as the text it has of its own. -/
theorem chars_signature (s : Signature) : chars false (signature s) = s.text.toList := by
  have hparameters : chars false ([.plain ", "].intercalate (s.parameters.map parameter)) =
      (Signature.parametersText s.parameters).toList := by
    rw [chars_intercalate, Signature.parametersText, String.toList_intercalate, List.map_map,
      List.map_map]
    exact congrArg _ (List.map_congr_left fun p _ => chars_parameter p)
  rw [signature, chars_append, chars_append, hparameters]
  simp [Signature.text, chars, Piece.chars]

/-! ## The block of an interface -/

/-- The lines for a method: its signature, the types of its input and output, and an empty line. -/
def methodLines (s : Signature) : List String :=
  ["  " ++ s.text, "    in " ++ s.input ++ " out " ++ s.output, ""]

/-- The lines for an interface. -/
def interfaceLines (name : String) (methods : List Signature) : List String :=
  ("interface " ++ name ++ " \x7b") :: (methods.flatMap methodLines ++ ["\x7d"])

theorem chars_method (s : Signature) (rest : List String) (h : rest ≠ []) :
    chars false (method s) ++ ("\n".intercalate rest).toList =
      ("\n".intercalate (methodLines s ++ rest)).toList := by
  obtain ⟨line, lines, rfl⟩ := List.exists_cons_of_ne_nil h
  rw [method, chars_append, chars_append, chars_signature]
  simp [methodLines, String.toList_intercalate, chars, Piece.chars]

theorem chars_methods (methods : List Signature) :
    chars false (methods.flatMap method) ++ ['\x7d'] =
      ("\n".intercalate (methods.flatMap methodLines ++ ["\x7d"])).toList := by
  induction methods with
  | nil => rfl
  | cons s methods ih =>
    rw [List.flatMap_cons, chars_append, List.append_assoc, ih, List.flatMap_cons, List.append_assoc]
    exact chars_method s _ (by simp)

/-- Without colours an interface is shown as its name, then for every method in order the signature as it
is written, the names of its types and an empty line, and a closing brace. -/
theorem text_interface (name : String) (methods : List Signature) :
    text false (interface name methods) = "\n".intercalate (interfaceLines name methods) := by
  obtain ⟨line, lines, hlines⟩ := List.exists_cons_of_ne_nil
    (List.append_ne_nil_of_right_ne_nil (methods.flatMap methodLines) (List.cons_ne_nil "\x7d" []))
  have hrest : chars false (methods.flatMap method) ++ chars false [.plain "\x7d"] =
      ("\n".intercalate (line :: lines)).toList := hlines ▸ chars_methods methods
  rw [text, interfaceLines, hlines, ← String.toList_inj, String.toList_ofList, Display.interface,
    chars_append, chars_append, List.append_assoc, hrest]
  simp [chars, Piece.chars, String.toList_intercalate]

/-! ## Control sequences -/

/-- The character stands between the start and the end of a control sequence. -/
def isParameter (c : Char) : Bool := isDigit c || c == ';'

/-- What stands behind a control sequence for colours, if the text starts with one. -/
def behind? : List Char → Option (List Char)
  | '\x1b' :: '[' :: rest =>
    match rest.dropWhile isParameter with
    | 'm' :: rest => some rest
    | _ => none
  | _ => none

theorem length_behind? {s rest : List Char} (h : behind? s = some rest) : rest.length < s.length := by
  unfold behind? at h
  split at h
  next rest' =>
    have hdrop := (List.dropWhile_suffix (p := isParameter) (l := rest')).length_le
    split at h
    next later heq =>
      cases h
      rw [heq] at hdrop
      simp only [List.length_cons] at hdrop ⊢
      omega
    next => cases h
  next => cases h

/-- The text without its control sequences for colours. -/
def strip (s : List Char) : List Char :=
  match s with
  | [] => []
  | c :: rest =>
    match _h : behind? (c :: rest) with
    | some later => strip later
    | none => c :: strip rest
termination_by s.length
decreasing_by
  · exact length_behind? _h
  · exact Nat.lt_succ_self _

theorem strip_nil : strip [] = [] := by rw [strip]

theorem strip_of_behind? {s rest : List Char} (h : behind? s = some rest) : strip s = strip rest := by
  cases s with
  | nil => cases h
  | cons c s =>
    rw [strip]
    split
    next later hlater => rw [Option.some.inj (hlater.symm.trans h)]
    next hnone => cases hnone.symm.trans h

theorem strip_cons_of_ne {c : Char} (h : c ≠ '\x1b') (s : List Char) : strip (c :: s) = c :: strip s := by
  have hnone : behind? (c :: s) = none := by
    unfold behind?
    split
    next heq => cases heq; exact absurd rfl h
    next => rfl
  rw [strip]
  split
  next later hlater => cases hnone.symm.trans hlater
  next => rfl

theorem strip_append {s : List Char} (h : Text.Unmarked s) (t : List Char) :
    strip (s ++ t) = s ++ strip t := by
  induction s with
  | nil => rfl
  | cons c s ih =>
    obtain ⟨hc, hs⟩ := unmarked_cons.1 h
    rw [List.cons_append, strip_cons_of_ne hc, ih hs, List.cons_append]

theorem strip_start (i : Ink) (t : List Char) : strip (i.start ++ t) = strip t :=
  strip_of_behind? (by cases i <;> rfl)

theorem strip_stop (t : List Char) : strip (Ink.stop ++ t) = strip t := strip_of_behind? rfl

theorem strip_paint (i : Ink) {s : List Char} (h : Text.Unmarked s) (t : List Char) :
    strip (i.paint s ++ t) = s ++ strip t := by
  rw [Ink.paint, Ink.restart_of_not_mem i s h, List.append_assoc, List.append_assoc, strip_start,
    strip_append h, strip_stop]

/-- Every piece has a text without an escape character. -/
def Unmarked (d : Display) : Prop := ∀ p ∈ d, Text.Unmarked p.bare.toList

/-- Without its control sequences a text in colours is the text without colours. -/
theorem strip_chars {d : Display} (h : Unmarked d) (t : List Char) :
    strip (chars true d ++ t) = chars false d ++ strip t := by
  induction d with
  | nil => rfl
  | cons p d ih =>
    obtain ⟨hp, hd⟩ := List.forall_mem_cons.1 h
    have hpiece : strip (p.chars true ++ (chars true d ++ t)) = p.chars false ++ strip (chars true d ++ t) := by
      cases p with
      | plain s => exact strip_append hp _
      | painted i s => exact strip_paint i hp _
    have hchars (coloured : Bool) : chars coloured (p :: d) = p.chars coloured ++ chars coloured d := rfl
    rw [hchars, hchars, List.append_assoc, hpiece, ih hd, List.append_assoc]

theorem unmarked_append {d e : Display} (hd : Unmarked d) (he : Unmarked e) : Unmarked (d ++ e) :=
  List.forall_mem_append.2 ⟨hd, he⟩

theorem strip_text {d : Display} (h : Unmarked d) : strip (text true d).toList = (text false d).toList := by
  have hchars := strip_chars h []
  rw [List.append_nil, strip_nil, List.append_nil] at hchars
  rw [text, text, String.toList_ofList, String.toList_ofList, hchars]

/-! ## Lists of names -/

theorem unmarked_nameLines {kind : String} {names : List String} (hkind : Text.Unmarked kind.toList)
    (hnames : ∀ n ∈ names, Text.Unmarked n.toList) : Unmarked (nameLines kind names) := by
  refine List.forall_mem_cons.2 ⟨by simp [Piece.bare, hkind], fun p hp => ?_⟩
  obtain ⟨n, hn, hp⟩ := List.mem_flatMap.1 hp
  simp only [listed, List.mem_cons, List.not_mem_nil, or_false] at hp
  obtain rfl | rfl | rfl := hp
  · exact unmarked_word (by decide)
  · exact hnames n hn
  · exact unmarked_word (by decide)

/-- The characters of a list up to those of its last name. -/
def beforeLast (coloured : Bool) (kind : String) (names : List String) : List Char :=
  chars coloured (nameLines kind names) ++ "  - ".toList

theorem chars_nameLines_concat (coloured : Bool) (kind : String) (names : List String) (n : String) :
    chars coloured (nameLines kind (names ++ [n])) =
      beforeLast coloured kind names ++ (Piece.painted .name n).chars coloured ++ ['\n'] := by
  simp [nameLines, beforeLast, chars, listed, Piece.chars]

theorem toList_names (coloured : Bool) (kind : String) (names : List String) (n : String) :
    (Display.names coloured kind (names ++ [n])).toList =
      Text.trimRight (beforeLast coloured kind names ++ (Piece.painted .name n).chars coloured) := by
  have hne : (names ++ [n]).isEmpty = false := by simp
  have hblank : isBlank '\n' = true := by decide
  rw [Display.names, hne, if_neg Bool.false_ne_true, trimRight, text, String.toList_ofList,
    String.toList_ofList, chars_nameLines_concat, trimRight_append_blank _ hblank]

/-- A coloured list ends with the control sequence behind its last name, so no more of it is trimmed. -/
theorem toList_names_true (kind : String) (names : List String) (n : String) :
    (Display.names true kind (names ++ [n])).toList =
      beforeLast true kind names ++ Ink.name.paint n.toList := by
  have hstop : Ink.stop = ['\x1b', '[', '0'] ++ ['m'] := by decide
  have hink : isBlank 'm' = false := by decide
  rw [toList_names]
  show Text.trimRight (beforeLast true kind names ++ Ink.name.paint n.toList) = _
  rw [Ink.paint, hstop, ← List.append_assoc, ← List.append_assoc, trimRight_append_ink _ hink]

theorem strip_names {kind : String} {names : List String} {n : String}
    (hkind : Text.Unmarked kind.toList) (hnames : ∀ m ∈ names ++ [n], Text.Unmarked m.toList) :
    strip (Display.names true kind (names ++ [n])).toList = beforeLast false kind names ++ n.toList := by
  obtain ⟨hnames, hn⟩ := List.forall_mem_append.1 hnames
  have hlines := unmarked_nameLines hkind hnames
  have hbullet : Text.Unmarked "  - ".toList := unmarked_word (by decide)
  rw [toList_names_true, beforeLast, List.append_assoc, strip_chars hlines, strip_append hbullet,
    beforeLast, List.append_assoc]
  have hpaint := strip_paint .name (hn n List.mem_cons_self) []
  rw [List.append_nil, strip_nil, List.append_nil] at hpaint
  rw [hpaint]

/-- The text ends with a character that is not blank. -/
def endsInInk (s : String) : Bool := s.toList.getLast?.any fun c => !isBlank c

theorem trimRight_concat_eq_self {s : List Char} {c : Char} :
    Text.trimRight (s ++ [c]) = s ++ [c] ↔ isBlank c = false := by
  refine ⟨fun h => ?_, fun h => trimRight_append_ink s h⟩
  refine Bool.eq_false_iff.2 fun hc => ?_
  have hlength := congrArg List.length h
  rw [trimRight_append_blank s hc, List.length_append] at hlength
  have hle : (Text.trimRight s).length ≤ s.length := by
    have hdrop := (List.dropWhile_suffix (l := s.reverse) isBlank).length_le
    rwa [List.length_reverse, ← List.length_reverse, ← Text.trimRight] at hdrop
  simp only [List.length_cons, List.length_nil] at hlength
  omega

theorem trimRight_beforeLast {kind : String} {names : List String} {n : String} :
    Text.trimRight (beforeLast false kind names ++ n.toList) = beforeLast false kind names ++ n.toList ↔
      endsInInk n = true := by
  obtain hnil | ⟨s, c, hn⟩ := List.eq_nil_or_concat n.toList
  · have hbullet : "  - ".toList = [' ', ' ', '-'] ++ [' '] := by decide
    rw [hnil, List.append_nil, beforeLast, hbullet, ← List.append_assoc, trimRight_concat_eq_self,
      endsInInk, hnil]
    decide
  · rw [List.concat_eq_append] at hn
    rw [hn, ← List.append_assoc, trimRight_concat_eq_self, endsInInk, hn]
    simp

/-! ## Signatures and errors -/

section

variable {s : Signature} (h : ∀ t ∈ s.strings, Text.Unmarked t.toList)
include h

theorem unmarked_parameter {p : String × String} (hp : p ∈ s.parameters) : Unmarked (parameter p) := by
  have hstring {t : String} (ht : t ∈ [p.1, p.2]) : Text.Unmarked t.toList := by
    refine h t ?_
    simp only [Signature.strings, List.mem_cons, List.mem_flatMap]
    exact .inr (.inr (.inr (.inr ⟨p, hp, by simpa using ht⟩)))
  have hname : Text.Unmarked (p.1 ++ ": ").toList := by simp [hstring]
  have htype : Text.Unmarked p.2.toList := hstring (by simp)
  exact List.forall_mem_cons.2 ⟨hname, List.forall_mem_singleton.2 htype⟩

theorem unmarked_signature : Unmarked (signature s) := by
  have hname : Text.Unmarked s.name.toList := h _ (by simp [Signature.strings])
  have hreturns : Text.Unmarked s.returns.toList := h _ (by simp [Signature.strings])
  have hparameters : Unmarked ([.plain ", "].intercalate (s.parameters.map parameter)) := by
    refine List.forall_mem_intercalate (List.forall_mem_singleton.2 (unmarked_word (by decide))) ?_
    exact List.forall_mem_map.2 fun p hp => unmarked_parameter h hp
  have hbrace : Text.Unmarked "(".toList := unmarked_word (by decide)
  have harrow : Text.Unmarked ") -> ".toList := unmarked_word (by decide)
  refine unmarked_append (unmarked_append ?_ hparameters) ?_
  · exact List.forall_mem_cons.2 ⟨hname, List.forall_mem_singleton.2 hbrace⟩
  · exact List.forall_mem_cons.2 ⟨harrow, List.forall_mem_singleton.2 hreturns⟩

theorem unmarked_method : Unmarked (method s) := by
  have hinput : Text.Unmarked s.input.toList := h _ (by simp [Signature.strings])
  have houtput : Text.Unmarked s.output.toList := h _ (by simp [Signature.strings])
  refine unmarked_append (unmarked_append ?_ (unmarked_signature h)) ?_
  · exact List.forall_mem_singleton.2 (unmarked_word (by decide))
  · simp [Unmarked, Piece.bare, hinput, houtput]

end

theorem unmarked_interface {name : String} {methods : List Signature}
    (hname : Text.Unmarked name.toList)
    (h : ∀ s ∈ methods, ∀ t ∈ s.strings, Text.Unmarked t.toList) :
    Unmarked (Display.interface name methods) := by
  have hmethods : Unmarked (methods.flatMap method) := fun p hp => by
    obtain ⟨s, hs, hp⟩ := List.mem_flatMap.1 hp
    exact unmarked_method (h s hs) p hp
  refine unmarked_append (unmarked_append ?_ hmethods) ?_
  · simp [Unmarked, Piece.bare, hname]
  · exact List.forall_mem_singleton.2 (unmarked_word (by decide))

theorem unmarked_failure {title message : String} (htitle : Text.Unmarked title.toList)
    (hmessage : Text.Unmarked message.toList) : Unmarked (failure title message) := by
  have hquoted : Text.Unmarked ("\n\n'" ++ message ++ "'").toList := by simp [hmessage]
  exact List.forall_mem_cons.2 ⟨htitle, List.forall_mem_singleton.2 hquoted⟩

end Display

/-! ## Everything that is shown -/

/-- What is shown on a terminal. -/
inductive Shown where
  | names (kind : String) (names : List String)
  | signature (s : Signature)
  | interface (name : String) (methods : List Signature)
  | json (v : Json)
  | init (e : InitError)
  | request (e : RequestError)
  | invocation (e : InvocationError)
  | chain (messages : List String)

namespace Shown

def text (coloured : Bool) : Shown → String
  | names kind ns => Display.names coloured kind ns
  | signature s => (Display.signature s).text coloured
  | interface name methods => (Display.interface name methods).text coloured
  | json v => (Display.json v).text coloured
  | init e => (Display.initError e).text coloured
  | request e => (Display.requestError e).text coloured
  | invocation e => (Display.invocationError e).text coloured
  | chain messages => (Display.errorChain messages).text coloured

/-- The strings that are shown as they are. -/
def strings : Shown → List String
  | names kind ns => kind :: ns
  | signature s => s.strings
  | interface name methods => name :: methods.flatMap Signature.strings
  | json _ => []
  | init e => e.strings
  | request e => e.strings
  | invocation e => e.strings
  | chain messages => messages

/-- A list does not end with a name that ends with a blank or is empty. -/
def Firm : Shown → Prop
  | names _ ns => ∀ n ∈ ns.getLast?, Display.endsInInk n = true
  | _ => True

/-- What is no list of names is shown piece by piece. -/
theorem list_or_display {v : Shown} (h : ∀ s ∈ v.strings, Text.Unmarked s.toList) :
    (∃ kind ns n, v = names kind (ns ++ [n])) ∨
      v.Firm ∧ ∃ d : Display, d.Unmarked ∧ ∀ coloured, v.text coloured = d.text coloured := by
  cases v with
  | names kind ns =>
    obtain rfl | ⟨init, n, hns⟩ := List.eq_nil_or_concat ns
    · have hnone : Text.Unmarked ("No " ++ kind ++ " found.").toList := by
        simp [h kind List.mem_cons_self]
      let d : Display := [.painted .note ("No " ++ kind ++ " found.")]
      have hd : d.Unmarked := List.forall_mem_singleton.2 hnone
      exact .inr ⟨fun n hn => absurd hn (by simp), d, hd, fun _ => rfl⟩
    · exact .inl ⟨kind, init, n, by rw [hns, List.concat_eq_append]⟩
  | signature s => exact .inr ⟨trivial, Display.signature s, Display.unmarked_signature h, fun _ => rfl⟩
  | interface name methods =>
    obtain ⟨hname, hmethods⟩ := List.forall_mem_cons.1 h
    have hd : (Display.interface name methods).Unmarked := Display.unmarked_interface hname
      fun s hs t ht => hmethods t (List.mem_flatMap.2 ⟨s, hs, ht⟩)
    exact .inr ⟨trivial, Display.interface name methods, hd, fun _ => rfl⟩
  | json v =>
    have hpretty : Text.Unmarked v.pretty.toList := by
      rw [Json.pretty, String.toList_ofList]
      exact Json.unmarked_prettyChars 0 v
    have hd : (Display.json v).Unmarked := List.forall_mem_singleton.2 hpretty
    exact .inr ⟨trivial, Display.json v, hd, fun _ => rfl⟩
  | init e =>
    have hd : (Display.initError e).Unmarked :=
      Display.unmarked_failure e.unmarked_title (InitError.unmarked_message h)
    exact .inr ⟨trivial, Display.initError e, hd, fun _ => rfl⟩
  | request e =>
    have htitle : Text.Unmarked e.title.toList := unmarked_word (by decide)
    have hd : (Display.requestError e).Unmarked :=
      Display.unmarked_failure htitle (RequestError.unmarked_message h)
    exact .inr ⟨trivial, Display.requestError e, hd, fun _ => rfl⟩
  | invocation e =>
    have htitle : Text.Unmarked e.title.toList := by cases e <;> exact unmarked_word (by decide)
    have hd : (Display.invocationError e).Unmarked :=
      Display.unmarked_failure htitle (InvocationError.unmarked_message h)
    exact .inr ⟨trivial, Display.invocationError e, hd, fun _ => rfl⟩
  | chain messages =>
    have hchain : Text.Unmarked (": ".intercalate messages).toList := by
      rw [String.toList_intercalate]
      exact unmarked_intercalate (unmarked_word (by decide)) (List.forall_mem_map.2 h)
    have hd : (Display.errorChain messages).Unmarked :=
      Display.unmarked_failure (unmarked_word (by decide)) hchain
    exact .inr ⟨trivial, Display.errorChain messages, hd, fun _ => rfl⟩

/-- Colours change nothing but colour, except at the end of a list of names: without colours blank characters
are trimmed there that are part of its last name. -/
theorem strip_coloured {v : Shown} (h : ∀ s ∈ v.strings, Text.Unmarked s.toList) :
    (Display.strip (v.text true).toList = (v.text false).toList ↔ v.Firm) ∧
      (¬ v.Firm → Text.trimRight (Display.strip (v.text true).toList) = (v.text false).toList) := by
  obtain ⟨kind, ns, n, rfl⟩ | ⟨hfirm, d, hd, htext⟩ := list_or_display h
  · obtain ⟨hkind, hnames⟩ := List.forall_mem_cons.1 h
    have hstrip := Display.strip_names hkind hnames
    have hplain : (Display.names false kind (ns ++ [n])).toList =
        Text.trimRight (Display.beforeLast false kind ns ++ n.toList) := Display.toList_names false kind ns n
    have hfirm : Firm (names kind (ns ++ [n])) ↔ Display.endsInInk n = true := by simp [Firm]
    refine ⟨?_, fun _ => ?_⟩
    · rw [hfirm, text, text, hstrip, hplain, eq_comm, Display.trimRight_beforeLast]
    · rw [text, text, hstrip, hplain]
  · have hsame : Display.strip (v.text true).toList = (v.text false).toList := by
      rw [htext, htext, Display.strip_text hd]
    exact ⟨iff_of_true hsame hfirm, fun hblank => absurd hfirm hblank⟩

/-- A list of names that end in characters that are not blank. -/
theorem strip_coloured_firm : (names "interfaces" ["a ", "b c"]).Firm ∧
    Display.strip (text true (names "interfaces" ["a ", "b c"])).toList =
      (text false (names "interfaces" ["a ", "b c"])).toList := by
  have hstrings : ∀ s ∈ (names "interfaces" ["a ", "b c"]).strings, Text.Unmarked s.toList := by
    decide +kernel
  have hfirm : (names "interfaces" ["a ", "b c"]).Firm := by
    intro n hn
    cases hn
    decide +kernel
  exact ⟨hfirm, (strip_coloured hstrings).1.2 hfirm⟩

/-- The blank at the end of a name is shown in colours and is not shown without. -/
theorem not_strip_coloured_blank : (∀ s ∈ (names "interfaces" ["a "]).strings, Text.Unmarked s.toList) ∧
    Display.strip (text true (names "interfaces" ["a "])).toList ≠
      (text false (names "interfaces" ["a "])).toList := by
  have hstrings : ∀ s ∈ (names "interfaces" ["a "]).strings, Text.Unmarked s.toList := by decide +kernel
  refine ⟨hstrings, fun h => ?_⟩
  have hnames : ∀ m ∈ [] ++ ["a "], Text.Unmarked m.toList := fun m hm =>
    hstrings m (List.mem_cons_of_mem _ hm)
  have hstrip := Display.strip_names (hstrings "interfaces" List.mem_cons_self) hnames
  exact absurd (hstrip.symm.trans h) (by decide +kernel)

end Shown

end ServiceCall
