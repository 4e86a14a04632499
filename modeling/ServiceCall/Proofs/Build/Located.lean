import ServiceCall.Proofs.Build.Report
import ServiceCall.Proofs.Number.Decimal
/-!
# Notices about places in sources

A compiler says where in a source something is wrong, in one line. Lines like this are read one by one,
each as it was printed (`Diagnostic.located_of_report`). The source is recovered, unless its own path looks
like the end of one. A line is a warning if it says so anywhere, so an error whose message speaks of a
warning is taken for one.
-/

namespace ServiceCall

/-- What a compiler says about a source, or about a place in it. -/
structure Notice where
  path : Path
  /-- The line and the column. -/
  place : Option (Nat × Nat)
  isWarning : Bool
  message : String

namespace Notice

/-- What stands between the path and the message. -/
def separator (n : Notice) : String :=
  ":" ++
    (match n.place with
    | some (line, column) => toString line ++ ":" ++ toString column ++ ":"
    | none => "") ++
    (if n.isWarning then " warning: " else " ")

/-- The line that is printed. -/
def line (n : Notice) : String := n.path ++ n.separator ++ n.message

/-- The path is one of a source, and the message is one line that is not blank at its end. -/
structure Proper (n : Notice) : Prop where
  source : Diagnostic.sourceEnd <:+ n.path.toList
  path : '\n' ∉ n.path.toList
  message : '\n' ∉ n.message.toList
  trimmed : trimRight n.message = n.message
  nonempty : n.message ≠ ""

instance (n : Notice) : Decidable n.Proper :=
  decidable_of_iff (Diagnostic.sourceEnd <:+ n.path.toList ∧ '\n' ∉ n.path.toList ∧
      '\n' ∉ n.message.toList ∧ trimRight n.message = n.message ∧ n.message ≠ "")
    ⟨fun ⟨h₁, h₂, h₃, h₄, h₅⟩ => ⟨h₁, h₂, h₃, h₄, h₅⟩, fun ⟨h₁, h₂, h₃, h₄, h₅⟩ => ⟨h₁, h₂, h₃, h₄, h₅⟩⟩

/-- A diagnostic says what a notice says. -/
structure Located (n : Notice) (x : Diagnostic) : Prop where
  text : x.text = n.line
  severity : x.severity = .warning ↔ n.isWarning = true ∨
    Diagnostic.warningMark <:+: n.path.toList ∨ Diagnostic.warningMark <:+: n.message.toList
  file : ¬ ".proto:".toList <:+: n.path.toList → x.file = some n.path

variable {n : Notice}

/-! ## One line -/

theorem toList_line (n : Notice) :
    n.line.toList = n.path.toList ++ n.separator.toList ++ n.message.toList := by
  rw [line, String.toList_append, String.toList_append]

theorem exists_separator (n : Notice) : ∃ rest, n.separator.toList = ':' :: rest := by
  rw [separator, String.append_assoc, String.toList_append]
  exact ⟨_, rfl⟩

theorem getLast?_separator (n : Notice) : n.separator.toList.getLast? = some ' ' := by
  rw [separator, String.toList_append]
  cases n.isWarning <;> exact List.getLast?_append_of_ne_nil _ (by decide)

theorem infix_separator (h : n.isWarning = true) : Diagnostic.warningMark <:+: n.separator.toList := by
  rw [separator, if_pos h, String.toList_append]
  exact List.IsInfix.trans (by decide) (List.suffix_append ..).isInfix

theorem mem_separator {c : Char} (h : c ∈ n.separator.toList) :
    c.isDigit = true ∨ c ∈ [':', ' '] ∨ n.isWarning = true ∧ c ∈ "warning".toList := by
  have hdigits (k : Nat) (hc : c ∈ Nat.toDigits 10 k) : c.isDigit = true :=
    Nat.isDigit_of_mem_toDigits (by decide) (by decide) hc
  rw [separator, String.toList_append, String.toList_append, List.mem_append, List.mem_append] at h
  obtain (hcolon | hplace) | hend := h
  · exact .inr (.inl (by simpa using Or.inl hcolon))
  · cases hp : n.place with
    | none => simp [hp] at hplace
    | some place =>
      simp only [hp, String.toList_append, List.mem_append] at hplace
      obtain ((hline | hcolon) | hcolumn) | hcolon := hplace
      · exact .inl (hdigits _ (Nat.toList_repr ▸ hline))
      · exact .inr (.inl (by simpa using Or.inl hcolon))
      · exact .inl (hdigits _ (Nat.toList_repr ▸ hcolumn))
      · exact .inr (.inl (by simpa using Or.inl hcolon))
  · cases hwarning : n.isWarning with
    | false =>
      rw [hwarning] at hend
      exact .inr (.inl (by simpa using Or.inr hend))
    | true =>
      have hword : " warning: ".toList = ' ' :: ("warning".toList ++ [':', ' ']) := by decide
      rw [hwarning, if_pos rfl, hword, List.mem_cons, List.mem_append] at hend
      obtain rfl | hc | hc := hend
      · exact .inr (.inl (by simp))
      · exact .inr (.inr ⟨rfl, hc⟩)
      · exact .inr (.inl hc)

/-- A nonempty end of a text holds its last character. -/
theorem mem_of_suffix {u s : List Char} {c : Char} (h : u <:+ s) (hu : u ≠ [])
    (hs : s.getLast? = some c) : c ∈ u := by
  obtain ⟨t, rfl⟩ := h
  rw [List.getLast?_append_of_ne_nil _ hu] at hs
  exact List.mem_of_getLast? hs

theorem getLast?_path (h : n.Proper) : n.path.toList.getLast? = some 'o' := by
  obtain ⟨stem, hstem⟩ := h.source
  rw [← hstem]
  exact List.getLast?_append_of_ne_nil _ (by decide)

/-- Where one part of a line ends and the next one starts, no word of a warning can stand. -/
theorem infix_line_iff (h : n.Proper) : Diagnostic.warningMark <:+: n.line.toList ↔ n.isWarning = true ∨
    Diagnostic.warningMark <:+: n.path.toList ∨ Diagnostic.warningMark <:+: n.message.toList := by
  rw [toList_line]
  constructor
  · intro hinfix
    by_cases hwarning : n.isWarning = true
    · exact .inl hwarning
    refine .inr ?_
    rw [List.append_assoc, List.infix_append_iff, List.infix_append_iff] at hinfix
    obtain hpath | (hseparator | hmessage | ⟨u, v, huv, hu, hv⟩) | ⟨u, v, huv, hu, hv⟩ := hinfix
    · exact .inl hpath
    · have hmem : 'w' ∈ n.separator.toList := hseparator.subset (by decide)
      obtain hdigit | hsign | ⟨h, -⟩ := mem_separator hmem
      · exact absurd hdigit (by decide)
      · exact absurd hsign (by decide)
      · exact absurd h hwarning
    · exact .inr hmessage
    · by_cases hempty : u = []
      · subst hempty
        rw [List.nil_append] at huv
        exact .inr (huv ▸ hv.isInfix)
      · have hmem := mem_of_suffix hu hempty (getLast?_separator n)
        exact absurd (huv ▸ List.mem_append_left v hmem : ' ' ∈ Diagnostic.warningMark) (by decide)
    · by_cases hempty : u = []
      · subst hempty
        obtain ⟨rest, hrest⟩ := exists_separator n
        rw [List.nil_append] at huv
        rw [← huv, hrest] at hv
        exact absurd (List.cons_prefix_cons.1 hv).1 (by decide)
      · have hmem := mem_of_suffix hu hempty (getLast?_path h)
        exact absurd (huv ▸ List.mem_append_left v hmem : 'o' ∈ Diagnostic.warningMark) (by decide)
  · rintro (hwarning | hpath | hmessage)
    · exact (infix_separator hwarning).trans
        ((List.suffix_append ..).isInfix.trans (List.prefix_append ..).isInfix)
    · exact hpath.trans ((List.prefix_append ..).isInfix.trans (List.prefix_append ..).isInfix)
    · exact hmessage.trans (List.suffix_append ..).isInfix

/-- The diagnostic of the line of a notice says what the notice says. -/
theorem located_ofLine (h : n.Proper) : n.Located (Diagnostic.ofLine n.line.toList) := by
  refine ⟨String.toList_inj.1 (Diagnostic.text_ofLine _), ?_, fun hpath => ?_⟩
  · rw [← infix_line_iff h, ← Diagnostic.severity_ofLine]
    cases (Diagnostic.ofLine n.line.toList).severity <;> simp
  · obtain ⟨stem, hstem⟩ := h.source
    obtain ⟨rest, hrest⟩ := exists_separator n
    have hline : n.line.toList =
        stem ++ (Diagnostic.sourceEnd ++ [':']) ++ (rest ++ n.message.toList) := by
      rw [toList_line, hrest, ← hstem]
      simp
    have hbefore : Text.before? (Diagnostic.sourceEnd ++ [':']) n.line.toList = some stem := by
      rw [hline]
      refine Text.before?_append (by simp) ?_ _
      rwa [List.dropLast_concat, hstem]
    rw [Diagnostic.ofLine, hbefore, Option.map_some, hstem, String.ofList_toList]

theorem trimRight_line (h : n.Proper) : Text.trimRight n.line.toList = n.line.toList := by
  have htrimmed : Text.trimRight n.message.toList = n.message.toList := by
    have htrimmed := congrArg String.toList h.trimmed
    rwa [trimRight, String.toList_ofList] at htrimmed
  rw [toList_line]
  exact Text.trimRight_append _ htrimmed (by simpa using h.nonempty)

theorem feed_not_mem_line (h : n.Proper) : '\n' ∉ n.line.toList := by
  rw [toList_line, List.mem_append, List.mem_append]
  rintro ((hpath | hseparator) | hmessage)
  · exact h.path hpath
  · obtain hdigit | hsign | ⟨-, hword⟩ := mem_separator hseparator
    · exact absurd hdigit (by decide)
    · exact absurd hsign (by decide)
    · exact absurd hword (by decide)
  · exact h.message hmessage

theorem line_ne_empty (h : n.Proper) : n.line ≠ "" := by
  rw [line]
  simp [h.nonempty]

end Notice

namespace Diagnostic

/-- Lines that need no trimming are read one by one. -/
theorem ofReport_intercalate {br : String} (hbr : br = "\n" ∨ br = "\r\n") {ls : List String}
    (h : ∀ l ∈ ls, l ≠ "" ∧ '\n' ∉ l.toList ∧ Text.trimRight l.toList = l.toList) :
    ofReport (br.intercalate ls) = ls.map fun l => ofLine l.toList := by
  have hlines : Text.lines (br.intercalate ls).toList = ls.map String.toList := by
    rw [String.toList_intercalate]
    refine Text.lines_intercalate_of fun l hl => ?_
    obtain ⟨l, hmem, rfl⟩ := List.mem_map.1 hl
    obtain ⟨hne, hfeed, htrim⟩ := h l hmem
    have hne : l.toList ≠ [] := by simpa using hne
    refine ⟨Text.lines_of_not_mem hne hfeed, fun s => ?_⟩
    obtain rfl | rfl := hbr
    · have hend : l.toList.getLast? ≠ some '\r' := fun hreturn => by
        have hink := Text.not_isBlank_getLast_trimRight (s := l.toList) (by rwa [htrim])
        simp only [htrim] at hink
        rw [List.getLast?_eq_some_getLast hne, Option.some.injEq] at hreturn
        rw [hreturn] at hink
        cases hink
      rw [List.append_assoc]
      exact Text.lines_append_feed hfeed hend s
    · rw [List.append_assoc]
      exact Text.lines_append_return_feed hfeed s
  have htrimmed : (ls.map String.toList).map Text.trimRight = ls.map String.toList := by
    rw [List.map_map]
    exact List.map_congr_left fun l hl => (h l hl).2.2
  have hfull : (ls.map String.toList).filter (!·.isEmpty) = ls.map String.toList := by
    refine List.filter_eq_self.2 fun l hl => ?_
    obtain ⟨l, hmem, rfl⟩ := List.mem_map.1 hl
    simpa using (h l hmem).1
  rw [ofReport, hlines, htrimmed, hfull, List.map_map]
  rfl

/-- The lines of notices give one diagnostic each, in order, and it says what the notice says. -/
theorem located_of_report {br : String} (hbr : br = "\n" ∨ br = "\r\n") {ns : List Notice}
    (h : ∀ n ∈ ns, n.Proper) :
    List.Forall₂ Notice.Located ns (ofReport (br.intercalate (ns.map Notice.line))) := by
  have hlines : ∀ l ∈ ns.map Notice.line,
      l ≠ "" ∧ '\n' ∉ l.toList ∧ Text.trimRight l.toList = l.toList := by
    intro l hl
    obtain ⟨n, hn, rfl⟩ := List.mem_map.1 hl
    exact ⟨Notice.line_ne_empty (h n hn), Notice.feed_not_mem_line (h n hn),
      Notice.trimRight_line (h n hn)⟩
  rw [ofReport_intercalate hbr hlines, List.map_map, List.forall₂_map_right_iff]
  exact List.forall₂_same.2 fun n hn => Notice.located_ofLine (h n hn)

/-- A warning about a source and an error at a place in one. -/
def mixedNotices : List Notice :=
  [⟨"/ws/a.proto", none, true, "Import b.proto is unused."⟩, ⟨"b.proto", some (3, 14), false, "Expected: x"⟩]

theorem located_mixed : ∃ x y, ofReport
      "/ws/a.proto: warning: Import b.proto is unused.\r\nb.proto:3:14: Expected: x" = [x, y] ∧
    (x.severity = .warning ∧ x.file = some "/ws/a.proto") ∧
    y.severity = .error ∧ y.file = some "b.proto" := by
  have hreport : "\r\n".intercalate (mixedNotices.map Notice.line) =
      "/ws/a.proto: warning: Import b.proto is unused.\r\nb.proto:3:14: Expected: x" := by
    decide +kernel
  have hlocated := located_of_report (.inr rfl) (by decide +kernel : ∀ n ∈ mixedNotices, n.Proper)
  rw [hreport] at hlocated
  generalize ofReport _ = xs at hlocated
  obtain _ | ⟨hx, _ | ⟨hy, ⟨⟩⟩⟩ := hlocated
  have herror {x : Diagnostic} (hnot : ¬ x.severity = .warning) : x.severity = .error := by
    cases hseverity : x.severity with
    | error => rfl
    | warning => exact absurd hseverity hnot
  exact ⟨_, _, rfl, ⟨hx.severity.2 (.inl rfl), hx.file (by decide +kernel)⟩,
    herror (hy.severity.not.2 (by decide +kernel)), hy.file (by decide +kernel)⟩

/-- An error whose message speaks of a warning is read as one. -/
theorem exists_not_error : ¬ ∀ n : Notice, n.Proper → (n.place = none → n.isWarning = true) →
    ofReport n.line = [⟨if n.isWarning then .warning else .error, some n.path, n.line⟩] := by
  intro h
  have hread := h ⟨"a.proto", some (1, 2), false, "not a warning: x"⟩ (by decide +kernel) (fun h => nomatch h)
  have hseverity := congrArg (List.map Diagnostic.severity) hread
  exact absurd hseverity (by decide +kernel)

/-- Not every notice is recovered. Besides errors whose messages speak of a warning, there are errors whose
paths do, and a path in which a source seems to end is read up to there. -/
theorem exists_not_recovered :
    (¬ ∀ n : Notice, n.Proper → (n.place = none → n.isWarning = true) →
      ofReport n.line = [⟨if n.isWarning then .warning else .error, some n.path, n.line⟩]) ∧
    (∃ n : Notice, n = ⟨"warning:/a.proto", some (1, 2), false, "x"⟩ ∧ n.Proper ∧
      ofReport n.line = [⟨.warning, some n.path, n.line⟩]) ∧
    ∃ n : Notice, n = ⟨"a.proto:/b.proto", some (1, 2), false, "x"⟩ ∧ n.Proper ∧
      ofReport n.line = [⟨.error, some "a.proto", n.line⟩] := by
  refine ⟨exists_not_error, ⟨_, rfl, ?_, ?_⟩, ⟨_, rfl, ?_, ?_⟩⟩ <;> decide +kernel

end Diagnostic

end ServiceCall
