import Mathlib.Tactic.IntervalCases
import Mathlib.Tactic.SplitIfs
import ServiceCall.Proofs.Basic.Except
import ServiceCall.Proofs.Number.Decimal
import ServiceCall.Proofs.Text.Lines
import ServiceCall.WellKnown.Time
/-!
# Times are read back from their texts

The date of a day is one of the calendar (`Date.isValid_ofDays`), and the day of that date is the
same day again (`Date.toDays_ofDays`). A period of 400 years, an era, has 146097 days. Years are
counted from March, so that the day that a leap year has more is its last one: then the day of a
year is told by the number of days before the year, a linear formula of the centuries, the periods
of four years and the years that are over (`exists_dayOfYear`).

The text of a point in time is read as that point with its nanoseconds brought into one second
(`Timestamp.read_of_text?`), if it is in the years 1 to 9999 then, and the text of a span of time is
read as that span with its seconds and nanoseconds of one sign (`Duration.read_of_text?`). What is
read has the same text again.
-/

namespace ServiceCall

/-! ## Days and dates -/

namespace Date

/-- The year of an era in which a day of the era is, as it is computed. -/
def yearOfEra (day : Int) : Int := (day - day / 1460 + day / 36524 - day / 146096) / 365

/-- A day of an era that is not the last one, by its century, its period of four years and its
place there. -/
theorem exists_period {day : Int} (h0 : 0 ≤ day) (h : day < 146096) :
    ∃ century period rest : Int, 0 ≤ century ∧ century ≤ 3 ∧ 0 ≤ period ∧ 0 ≤ rest ∧
      rest ≤ 1460 ∧ 1461 * period + rest < 36524 ∧
      day = 36524 * century + 1461 * period + rest :=
  ⟨day / 36524, day % 36524 / 1461, day % 36524 % 1461, by omega, by omega, by omega, by omega,
    by omega, by omega, by omega⟩

/-- The year in which a day is: of a period of four years the last one has the day more. -/
theorem yearOfEra_eq {century period rest : Int} (hc : 0 ≤ century) (hc' : century ≤ 3)
    (hp : 0 ≤ period) (hr : 0 ≤ rest) (hr' : rest ≤ 1460) (h : 1461 * period + rest < 36524) :
    yearOfEra (36524 * century + 1461 * period + rest) =
      100 * century + 4 * period + min 3 (rest / 365) := by
  unfold yearOfEra
  generalize hday : 36524 * century + 1461 * period + rest = day
  have hcentury : day / 36524 = century := by omega
  have hlast : day / 146096 = 0 := by omega
  -- One more than the periods are taken off, but only in the last year of a period.
  obtain ⟨more, hmore, hperiods⟩ : ∃ more : Int, (more = 0 ∨ more = 1 ∧ 1364 ≤ rest) ∧
      day / 1460 = 25 * century + period + more := by
    refine ⟨(24 * century + period + rest) / 1460, ?_, ?_⟩ <;> omega
  have hmost : rest = 1460 → more = 1 := by omega
  rw [hcentury, hlast, hperiods, ← hday]
  omega

/-- A day of an era is one of a year of the era; only leap years have a day of number 365. -/
theorem exists_dayOfYear {day : Int} (h0 : 0 ≤ day) (h : day < 146097) :
    ∃ year dayOfYear : Int, yearOfEra day = year ∧ 0 ≤ year ∧ year ≤ 399 ∧
      365 * year + year / 4 - year / 100 + dayOfYear = day ∧ 0 ≤ dayOfYear ∧ dayOfYear ≤ 365 ∧
      (dayOfYear = 365 → (year + 1) % 4 = 0 ∧ ((year + 1) % 100 ≠ 0 ∨ (year + 1) % 400 = 0)) := by
  by_cases hlast : day = 146096
  · exact ⟨399, 365, by rw [hlast]; rfl, by omega, by omega, by omega, by omega, by omega, by omega⟩
  · obtain ⟨century, period, rest, hc, hc', hp, hr, hr', hlt, rfl⟩ :=
      exists_period h0 (by omega)
    refine ⟨_, rest - 365 * min 3 (rest / 365), yearOfEra_eq hc hc' hp hr hr' hlt, ?_⟩
    obtain ⟨n, hn⟩ : ∃ n : Int, n = min 3 (rest / 365) := ⟨_, rfl⟩
    have hn0 : 0 ≤ n ∧ n ≤ 3 ∧ 365 * n ≤ rest ∧ rest ≤ 365 * n + 365 ∧
        (rest = 365 * n + 365 → rest = 1460) := by omega
    rw [← hn]
    clear hn
    have hperiods : (100 * century + 4 * period + n) / 4 = 25 * century + period := by omega
    have hcentury : (100 * century + 4 * period + n) / 100 = century := by omega
    rw [hperiods, hcentury]
    omega

/-- The months have so many days before them in a year from March. -/
theorem exists_month {dayOfYear : Int} (h0 : 0 ≤ dayOfYear) (h : dayOfYear ≤ 365) :
    ∃ month day : Int, (5 * dayOfYear + 2) / 153 = month ∧
      dayOfYear - (153 * month + 2) / 5 + 1 = day ∧ 0 ≤ month ∧ month ≤ 11 ∧ 1 ≤ day ∧
      day ≤ 31 ∧ ((month = 1 ∨ month = 3 ∨ month = 6 ∨ month = 8) → day ≤ 30) ∧
      (month = 11 → day ≤ 29 ∧ (day = 29 → dayOfYear = 365)) := by
  refine ⟨_, _, rfl, rfl, ?_⟩
  generalize hmonth : (5 * dayOfYear + 2) / 153 = month
  have hbounds : 0 ≤ month ∧ month ≤ 11 := by omega
  obtain ⟨hl, hh⟩ := hbounds
  interval_cases month <;> omega

variable {days : Int}

/-- The date of a day by its era, and the year, the month and the day in it, all from March. -/
theorem exists_ofDays (days : Int) :
    ∃ era year month day dayOfYear : Int, 0 ≤ year ∧ year ≤ 399 ∧ 0 ≤ month ∧ month ≤ 11 ∧
      1 ≤ day ∧ day ≤ 31 ∧ ((month = 1 ∨ month = 3 ∨ month = 6 ∨ month = 8) → day ≤ 30) ∧
      (month = 11 → day ≤ 29 ∧ (day = 29 → (year + 1) % 4 = 0 ∧
        ((year + 1) % 100 ≠ 0 ∨ (year + 1) % 400 = 0))) ∧
      0 ≤ dayOfYear ∧ dayOfYear = (153 * month + 2) / 5 + day - 1 ∧
      days + 719468 = 146097 * era + (365 * year + year / 4 - year / 100 + dayOfYear) ∧
      ofDays days = ⟨era * 400 + year + (if month < 10 then 0 else 1),
        (if month < 10 then month + 3 else month - 9).toNat, day.toNat⟩ := by
  obtain ⟨year, dayOfYear, hyear, hy0, hy, hday, hd0, hd, hleap⟩ :=
    @exists_dayOfYear ((days + 719468) % 146097) (by omega) (by omega)
  obtain ⟨month, day, hmonth, hdate, hm0, hm, hday1, hday31, hshort, hlast⟩ := exists_month hd0 hd
  refine ⟨(days + 719468) / 146097, year, month, day, dayOfYear, hy0, hy, hm0, hm, hday1, hday31,
    hshort, fun h => ⟨(hlast h).1, fun h29 => hleap ((hlast h).2 h29)⟩, hd0, by omega, by omega, ?_⟩
  have hdoy : (days + 719468) % 146097 - (365 * year + year / 4 - year / 100) = dayOfYear := by
    omega
  unfold yearOfEra at hyear
  simp only [ofDays, hyear, hdoy, hmonth, hdate]
  split_ifs <;> first | rfl | omega

/-- The day of the date of a day is that day. -/
theorem toDays_ofDays (days : Int) : (ofDays days).toDays = days := by
  obtain ⟨era, year, month, day, dayOfYear, hy0, hy, hm0, hm, hday1, hday31, -, -, hd0, hd, hdays,
    hdate⟩ := exists_ofDays days
  have hmonth : (if 2 < (if month < 10 then month + 3 else month - 9).toNat then
      (((if month < 10 then month + 3 else month - 9).toNat : Int) - 3 : Int)
      else (if month < 10 then month + 3 else month - 9).toNat + 9) = month := by
    split_ifs <;> omega
  have hyear : (if (if month < 10 then month + 3 else month - 9).toNat ≤ 2 then
      era * 400 + year + (if month < 10 then 0 else 1) - 1
      else era * 400 + year + (if month < 10 then 0 else 1)) = era * 400 + year := by
    split_ifs <;> omega
  have hfour : (era * 400 + year) / 4 = 100 * era + year / 4 := by omega
  have hcentury : (era * 400 + year) / 100 = 4 * era + year / 100 := by omega
  have hera : (era * 400 + year) / 400 = era := by omega
  rw [hdate]
  simp only [toDays, hmonth, hyear, hfour, hcentury, hera]
  omega

/-- The date of a day is one of the calendar. -/
theorem isValid_ofDays (days : Int) : (ofDays days).isValid = true := by
  obtain ⟨era, year, month, day, dayOfYear, hy0, hy, hm0, hm, hday1, hday31, hshort, hlast, hd0, hd,
    hdays, hdate⟩ := exists_ofDays days
  have hleap (h : (year + 1) % 4 = 0 ∧ ((year + 1) % 100 ≠ 0 ∨ (year + 1) % 400 = 0)) :
      isLeapYear (era * 400 + year + 1) = true := by
    simp only [isLeapYear, Bool.and_eq_true, Bool.or_eq_true, decide_eq_true_eq]
    omega
  rw [hdate]
  simp only [isValid, Bool.and_eq_true, decide_eq_true_eq]
  by_cases hfebruary : month = 11
  · obtain ⟨hday, hleapDay⟩ := hlast hfebruary
    subst hfebruary
    have hmost : day.toNat ≤ daysInMonth (era * 400 + year + 1) 2 := by
      rw [daysInMonth]
      by_cases h29 : day = 29
      · rw [hleap (hleapDay h29), if_pos rfl]
        omega
      · split <;> omega
    exact ⟨⟨⟨by simp, by simp⟩, by omega⟩, hmost⟩
  · clear hleap hlast
    interval_cases month <;> simp [daysInMonth] <;> omega

/-- The days from the start of year 1 to the end of year 9999. -/
theorem year_ofDays (hl : -719162 ≤ days) (hh : days ≤ 2932896) :
    0 ≤ (ofDays days).year ∧ (ofDays days).year ≤ 9999 := by
  obtain ⟨era, year, month, day, dayOfYear, hy0, hy, hm0, hm, hday1, hday31, -, -, hd0, hd, hdays,
    hdate⟩ := exists_ofDays days
  rw [hdate]
  dsimp only
  split_ifs <;> omega

end Date

/-! ## Digits in texts -/

/-- A number of two places. -/
theorem exists_padded_two {n : Nat} (h : n < 100) :
    ∃ a b, padded 2 n = [a, b] ∧ Timestamp.two? a b = some n := by
  have hlength := @length_padded 2 _ (by decide) h
  have hdigit (c : Char) (hc : c ∈ padded 2 n) : isDigit c = true := isDigit_of_mem_padded hc
  have hvalue := digitsValue_padded 2 n
  generalize padded 2 n = ds at hlength hdigit hvalue
  match ds, hlength with
  | [a, b], _ =>
    refine ⟨a, b, rfl, ?_⟩
    rw [two?_of_isDigit (hdigit a (by simp)) (hdigit b (by simp)), hvalue]

/-- A number of four places. -/
theorem exists_padded_four {n : Nat} (h : n < 10000) : ∃ a b c d high low,
    padded 4 n = [a, b, c, d] ∧ Timestamp.two? a b = some high ∧ Timestamp.two? c d = some low ∧
      100 * high + low = n := by
  have hlength := @length_padded 4 _ (by decide) h
  have hdigit (c : Char) (hc : c ∈ padded 4 n) : isDigit c = true := isDigit_of_mem_padded hc
  have hvalue := digitsValue_padded 4 n
  generalize padded 4 n = ds at hlength hdigit hvalue
  match ds, hlength with
  | [a, b, c, d], _ =>
    refine ⟨a, b, c, d, _, _, rfl, two?_of_isDigit (hdigit a (by simp)) (hdigit b (by simp)),
      two?_of_isDigit (hdigit c (by simp)) (hdigit d (by simp)), ?_⟩
    rw [← hvalue]
    simp only [digitsValue, List.foldl_cons, List.foldl_nil]
    omega

/-- The text of a fraction is a point with digits that stand for it, or nothing. -/
theorem fractionText_cases {nanos : Nat} (h : nanos < 1000000000) :
    nanos = 0 ∧ fractionText nanos = [] ∨
      ∃ ds, fractionText nanos = '.' :: ds ∧ ds ≠ [] ∧ (∀ c ∈ ds, isDigit c = true) ∧
        fractionNanos ds = nanos := by
  have hplaces {places value : Nat} (hp : 0 < places) (hp9 : places ≤ 9)
      (hvalue : value < 10 ^ places) (hnanos : value * 10 ^ (9 - places) = nanos) :
      ∃ ds, '.' :: padded places value = '.' :: ds ∧ ds ≠ [] ∧ (∀ c ∈ ds, isDigit c = true) ∧
        fractionNanos ds = nanos := by
    have hlength := length_padded hp hvalue
    refine ⟨_, rfl, padded_ne_nil places value, fun c => isDigit_of_mem_padded, ?_⟩
    rw [fractionNanos, List.take_of_length_le (by omega), digitsValue_padded, hlength]
    exact hnanos
  unfold fractionText
  split_ifs with h0 hmillis hmicros
  · exact .inl ⟨h0, rfl⟩
  · exact .inr (hplaces (by decide) (by decide) (by omega) (by omega))
  · exact .inr (hplaces (by decide) (by decide) (by omega) (by omega))
  · exact .inr (hplaces (by decide) (by decide) (by omega) (by omega))

/-! ## Bytes of texts -/

theorem toListLoop_eq (bs : ByteArray) (i : Nat) (r : List UInt8) :
    ByteArray.toList.loop bs i r = r.reverse ++ bs.data.toList.drop i := by
  rw [ByteArray.toList.loop]
  split
  next h =>
    have hi : i < bs.data.toList.length := h
    have hget : bs.get! i = bs.data.toList[i] := by
      rw [ByteArray.get!, getElem!_pos bs.data i h, Array.getElem_toList]
    rw [toListLoop_eq bs (i + 1), List.reverse_cons, List.append_assoc, List.singleton_append, hget,
      List.drop_eq_getElem_cons hi]
  next h =>
    have hi : bs.data.toList.length ≤ i := Nat.not_lt.1 h
    rw [List.drop_eq_nil_of_le hi, List.append_nil]
termination_by bs.size - i

/-- In a text of ASCII characters each byte is a character. -/
theorem byteChars_ofList {cs : List Char} (h : ∀ c ∈ cs, c.toNat < 128) :
    Timestamp.byteChars (String.ofList cs) = cs := by
  have hbytes : (String.ofList cs).toUTF8.toList = cs.flatMap String.utf8EncodeChar := by
    have htext : (String.ofList cs).toUTF8 = (cs.flatMap String.utf8EncodeChar).toByteArray := rfl
    rw [ByteArray.toList, toListLoop_eq, htext, List.toList_data_toByteArray]
    rfl
  rw [Timestamp.byteChars, hbytes]
  clear hbytes
  induction cs with
  | nil => rfl
  | cons c rest ih =>
    have hc := h c List.mem_cons_self
    have hsize : c.utf8Size = 1 := Char.utf8Size_eq_one_iff.2 (by
      rw [UInt32.le_iff_toNat_le]
      exact Nat.le_of_lt_succ hc)
    have hchar : Char.ofNat c.val.toUInt8.toNat = c := by
      have hn : c.val.toUInt8.toNat = c.toNat := by
        rw [UInt32.toNat_toUInt8]
        exact Nat.mod_eq_of_lt (Nat.lt_trans hc (by decide))
      rw [hn, Char.ofNat_toNat]
    rw [List.flatMap_cons, String.utf8EncodeChar_eq_singleton hsize, List.singleton_append,
      List.map_cons, ih fun d hd => h d (.tail _ hd), hchar]

theorem toNat_lt_of_isDigit {c : Char} (h : isDigit c = true) : c.toNat < 128 := by
  unfold isDigit digit? at h
  split_ifs at h with hc
  · exact Nat.lt_of_le_of_lt (UInt32.le_iff_toNat_le.1 hc.2) (by decide)
  · cases h

/-! ## Points in time -/

namespace Timestamp

/-- The same point in time with its nanoseconds in one second. -/
def settled (t : Timestamp) : Timestamp :=
  ⟨t.seconds + t.nanos / 1000000000, t.nanos % 1000000000⟩

theorem settled_settled (t : Timestamp) : t.settled.settled = t.settled := by
  simp only [settled, Timestamp.mk.injEq]
  omega

/-- The text of a point in time whose years have four places. -/
def chars (t : Timestamp) : List Char :=
  let date := Date.ofDays (t.settled.seconds / 86400)
  let time := (t.settled.seconds % 86400).toNat
  padded 4 date.year.toNat ++ '-' :: padded 2 date.month ++ '-' :: padded 2 date.day ++
    'T' :: padded 2 (time / 3600) ++ ':' :: padded 2 (time / 60 % 60) ++
    ':' :: padded 2 (time % 60) ++ fractionText t.settled.nanos.toNat ++ ['Z']

theorem settled_year {t : Timestamp} (h : t.settled.inRange = true) :
    0 ≤ (Date.ofDays (t.settled.seconds / 86400)).year ∧
      (Date.ofDays (t.settled.seconds / 86400)).year ≤ 9999 := by
  simp only [inRange, Bool.and_eq_true, decide_eq_true_eq] at h
  exact Date.year_ofDays (by omega) (by omega)

theorem text?_eq {t : Timestamp} (ht : t.inRange = true) (h : t.settled.inRange = true) :
    t.text? = some (String.ofList t.chars) := by
  have hyear := settled_year h
  rw [settled] at hyear
  dsimp only at hyear
  rw [text?, if_pos ht]
  dsimp only
  rw [if_neg (Int.not_lt.2 hyear.2), if_neg (Int.not_lt.2 hyear.1)]
  rfl

/-- What is read has the same text again. -/
theorem text?_settled {t : Timestamp} (ht : t.inRange = true) (h : t.settled.inRange = true) :
    t.settled.text? = t.text? := by
  rw [text?_eq ht h, text?_eq h (t.settled_settled.symm ▸ h), chars, chars, settled_settled]

/-- The fields of the text of a point in time. -/
theorem readFields_chars {t : Timestamp} (h : t.settled.inRange = true) :
    readFields t.chars = .ok ⟨Date.ofDays (t.settled.seconds / 86400),
      (t.settled.seconds % 86400).toNat / 3600, (t.settled.seconds % 86400).toNat / 60 % 60,
      (t.settled.seconds % 86400).toNat % 60, t.settled.nanos.toNat, none⟩ := by
  obtain ⟨hleast, hgreatest⟩ := settled_year h
  have hvalid := Date.isValid_ofDays (t.settled.seconds / 86400)
  have hnanos : t.settled.nanos.toNat < 1000000000 := by
    dsimp only [settled]
    omega
  have htime : (t.settled.seconds % 86400).toNat < 86400 := by omega
  rw [chars]
  generalize t.settled.nanos.toNat = nanos at hnanos
  generalize (t.settled.seconds % 86400).toNat = time at htime
  generalize Date.ofDays (t.settled.seconds / 86400) = date at hleast hgreatest hvalid
  obtain ⟨year, month, day⟩ := date
  dsimp only at hleast hgreatest
  simp only [Date.isValid, Bool.and_eq_true, decide_eq_true_eq] at hvalid
  have hmost : Date.daysInMonth year month ≤ 31 := by
    unfold Date.daysInMonth
    split <;> (try split) <;> omega
  obtain ⟨y1, y2, y3, y4, high, low, hy, hhigh, hlow, hvalue⟩ :=
    exists_padded_four (n := year.toNat) (by omega)
  obtain ⟨m1, m2, hm, hmonth⟩ := exists_padded_two (n := month) (by omega)
  obtain ⟨d1, d2, hd, hday⟩ := exists_padded_two (n := day) (by omega)
  obtain ⟨h1, h2, hh, hhour⟩ := exists_padded_two (n := time / 3600) (by omega)
  obtain ⟨n1, n2, hn, hminute⟩ := exists_padded_two (n := time / 60 % 60) (by omega)
  obtain ⟨s1, s2, hs, hsecond⟩ := exists_padded_two (n := time % 60) (by omega)
  have hyear : (100 * high + low : Int) = year := by omega
  dsimp only
  rw [hy, hm, hd, hh, hn, hs]
  simp only [List.cons_append, List.nil_append, readFields, hhigh, hlow, hmonth, hday, hhour,
    hminute, hsecond]
  obtain ⟨rfl, hfraction⟩ | ⟨ds, hfraction, hne, hdigits, rfl⟩ := fractionText_cases hnanos
  · rw [hfraction]
    simp [readOffset, hyear]
  · obtain ⟨htake, hdrop⟩ := @Text.takeWhile_append_of_stop isDigit _ ['Z'] hdigits (by rintro c ⟨⟩; rfl)
    rw [hfraction]
    simp only [List.cons_append, htake, hdrop]
    simp [readOffset, hyear, hne]

/-- The text of a point in time is all of ASCII characters. -/
theorem toNat_of_mem_chars {t : Timestamp} : ∀ c ∈ t.chars, c.toNat < 128 := by
  have hpadded {width n : Nat} {c : Char} (hc : c ∈ padded width n) : c.toNat < 128 :=
    toNat_lt_of_isDigit (isDigit_of_mem_padded hc)
  have hfraction {n : Nat} {c : Char} (hc : c ∈ fractionText n) : c.toNat < 128 := by
    unfold fractionText at hc
    split_ifs at hc
    · cases hc
    all_goals
      obtain rfl | hc := List.mem_cons.1 hc
      · decide
      · exact hpadded hc
  intro c hc
  simp only [chars, List.mem_append, List.mem_cons, List.not_mem_nil, or_false] at hc
  obtain ((((((hc | rfl | hc) | rfl | hc) | rfl | hc) | rfl | hc) | rfl | hc) | hc) | rfl := hc
  all_goals first | exact hpadded hc | exact hfraction hc | decide

theorem inRange_of_text? {t : Timestamp} {s : String} (h : t.text? = some s) :
    t.inRange = true := by
  by_contra hout
  rw [text?, if_neg hout] at h
  cases h

/-- The text of a point in time is read as that point. -/
theorem read_of_text? {t : Timestamp} {s : String} (h : t.text? = some s)
    (hsettled : t.settled.inRange = true) : read s = .ok t.settled := by
  have ht := inRange_of_text? h
  obtain rfl := Option.some.inj ((text?_eq ht hsettled).symm.trans h)
  have htime : (t.settled.seconds % 86400).toNat < 86400 := by omega
  have hnanos : (t.settled.nanos.toNat : Int) = t.settled.nanos := by
    dsimp only [settled]
    omega
  have hdays : t.settled.seconds / 86400 * 86400 + (t.settled.seconds % 86400).toNat =
      t.settled.seconds := by omega
  have hfields := readFields_chars hsettled
  generalize (t.settled.seconds % 86400).toNat = time at htime hdays hfields
  have hresolve : Fields.resolve? ⟨Date.ofDays (t.settled.seconds / 86400), time / 3600,
      time / 60 % 60, time % 60, t.settled.nanos.toNat, none⟩ = some t.settled := by
    have hhour : time / 3600 < 24 := by omega
    have hminute : time / 60 % 60 < 60 := by omega
    have hsecond : time % 60 < 60 := by omega
    have hsum : time / 3600 * 3600 + time / 60 % 60 * 60 + time % 60 = time := by omega
    simp only [Fields.resolve?, Date.isValid_ofDays, Date.toDays_ofDays, if_neg (Nat.ne_of_lt hsecond),
      hhour, hminute, hsecond, decide_true, Bool.and_self, if_true, hnanos, hsum, Int.sub_zero, hdays]
  rw [read, byteChars_ofList toNat_of_mem_chars]
  refine Except.bind_eq_ok.2 ⟨_, hfields, ?_⟩
  simp only [hresolve, hsettled, if_true]

end Timestamp

/-! ## Spans of time -/

namespace Duration

/-- The sign that is written is that of either part. -/
def isNegative (d : Duration) : Bool := d.seconds < 0 || d.nanos < 0

/-- The number of nanoseconds, without its sign. -/
def total (d : Duration) : Nat := (d.seconds * 1000000000 + d.nanos).natAbs

/-- The span of a number of nanoseconds. -/
def ofTotal (negative : Bool) (total : Nat) : Duration :=
  if negative then ⟨-(total / 1000000000 : Nat), -(total % 1000000000 : Nat)⟩
  else ⟨(total / 1000000000 : Nat), (total % 1000000000 : Nat)⟩

/-- The same span of time with its seconds and nanoseconds of one sign. -/
def settled (d : Duration) : Duration := ofTotal d.isNegative d.total

/-- The text of a number of nanoseconds, behind its sign. -/
def chars (total : Nat) : List Char :=
  Nat.toDigits 10 (total / 1000000000) ++ fractionText (total % 1000000000) ++ ['s']

theorem text?_eq (d : Duration) : d.text? = if d.inRange then
    some (String.ofList ((if d.isNegative then ['-'] else []) ++ chars d.total)) else none := by
  rw [text?, isNegative, chars, ← List.append_assoc, ← List.append_assoc]
  simp only [Bool.or_eq_true, decide_eq_true_eq]
  rfl

theorem inRange_of_text? {d : Duration} {s : String} (h : d.text? = some s) : d.inRange = true := by
  by_contra hout
  rw [text?_eq, if_neg hout] at h
  cases h

/-- A span of time that is in range stays in range and keeps its sign and its length. -/
theorem settled_of_inRange {d : Duration} (h : d.inRange = true) :
    d.settled.inRange = true ∧ d.settled.isNegative = d.isNegative ∧ d.settled.total = d.total := by
  simp only [inRange, Bool.and_eq_true, decide_eq_true_eq] at h
  have hpos : d.isNegative = true → 0 < d.total := by
    simp only [isNegative, total, Bool.or_eq_true, decide_eq_true_eq]
    omega
  have hmost : d.total ≤ 315576000000999999999 := by
    rw [total]
    omega
  rw [settled]
  generalize d.isNegative = negative at hpos
  generalize d.total = n at hpos hmost
  cases negative with
  | false =>
    refine ⟨?_, ?_, ?_⟩ <;> simp [ofTotal, inRange, isNegative, total] <;> omega
  | true =>
    have hpos := hpos rfl
    refine ⟨?_, ?_, ?_⟩ <;> simp [ofTotal, inRange, isNegative, total] <;> omega

/-- What is read has the same text again. -/
theorem text?_settled {d : Duration} (h : d.inRange = true) : d.settled.text? = d.text? := by
  obtain ⟨hrange, hnegative, htotal⟩ := settled_of_inRange h
  rw [text?_eq, text?_eq, hrange, hnegative, htotal, h]

theorem exists_chars (total : Nat) : ∃ c rest, chars total = c :: rest ∧ isDigit c = true := by
  cases hdigits : Nat.toDigits 10 (total / 1000000000) with
  | nil => exact absurd hdigits Nat.toDigits_ne_nil
  | cons c rest =>
    refine ⟨c, rest ++ fractionText (total % 1000000000) ++ ['s'], by rw [chars, hdigits]; rfl, ?_⟩
    exact isDigit_of_mem_toDigits (hdigits ▸ List.mem_cons_self)

/-- A number of seconds with its fraction is read. -/
theorem readUnsigned?_chars {total : Nat} (h : total < 0x8000000000000000000000) :
    readUnsigned? (chars total) = some (total / 1000000000, total % 1000000000) := by
  have hdigits : ∀ c ∈ Nat.toDigits 10 (total / 1000000000), isDigit c = true :=
    fun c hc => isDigit_of_mem_toDigits hc
  have hne : (Nat.toDigits 10 (total / 1000000000)).isEmpty = false :=
    List.isEmpty_eq_false_iff.2 Nat.toDigits_ne_nil
  have hlt : ¬0x8000000000000000 ≤ total / 1000000000 := by omega
  obtain ⟨hzero, hfraction⟩ | ⟨ds, hfraction, hne', hdigits', hnanos⟩ :=
    @fractionText_cases (total % 1000000000) (by omega)
  · obtain ⟨htake, hdrop⟩ := @Text.takeWhile_append_of_stop isDigit _ ['s'] hdigits (by rintro c ⟨⟩; rfl)
    rw [chars, hfraction, List.append_nil, readUnsigned?]
    simp only [htake, hdrop, hne, digitsValue_toDigits, hlt, Bool.false_eq_true, or_self, if_false,
      hzero]
    rfl
  · obtain ⟨htake, hdrop⟩ := @Text.takeWhile_append_of_stop isDigit _ ('.' :: (ds ++ ['s'])) hdigits
      (by simp; decide)
    obtain ⟨htake', hdrop'⟩ := @Text.takeWhile_append_of_stop isDigit _ ['s'] hdigits' (by rintro c ⟨⟩; rfl)
    rw [chars, hfraction, List.append_assoc, List.cons_append, readUnsigned?]
    simp only [htake, hdrop, htake', hdrop', hne, digitsValue_toDigits, hlt,
      List.isEmpty_eq_false_iff.2 hne', Bool.false_eq_true, or_self, if_false, hnanos]

/-- The text of a span of time is read as that span. -/
theorem read_of_text? {d : Duration} {s : String} (h : d.text? = some s) :
    read s = .ok d.settled := by
  have hrange := inRange_of_text? h
  obtain ⟨hsettled, -, -⟩ := settled_of_inRange hrange
  rw [text?_eq, if_pos hrange, Option.some.injEq] at h
  simp only [inRange, Bool.and_eq_true, decide_eq_true_eq] at hrange
  have hread := @readUnsigned?_chars d.total (by rw [total]; omega)
  rw [settled] at hsettled ⊢
  rw [← h, read, String.toList_ofList]
  cases hnegative : d.isNegative with
  | true =>
    rw [hnegative] at hsettled
    simp only [if_true, List.cons_append, List.nil_append, hread]
    rw [ofTotal, if_pos rfl] at hsettled ⊢
    rw [if_pos hsettled]
  | false =>
    rw [hnegative] at hsettled
    obtain ⟨c, rest, hchars, hc⟩ := exists_chars d.total
    rw [hchars] at hread ⊢
    rw [ofTotal] at hsettled ⊢
    simp only [Bool.false_eq_true, if_false, List.nil_append] at hsettled ⊢
    split
    next rest' hhead =>
      obtain rfl : c = '-' := (List.cons.inj hhead).1
      exact absurd hc (by decide)
    next => simp only [hread, hsettled, if_true]

end Duration

end ServiceCall
