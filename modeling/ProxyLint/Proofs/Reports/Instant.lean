import ProxyLint.Proofs.Text.Decimal
import ProxyLint.Proofs.Text.Trimming
import ProxyLint.Reports.Instant

/-!
# Reading instants

The written form of every instant of the calendar is read as the same instant,
down to the nanosecond, and whatever is read is an instant of the calendar.
-/

namespace ProxyLint

namespace Instant

/-- A moment that the calendar and the clock have. -/
structure Valid (instant : Instant) : Prop where
  date : instant.isDate = true
  time : instant.isTime = true
  fraction : instant.nanosecond < Nat.pow 10 9

theorem daysInMonth_bounds (year : Int) (month : Nat) :
    28 ≤ daysInMonth year month ∧ daysInMonth year month ≤ 31 := by
  unfold daysInMonth
  split
  · split <;> decide
  · split <;> decide

/-! ## What clocks show -/

/-- A day that some year has. -/
def IsDay (instant : Instant) : Prop :=
  1 ≤ instant.month ∧ instant.month ≤ 12 ∧ 1 ≤ instant.day ∧
    instant.day ≤ daysInMonth instant.year instant.month

theorem isDay_nextDay {instant : Instant} (day : instant.IsDay) :
    instant.nextDay.IsDay ∧ instant.year ≤ instant.nextDay.year := by
  obtain ⟨first, last, start, most⟩ := day
  have next := daysInMonth_bounds instant.year (instant.month + 1)
  have newYear := daysInMonth_bounds (instant.year + 1) 1
  rw [nextDay]
  split
  · next inside =>
      exact ⟨⟨first, last, Nat.le_add_left 1 _, inside⟩, Int.le_refl _⟩
  split
  · refine ⟨⟨?_, ?_, ?_, ?_⟩, Int.le_refl _⟩ <;> simp only <;> omega
  · refine ⟨⟨?_, ?_, ?_, ?_⟩, ?_⟩ <;> simp only <;> omega

/-- A clock shows an instant of the calendar until the calendar ends. -/
theorem valid_ofClock {seconds nanosecond : Nat}
    (within : (ofClock seconds nanosecond).year ≤ lastYear)
    (fraction : nanosecond < Nat.pow 10 9) :
    (ofClock seconds nanosecond).Valid := by
  have day (count : Nat) : (Nat.repeat nextDay count epoch).IsDay ∧
      1970 ≤ (Nat.repeat nextDay count epoch).year := by
    induction count with
    | zero => exact ⟨⟨by decide, by decide, by decide, by decide⟩, by decide⟩
    | succ count ih =>
        obtain ⟨next, later⟩ := isDay_nextDay ih.1
        exact ⟨next, Int.le_trans ih.2 later⟩
  obtain ⟨⟨first, last, start, most⟩, later⟩ := day (seconds / 86400)
  refine ⟨?_, ?_, fraction⟩
  · simp only [isDate, Bool.and_eq_true, decide_eq_true_eq]
    refine ⟨⟨⟨⟨⟨?_, within⟩, first⟩, last⟩, start⟩, most⟩
    exact Int.le_trans (by decide) later
  · have hour : seconds % 86400 / 3600 ≤ 23 := by omega
    have minute : seconds % 3600 / 60 ≤ 59 := by omega
    have second : seconds % 60 ≤ 60 := by omega
    simp [isTime, ofClock, hour, minute, second]

/-! ## Numbers -/

theorem valueOf_eq (digits : List Char) :
    valueOf digits = Nat.ofDigitChars 10 digits 0 :=
  Text.foldl_digits digits 0

theorem valueOf_padded (width value : Nat) :
    valueOf (padded width value) = value := by
  rw [valueOf_eq, padded, Nat.ofDigitChars_append,
    Nat.ofDigitChars_replicate_zero, Nat.mul_zero,
    Nat.ofDigitChars_ten_toDigits]

theorem isDigit_of_mem_padded (width value : Nat) :
    ∀ digit ∈ padded width value, digit.isDigit = true := by
  intro digit member
  rcases List.mem_append.1 member with zero | significant
  · rw [List.eq_of_mem_replicate zero]
    rfl
  · exact Text.isDigit_of_mem_toDigits significant

theorem length_padded {width value : Nat} (positive : 0 < width)
    (fits : value < 10 ^ width) : (padded width value).length = width := by
  have bound : (Nat.toDigits 10 value).length ≤ width :=
    (Nat.length_toDigits_le_iff (by decide) positive).2 fits
  rw [padded, List.length_append, List.length_replicate]
  omega

theorem padded_ne_nil (width value : Nat) : padded width value ≠ [] := by
  intro empty
  exact Nat.toDigits_ne_nil (List.append_eq_nil_iff.1 empty).2

theorem stops_cons (mark : Char) (plain : mark.isDigit = false)
    (rest : List Char) :
    ∀ character ∈ (mark :: rest).head?, character.isDigit = false := by
  rintro character ⟨⟩
  exact plain

/-- A number is read back in front of anything but a digit. -/
theorem number?_padded {limit width value : Nat} {rest : List Char}
    (short : (padded width value).length ≤ limit)
    (stops : ∀ character ∈ rest.head?, character.isDigit = false) :
    number? limit (padded width value ++ rest) = some (value, rest) := by
  have run := (Text.run_of_append (isDigit_of_mem_padded width value) stops).1
  rw [number?, run, List.take_of_length_le short,
    if_neg (by simpa using padded_ne_nil width value), valueOf_padded,
    List.drop_left]

theorem exists_padded_append (width value : Nat) (rest : List Char) :
    ∃ first later, padded width value ++ rest = first :: later ∧
      first.isDigit = true :=
  Text.exists_cons_of_digits (padded_ne_nil width value)
    (isDigit_of_mem_padded width value) rest

theorem dropBlanks_padded (width value : Nat) (rest : List Char) :
    Text.dropBlanks (padded width value ++ rest) = padded width value ++ rest := by
  obtain ⟨first, later, starts, digit⟩ := exists_padded_append width value rest
  rw [starts, Text.dropBlanks, List.dropWhile_cons_of_neg]
  simp [Text.isBlank_of_isDigit digit]

theorem component?_padded (value : Nat) {rest : List Char} (fits : value < 100)
    (stops : ∀ character ∈ rest.head?, character.isDigit = false) :
    component? (padded 2 value ++ rest) = some (value, rest) := by
  rw [component?, dropBlanks_padded]
  exact number?_padded (length_padded (by decide) fits).le stops

/-! ## The parts of an instant -/

theorem year?_writtenYear (year : Int) {rest : List Char}
    (stops : ∀ character ∈ rest.head?, character.isDigit = false) :
    year? (writtenYear year ++ rest) = some (year, rest) := by
  have signed : number? (padded 4 year.natAbs ++ rest).length
      (padded 4 year.natAbs ++ rest) = some (year.natAbs, rest) :=
    number?_padded (by rw [List.length_append]; omega) stops
  rw [writtenYear]
  split
  · next plain =>
      have short : (padded 4 year.natAbs).length = 4 :=
        length_padded (by decide) (by omega)
      have read := number?_padded short.le stops
      obtain ⟨first, later, starts, digit⟩ :=
        exists_padded_append 4 year.natAbs rest
      have same : (year.natAbs : Int) = year := by omega
      rw [year?, dropBlanks_padded]
      rw [starts] at read ⊢
      split
      · next rest minus =>
          rw [(List.cons.inj minus).1] at digit
          cases digit
      · next rest plus =>
          rw [(List.cons.inj plus).1] at digit
          cases digit
      · rw [read]
        exact congrArg (fun year => some (year, rest)) same
  · next extreme =>
      split
      · next negative =>
          change (number? (padded 4 year.natAbs ++ rest).length
            (padded 4 year.natAbs ++ rest) >>= fun read =>
              some (-(read.1 : Int), read.2)) = _
          rw [signed]
          have same : -(year.natAbs : Int) = year := by omega
          exact congrArg (fun year => some (year, rest)) same
      · next positive =>
          change (number? (padded 4 year.natAbs ++ rest).length
            (padded 4 year.natAbs ++ rest) >>= fun read =>
              some ((read.1 : Int), read.2)) = _
          rw [signed]
          have same : (year.natAbs : Int) = year := by omega
          exact congrArg (fun year => some (year, rest)) same

theorem skip?_cons (separator : Char) (dark : Text.isBlank separator = false)
    (rest : List Char) : skip? separator (separator :: rest) = some rest := by
  have kept : Text.dropBlanks (separator :: rest) = separator :: rest := by
    rw [Text.dropBlanks, List.dropWhile_cons_of_neg]
    simp [dark]
  rw [skip?, kept]
  exact if_pos rfl

theorem fraction?_padded (width value : Nat) {rest : List Char}
    (positive : 0 < width) (most : width ≤ 9) (fits : value < 10 ^ width)
    (stops : ∀ character ∈ rest.head?, character.isDigit = false) :
    fraction? ('.' :: (padded width value ++ rest)) =
      some (value * Nat.pow 10 (9 - width), rest) := by
  have length := length_padded positive fits
  have read := number?_padded (length.le.trans most) stops
  have run := Text.run_of_append (isDigit_of_mem_padded width value) stops
  rw [fraction?, read, run.1, run.2,
    List.take_of_length_le (length.le.trans most), length]
  rfl

/-- A fraction may be cut off where only zeros follow. -/
theorem fraction?_cut (width : Nat) {nanosecond : Nat} {rest : List Char}
    (positive : 0 < width) (most : width ≤ 9)
    (fits : nanosecond < Nat.pow 10 9)
    (zeros : nanosecond % Nat.pow 10 (9 - width) = 0)
    (stops : ∀ character ∈ rest.head?, character.isDigit = false) :
    fraction? ('.' ::
        (padded width (nanosecond / Nat.pow 10 (9 - width)) ++ rest)) =
      some (nanosecond, rest) := by
  have scale : Nat.pow 10 (9 - width) * 10 ^ width = Nat.pow 10 9 := by
    rw [Nat.pow_eq, ← Nat.pow_add, Nat.sub_add_cancel most]
  have short : nanosecond / Nat.pow 10 (9 - width) < 10 ^ width :=
    Nat.div_lt_of_lt_mul (scale ▸ fits)
  rw [fraction?_padded width _ positive most short stops,
    Nat.div_mul_cancel (Nat.dvd_of_mod_eq_zero zeros)]

theorem fraction?_writtenFraction {nanosecond : Nat}
    (fits : nanosecond < Nat.pow 10 9) (rest : List Char) :
    fraction? (writtenFraction nanosecond ++ 'Z' :: rest) =
      some (nanosecond, 'Z' :: rest) := by
  have stops := stops_cons 'Z' rfl rest
  rw [writtenFraction]
  split
  · next zero =>
      rw [zero]
      rfl
  split
  · next millis =>
      exact fraction?_cut 3 (by decide) (by decide) fits millis stops
  split
  · next micros =>
      exact fraction?_cut 6 (by decide) (by decide) fits micros stops
  · have read := fraction?_cut 9 (by decide) (by decide) fits
      (Nat.mod_one nanosecond) stops
    rw [Nat.sub_self] at read
    change fraction? ('.' :: (padded 9 (nanosecond / 1) ++ 'Z' :: rest)) = _
      at read
    rw [Nat.div_one] at read
    exact read

theorem stops_writtenFraction (nanosecond : Nat) (rest : List Char) :
    ∀ character ∈ (writtenFraction nanosecond ++ 'Z' :: rest).head?,
      character.isDigit = false := by
  rw [writtenFraction]
  split
  · exact stops_cons 'Z' rfl rest
  split
  · exact stops_cons '.' rfl _
  split
  · exact stops_cons '.' rfl _
  · exact stops_cons '.' rfl _

/-! ## Whole instants -/

theorem localTime?_written {instant : Instant} (valid : instant.Valid) :
    localTime? instant.written = some (instant, 0) := by
  obtain ⟨date, time, fraction⟩ := valid
  simp only [isDate, isTime, Bool.and_eq_true, decide_eq_true_eq] at date time
  have days := (daysInMonth_bounds instant.year instant.month).2
  have year (rest : List Char) :=
    year?_writtenYear instant.year (stops_cons '-' rfl rest)
  have month (rest : List Char) :=
    component?_padded instant.month (by omega) (stops_cons '-' rfl rest)
  have day (rest : List Char) :=
    component?_padded instant.day (by omega) (stops_cons 'T' rfl rest)
  have hour (rest : List Char) :=
    component?_padded instant.hour (by omega) (stops_cons ':' rfl rest)
  have minute (rest : List Char) :=
    component?_padded instant.minute (by omega) (stops_cons ':' rfl rest)
  have second := component?_padded instant.second (by omega)
    (stops_writtenFraction instant.nanosecond [])
  have nanosecond := fraction?_writtenFraction fraction []
  have zone : offset? (Text.dropBlanks ['Z']) = some (0, []) := rfl
  rw [localTime?, written]
  simp only [List.append_assoc, List.cons_append]
  refine Option.bind_eq_some_iff.2 ⟨_, year _, ?_⟩
  refine Option.bind_eq_some_iff.2 ⟨_, skip?_cons '-' rfl _, ?_⟩
  refine Option.bind_eq_some_iff.2 ⟨_, month _, ?_⟩
  refine Option.bind_eq_some_iff.2 ⟨_, skip?_cons '-' rfl _, ?_⟩
  refine Option.bind_eq_some_iff.2 ⟨_, day _, ?_⟩
  refine Option.bind_eq_some_iff.2 ⟨_, rfl, ?_⟩
  refine Option.bind_eq_some_iff.2 ⟨_, hour _, ?_⟩
  refine Option.bind_eq_some_iff.2 ⟨_, skip?_cons ':' rfl _, ?_⟩
  refine Option.bind_eq_some_iff.2 ⟨_, minute _, ?_⟩
  refine Option.bind_eq_some_iff.2 ⟨_, skip?_cons ':' rfl _, ?_⟩
  refine Option.bind_eq_some_iff.2 ⟨_, second, ?_⟩
  refine Option.bind_eq_some_iff.2 ⟨_, nanosecond, ?_⟩
  refine Option.bind_eq_some_iff.2 ⟨_, zone, ?_⟩
  rfl

theorem withoutOffset_zero {instant : Instant} (time : instant.isTime = true) :
    instant.withoutOffset 0 = instant := by
  simp only [isTime, Bool.and_eq_true, decide_eq_true_eq] at time
  obtain ⟨⟨hour, minute⟩, _⟩ := time
  have inDay : (((instant.hour * 60 + instant.minute : Nat) - 0 : Int) %
      minutesOfDay).toNat = instant.hour * 60 + instant.minute := by
    rw [minutesOfDay]
    omega
  have hours : (instant.hour * 60 + instant.minute) / 60 = instant.hour := by
    omega
  have minutes : (instant.hour * 60 + instant.minute) % 60 = instant.minute := by
    omega
  rw [withoutOffset, atMinute, if_neg (by omega),
    if_neg (by rw [minutesOfDay]; omega), inDay, hours, minutes]

/-- An instant is read back from its written form. -/
theorem ofText?_render {instant : Instant} (valid : instant.Valid) :
    ofText? instant.render = some instant := by
  rw [ofText?, render, String.toList_ofList, localTime?_written valid]
  simp [withoutOffset_zero valid.time, valid.date, valid.time]

/-! ## Whatever is read -/

theorem number?_lt {limit : Nat} {text rest : List Char} {value : Nat}
    (read : number? limit text = some (value, rest)) :
    value < 10 ^ ((text.takeWhile Char.isDigit).take limit).length := by
  rw [number?] at read
  split at read
  · cases read
  · obtain ⟨rfl, _⟩ := Prod.mk.inj (Option.some.inj read)
    rw [valueOf_eq]
    simpa using Text.ofDigitChars_lt (fun digit member =>
      List.mem_takeWhile_imp (List.mem_of_mem_take member)) 0

theorem fraction?_lt {text rest : List Char} {nanosecond : Nat}
    (read : fraction? text = some (nanosecond, rest)) :
    nanosecond < Nat.pow 10 9 := by
  unfold fraction? at read
  split at read
  · next digits =>
      obtain ⟨⟨value, after⟩, number, read⟩ := Option.bind_eq_some_iff.1 read
      obtain ⟨rfl, _⟩ := Prod.mk.inj (Option.some.inj read)
      have bound := number?_lt number
      have count : ((digits.takeWhile Char.isDigit).take 9).length ≤ 9 :=
        List.length_take_le 9 _
      calc
        value * Nat.pow 10 (9 - ((digits.takeWhile Char.isDigit).take 9).length) <
            10 ^ ((digits.takeWhile Char.isDigit).take 9).length *
              10 ^ (9 - ((digits.takeWhile Char.isDigit).take 9).length) :=
          Nat.mul_lt_mul_of_pos_right bound (Nat.pow_pos (by decide))
        _ = Nat.pow 10 9 := by
          rw [← Nat.pow_add, Nat.add_sub_cancel' count]
  · obtain ⟨rfl, _⟩ := Prod.mk.inj (Option.some.inj read)
    decide

theorem localTime?_nanosecond_lt {text : List Char} {given : Instant}
    {offset : Int} (read : localTime? text = some (given, offset)) :
    given.nanosecond < Nat.pow 10 9 := by
  rw [localTime?] at read
  obtain ⟨⟨_, _⟩, _, read⟩ := Option.bind_eq_some_iff.1 read
  -- the five other numbers, each behind a separator
  iterate 5
    obtain ⟨_, _, read⟩ := Option.bind_eq_some_iff.1 read
    obtain ⟨⟨_, _⟩, _, read⟩ := Option.bind_eq_some_iff.1 read
  obtain ⟨⟨nanosecond, _⟩, seconds, read⟩ := Option.bind_eq_some_iff.1 read
  obtain ⟨⟨_, _⟩, _, read⟩ := Option.bind_eq_some_iff.1 read
  simp only at read
  split at read
  · obtain ⟨rfl, _⟩ := Prod.mk.inj (Option.some.inj read)
    exact fraction?_lt seconds
  · cases read

theorem atMinute_second (instant : Instant) (minutes : Int) :
    (instant.atMinute minutes).second = instant.second ∧
      (instant.atMinute minutes).nanosecond = instant.nanosecond := by
  rw [atMinute, nextDay, previousDay]
  split
  · split
    · exact ⟨rfl, rfl⟩
    · split <;> exact ⟨rfl, rfl⟩
  · split
    · split
      · exact ⟨rfl, rfl⟩
      · split <;> exact ⟨rfl, rfl⟩
    · exact ⟨rfl, rfl⟩

theorem isTime_atMinute {instant : Instant} (time : instant.isTime = true)
    (minutes : Int) : (instant.atMinute minutes).isTime = true := by
  have kept := (instant.atMinute_second minutes).1
  have least : 0 ≤ minutes % minutesOfDay :=
    Int.emod_nonneg minutes (by decide)
  have most : minutes % minutesOfDay < 1440 :=
    Int.emod_lt_of_pos minutes (by decide)
  have hour : (instant.atMinute minutes).hour =
      (minutes % minutesOfDay).toNat / 60 :=
    rfl
  have minute : (instant.atMinute minutes).minute =
      (minutes % minutesOfDay).toNat % 60 :=
    rfl
  simp only [isTime, Bool.and_eq_true, decide_eq_true_eq, kept, hour,
    minute] at time ⊢
  omega

/-- Only instants of the calendar are read. -/
theorem valid_of_ofText? {text : String} {instant : Instant}
    (read : ofText? text = some instant) : instant.Valid := by
  rw [ofText?] at read
  obtain ⟨⟨given, offset⟩, localTime, read⟩ := Option.bind_eq_some_iff.1 read
  simp only at read
  split at read
  · next shown =>
      rw [Bool.and_eq_true] at shown
      split at read
      · next date =>
          obtain rfl := Option.some.inj read
          refine ⟨date, isTime_atMinute shown.2 _, ?_⟩
          rw [withoutOffset, (given.atMinute_second _).2]
          exact localTime?_nanosecond_lt localTime
      · cases read
  · cases read

end Instant

end ProxyLint
