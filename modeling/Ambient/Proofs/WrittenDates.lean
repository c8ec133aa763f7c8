import Ambient.Calendar.Text
import Mathlib.Data.List.GetD
import Mathlib.Data.List.TakeWhile
import Mathlib.Tactic.IntervalCases

/-!
# Texts that stand for a date

A text stands for a date if it is a year, a month and a day between hyphens,
each behind white space: the year with a sign or of at most four digits, month
and day of at most two (`DateForm`).  Exactly these texts are read as the date
(`Date.ofText?_eq_some_iff`), so they say which spellings of one date there are.

The written form of a date is one of them, over the whole range of years, and is
read back (`Date.ofText?_written`).  The digits that are written are as many as the
reader takes, because every month and day has at most two and a year outside the
four digits has a sign.

Whatever is read exists in the calendar (`Date.isDay`); there the lengths of the
months are a table, with the Gregorian rule for February.
-/

namespace Ambient

open Text

/-! ## Numerals -/

/-- Digits, at least one, that say a number. -/
structure Numeral (n : Nat) (ds : List Char) : Prop where
  ne_nil : ds ≠ []
  isDigit : ∀ c ∈ ds, c.isDigit = true
  value : ofDigits ds = n

/-- What follows a number does not go on with a digit. -/
def EndsNumber (rest : List Char) : Prop :=
  ∀ c ∈ rest.head?, c.isDigit = false

theorem endsNumber_nil : EndsNumber [] := nofun

theorem endsNumber_hyphen (rest : List Char) : EndsNumber ('-' :: rest) := by
  rintro c hc
  obtain rfl : '-' = c := by simpa using hc
  rfl

theorem Numeral.exists_cons {n : Nat} {ds : List Char} (h : Numeral n ds) :
    ∃ c rest, ds = c :: rest ∧ c.isDigit = true := by
  obtain ⟨c, rest, rfl⟩ := List.exists_cons_of_ne_nil h.ne_nil
  exact ⟨c, rest, rfl, h.isDigit c List.mem_cons_self⟩

theorem readDigits_append {most n : Nat} {ds rest : List Char} (h : Numeral n ds)
    (hmost : ds.length ≤ most) (hrest : EndsNumber rest) :
    readDigits most (ds ++ rest) = some (n, rest) := by
  have hend : rest.takeWhile Char.isDigit = [] := by
    cases rest with
    | nil => rfl
    | cons c rest => exact List.takeWhile_cons_of_neg (by simp [hrest c rfl])
  have hdigits : (ds ++ rest).takeWhile Char.isDigit = ds := by
    rw [List.takeWhile_append_of_pos h.isDigit, hend, List.append_nil]
  have hsome : ds.isEmpty = false := by simpa using h.ne_nil
  unfold readDigits
  rw [hdigits, List.take_of_length_le hmost]
  simp only [hsome, Bool.false_eq_true, if_false, h.value, List.drop_left]

theorem exists_of_readDigits {most n : Nat} {s rest : List Char}
    (h : readDigits most s = some (n, rest)) :
    ∃ ds, Numeral n ds ∧ ds.length ≤ most ∧ s = ds ++ rest := by
  unfold readDigits at h
  dsimp only at h
  split_ifs at h with hempty
  obtain ⟨hn, rfl⟩ := Prod.mk.inj (Option.some.inj h)
  have hbegins : (s.takeWhile Char.isDigit).take most <+: s :=
    (List.take_prefix _ _).trans (List.takeWhile_prefix _)
  refine ⟨_, ⟨by simpa using hempty, fun c hc => ?_, hn⟩, List.length_take_le _ _, ?_⟩
  · exact List.mem_takeWhile_imp (List.mem_of_mem_take hc)
  · exact (List.prefix_iff_eq_append.mp hbegins).symm

theorem readDigits_append_of_length {n : Nat} {ds rest : List Char} (h : Numeral n ds)
    (hrest : EndsNumber rest) : readDigits (ds ++ rest).length (ds ++ rest) = some (n, rest) :=
  readDigits_append h (by simp) hrest

/-- A number that is taken as another one, as a negative one for instance. -/
theorem exists_of_map_readDigits {α : Type} {f : Nat → α} {most : Nat} {s rest : List Char} {a : α}
    (h : (readDigits most s).map (fun p => (f p.1, p.2)) = some (a, rest)) :
    ∃ n ds, f n = a ∧ Numeral n ds ∧ ds.length ≤ most ∧ s = ds ++ rest := by
  obtain ⟨⟨n, rest'⟩, hread, hp⟩ := Option.map_eq_some_iff.mp h
  obtain ⟨rfl, rfl⟩ := Prod.mk.inj hp
  obtain ⟨ds, hds, hlength, heq⟩ := exists_of_readDigits hread
  exact ⟨n, ds, rfl, hds, hlength, heq⟩

/-! ## White space -/

def IsSpace (ws : List Char) : Prop :=
  ∀ c ∈ ws, isBlank c = true

theorem isSpace_nil : IsSpace [] := nofun

theorem isBlank_of_isDigit {c : Char} (h : c.isDigit = true) : isBlank c = false := by
  have hrange : 48 ≤ c.toNat ∧ c.toNat ≤ 57 := by
    simpa [Char.isDigit, UInt32.le_iff_toNat_le] using h
  have hbelow : ¬ c.toNat ≤ 0x000D ∧ ¬ c.toNat ≤ 0x0020 ∧ c.toNat ≤ 0x0085 ∧ ¬ 0x0085 ≤ c.toNat := by
    omega
  simp [isBlank, blankRanges, inRanges, hbelow]

theorem trimStart_append_cons {ws s : List Char} {c : Char} (hws : IsSpace ws)
    (hc : isBlank c = false) : trimStart (ws ++ c :: s) = c :: s := by
  rw [trimStart, List.dropWhile_append_of_pos hws, List.dropWhile_cons_of_neg (by simp [hc])]

theorem exists_trimStart (s : List Char) : ∃ ws, IsSpace ws ∧ s = ws ++ trimStart s :=
  ⟨s.takeWhile isBlank, fun _ hc => List.mem_takeWhile_imp hc,
    List.takeWhile_append_dropWhile.symm⟩

/-! ## Years, months and days -/

/-- A year: up to four digits, or a sign and any number of digits. -/
inductive YearForm : Int → List Char → Prop where
  | plain {n : Nat} {ds : List Char} : Numeral n ds → ds.length ≤ 4 → YearForm n ds
  | plus {n : Nat} {ds : List Char} : Numeral n ds → YearForm n ('+' :: ds)
  | minus {n : Nat} {ds : List Char} : Numeral n ds → YearForm (-n) ('-' :: ds)

theorem readYear_of_isDigit {c : Char} {ws s : List Char} (hws : IsSpace ws)
    (h : c.isDigit = true) :
    readYear (ws ++ c :: s) = (readDigits 4 (c :: s)).map fun p => ((p.1 : Int), p.2) := by
  unfold readYear
  rw [trimStart_append_cons hws (isBlank_of_isDigit h)]
  split
  · rename_i heq
    obtain rfl := (List.cons_eq_cons.mp heq).1
    exact absurd h (by decide)
  · rename_i heq
    obtain rfl := (List.cons_eq_cons.mp heq).1
    exact absurd h (by decide)
  · rfl

theorem readYear_append {year : Int} {ws w rest : List Char} (hws : IsSpace ws)
    (h : YearForm year w) (hrest : EndsNumber rest) :
    readYear (ws ++ (w ++ rest)) = some (year, rest) := by
  cases h with
  | plain hds hlength =>
      have hread := readDigits_append hds hlength hrest
      obtain ⟨c, ds, rfl, hdigit⟩ := hds.exists_cons
      rw [List.cons_append] at hread ⊢
      rw [readYear_of_isDigit hws hdigit, hread]
      rfl
  | plus hds =>
      rw [List.cons_append, readYear, trimStart_append_cons hws (by decide)]
      simp only [readDigits_append_of_length hds hrest, Option.map_some]
  | minus hds =>
      rw [List.cons_append, readYear, trimStart_append_cons hws (by decide)]
      simp only [readDigits_append_of_length hds hrest, Option.map_some]

theorem exists_of_readYear {year : Int} {s rest : List Char}
    (h : readYear s = some (year, rest)) :
    ∃ ws w, IsSpace ws ∧ YearForm year w ∧ s = ws ++ (w ++ rest) := by
  obtain ⟨ws, hws, hs⟩ := exists_trimStart s
  rw [hs]
  unfold readYear at h
  split at h
  · rename_i heq
    obtain ⟨n, ds, rfl, hds, -, rfl⟩ := exists_of_map_readDigits (f := fun n => -(n : Int)) h
    exact ⟨ws, '-' :: ds, hws, .minus hds, by rw [heq, List.cons_append]⟩
  · rename_i heq
    obtain ⟨n, ds, rfl, hds, -, rfl⟩ := exists_of_map_readDigits h
    exact ⟨ws, '+' :: ds, hws, .plus hds, by rw [heq, List.cons_append]⟩
  · obtain ⟨n, ds, rfl, hds, hlength, heq⟩ := exists_of_map_readDigits h
    exact ⟨ws, ds, hws, .plain hds hlength, by rw [heq]⟩

def PartForm (n : Nat) (ds : List Char) : Prop :=
  Numeral n ds ∧ ds.length ≤ 2

theorem readPart_append {n : Nat} {ws w rest : List Char} (hws : IsSpace ws) (h : PartForm n w)
    (hrest : EndsNumber rest) : readPart (ws ++ (w ++ rest)) = some (n, rest) := by
  have hread := readDigits_append h.1 h.2 hrest
  obtain ⟨c, ds, rfl, hdigit⟩ := h.1.exists_cons
  rw [List.cons_append] at hread ⊢
  rw [readPart, trimStart_append_cons hws (isBlank_of_isDigit hdigit), hread]

theorem exists_of_readPart {n : Nat} {s rest : List Char} (h : readPart s = some (n, rest)) :
    ∃ ws w, IsSpace ws ∧ PartForm n w ∧ s = ws ++ (w ++ rest) := by
  obtain ⟨ws, hws, hs⟩ := exists_trimStart s
  obtain ⟨ds, hds, hlength, heq⟩ := exists_of_readDigits h
  exact ⟨ws, ds, hws, ⟨hds, hlength⟩, by rw [hs, heq]⟩

/-! ## Dates -/

/-- A text that stands for a date. -/
def DateForm (d : Date) (s : List Char) : Prop :=
  ∃ ws₁ year ws₂ month ws₃ day, IsSpace ws₁ ∧ YearForm d.year year ∧ IsSpace ws₂ ∧
    PartForm d.month month ∧ IsSpace ws₃ ∧ PartForm d.day day ∧
    s = ws₁ ++ (year ++ '-' :: (ws₂ ++ (month ++ '-' :: (ws₃ ++ day))))

theorem exists_of_readHyphen {s rest : List Char} (h : readHyphen s = some rest) :
    s = '-' :: rest := by
  unfold readHyphen at h
  split at h
  · rw [Option.some.inj h]
  · cases h

theorem Date.of?_eq_some_iff {year : Int} {month day : Nat} {d : Date} :
    Date.of? year month day = some d ↔ d.year = year ∧ d.month = month ∧ d.day = day := by
  unfold Date.of?
  constructor
  · intro h
    split_ifs at h
    obtain rfl := Option.some.inj h
    exact ⟨rfl, rfl, rfl⟩
  · rintro ⟨rfl, rfl, rfl⟩
    exact dif_pos d.isDate

/-- **The texts that are read as a date** are those that stand for it. -/
theorem Date.ofText?_eq_some_iff {text : String} {d : Date} :
    Date.ofText? text = some d ↔ DateForm d text.toList := by
  constructor
  · intro h
    obtain ⟨⟨year, s⟩, hyear, h⟩ := Option.bind_eq_some_iff.mp h
    obtain ⟨s₂, hhyphen, h⟩ := Option.bind_eq_some_iff.mp h
    obtain ⟨⟨month, s₃⟩, hmonth, h⟩ := Option.bind_eq_some_iff.mp h
    obtain ⟨s₄, hhyphen₂, h⟩ := Option.bind_eq_some_iff.mp h
    obtain ⟨⟨day, rest⟩, hday, h⟩ := Option.bind_eq_some_iff.mp h
    dsimp only at h
    split_ifs at h with hend
    obtain rfl := List.isEmpty_iff.mp hend
    obtain ⟨rfl, rfl, rfl⟩ := Date.of?_eq_some_iff.mp h
    obtain ⟨ws₁, y, hws₁, hy, htext⟩ := exists_of_readYear hyear
    obtain ⟨ws₂, m, hws₂, hm, rfl⟩ := exists_of_readPart hmonth
    obtain ⟨ws₃, dd, hws₃, hd, rfl⟩ := exists_of_readPart hday
    obtain rfl := exists_of_readHyphen hhyphen
    obtain rfl := exists_of_readHyphen hhyphen₂
    exact ⟨ws₁, y, ws₂, m, ws₃, dd, hws₁, hy, hws₂, hm, hws₃, hd, by rw [htext, List.append_nil]⟩
  · rintro ⟨ws₁, y, ws₂, m, ws₃, dd, hws₁, hy, hws₂, hm, hws₃, hd, htext⟩
    have hday : readPart (ws₃ ++ dd) = some (d.day, []) := by
      have hread := readPart_append hws₃ hd endsNumber_nil
      rwa [List.append_nil] at hread
    unfold Date.ofText?
    rw [htext, readYear_append hws₁ hy (endsNumber_hyphen _)]
    simp only [Option.bind_eq_bind, Option.bind_some, readHyphen,
      readPart_append hws₂ hm (endsNumber_hyphen _), hday]
    exact Date.of?_eq_some_iff.mpr ⟨rfl, rfl, rfl⟩

/-! ## The written form -/

theorem numeral_padded (width n : Nat) : Numeral n (padded width n) where
  ne_nil := List.append_ne_nil_of_right_ne_nil _ Nat.toDigits_ne_nil
  isDigit := by
    intro c hc
    rcases List.mem_append.mp hc with hzero | hdigit
    · rw [(List.mem_replicate.mp hzero).2]
      rfl
    · exact Nat.isDigit_of_mem_toDigits (by decide) (by decide) hdigit
  value := by
    have hfold : ∀ ds, ofDigits ds = Nat.ofDigitChars 10 ds 0 := by
      intro ds
      rw [Nat.ofDigitChars_eq_foldl]
      simp only [ofDigits, Nat.mul_comm]
    rw [hfold, padded, List.leftpad, Nat.ofDigitChars_append, Nat.ofDigitChars_replicate_zero,
      Nat.mul_zero]
    exact Nat.ofDigitChars_toDigits (by decide) (by decide)

theorem length_padded {width n : Nat} (hwidth : 0 < width) (h : n < 10 ^ width) :
    (padded width n).length = width := by
  rw [padded, List.length_leftpad]
  exact Nat.max_eq_left ((Nat.length_toDigits_le_iff (by decide) hwidth).mpr h)

/-- A year is written with a sign unless four digits are enough. -/
theorem yearForm_yearText (year : Int) : YearForm year (yearText year) := by
  unfold yearText
  split_ifs with hfour hnegative
  · have hlength : (padded 4 year.toNat).length ≤ 4 :=
      Nat.le_of_eq (length_padded (by decide) (by omega))
    have hform := YearForm.plain (numeral_padded 4 year.toNat) hlength
    rwa [Int.toNat_of_nonneg hfour.1] at hform
  · have hform := YearForm.minus (numeral_padded 4 year.natAbs)
    rwa [show -(year.natAbs : Int) = year by omega] at hform
  · have hform := YearForm.plus (numeral_padded 4 year.natAbs)
    rwa [show (year.natAbs : Int) = year by omega] at hform

theorem Date.digit_or_sign_of_mem_text {d : Date} {c : Char} (h : c ∈ d.text) :
    c.isDigit = true ∨ c = '-' ∨ c = '+' := by
  have hpadded : ∀ {width n : Nat}, c ∈ padded width n → c.isDigit = true :=
    fun {width n} => (numeral_padded width n).isDigit c
  have hyear : c ∈ yearText d.year → c.isDigit = true ∨ c = '-' ∨ c = '+' := by
    unfold yearText
    split_ifs <;> grind
  simp only [Date.text, List.mem_append, List.mem_singleton] at h
  rcases h with (((h | h) | h) | h) | h
  · exact hyear h
  · exact .inr (.inl h)
  · exact .inl (hpadded h)
  · exact .inr (.inl h)
  · exact .inl (hpadded h)

theorem partForm_padded {n : Nat} (h : n < 10 ^ 2) : PartForm n (padded 2 n) :=
  ⟨numeral_padded 2 n, Nat.le_of_eq (length_padded (by decide) h)⟩

/-! ## Days of the calendar -/

/-- The length of a month, by its place in the year.  February has a 29th day in
every fourth year, but of the years that end a century only in every fourth. -/
def monthLength (year : Int) (month : Nat) : Nat :=
  [0, 31, if 4 ∣ year ∧ (100 ∣ year → 400 ∣ year) then 29 else 28, 31, 30, 31, 30, 31, 31, 30, 31,
    30, 31].getD month 0

/-- A day that exists: a month of the year and a day of that month. -/
def IsDay (year : Int) (month day : Nat) : Prop :=
  1 ≤ month ∧ month ≤ 12 ∧ 1 ≤ day ∧ day ≤ monthLength year month

theorem isLeapYear_iff (year : Int) :
    isLeapYear year = true ↔ 4 ∣ year ∧ (100 ∣ year → 400 ∣ year) := by
  simp only [isLeapYear, Bool.and_eq_true, Bool.or_eq_true, beq_iff_eq, bne_iff_ne]
  omega

theorem daysInMonth_eq (year : Int) (month : Nat) :
    daysInMonth year month = monthLength year month := by
  have hleap := isLeapYear_iff year
  rcases Nat.lt_or_ge month 13 with hmonth | hlate
  · interval_cases month <;> simp [daysInMonth, monthLength, hleap]
  · have hlength : monthLength year month = 0 := List.getD_eq_default _ _ hlate
    rw [hlength]
    unfold daysInMonth
    repeat rw [if_neg (by omega)]

theorem monthLength_le (year : Int) (month : Nat) : monthLength year month ≤ 31 := by
  rw [← daysInMonth_eq]
  unfold daysInMonth
  split_ifs <;> decide

/-- The dates are the days that exist, in the years that are kept. -/
theorem isDate_iff {year : Int} {month day : Nat} :
    IsDate year month day ↔ -262143 ≤ year ∧ year ≤ 262142 ∧ IsDay year month day := by
  unfold IsDate IsDay
  rw [daysInMonth_eq]
  have hmonth : 1 ≤ monthLength year month → 1 ≤ month ∧ month ≤ 12 := by
    rw [← daysInMonth_eq]
    unfold daysInMonth
    split_ifs <;> omega
  omega

theorem Date.isDay (d : Date) : IsDay d.year d.month d.day :=
  (isDate_iff.mp d.isDate).2.2

def Date.written (d : Date) : String :=
  String.ofList d.text

theorem Date.dateForm_text (d : Date) : DateForm d d.text := by
  obtain ⟨-, hmonth, -, hday⟩ := d.isDay
  have hlength := monthLength_le d.year d.month
  exact ⟨[], _, [], _, [], _, isSpace_nil, yearForm_yearText d.year, isSpace_nil,
    partForm_padded (by omega), isSpace_nil, partForm_padded (by omega),
    by simp [Date.text]⟩

/-- **A written date is read back.** -/
theorem Date.ofText?_written (d : Date) : Date.ofText? d.written = some d := by
  rw [Date.ofText?_eq_some_iff, Date.written, String.toList_ofList]
  exact d.dateForm_text

end Ambient
