import Boxferry.Library.Decimal
import Mathlib.Algebra.GroupWithZero.Nat
import Mathlib.Data.List.Basic

/-! # Instants and their civil texts

Instants are counted in microseconds from the start of the year one in UTC. The
civil fields of an instant follow the proleptic Gregorian calendar up to the year
9999, and the text written from them is read back as the same instant. -/
namespace Calendar
set_option autoImplicit false

/-! ## Days -/

def isLeap (year : Nat) : Bool := year % 4 == 0 && (year % 100 != 0 || year % 400 == 0)

def monthLengths (leap : Bool) : List Nat :=
  [31, if leap then 29 else 28, 31, 30, 31, 30, 31, 31, 30, 31, 30, 31]

structure Date where
  year : Nat
  month : Nat
  day : Nat
  deriving DecidableEq, Repr

def Date.valid (date : Date) : Bool :=
  1 ≤ date.year && date.year ≤ 9999 && 1 ≤ date.month && date.month ≤ 12 && 1 ≤ date.day
    && date.day ≤ (monthLengths (isLeap date.year)).getD (date.month - 1) 0

/-- The days before the first of January of a year. -/
def daysBeforeYear (year : Nat) : Nat :=
  (year - 1) * 365 + (year - 1) / 4 - (year - 1) / 100 + (year - 1) / 400

/-- The days from the first of January of the year one to a date. -/
def Date.days (date : Date) : Nat :=
  daysBeforeYear date.year + ((monthLengths (isLeap date.year)).take (date.month - 1)).sum
    + (date.day - 1)

/-- The month and day, both from one, of a day of the year. -/
def monthDay : List Nat → Nat → Nat × Nat
  | [], n => (1, n + 1)
  | length :: rest, n =>
    if n < length then (1, n + 1) else ((monthDay rest (n - length)).1 + 1, (monthDay rest (n - length)).2)

/-- The year a day lies in, and the days of that year before it. -/
def yearDay (n : Nat) : Nat × Nat :=
  let century := min 3 (n % 146097 / 36524)
  let inCentury := n % 146097 - century * 36524
  let inFour := inCentury % 1461
  let year := min 3 (inFour / 365)
  (n / 146097 * 400 + century * 100 + inCentury / 1461 * 4 + year + 1, inFour - year * 365)

def ofDays (n : Nat) : Date :=
  let split := yearDay n
  let month := monthDay (monthLengths (isLeap split.1)) split.2
  ⟨split.1, month.1, month.2⟩

theorem one_le_monthDay (lengths : List Nat) (n : Nat) :
    1 ≤ (monthDay lengths n).1 ∧ 1 ≤ (monthDay lengths n).2 := by
  induction lengths generalizing n with
  | nil => exact ⟨Nat.le_refl 1, Nat.succ_pos n⟩
  | cons length rest ih =>
    unfold monthDay
    by_cases hn : n < length
    · rw [if_pos hn]
      exact ⟨Nat.le_refl 1, Nat.succ_pos n⟩
    · rw [if_neg hn]
      exact ⟨Nat.succ_pos _, (ih (n - length)).2⟩

/-- The lengths of the months before, and the days of the month before, make up the day. -/
theorem monthDay_sum (lengths : List Nat) (n : Nat) :
    (lengths.take ((monthDay lengths n).1 - 1)).sum + ((monthDay lengths n).2 - 1) = n := by
  induction lengths generalizing n with
  | nil => simp [monthDay]
  | cons length rest ih =>
    unfold monthDay
    by_cases hn : n < length
    · simp [hn]
    · have hrest := ih (n - length)
      obtain ⟨hmonth, -⟩ := one_le_monthDay rest (n - length)
      obtain ⟨before, hbefore⟩ : ∃ before, (monthDay rest (n - length)).1 = before + 1 :=
        ⟨(monthDay rest (n - length)).1 - 1, by omega⟩
      rw [hbefore] at hrest
      simp only [Nat.add_sub_cancel] at hrest
      simp only [hn, if_false, Nat.add_sub_cancel, hbefore, List.take_succ_cons, List.sum_cons]
      omega

theorem monthDay_bounds (lengths : List Nat) (n : Nat) (h : n < lengths.sum) :
    (monthDay lengths n).1 ≤ lengths.length ∧
      (monthDay lengths n).2 ≤ lengths.getD ((monthDay lengths n).1 - 1) 0 := by
  induction lengths generalizing n with
  | nil => simp at h
  | cons length rest ih =>
    unfold monthDay
    by_cases hn : n < length
    · rw [if_pos hn]
      exact ⟨Nat.succ_le_succ (Nat.zero_le _), hn⟩
    · rw [List.sum_cons] at h
      obtain ⟨hmonth, hday⟩ := ih (n - length) (by omega)
      obtain ⟨hone, -⟩ := one_le_monthDay rest (n - length)
      obtain ⟨before, hbefore⟩ : ∃ before, (monthDay rest (n - length)).1 = before + 1 :=
        ⟨(monthDay rest (n - length)).1 - 1, by omega⟩
      rw [hbefore] at hmonth hday
      rw [if_neg hn]
      refine ⟨?_, ?_⟩
      · rw [hbefore]
        exact Nat.succ_le_succ hmonth
      · simpa [hbefore] using hday

/-- A day as the four-hundreds, centuries, fours and years before it. -/
theorem yearDay_split (n : Nat) : ∃ cycles centuries fours years day, centuries ≤ 3 ∧ fours ≤ 24 ∧
    years ≤ 3 ∧ n = cycles * 146097 + centuries * 36524 + fours * 1461 + years * 365 + day ∧
    (day < 365 ∨ day = 365 ∧ years = 3 ∧ (fours = 24 → centuries = 3)) ∧
    yearDay n = (cycles * 400 + centuries * 100 + fours * 4 + years + 1, day) := by
  refine ⟨n / 146097, min 3 (n % 146097 / 36524),
    (n % 146097 - min 3 (n % 146097 / 36524) * 36524) / 1461,
    min 3 ((n % 146097 - min 3 (n % 146097 / 36524) * 36524) % 1461 / 365),
    (n % 146097 - min 3 (n % 146097 / 36524) * 36524) % 1461
      - min 3 ((n % 146097 - min 3 (n % 146097 / 36524) * 36524) % 1461 / 365) * 365,
    ?_, ?_, ?_, ?_, ?_, rfl⟩ <;> omega

/-- The days of the years before, and of the year before the day, make up the day. -/
theorem yearDay_sum (n : Nat) : daysBeforeYear (yearDay n).1 + (yearDay n).2 = n := by
  obtain ⟨cycles, centuries, fours, years, day, hcenturies, hfours, hyears, hn, -, hsplit⟩ :=
    yearDay_split n
  rw [hsplit]
  unfold daysBeforeYear
  simp only [Nat.add_sub_cancel]
  have hfour : (cycles * 400 + centuries * 100 + fours * 4 + years) / 4 =
      cycles * 100 + centuries * 25 + fours := by omega
  have hhundred : (cycles * 400 + centuries * 100 + fours * 4 + years) / 100 =
      cycles * 4 + centuries := by omega
  have hcycle : (cycles * 400 + centuries * 100 + fours * 4 + years) / 400 = cycles := by omega
  rw [hfour, hhundred, hcycle]
  omega

theorem yearDay_bound (n : Nat) :
    (yearDay n).2 < (monthLengths (isLeap (yearDay n).1)).sum := by
  obtain ⟨cycles, centuries, fours, years, day, hcenturies, hfours, hyears, -, hday, hsplit⟩ :=
    yearDay_split n
  rw [hsplit]
  rcases hday with hday | ⟨hday, rfl, hfull⟩
  · cases isLeap (cycles * 400 + centuries * 100 + fours * 4 + years + 1)
    · exact hday
    · exact Nat.lt_succ_of_lt hday
  · have hleap : isLeap (cycles * 400 + centuries * 100 + fours * 4 + 3 + 1) = true := by
      simp only [isLeap, Bool.and_eq_true, Bool.or_eq_true, beq_iff_eq, bne_iff_ne]
      omega
    rw [hleap, hday]
    exact Nat.lt_succ_self 365

theorem days_ofDays (n : Nat) : (ofDays n).days = n := by
  have hyear := yearDay_sum n
  have hmonth := monthDay_sum (monthLengths (isLeap (yearDay n).1)) (yearDay n).2
  unfold Date.days ofDays
  simp only
  omega

/-- The days of the years one to 9999. -/
def dayLimit : Nat := 3652059

theorem valid_ofDays {n : Nat} (h : n < dayLimit) : (ofDays n).valid = true := by
  obtain ⟨hmonth, hday⟩ := monthDay_bounds (monthLengths (isLeap (yearDay n).1)) (yearDay n).2
    (yearDay_bound n)
  obtain ⟨hmonthOne, hdayOne⟩ := one_le_monthDay (monthLengths (isLeap (yearDay n).1)) (yearDay n).2
  have hyear : 1 ≤ (yearDay n).1 ∧ (yearDay n).1 ≤ 9999 := by
    unfold dayLimit at h
    unfold yearDay
    simp only
    omega
  have hlength : (monthLengths (isLeap (yearDay n).1)).length = 12 := rfl
  rw [hlength] at hmonth
  rw [List.getD_eq_getElem?_getD] at hday
  simp [Date.valid, ofDays, hyear, hmonthOne, hmonth, hdayOne, hday]

/-! ## Instants -/

def microsPerSecond : Nat := 1000000
def microsPerDay : Nat := 86400 * microsPerSecond

/-- The end of the year 9999. -/
def limit : Nat := dayLimit * microsPerDay

structure Instant where
  micros : Nat
  inRange : micros < limit
  deriving DecidableEq

instance : LE Instant := ⟨fun first later => first.micros ≤ later.micros⟩
instance : LT Instant := ⟨fun first later => first.micros < later.micros⟩
instance (first later : Instant) : Decidable (first ≤ later) :=
  inferInstanceAs (Decidable (first.micros ≤ later.micros))
instance (first later : Instant) : Decidable (first < later) :=
  inferInstanceAs (Decidable (first.micros < later.micros))

theorem le_def {first later : Instant} : first ≤ later ↔ first.micros ≤ later.micros := Iff.rfl
theorem lt_def {first later : Instant} : first < later ↔ first.micros < later.micros := Iff.rfl

/-- The instant a count of microseconds names, when it lies in the calendar. -/
def Instant.ofMicros (micros : Int) : Option Instant :=
  if h : 0 ≤ micros ∧ micros.toNat < limit then some ⟨micros.toNat, h.2⟩ else none

@[simp] theorem ofMicros_micros (instant : Instant) : Instant.ofMicros instant.micros = some instant := by
  have hrange : 0 ≤ (instant.micros : Int) ∧ (instant.micros : Int).toNat < limit :=
    ⟨Int.natCast_nonneg _, by simpa using instant.inRange⟩
  unfold Instant.ofMicros
  rw [dif_pos hrange]
  rfl

/-! ## Fixed-width numbers -/

def padded : Nat → Nat → List Char
  | 0, _ => []
  | width + 1, n => padded width (n / 10) ++ [Nat.digitChar (n % 10)]

/-- The number the next digits spell, and the text after them. -/
def number (width : Nat) (text : List Char) : Option (Nat × List Char) :=
  if (text.take width).length = width ∧ (text.take width).all Char.isDigit then
    some (Decimal.value (text.take width), text.drop width)
  else none

/-- The text after one expected character. -/
def literal (expected : Char) : List Char → Option (List Char)
  | [] => none
  | ch :: rest => if ch = expected then some rest else none

@[simp] theorem length_padded (width n : Nat) : (padded width n).length = width := by
  induction width generalizing n with
  | zero => rfl
  | succ width ih => simp [padded, ih]

theorem digitChar_isDigit {n : Nat} (h : n < 10) : (Nat.digitChar n).isDigit = true := by
  have hall : ∀ n, n < 10 → (Nat.digitChar n).isDigit = true := by decide
  exact hall n h

theorem digitChar_value {n : Nat} (h : n < 10) : (Nat.digitChar n).toNat - 48 = n := by
  have hall : ∀ n, n < 10 → (Nat.digitChar n).toNat - 48 = n := by decide
  exact hall n h

theorem padded_isDigit (width n : Nat) : (padded width n).all Char.isDigit = true := by
  induction width generalizing n with
  | zero => rfl
  | succ width ih =>
    have hlast := digitChar_isDigit (Nat.mod_lt n (by decide : 10 > 0))
    simp [padded, List.all_append, ih, hlast]

theorem value_padded {width n : Nat} (h : n < 10 ^ width) : Decimal.value (padded width n) = n := by
  induction width generalizing n with
  | zero =>
    rw [Nat.pow_zero, Nat.lt_one_iff] at h
    rw [h]
    rfl
  | succ width ih =>
    have hrest : n / 10 < 10 ^ width := by
      rw [Nat.pow_succ] at h
      omega
    rw [padded, Decimal.value_append, ih hrest, digitChar_value (Nat.mod_lt n (by decide))]
    exact Nat.div_add_mod n 10

theorem number_padded {width n : Nat} (h : n < 10 ^ width) (rest : List Char) :
    number width (padded width n ++ rest) = some (n, rest) := by
  have htake : (padded width n ++ rest).take width = padded width n :=
    List.take_left' (length_padded width n)
  have hdrop : (padded width n ++ rest).drop width = rest :=
    List.drop_left' (length_padded width n)
  unfold number
  rw [htake, hdrop, if_pos ⟨length_padded width n, padded_isDigit width n⟩, value_padded h]

@[simp] theorem literal_cons (ch : Char) (rest : List Char) : literal ch (ch :: rest) = some rest :=
  if_pos rfl

/-! ## Texts -/

/-- The microseconds a fraction of a second spells; digits past the sixth do not count. -/
def fraction (digits : List Char) : Nat :=
  Decimal.value (digits.take 6) * 10 ^ (6 - (digits.take 6).length)

/-- The fraction, if there is one, and the text after it. -/
def readFraction : List Char → Option (Nat × List Char)
  | '.' :: text =>
    if (text.takeWhile Char.isDigit).isEmpty then none
    else some (fraction (text.takeWhile Char.isDigit), text.dropWhile Char.isDigit)
  | text => some (0, text)

/-- The seconds east of UTC that a whole zone text spells, and whether there are such seconds. -/
def readZone : List Char → Option (Int × Bool)
  | ['Z'] => some (0, true)
  | sign :: text => do
    if sign ≠ '+' ∧ sign ≠ '-' then none
    else
      let (hours, text) ← number 2 text
      let text ← literal ':' text
      let (minutes, text) ← number 2 text
      if text ≠ [] then none
      else
        let seconds : Int := hours * 3600 + minutes * 60
        some (if sign = '-' then -seconds else seconds, hours < 24 && minutes < 60)
  | [] => none

/-- What a date-time text names: nothing the grammar admits, no date, or microseconds in UTC. -/
inductive Reading where
  | malformed
  | invalid
  | micros (n : Int)
  deriving DecidableEq

structure Fields where
  date : Date
  hour : Nat
  minute : Nat
  second : Nat
  micro : Nat
  east : Int
  eastValid : Bool

/-- The fields of a text with a full date, a full time and a zone. -/
def readFields (text : List Char) : Option Fields := do
  let (year, text) ← number 4 text
  let text ← literal '-' text
  let (month, text) ← number 2 text
  let text ← literal '-' text
  let (day, text) ← number 2 text
  let text ← literal 'T' text
  let (hour, text) ← number 2 text
  let text ← literal ':' text
  let (minute, text) ← number 2 text
  let text ← literal ':' text
  let (second, text) ← number 2 text
  let (micro, text) ← readFraction text
  let (east, eastValid) ← readZone text
  some ⟨⟨year, month, day⟩, hour, minute, second, micro, east, eastValid⟩

def Fields.valid (fields : Fields) : Bool :=
  fields.date.valid && fields.hour < 24 && fields.minute < 60 && fields.second < 60
    && fields.eastValid

def Fields.micros (fields : Fields) : Int :=
  (fields.date.days * microsPerDay
    + (fields.hour * 3600 + fields.minute * 60 + fields.second) * microsPerSecond
    + fields.micro : Nat) - fields.east * microsPerSecond

def read (text : List Char) : Reading :=
  match readFields text with
  | none => .malformed
  | some fields => if fields.valid then .micros fields.micros else .invalid

/-- The fraction is left out when it is zero. -/
def fractionText (micro : Nat) : List Char := if micro = 0 then [] else '.' :: padded 6 micro

def Instant.date (instant : Instant) : Date := ofDays (instant.micros / microsPerDay)

def Instant.hour (instant : Instant) : Nat := instant.micros % microsPerDay / (3600 * microsPerSecond)
def Instant.minute (instant : Instant) : Nat :=
  instant.micros % (3600 * microsPerSecond) / (60 * microsPerSecond)
def Instant.second (instant : Instant) : Nat := instant.micros % (60 * microsPerSecond) / microsPerSecond
def Instant.micro (instant : Instant) : Nat := instant.micros % microsPerSecond

def Instant.text (instant : Instant) : List Char :=
  padded 4 instant.date.year ++ '-' :: (padded 2 instant.date.month ++ '-' :: (padded 2 instant.date.day
    ++ 'T' :: (padded 2 instant.hour ++ ':' :: (padded 2 instant.minute
      ++ ':' :: (padded 2 instant.second ++ (fractionText instant.micro ++ ['Z']))))))

theorem readFraction_text {micro : Nat} (h : micro < microsPerSecond) :
    readFraction (fractionText micro ++ ['Z']) = some (micro, ['Z']) := by
  unfold fractionText
  by_cases hzero : micro = 0
  · rw [if_pos hzero, hzero]
    rfl
  · have hdigits : (padded 6 micro ++ ['Z']).takeWhile Char.isDigit = padded 6 micro := by
      rw [List.takeWhile_append_of_pos (fun ch hch => List.all_eq_true.mp (padded_isDigit 6 micro) ch hch)]
      simp
    have hrest : (padded 6 micro ++ ['Z']).dropWhile Char.isDigit = ['Z'] := by
      rw [List.dropWhile_append_of_pos (fun ch hch => List.all_eq_true.mp (padded_isDigit 6 micro) ch hch)]
      simp
    have hnonempty : (padded 6 micro).isEmpty = false := by
      rw [List.isEmpty_eq_false_iff]
      exact List.ne_nil_of_length_pos (by simp)
    have hall : (padded 6 micro).take 6 = padded 6 micro := List.take_of_length_le (by simp)
    rw [if_neg hzero, List.cons_append]
    unfold readFraction
    simp only [hdigits, hrest, hnonempty, Bool.false_eq_true, if_false, fraction, hall, length_padded]
    rw [value_padded h, Nat.sub_self, Nat.pow_zero, Nat.mul_one]

theorem valid_date (instant : Instant) : instant.date.valid = true := by
  apply valid_ofDays
  have hlimit := instant.inRange
  unfold limit at hlimit
  exact Nat.div_lt_of_lt_mul (by rwa [Nat.mul_comm])

/-- The fields of a valid date fit the places of its text. -/
theorem date_bounds {date : Date} (h : date.valid = true) :
    date.year < 10 ^ 4 ∧ date.month < 10 ^ 2 ∧ date.day < 10 ^ 2 := by
  have hmonths : ∀ leap month, (monthLengths leap).getD month 0 ≤ 31 := by
    intro leap month
    rw [List.getD_eq_getElem?_getD]
    rcases hmonth : (monthLengths leap)[month]? with _ | length
    · exact Nat.zero_le 31
    · have hall : ∀ leap, ∀ length ∈ monthLengths leap, length ≤ 31 := by decide
      exact hall leap length (List.mem_of_getElem? hmonth)
  simp only [Date.valid, Bool.and_eq_true, decide_eq_true_eq] at h
  have hday := hmonths (isLeap date.year) (date.month - 1)
  omega

/-- The fields of an instant lie in their ranges and add up to it. -/
theorem fields_micros (instant : Instant) : instant.hour < 24 ∧ instant.minute < 60 ∧
    instant.second < 60 ∧ instant.micro < microsPerSecond ∧
    instant.date.days * microsPerDay
      + (instant.hour * 3600 + instant.minute * 60 + instant.second) * microsPerSecond + instant.micro
        = instant.micros := by
  have hdays : instant.date.days = instant.micros / microsPerDay := days_ofDays _
  rw [hdays]
  unfold Instant.hour Instant.minute Instant.second Instant.micro microsPerDay microsPerSecond
  omega

theorem readFields_text (instant : Instant) : readFields instant.text =
    some ⟨instant.date, instant.hour, instant.minute, instant.second, instant.micro, 0, true⟩ := by
  obtain ⟨hyear, hmonth, hday⟩ := date_bounds (valid_date instant)
  obtain ⟨hhour, hminute, hsecond, hmicro, -⟩ := fields_micros instant
  unfold readFields Instant.text
  simp only [number_padded hyear, number_padded hmonth, number_padded hday, literal_cons,
    number_padded (Nat.lt_trans hhour (by decide : 24 < 10 ^ 2)),
    number_padded (Nat.lt_trans hminute (by decide : 60 < 10 ^ 2)),
    number_padded (Nat.lt_trans hsecond (by decide : 60 < 10 ^ 2)), readFraction_text hmicro,
    Option.bind_eq_bind, Option.bind_some]
  rfl

/-- Every instant is read back from its text. -/
theorem read_text (instant : Instant) : read instant.text = .micros instant.micros := by
  obtain ⟨hhour, hminute, hsecond, -, hsum⟩ := fields_micros instant
  unfold read
  rw [readFields_text instant]
  have hvalid : Fields.valid ⟨instant.date, instant.hour, instant.minute, instant.second,
      instant.micro, 0, true⟩ = true := by
    simp [Fields.valid, valid_date instant, hhour, hminute, hsecond]
  simp only [hvalid, if_true, Fields.micros, Int.zero_mul, Int.sub_zero]
  rw [hsum]

end Calendar
