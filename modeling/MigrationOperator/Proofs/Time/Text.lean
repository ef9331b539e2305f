/-
Moments are read back from what is written of them.

A number that is written with leading zeros is read off the front of a text (`number_append`), so a date and a time of day
are read as they were written (`date_append`, `clock_append`). `Timestamp.codec_keeps` puts them together: every moment from
the start of the year 0 to the last one is kept. Earlier years are written with a sign, and not in six digits, so they are
not read back.
-/
import MigrationOperator.Resource.Timestamp
import MigrationOperator.Proofs.Time.Calendar

namespace MigrationOperator

namespace TimeText

/-- a number in so many digits -/
structure Spells (width : Nat) (n : Nat) (cs : List Char) : Prop where
  length : cs.length = width
  digits : ∀ c ∈ cs, c.isDigit = true
  value : valueOf cs = n

theorem valueOf_eq (cs : List Char) : valueOf cs = Nat.ofDigitChars 10 cs 0 := by
  have hzero : '0'.toNat = 48 := rfl
  simp only [valueOf, Nat.ofDigitChars, hzero, Nat.mul_comm 10]

/-- leading zeros add nothing -/
theorem valueOf_replicate_zero_append (k : Nat) (cs : List Char) : valueOf (List.replicate k '0' ++ cs) = valueOf cs := by
  induction k with
  | zero => rfl
  | succ k ih =>
    rw [← ih]
    rfl

theorem spells_padded {width n : Nat} (hwidth : 0 < width) (h : n < 10 ^ width) :
    Spells width n (Calendar.padded width n).toList := by
  have hlength : (Nat.toDigits 10 n).length ≤ width := (Nat.length_toDigits_le_iff (by decide) hwidth).2 h
  have hsize : n.repr.length = (Nat.toDigits 10 n).length := by rw [← String.length_toList, Nat.toList_repr]
  have hlist : (Calendar.padded width n).toList =
      List.replicate (width - (Nat.toDigits 10 n).length) '0' ++ Nat.toDigits 10 n := by
    have hsign : ¬ (n : Int) < 0 := by omega
    simp [Calendar.padded, hsign, hsize]
  rw [hlist]
  refine ⟨?_, fun c hc => ?_, ?_⟩
  · rw [List.length_append, List.length_replicate]
    omega
  · rcases List.mem_append.1 hc with hc | hc
    · rw [List.eq_of_mem_replicate hc]
      rfl
    · exact Nat.isDigit_of_mem_toDigits (by decide) (by decide) hc
  · rw [valueOf_replicate_zero_append, valueOf_eq, Nat.ofDigitChars_toDigits (by decide) (by decide)]

theorem length_le_byteCount (cs : List Char) : cs.length ≤ byteCount cs := by
  have key : ∀ n, n + cs.length ≤ cs.foldl (fun n c => n + c.utf8Size) n := by
    induction cs with
    | nil => intro n; exact Nat.le_refl n
    | cons c cs ih =>
      intro n
      have hc := c.utf8Size_pos
      have hrest := ih (n + c.utf8Size)
      rw [List.foldl_cons, List.length_cons]
      omega
  have hall := key 0
  rwa [Nat.zero_add] at hall

/-- a number in as many digits as the part has is read off the front -/
theorem number_append {p : Part} {n : Nat} {cs : List Char} (h : Spells p.width n cs) (rest : List Char)
    (hbounds : p.bounds.1 ≤ n ∧ (n : Int) ≤ p.bounds.2) : number p (cs ++ rest) = .ok (n, rest) := by
  have hcount : ¬ byteCount (cs ++ rest) < p.width := by
    have hlength := length_le_byteCount (cs ++ rest)
    rw [List.length_append, h.length] at hlength
    omega
  have htake : (cs ++ rest).take p.width = cs := List.take_left' h.length
  have hdrop : (cs ++ rest).drop p.width = rest := List.drop_left' h.length
  have hfind : cs.find? (!·.isDigit) = none := by
    rw [List.find?_eq_none]
    intro c hc
    simp [h.digits c hc]
  simp [number, hcount, htake, hdrop, hfind, h.value, hbounds]

theorem Spells.exists_cons {width n : Nat} {cs : List Char} (h : Spells (width + 1) n cs) :
    ∃ c cs', cs = c :: cs' ∧ c.isDigit = true := by
  cases cs with
  | nil => exact absurd h.length nofun
  | cons c cs' => exact ⟨c, cs', rfl, h.digits c List.mem_cons_self⟩

theorem year_append {n : Nat} {cs : List Char} (h : Spells 4 n cs) (rest : List Char) (hn : n ≤ 9999) :
    year (cs ++ rest) = .ok ((n : Int), rest) := by
  obtain ⟨c, cs', rfl, hc⟩ := h.exists_cons
  have hnumber := number_append (p := .year) h rest ⟨by simp only [Part.bounds]; omega, by simp only [Part.bounds]; omega⟩
  have hyear : year (c :: cs' ++ rest) = (number .year (c :: cs' ++ rest)).map fun x => ((x.1 : Int), x.2) := by
    rw [List.cons_append, year.eq_def]
    split
    · rename_i heq
      obtain ⟨rfl, -⟩ := List.cons.inj heq
      exact absurd hc (by decide)
    · rename_i heq
      obtain ⟨rfl, -⟩ := List.cons.inj heq
      exact absurd hc (by decide)
    · cases number .year (c :: (cs' ++ rest)) <;> rfl
  rw [hyear, hnumber]
  rfl

/-- a date with marks between its parts -/
theorem date_append {year month day : Nat} {ys ms ds : List Char} (hyear : Spells 4 year ys) (hmonth : Spells 2 month ms)
    (hday : Spells 2 day ds) (rest : List Char) (hdate : Calendar.IsDate (year, month, day)) (hbound : year ≤ 9999) :
    date (ys ++ '-' :: (ms ++ '-' :: (ds ++ rest))) = .ok (Calendar.daysOfDate year month day, rest) := by
  have hmonthRead := number_append (p := .month) hmonth ('-' :: (ds ++ rest)) hdate.month
  have hdayRead := number_append (p := .day) hday rest ⟨hdate.day.1, hdate.day_le⟩
  have hdays : (day : Int) ≤ Calendar.daysInMonth year month := hdate.day.2
  simp [date, year_append hyear _ hbound, hmonthRead, hdayRead, dayMark, hdays, bind, Except.bind, pure, Except.pure]

/-- a time of day with marks between its parts -/
theorem clock_append {hour minute second : Nat} {hs ms ss : List Char} (hhour : Spells 2 hour hs)
    (hminute : Spells 2 minute ms) (hsecond : Spells 2 second ss) (h24 : hour < 24) (h60 : minute < 60)
    (h60' : second < 60) :
    clock (hs ++ ':' :: (ms ++ ':' :: (ss ++ ['Z']))) =
      .ok ({ seconds := hour * 3600 + minute * 60 + second }, ['Z']) := by
  have hhourRead := number_append (p := .hour) hhour (':' :: (ms ++ ':' :: (ss ++ ['Z'])))
    ⟨by simp only [Part.bounds]; omega, by simp only [Part.bounds]; omega⟩
  have hminuteRead := number_append (p := .minute) hminute (':' :: (ss ++ ['Z']))
    ⟨by simp only [Part.bounds]; omega, by simp only [Part.bounds]; omega⟩
  have hsecondRead := number_append (p := .second) hsecond ['Z']
    ⟨by simp only [Part.bounds]; omega, by simp only [Part.bounds]; omega⟩
  have hleap : min second 59 = second := by omega
  simp [clock, hhourRead, hminuteRead, hsecondRead, another?, fraction, hleap, bind, Except.bind, pure, Except.pure]

end TimeText

namespace Timestamp

/-- the first moment of the year 0, before which years have a sign -/
def yearZero : Timestamp := ⟨Calendar.daysOfDate 0 1 1 * 86400⟩

/-- a moment in a year of four digits -/
structure Regular (t : Timestamp) : Prop where
  low : yearZero.seconds ≤ t.seconds
  high : t.seconds ≤ last.seconds

open TimeText Calendar

variable {t : Timestamp}

/-- what is written of a moment is read as its day and its time of day -/
theorem moment_text (h : t.Regular) :
    moment t.text.toList = .ok ⟨t.seconds / 86400, { seconds := (t.seconds % 86400).toNat }, 0⟩ := by
  obtain ⟨h0, h1⟩ := h
  have hzero : yearZero.seconds = -719528 * 86400 := by decide
  have hlast : last.seconds = 2932895 * 86400 + 79200 := by decide
  have hfirstDay : daysOfDate 0 1 1 = -719528 := by decide
  have hlastDay : daysOfDate 9999 12 31 = 2932896 := by decide
  have hfrom : daysOfDate 0 1 1 ≤ t.seconds / 86400 := by omega
  have hupto : t.seconds / 86400 ≤ daysOfDate 9999 12 31 := by omega
  obtain ⟨year, month, day, hdate, hcalendar, hyear, hdays⟩ := exists_date hfrom hupto
  have hmonth : (month : Int) ≤ 12 := hcalendar.month.2
  have hday : (day : Int) ≤ 31 := hcalendar.day_le
  obtain ⟨clock, hclock⟩ := Int.eq_ofNat_of_zero_le (Int.emod_nonneg t.seconds (show (86400 : Int) ≠ 0 by decide))
  have hlt : clock < 86400 := by omega
  have hhours : (clock : Int) / 3600 = (clock / 3600 : Nat) := by omega
  have hminutes : (clock : Int) / 60 % 60 = (clock / 60 % 60 : Nat) := by omega
  have hseconds : (clock : Int) % 60 = (clock % 60 : Nat) := by omega
  have htotal : clock / 3600 * 3600 + clock / 60 % 60 * 60 + clock % 60 = clock := by omega
  have hdateRead := date_append (spells_padded (by decide) (show year < 10 ^ 4 by omega))
    (spells_padded (by decide) (show month < 10 ^ 2 by omega)) (spells_padded (by decide) (show day < 10 ^ 2 by omega))
  have hclockRead := clock_append (spells_padded (by decide) (show clock / 3600 < 10 ^ 2 by omega))
    (spells_padded (by decide) (show clock / 60 % 60 < 10 ^ 2 by omega))
    (spells_padded (by decide) (show clock % 60 < 10 ^ 2 by omega)) (by omega) (by omega) (by omega)
  unfold Timestamp.text
  rw [hclock, hdate]
  dsimp only
  rw [hhours, hminutes, hseconds]
  have hmarks : "-".toList = ['-'] ∧ "T".toList = ['T'] ∧ ":".toList = [':'] ∧ "Z".toList = ['Z'] := ⟨rfl, rfl, rfl, rfl⟩
  simp only [String.toList_append, List.append_assoc, hmarks, List.cons_append, List.nil_append]
  rw [moment, hdateRead _ hcalendar hyear]
  simp only [bind, Except.bind, clockAndOffset?, hclockRead, offset?, pure, Except.pure]
  rw [htotal, hdays]
  rfl

/-- **A moment is read back** from what is written of it, if that has no sign. -/
theorem codec_keeps (h : t.Regular) : codec.Keeps t := by
  obtain ⟨h0, h1⟩ := id h
  have hzero : yearZero.seconds = -719528 * 86400 := by decide
  have hfirst : first.seconds = -377705023201 := by decide
  have hnanoseconds : (Moment.mk (t.seconds / 86400) { seconds := (t.seconds % 86400).toNat } 0).nanoseconds =
      t.seconds * billion := by
    simp only [Moment.nanoseconds, billion]
    omega
  have hread : ofString t.text = .ok t := by
    have hlow : first.seconds * billion ≤ t.seconds * billion := by
      simp only [billion]
      omega
    have hhigh : t.seconds * billion < (last.seconds + 1) * billion := by
      simp only [billion]
      omega
    have hwhole : t.seconds * billion / billion = t.seconds := by
      simp only [billion]
      omega
    rw [ofString, moment_text h]
    simp only [bind, Except.bind, hnanoseconds]
    rw [if_pos ⟨hlow, hhigh⟩, hwhole]
    rfl
  simp only [Codec.Keeps, codec, Json.doc, hread]
  rfl

end Timestamp

end MigrationOperator
