import Mathlib
import AgentDeck.Proofs.Time.Calendar
import AgentDeck.Proofs.Json.Numbers

/-!
Instants read back from their text.

An instant in the years 0 to 9999 is written with four digits of year, two of month, day,
hour, minute and second, a fraction of 3, 6 or 9 digits and `Z`; reading that text takes
each field back, and the date and time back to the instant (`parse_text`). A leap second,
written as second 60, reads back when it is the last second of a minute.
-/

namespace AgentDeck.Time

open AgentDeck.Json (bind_of_ok foldl_digits toNat_of_isDigit)

/-- The year of an instant's date. -/
def Stamp.year (t : Stamp) : Int := (civilFromDays (t.secs.fdiv 86400)).1

/-- An instant that its text holds exactly: a year from 0 to 9999, and nanoseconds from
`10⁹` on only in the last second of a minute, where they stand for second 60. -/
structure Stamp.Regular (t : Stamp) : Prop where
  year_nonneg : 0 ≤ t.year
  year_le : t.year ≤ 9999
  nanos_lt : t.nanos < 1000000000 ∨ (t.nanos < 2000000000 ∧ t.secs % 60 = 59)

/-! ### Digits -/

theorem toList_padNat (w n : Nat) :
    (padNat w n).toList = List.replicate (w - (Nat.toDigits 10 n).length) '0' ++ Nat.toDigits 10 n := by
  simp [padNat, Nat.toString_eq_repr, ← String.length_toList, Nat.toList_repr]

theorem length_padNat {w n : Nat} (hw : 0 < w) (hn : n < 10 ^ w) : (padNat w n).toList.length = w := by
  have := Nat.toDigits_length 10 n w hw hn
  rw [toList_padNat, List.length_append, List.length_replicate]
  omega

theorem isDigit_of_mem_padNat {w n : Nat} {ch : Char} (h : ch ∈ (padNat w n).toList) : ch.isDigit = true := by
  rw [toList_padNat] at h
  rcases List.mem_append.1 h with h | h
  · rw [List.eq_of_mem_replicate h]; rfl
  · exact Nat.isDigit_of_mem_toDigits (by omega) (by omega) h

theorem foldl_padNat (w n : Nat) :
    (padNat w n).toList.foldl (fun acc c => acc * 10 + (c.toNat - 48)) 0 = n := by
  have hzeros : ∀ k, (List.replicate k '0').foldl (fun acc c => acc * 10 + (c.toNat - 48)) 0 = 0 := by
    intro k
    induction k with
    | zero => rfl
    | succ k ih => rw [List.replicate_succ', List.foldl_append, ih]; rfl
  have hn := foldl_digits n
  rw [List.foldl_map] at hn
  rw [toList_padNat, List.foldl_append, hzeros, hn]

theorem digits_padNat {w n : Nat} (hw : 0 < w) (hn : n < 10 ^ w) (z : List Char) :
    digits w ((padNat w n).toList ++ z) = .ok (n, z) := by
  have hlen := length_padNat hw hn
  have htake : ((padNat w n).toList ++ z).take w = (padNat w n).toList := by
    rw [List.take_append_of_le_length (by omega), List.take_of_length_le (by omega)]
  have hall : ((padNat w n).toList).takeWhile Char.isDigit = (padNat w n).toList :=
    List.takeWhile_eq_self_iff.2 fun _ h => isDigit_of_mem_padNat h
  have hne : (padNat w n).toList.isEmpty = false := by
    rw [List.isEmpty_eq_false_iff]; exact List.ne_nil_of_length_pos (by omega)
  have hne' : ((padNat w n).toList ++ z).isEmpty = false := by
    rw [List.isEmpty_eq_false_iff]; exact List.ne_nil_of_length_pos (by simp; omega)
  simp only [digits, bind, StateT.bind, get, getThe, MonadStateOf.get, StateT.get, pure,
    Except.pure, Except.bind, set, htake, hall, hne, hne', Bool.false_eq_true, ↓reduceIte,
    List.drop_left, foldl_padNat]
  rfl

theorem isBlank_of_isDigit {ch : Char} (h : ch.isDigit = true) : Text.isBlank ch = false := by
  have := toNat_of_isDigit h
  simp [Text.isBlank]
  omega

theorem padNat_cons {w n : Nat} (hw : 0 < w) (hn : n < 10 ^ w) :
    ∃ ch cs, (padNat w n).toList = ch :: cs ∧ ch.isDigit = true := by
  obtain ⟨ch, cs, h⟩ := List.exists_cons_of_length_pos (by rw [length_padNat hw hn]; exact hw)
  exact ⟨ch, cs, h, isDigit_of_mem_padNat (by rw [h]; exact List.mem_cons_self)⟩

/-! ### The fields of a written instant -/

variable {z : List Char}

theorem blanks_cons {ch : Char} (h : Text.isBlank ch = false) :
    blanks (ch :: z) = .ok ((), ch :: z) := by
  show Except.ok ((), (ch :: z).dropWhile Text.isBlank) = _
  rw [List.dropWhile_cons_of_neg (by simp [h])]

theorem blanks_padNat {w n : Nat} (hw : 0 < w) (hn : n < 10 ^ w) :
    blanks ((padNat w n).toList ++ z) = .ok ((), (padNat w n).toList ++ z) := by
  obtain ⟨ch, cs, h, hd⟩ := padNat_cons hw hn
  rw [h, List.cons_append]
  exact blanks_cons (isBlank_of_isDigit hd)

theorem literal_cons (ch : Char) : literal ch (ch :: z) = .ok ((), z) := by
  simp [literal, bind, StateT.bind, get, getThe, MonadStateOf.get, StateT.get, set, StateT.set,
    Except.bind, pure, Except.pure]

theorem ranged_padNat {lo hi n : Nat} (hlo : lo ≤ n) (hhi : n ≤ hi) (hn : n < 10 ^ 2) :
    ranged 2 lo hi ((padNat 2 n).toList ++ z) = .ok (n, z) := by
  have hout : ¬(n < lo ∨ hi < n) := by omega
  unfold ranged
  rw [bind_of_ok (blanks_padNat (by decide) hn), bind_of_ok (digits_padNat (by decide) hn z)]
  simp only [hout, ↓reduceIte]
  rfl

theorem year_padNat {n : Nat} (hn : n < 10 ^ 4) :
    year ((padNat 4 n).toList ++ z) = .ok ((n : Int), z) := by
  obtain ⟨ch, cs, h, hd⟩ := padNat_cons (by decide) hn
  have hsign : ch ≠ '-' ∧ ch ≠ '+' := by
    have := toNat_of_isDigit hd
    constructor <;> rintro rfl <;> simp at this
  unfold year
  have hget : (get : Scan (List Char)) ((padNat 4 n).toList ++ z) =
      .ok ((padNat 4 n).toList ++ z, (padNat 4 n).toList ++ z) := rfl
  rw [bind_of_ok (blanks_padNat (by decide) hn)]
  simp only
  rw [bind_of_ok hget]
  -- a written year of four digits has no sign
  have hdig : (digits 4 >>= fun v => pure (v : Int)) ((padNat 4 n).toList ++ z) =
      .ok ((n : Int), z) := by
    rw [bind_of_ok (digits_padNat (by decide) hn z)]
    rfl
  rw [← hdig]
  refine congrFun ?_ _
  split
  · next r heq => simp [h] at heq; exact absurd heq.1 hsign.1
  · next r heq => simp [h] at heq; exact absurd heq.1 hsign.2
  · rfl

theorem get_scan (s : List Char) : (get : Scan (List Char)) s = .ok (s, s) := rfl

theorem fraction_padNat {w v : Nat} (hw : 0 < w) (hw9 : w ≤ 9) (hv : v < 10 ^ w) :
    fraction ('.' :: ((padNat w v).toList ++ 'Z' :: z)) = .ok (v * 10 ^ (9 - w), 'Z' :: z) := by
  have hlen := length_padNat hw hv
  have hdig : ∀ ch ∈ (padNat w v).toList, ch.isDigit = true := fun _ h => isDigit_of_mem_padNat h
  have hds : (((padNat w v).toList ++ 'Z' :: z).take 9).takeWhile Char.isDigit =
      (padNat w v).toList := by
    have hz : ((('Z' :: z).take (9 - w)).takeWhile Char.isDigit) = [] := by
      cases 9 - w with
      | zero => rfl
      | succ k => simp [List.take_succ_cons]
    rw [List.take_append, List.take_of_length_le (by omega), List.takeWhile_append_of_pos hdig, hlen,
      hz, List.append_nil]
  have hne : ((padNat w v).toList ++ 'Z' :: z).isEmpty = false := by simp
  have hne' : (padNat w v).toList.isEmpty = false := by
    rw [List.isEmpty_eq_false_iff]; exact List.ne_nil_of_length_pos (by omega)
  have hafter : (((padNat w v).toList ++ 'Z' :: z).drop w).dropWhile Char.isDigit =
      'Z' :: z := by
    rw [List.drop_left' hlen, List.dropWhile_cons_of_neg (by decide)]
  unfold fraction
  rw [bind_of_ok (get_scan _)]
  simp only
  rw [bind_of_ok (t := (padNat w v).toList ++ 'Z' :: z) rfl, bind_of_ok (get_scan _)]
  simp only [hne, hds, hne', hafter, Bool.false_eq_true, ↓reduceIte, foldl_padNat, hlen, Nat.pow_eq]
  rfl

theorem fraction_text {n : Nat} (hn : n < 10 ^ 9) :
    fraction ((fractionText n).toList ++ 'Z' :: z) = .ok (n, 'Z' :: z) := by
  unfold fractionText
  split_ifs with h0 h6 h3
  · subst h0
    rfl
  · have h := fraction_padNat (z := z) (w := 3) (v := n / 1000000) (by decide) (by decide)
      (by omega)
    rw [show n / 1000000 * 10 ^ (9 - 3) = n by omega] at h
    simpa using h
  · have h := fraction_padNat (z := z) (w := 6) (v := n / 1000) (by decide) (by decide)
      (by omega)
    rw [show n / 1000 * 10 ^ (9 - 6) = n by omega] at h
    simpa using h
  · have h := fraction_padNat (z := z) (w := 9) (v := n) (by decide) (by decide) hn
    simpa using h

theorem offset_utc : offset ('Z' :: z) = .ok (0, z) := by
  simp [offset, bind, StateT.bind, get, getThe, MonadStateOf.get, StateT.get, set, StateT.set,
    Except.bind, pure, Except.pure, StateT.pure]

/-- The characters of a date and time written field by field. -/
def writtenFields (y m d hh mi ss n : Nat) : List Char :=
  (padNat 4 y).toList ++ '-' :: ((padNat 2 m).toList ++ '-' :: ((padNat 2 d).toList ++
    'T' :: ((padNat 2 hh).toList ++ ':' :: ((padNat 2 mi).toList ++ ':' :: ((padNat 2 ss).toList ++
      ((fractionText n).toList ++ ['Z']))))))

/-- **Fields.** Each field of a written date and time is read back, and nothing is left. -/
theorem fields_written {y m d hh mi ss n : Nat} (hy : y < 10 ^ 4) (hm : 1 ≤ m ∧ m ≤ 12)
    (hd : 1 ≤ d ∧ d ≤ 31) (hh23 : hh ≤ 23) (hmi : mi ≤ 59) (hss : ss ≤ 60) (hn : n < 10 ^ 9) :
    fields (writtenFields y m d hh mi ss n) = .ok (((y : Int), m, d, hh, mi, ss, n, 0), []) := by
  unfold fields writtenFields
  rw [bind_of_ok (year_padNat hy), bind_of_ok (blanks_cons (by decide)), bind_of_ok (literal_cons _),
    bind_of_ok (ranged_padNat hm.1 hm.2 (by omega)), bind_of_ok (blanks_cons (by decide)),
    bind_of_ok (literal_cons _), bind_of_ok (ranged_padNat hd.1 hd.2 (by omega)),
    bind_of_ok (get_scan _)]
  simp only [true_or, ↓reduceIte]
  rw [bind_of_ok (t := (padNat 2 hh).toList ++ ':' :: ((padNat 2 mi).toList ++ ':' ::
      ((padNat 2 ss).toList ++ ((fractionText n).toList ++ ['Z'])))) rfl,
    bind_of_ok (ranged_padNat (Nat.zero_le hh) hh23 (by omega)), bind_of_ok (blanks_cons (by decide)),
    bind_of_ok (literal_cons _), bind_of_ok (ranged_padNat (Nat.zero_le mi) hmi (by omega)),
    bind_of_ok (blanks_cons (by decide)), bind_of_ok (literal_cons _),
    bind_of_ok (ranged_padNat (Nat.zero_le ss) hss (by omega)), bind_of_ok (fraction_text hn),
    bind_of_ok (blanks_cons (by decide)), bind_of_ok offset_utc]
  rfl

/-! ### The instant read back -/

/-- Seconds of an instant since the start of its day. -/
def Stamp.secOfDay (t : Stamp) : Nat := (t.secs - t.secs.fdiv 86400 * 86400).toNat

/-- The instant falls in a leap second. -/
def Stamp.leaps (t : Stamp) : Bool := t.nanos ≥ 1000000000

theorem daysInMonth_le_31 (y : Int) (m : Nat) : daysInMonth y m ≤ 31 := by
  unfold daysInMonth
  split_ifs <;> omega

theorem toList_text (t : Stamp) (hy0 : 0 ≤ t.year) (hy : t.year ≤ 9999) :
    t.text.toList = writtenFields t.year.toNat (civilFromDays (t.secs.fdiv 86400)).2.1
      (civilFromDays (t.secs.fdiv 86400)).2.2 (t.secOfDay / 3600) (t.secOfDay / 60 % 60)
      (t.secOfDay % 60 + if t.leaps then 1 else 0)
      (if t.leaps then t.nanos - 1000000000 else t.nanos) := by
  have hyear : yearText t.year = padNat 4 t.year.toNat := by simp [yearText, hy0, hy]
  simp only [Stamp.year] at hyear
  simp [Stamp.text, Stamp.localText, writtenFields, Stamp.secOfDay, Stamp.leaps, Stamp.year, hyear]

/-- The instant that date and time fields count up to; second 60 is the leap second that
follows second 59. -/
def fieldsStamp (y : Int) (m d hh mi ss n : Nat) : Stamp :=
  ⟨daysFromCivil y m d * 86400 + ((hh * 3600 + mi * 60 + (if ss = 60 then 59 else ss) : Nat) : Int),
    if ss = 60 then n + 1000000000 else n⟩

theorem parse_of_fields {text : String} {y : Int} {m d hh mi ss n : Nat}
    (hf : fields text.toList = .ok ((y, m, d, hh, mi, ss, n, 0), []))
    (hy : minYear ≤ y ∧ y ≤ maxYear) (hd : d ≤ daysInMonth y m)
    (hrange : minSecs ≤ (fieldsStamp y m d hh mi ss n).secs ∧
      (fieldsStamp y m d hh mi ss n).secs ≤ maxSecs) :
    Stamp.parse text = .ok (fieldsStamp y m d hh mi ss n) := by
  unfold Stamp.parse
  simp only [fieldsStamp] at hrange ⊢
  have hy' : ¬(y < minYear ∨ maxYear < y) := by omega
  have hd' : ¬(d > daysInMonth y m) := by omega
  rw [show StateT.run fields text.toList = _ from hf]
  simp only [bind, Except.bind]
  by_cases h60 : ss = 60 <;> simp only [h60, ↓reduceIte] at hrange ⊢ <;> push_cast at hrange <;>
    simp [hy', hd'] <;> rw [if_neg (by omega)] <;> rfl

/-- **Instants read back.** The text of an instant whose year is 0 to 9999 reads back as that
instant, to the nanosecond and leap seconds included. -/
theorem parse_text {t : Stamp} (h : t.Regular) : Stamp.parse t.text = .ok t := by
  obtain ⟨hy0, hy, hn⟩ := h
  have hmin : minSecs ≤ -1000000 * 86400 := by decide
  have hmax : 10000000 * 86400 + 86399 ≤ maxSecs := by decide
  -- the day of the instant, its date, and the second within the day
  have hday : t.secs.fdiv 86400 = t.secs / 86400 := Int.fdiv_eq_ediv_of_nonneg _ (by decide)
  have hsec : (t.secOfDay : Int) = t.secs % 86400 := by
    simp only [Stamp.secOfDay, hday]
    omega
  obtain ⟨hm1, hm12, hd1, hdm, hback⟩ := civilFromDays_valid (t.secs.fdiv 86400)
  have hd31 := hdm.trans (daysInMonth_le_31 _ _)
  have hyear : ((t.year.toNat : Nat) : Int) = (civilFromDays (t.secs.fdiv 86400)).1 := by
    simp only [Stamp.year] at hy0 ⊢
    omega
  have hbounds := daysFromCivil_bounds hy0 hy hm1 hm12 hd31
  simp only [Stamp.year] at hy0 hy hbounds
  rw [hback] at hbounds
  -- a leap second is written as second 60 with the nanoseconds past it
  have hss : t.secOfDay % 60 + (if t.leaps then 1 else 0) ≤ 60 := by
    unfold Stamp.leaps
    by_cases hl : t.nanos ≥ 1000000000 <;> simp [hl] <;> omega
  have hn9 : (if t.leaps then t.nanos - 1000000000 else t.nanos) < 10 ^ 9 := by
    unfold Stamp.leaps
    by_cases hl : t.nanos ≥ 1000000000 <;> simp [hl] <;> omega
  have hf := @fields_written t.year.toNat _ _ (t.secOfDay / 3600) (t.secOfDay / 60 % 60) _ _
    (by omega) ⟨hm1, hm12⟩ ⟨hd1, hd31⟩ (by omega) (by omega) hss hn9
  rw [← toList_text t hy0 hy, hyear] at hf
  have hsecs : daysFromCivil (civilFromDays (t.secs.fdiv 86400)).1 (civilFromDays (t.secs.fdiv 86400)).2.1
      (civilFromDays (t.secs.fdiv 86400)).2.2 * 86400 + (t.secOfDay : Int) = t.secs := by
    rw [hback, hday]
    omega
  have hsplit : t.secOfDay / 3600 * 3600 + t.secOfDay / 60 % 60 * 60 + t.secOfDay % 60 = t.secOfDay := by
    omega
  -- a leap second is written as second 60 and read back as second 59 and a second of nanoseconds
  cases hl : t.leaps with
  | false =>
    have hlt : t.nanos < 1000000000 := by simpa [Stamp.leaps] using hl
    have h60 : t.secOfDay % 60 ≠ 60 := by omega
    simp only [hl, Bool.false_eq_true, ↓reduceIte, Nat.add_zero] at hf
    rw [parse_of_fields hf ⟨by unfold minYear; omega, by unfold maxYear; omega⟩ hdm
      (by simp only [fieldsStamp, h60, ↓reduceIte, hsplit]; omega)]
    simp only [fieldsStamp, h60, ↓reduceIte, hsplit, hsecs]
  | true =>
    have hge : 1000000000 ≤ t.nanos := by simpa [Stamp.leaps] using hl
    have h59 : t.secOfDay % 60 = 59 := by omega
    simp only [hl, ↓reduceIte, h59] at hf
    rw [parse_of_fields hf ⟨by unfold minYear; omega, by unfold maxYear; omega⟩ hdm
      (by simp only [fieldsStamp, ↓reduceIte]; rw [← h59, hsplit]; omega)]
    simp only [fieldsStamp, ↓reduceIte]
    rw [← h59, hsplit, hsecs, Nat.sub_add_cancel hge]

end AgentDeck.Time
