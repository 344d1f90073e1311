import Mathlib
import AgentDeck.Proofs.Binary64.Rounding
import AgentDeck.Proofs.Json.Numerals

/-!
Reading back a written double.

A numeral stands for the exact rational `Numeral.magnitude`: its digits, point and exponent
taken at face value. The reader keeps at most the digits that fit in 64 bits and scales them
by a power of ten in rounded steps; what it keeps is never more than the numeral, so a
numeral whose magnitude leaves room below the largest double for the roundings is read as a
number and not refused as out of range (`Numeral.value_ok`). A negative exponent never
overflows.

A double is written by `Binary64.render` as its shortest decimal laid out in one of four
forms: digits and zeros then `.0`, digits with a point among them, `0.` and zeros before the
digits, or one digit, the others after a point, and a signed exponent. Each form spells a
numeral (`Numeral.ofLayout`) that a writer could have laid out (`Numeral.Written`) and whose
magnitude is the decimal's value, at most half a unit above the double. So the text of every
double of the format reads back as a number (`render_reads`); which double it is read as is
another matter, since the reader's steps each round.
-/

namespace AgentDeck.Json

open AgentDeck.Binary64

/-! ### The value of a list of digits -/

/-- The value of decimal digits, the most significant first. -/
def digitsValue (ds : List Nat) : Nat := Nat.ofDigits 10 ds.reverse

@[simp] theorem digitsValue_nil : digitsValue [] = 0 := rfl

theorem digitsValue_append (xs ys : List Nat) :
    digitsValue (xs ++ ys) = digitsValue xs * 10 ^ ys.length + digitsValue ys := by
  simp only [digitsValue, List.reverse_append, Nat.ofDigits_append, List.length_reverse]
  ring

theorem digitsValue_cons (d : Nat) (ds : List Nat) :
    digitsValue (d :: ds) = d * 10 ^ ds.length + digitsValue ds := by
  rw [← List.singleton_append, digitsValue_append]
  simp [digitsValue]

theorem digitsValue_lt {ds : List Nat} (h : ∀ d ∈ ds, d < 10) : digitsValue ds < 10 ^ ds.length := by
  rw [digitsValue, ← List.length_reverse]
  exact Nat.ofDigits_lt_base_pow_length (by decide) fun d hd => h d (List.mem_reverse.1 hd)

@[simp] theorem digitsValue_replicate_zero (k : Nat) : digitsValue (List.replicate k 0) = 0 := by
  induction k with
  | zero => rfl
  | succ k ih => rw [List.replicate_succ, digitsValue_cons, ih]; simp

theorem foldl_join (a : Nat) (ds : List Nat) :
    ds.foldl (fun a d => a * 10 + d) a = a * 10 ^ ds.length + digitsValue ds := by
  induction ds generalizing a with
  | nil => simp
  | cons d ds ih =>
    rw [List.foldl_cons, ih, digitsValue_cons, List.length_cons, Nat.pow_succ]
    ring

theorem pow_le_digitsValue {d : Nat} (hd : 0 < d) (ds : List Nat) :
    10 ^ ds.length ≤ digitsValue (d :: ds) := by
  rw [digitsValue_cons]
  calc 10 ^ ds.length = 1 * 10 ^ ds.length := (Nat.one_mul _).symm
    _ ≤ d * 10 ^ ds.length := Nat.mul_le_mul_right _ hd
    _ ≤ d * 10 ^ ds.length + digitsValue ds := Nat.le_add_right _ _

/-- The values of the decimal digits of `n`. -/
def digitValues (n : Nat) : List Nat := (Nat.toDigits 10 n).map fun ch => ch.toNat - 48

theorem digitsValue_digitValues (n : Nat) : digitsValue (digitValues n) = n := by
  conv_rhs => rw [← foldl_digits n]
  rw [foldl_join, Nat.zero_mul, Nat.zero_add]
  rfl

theorem digitValues_lt (n : Nat) : ∀ v ∈ digitValues n, v < 10 := by
  intro v hv
  obtain ⟨ch, hch, rfl⟩ := List.mem_map.1 hv
  have := toNat_of_isDigit (Nat.isDigit_of_mem_toDigits (by omega) (by omega) hch)
  omega

theorem digitValues_ne_nil (n : Nat) : digitValues n ≠ [] := by
  simp [digitValues, Nat.toDigits_ne_nil]

/-- The first digit of a positive number is not `0`. -/
theorem digitValues_head (n : Nat) (hn : 0 < n) :
    ∃ v vs, digitValues n = v :: vs ∧ 0 < v := by
  obtain ⟨ch, cs, hcs, hch⟩ := head_toDigits n hn
  have hd := toNat_of_isDigit (Nat.isDigit_of_mem_toDigits (by omega) (by omega)
    (hcs ▸ List.mem_cons_self : ch ∈ Nat.toDigits 10 n))
  have hne : ch.toNat ≠ 48 := fun he => hch (by rw [← Char.ofNat_toNat ch, he])
  exact ⟨ch.toNat - 48, _, by rw [digitValues, hcs, List.map_cons], by omega⟩

/-! ### What the reader keeps of a numeral -/

theorem absorb_split (sig : Nat) (ds : List Nat) :
    ∃ taken, ds = taken ++ (absorb sig ds).2 ∧
      (absorb sig ds).1 = taken.foldl (fun a d => a * 10 + d) sig := by
  induction ds generalizing sig with
  | nil => exact ⟨[], rfl, rfl⟩
  | cons d ds ih =>
    rw [absorb]
    split
    · obtain ⟨taken, h1, h2⟩ := ih (sig * 10 + d)
      exact ⟨d :: taken, by rw [List.cons_append, ← h1], h2⟩
    · exact ⟨[], rfl, rfl⟩

theorem absorb_le (sig : Nat) (ds : List Nat) :
    (absorb sig ds).1 * 10 ^ (absorb sig ds).2.length ≤ ds.foldl (fun a d => a * 10 + d) sig := by
  obtain ⟨taken, h1, h2⟩ := absorb_split sig ds
  conv_rhs => rw [h1]
  rw [List.foldl_append, foldl_join _ (absorb sig ds).2, h2]
  exact Nat.le_add_right _ _

theorem exponentValue_of_le (acc : Nat) (ds : List Nat)
    (h : ds.foldl (fun a d => a * 10 + d) acc ≤ i32Max) :
    exponentValue acc ds = .ok (ds.foldl (fun a d => a * 10 + d) acc) := by
  induction ds generalizing acc with
  | nil => rfl
  | cons d ds ih =>
    have hle := le_foldl_digits ds (acc * 10 + d)
    simp only [List.foldl_cons] at h ⊢
    rw [exponentValue, if_pos (by omega), ih _ h]

theorem exponentValue_ok {acc v : Nat} {ds : List Nat} (h : exponentValue acc ds = .ok v) :
    v = ds.foldl (fun a d => a * 10 + d) acc := by
  induction ds generalizing acc with
  | nil => cases h; rfl
  | cons d ds ih =>
    rw [exponentValue] at h
    split at h
    · exact ih h
    · cases h

theorem exponentValue_zero {ds : List Nat} {v : Nat} (h : exponentValue 0 ds = .ok v) :
    v = digitsValue ds := by
  rw [exponentValue_ok h, foldl_join, Nat.zero_mul, Nat.zero_add]

theorem exponentValue_error {ds : List Nat} {unread : Nat} {neg : Bool}
    (he : neg = false → digitsValue ds ≤ i32Max) (h : exponentValue 0 ds = .error unread) :
    neg = true := by
  cases neg with
  | true => rfl
  | false =>
    have hle : ds.foldl (fun a d => a * 10 + d) 0 ≤ i32Max := by
      simpa [foldl_join] using he rfl
    rw [exponentValue_of_le 0 ds hle] at h
    cases h

theorem clampI32_le {x : Int} (h : 0 ≤ clampI32 x) : clampI32 x ≤ x := by
  unfold clampI32 at h ⊢
  simp only [Int.pow_eq] at h ⊢
  omega

theorem scaleByPow10_of_neg (x : Binary64) {e : Int} (he : e < 0) (fuel : Nat) :
    ∃ f, scaleByPow10 x e fuel = some f := by
  induction fuel generalizing x e with
  | zero => exact ⟨x, rfl⟩
  | succ fuel ih =>
    rw [scaleByPow10]
    split
    · exact ⟨_, by rw [if_neg (by omega)]⟩
    · split
      · exact ⟨x, rfl⟩
      · rw [if_neg (by omega)]
        exact ih _ (by omega)

theorem maxValue_lt_pow10 : (2 ^ 53 - 7 / 2 : ℚ) * 2 ^ (971 : Int) < 10 ^ 309 := by
  have h : (((2 ^ 53 - 1) * 2 ^ 971 : ℕ) : ℚ) < ((10 ^ 309 : ℕ) : ℚ) := by
    exact_mod_cast (by decide +kernel : (2 ^ 53 - 1) * 2 ^ 971 < 10 ^ 309)
  rw [maxValue_cast, Nat.cast_pow, Nat.cast_ofNat] at h
  calc (2 ^ 53 - 7 / 2 : ℚ) * 2 ^ (971 : Int) ≤ (2 ^ 53 - 1) * 2 ^ (971 : Int) :=
        mul_le_mul_of_nonneg_right (by norm_num) (by positivity)
    _ < 10 ^ 309 := h

theorem scaleByPow10_ok (sig : Nat) {e : Int}
    (h : 0 ≤ e → (sig : ℚ) * 10 ^ e ≤ (2 ^ 53 - 7 / 2) * 2 ^ (971 : Int)) :
    ∃ f, scaleByPow10 (Binary64.ofNat sig) e 3 = some f := by
  rcases lt_or_ge e 0 with hneg | hnn
  · exact scaleByPow10_of_neg _ hneg 3
  have hq := h hnn
  rcases Nat.eq_zero_or_pos sig with rfl | hs
  · -- a zero significand scales to a zero, however far
    rw [scaleByPow10]
    split
    · obtain ⟨b, eb, hb, -⟩ := one_le_pow10 (k := e.natAbs) (by omega)
      simp only [hb, ofNat_zero_mul]
      exact ⟨_, rfl⟩
    · exact ⟨_, by rw [if_pos (by decide)]⟩
  -- a positive significand bounds the power: `10^e ≤ sig * 10^e` stays below `10^309`
  have hle : e ≤ 308 := by
    by_contra hgt
    have h1 : (10 : ℚ) ^ (309 : ℕ) ≤ 10 ^ e := by
      rw [← zpow_natCast]
      exact zpow_le_zpow_right₀ (by norm_num) (by omega)
    have h2 : (10 : ℚ) ^ e ≤ sig * 10 ^ e := le_mul_of_one_le_left (by positivity) (by exact_mod_cast hs)
    exact absurd (h1.trans (h2.trans hq)) (not_le.2 maxValue_lt_pow10)
  have hk : (sig : ℚ) * 10 ^ e.natAbs ≤ (2 ^ 53 - 7 / 2) * 2 ^ (971 : Int) := by
    rwa [← zpow_natCast, Int.natCast_natAbs, abs_of_nonneg hnn]
  obtain ⟨m, f, hmf⟩ := ofNat_mul_pow10_finite (by omega) hk
  rw [scaleByPow10, if_pos (by omega), if_pos hnn]
  exact ⟨_, by rw [hmf]; rfl⟩

theorem scaleByPow10_clamp_ok {sig : Nat} {x : Int} {q : ℚ} (hk : (sig : ℚ) * 10 ^ x ≤ q)
    (hq : q ≤ (2 ^ 53 - 7 / 2) * 2 ^ (971 : Int)) :
    ∃ f, scaleByPow10 (Binary64.ofNat sig) (clampI32 x) 3 = some f := by
  refine scaleByPow10_ok sig fun hc => ?_
  calc (sig : ℚ) * 10 ^ clampI32 x ≤ sig * 10 ^ x :=
        mul_le_mul_of_nonneg_left (zpow_le_zpow_right₀ (by norm_num) (clampI32_le hc))
          (Nat.cast_nonneg _)
    _ ≤ q := hk
    _ ≤ _ := hq

theorem shift_le {a b : ℚ} {e n : Int} (h : a * 10 ^ e ≤ b * 10 ^ (-n)) (x : Int) :
    a * 10 ^ (e + x) ≤ b * 10 ^ (x + -n) := by
  rw [zpow_add₀ (by norm_num), zpow_add₀ (by norm_num), ← mul_assoc, mul_comm (10 ^ x : ℚ),
    ← mul_assoc]
  exact mul_le_mul_of_nonneg_right h (by positivity)

/-! ### The magnitude of a numeral -/

/-- The power of ten a numeral's exponent stands for. -/
def Numeral.power (p : Numeral) : Int :=
  match p.exponent with
  | none => 0
  | some (neg, ds) => if neg then -(digitsValue ds : Int) else digitsValue ds

/-- The exact value a numeral's text stands for, its sign apart. -/
def Numeral.magnitude (p : Numeral) : ℚ :=
  digitsValue (p.whole ++ p.fraction.getD []) * 10 ^ (p.power - (p.fraction.getD []).length)

theorem absorb_fraction_le (whole fs : List Nat) :
    ((absorb (digitsValue whole) fs).1 : ℚ) *
        10 ^ ((0 : Int) - ((fs.length - (absorb (digitsValue whole) fs).2.length : Nat) : Int)) ≤
      digitsValue (whole ++ fs) * 10 ^ (-(fs.length : Int)) := by
  obtain ⟨taken, h1, -⟩ := absorb_split (digitsValue whole) fs
  have hlen : (absorb (digitsValue whole) fs).2.length ≤ fs.length := by
    conv_rhs => rw [h1]
    simp
  have hle := absorb_le (digitsValue whole) fs
  rw [foldl_join, ← digitsValue_append] at hle
  have hle' : ((absorb (digitsValue whole) fs).1 : ℚ) * 10 ^ (absorb (digitsValue whole) fs).2.length ≤
      digitsValue (whole ++ fs) := by exact_mod_cast hle
  have hexp : (0 : Int) - ((fs.length - (absorb (digitsValue whole) fs).2.length : Nat) : Int) =
      ((absorb (digitsValue whole) fs).2.length : Int) + -(fs.length : Int) := by omega
  rw [hexp, zpow_add₀ (by norm_num), zpow_natCast, ← mul_assoc]
  exact mul_le_mul_of_nonneg_right hle' (by positivity)

/-- **No overflow on reading.** A numeral whose whole digits fit in 64 bits, whose positive
exponent fits in 32, and whose magnitude leaves room below the largest double for the
roundings is read as a number. -/
theorem Numeral.value_ok {p : Numeral} (hw : digitsValue p.whole ≤ u64Max)
    (he : ∀ ex ∈ p.exponent, ex.1 = false → digitsValue ex.2 ≤ i32Max)
    (hq : p.magnitude ≤ (2 ^ 53 - 7 / 2) * 2 ^ (971 : Int)) :
    ∃ v, p.value = .ok v := by
  obtain ⟨negative, whole, fraction, exponent⟩ := p
  have hwa : absorb 0 whole = (digitsValue whole, []) := by
    rw [absorb_of_le _ _ (by rw [foldl_join]; simpa using hw), foldl_join]
    simp
  cases fraction with
  | none =>
    cases exponent with
    | none =>
      -- an integer: read as a natural, a negative or a double, never refused
      simp only [Numeral.value, hwa, Option.isNone_none, List.isEmpty_nil, and_self, if_true]
      split_ifs <;> exact ⟨_, rfl⟩
    | some ex =>
      obtain ⟨neg, ds⟩ := ex
      simp only [Numeral.value, hwa, List.length_nil, Nat.cast_zero]
      split
      · rename_i v hev
        obtain rfl := exponentValue_zero hev
        have hk : (digitsValue whole : ℚ) *
            10 ^ (if neg = true then (0 : Int) - digitsValue ds else 0 + digitsValue ds) ≤
            Numeral.magnitude ⟨negative, whole, none, some (neg, ds)⟩ := by
          simp only [Numeral.magnitude, Numeral.power, Option.getD_none, List.append_nil,
            List.length_nil, Nat.cast_zero, sub_zero]
          split_ifs <;> simp
        obtain ⟨f, hf⟩ := scaleByPow10_clamp_ok hk hq
        rw [hf]
        exact ⟨_, rfl⟩
      · rename_i unread hev
        -- only a negative exponent can be cut short, and it makes the number zero
        obtain rfl := exponentValue_error (he _ rfl) hev
        exact ⟨_, if_neg (by simp)⟩
  | some fs =>
    have hfr := absorb_fraction_le whole fs
    cases exponent with
    | none =>
      simp only [Numeral.value, hwa, List.length_nil, Nat.cast_zero]
      obtain ⟨f, hf⟩ := scaleByPow10_ok (absorb (digitsValue whole) fs).1 fun _ =>
        hfr.trans (by simpa [Numeral.magnitude, Numeral.power] using hq)
      rw [hf]
      exact ⟨_, rfl⟩
    | some ex =>
      obtain ⟨neg, ds⟩ := ex
      simp only [Numeral.value, hwa, List.length_nil, Nat.cast_zero]
      split
      · rename_i v hev
        obtain rfl := exponentValue_zero hev
        have hk : ((absorb (digitsValue whole) fs).1 : ℚ) *
            10 ^ (if neg = true then
                (0 : Int) - ((fs.length - (absorb (digitsValue whole) fs).2.length : Nat) : Int) -
                  digitsValue ds
              else (0 : Int) - ((fs.length - (absorb (digitsValue whole) fs).2.length : Nat) : Int) +
                  digitsValue ds) ≤
            Numeral.magnitude ⟨negative, whole, some fs, some (neg, ds)⟩ := by
          simp only [Numeral.magnitude, Numeral.power, Option.getD_some]
          split_ifs
          · simpa only [← sub_eq_add_neg] using shift_le hfr (-(digitsValue ds : Int))
          · simpa only [← sub_eq_add_neg] using shift_le hfr (digitsValue ds : Int)
        obtain ⟨f, hf⟩ := scaleByPow10_clamp_ok hk hq
        rw [hf]
        exact ⟨_, rfl⟩
      · rename_i unread hev
        -- only a negative exponent can be cut short, and it makes the number zero
        obtain rfl := exponentValue_error (he _ rfl) hev
        exact ⟨_, if_neg (by simp)⟩

/-! ### The layouts of a double -/

theorem octets_ofList_digits {cs : List Char} (h : ∀ ch ∈ cs, ch.isDigit = true) :
    octets (String.ofList cs) = (cs.map fun ch => ch.toNat - 48).map digitOctet := by
  rw [octets, String.toList_ofList, flatMap_utf8EncodeChar_ascii cs fun ch hch => by
    have := toNat_of_isDigit (h ch hch); omega, List.map_map]
  refine List.map_congr_left fun ch hch => ?_
  have := toNat_of_isDigit (h ch hch)
  simp [digitOctet, Nat.sub_add_cancel this.1]

theorem isDigit_of_mem_toDigits {n : Nat} : ∀ ch ∈ Nat.toDigits 10 n, ch.isDigit = true :=
  fun _ h => Nat.isDigit_of_mem_toDigits (by omega) (by omega) h

theorem octets_digitText (n : Nat) :
    octets (Binary64.digitText n) = (digitValues n).map digitOctet :=
  octets_ofList_digits isDigit_of_mem_toDigits

theorem octets_zeros (k : Nat) :
    octets (String.ofList (List.replicate k '0')) = (List.replicate k 0).map digitOctet := by
  rw [octets_ofList_digits fun ch hch => by rw [List.eq_of_mem_replicate hch]; rfl,
    List.map_replicate]
  rfl

theorem octets_take_digits (n w : Nat) :
    octets (String.ofList ((Nat.toDigits 10 n).take w)) = ((digitValues n).take w).map digitOctet := by
  rw [octets_ofList_digits fun ch hch => isDigit_of_mem_toDigits ch (List.mem_of_mem_take hch),
    List.map_take]
  rfl

theorem octets_drop_digits (n w : Nat) :
    octets (String.ofList ((Nat.toDigits 10 n).drop w)) = ((digitValues n).drop w).map digitOctet := by
  rw [octets_ofList_digits fun ch hch => isDigit_of_mem_toDigits ch (List.mem_of_mem_drop hch),
    List.map_drop]
  rfl

/-- The numeral `layout numberStyle` spells for the decimal `d`, after the sign: digits and
zeros then `.0`, digits with a point among them, `0.` and zeros before the digits, or one
digit, the others after a point, and a signed exponent. -/
def Numeral.ofLayout (negative : Bool) (d : Decimal) : Numeral :=
  let ds := digitValues d.digits
  let lead : Int := d.exp + ds.length - 1
  if -5 ≤ lead ∧ lead < 16 then
    if 0 ≤ d.exp then ⟨negative, ds ++ List.replicate d.exp.toNat 0, some [0], none⟩
    else if 0 ≤ lead then
      ⟨negative, ds.take (lead + 1).toNat, some (ds.drop (lead + 1).toNat), none⟩
    else ⟨negative, [0], some (List.replicate (-lead - 1).toNat 0 ++ ds), none⟩
  else
    ⟨negative, ds.take 1, if ds.drop 1 = [] then none else some (ds.drop 1),
      some (decide (lead < 0), digitValues lead.natAbs)⟩

theorem octets_layout (negative : Bool) (d : Decimal) :
    octets (Binary64.layout numberStyle d) = (Numeral.ofLayout negative d).octets := by
  have hlen : (Binary64.digitText d.digits).length = (digitValues d.digits).length := by
    simp [Binary64.digitText, digitValues]
  have htext : (Binary64.digitText d.digits).toList = Nat.toDigits 10 d.digits :=
    String.toList_ofList
  simp only [Binary64.layout, Numeral.ofLayout, numberStyle, hlen]
  by_cases hplain : -5 ≤ d.exp + ((digitValues d.digits).length : Int) - 1 ∧
      d.exp + ((digitValues d.digits).length : Int) - 1 < 16
  · rw [if_pos hplain, if_pos hplain]
    split_ifs with hexp hlead
    · -- digits and zeros, then `.0`
      have hpz : octets ".0" = [46, digitOctet 0] := by decide
      simp [Numeral.octets, fractionOctets, exponentOctets, octets_digitText, octets_zeros, hpz]
    · -- a point among the digits
      have hp : octets "." = [46] := by decide
      rw [htext, octets_append, octets_append, octets_take_digits, octets_drop_digits, hp]
      simp [Numeral.octets, fractionOctets, exponentOctets]
    · -- zeros after `0.`, then the digits
      have hzp : octets "0." = [digitOctet 0, 46] := by decide
      simp [Numeral.octets, fractionOctets, exponentOctets, octets_digitText, octets_zeros, hzp]
  · -- one digit, the others after a point, and a signed exponent
    rw [if_neg hplain, if_neg hplain, htext]
    simp only [↓reduceIte]
    generalize d.exp + ((digitValues d.digits).length : Int) - 1 = lead
    obtain ⟨c, cs, hcs⟩ : ∃ c cs, Nat.toDigits 10 d.digits = c :: cs := by
      cases h : Nat.toDigits 10 d.digits with
      | nil => exact absurd h Nat.toDigits_ne_nil
      | cons c cs => exact ⟨c, cs, rfl⟩
    have hdig : ∀ ch ∈ c :: cs, ch.isDigit = true := hcs ▸ isDigit_of_mem_toDigits
    have hvals : digitValues d.digits = (c :: cs).map fun ch => ch.toNat - 48 := by
      rw [digitValues, hcs]
    have hc : octets (String.singleton c) = [digitOctet (c.toNat - 48)] := by
      have h1 : octets (String.singleton c) = octets (String.ofList [c]) := by
        simp only [octets, String.toList_singleton, String.toList_ofList]
      rw [h1, octets_ofList_digits fun ch hch => hdig ch (by simp_all)]
      rfl
    have hsign : octets (if lead < 0 then "-" else "+") =
        [if decide (lead < 0) = true then 45 else 43] := by
      by_cases h : lead < 0 <;> simp [h] <;> decide
    have he : octets "e" = [101] := by decide
    rw [hcs, hvals]
    cases cs with
    | nil =>
      simp only [List.isEmpty_nil, if_true]
      rw [octets_append, octets_append, octets_append, hc, he, hsign, octets_digitText]
      simp [Numeral.octets, fractionOctets, exponentOctets]
    | cons c' cs =>
      have hpt : octets (String.ofList (c :: '.' :: c' :: cs)) =
          digitOctet (c.toNat - 48) :: 46 :: ((c' :: cs).map fun ch => ch.toNat - 48).map digitOctet := by
        rw [show c :: '.' :: c' :: cs = [c] ++ ['.'] ++ (c' :: cs) from rfl, String.ofList_append,
          String.ofList_append, octets_append, octets_append,
          octets_ofList_digits fun ch hch => hdig ch (by simp_all),
          octets_ofList_digits fun ch hch => hdig ch (List.mem_cons_of_mem _ hch)]
        rfl
      simp only [List.isEmpty_cons, Bool.false_eq_true, if_false]
      rw [octets_append, octets_append, octets_append, hpt, he, hsign, octets_digitText]
      simp [Numeral.octets, fractionOctets, exponentOctets]

theorem digitValues_facts {n : Nat} (hn : 0 < n) :
    ∃ v vs, digitValues n = v :: vs ∧ 0 < v ∧ ∀ x ∈ digitValues n, x < 10 := by
  obtain ⟨v, vs, h, hv⟩ := digitValues_head n hn
  exact ⟨v, vs, h, hv, digitValues_lt n⟩

theorem written_ofLayout (negative : Bool) {d : Decimal} (hd : 0 < d.digits) :
    (Numeral.ofLayout negative d).Written := by
  obtain ⟨v, vs, hvals, hv, hlt⟩ := digitValues_facts hd
  have hlen : (digitValues d.digits).length = vs.length + 1 := by rw [hvals]; rfl
  simp only [Numeral.ofLayout]
  rw [hlen]
  rw [hvals] at hlt ⊢
  split_ifs with hplain hexp hlead hdrop
  · -- digits and zeros, then `.0`
    refine ⟨⟨by simp, fun x hx => ?_⟩, by simp; omega, by simp, by simp⟩
    rcases List.mem_append.1 hx with hx | hx
    · exact hlt x hx
    · rw [List.eq_of_mem_replicate hx]; omega
  · -- a point among the digits, at least one digit before it and one after
    refine ⟨⟨by simp; omega, fun x hx => hlt x (List.mem_of_mem_take hx)⟩, ?_, ?_, by simp⟩
    · rw [List.head?_take, if_neg (by omega)]
      simp; omega
    · simp only [Option.mem_def, Option.some.injEq, forall_eq', ne_eq, List.drop_eq_nil_iff,
        List.length_cons]
      exact ⟨by omega, fun x hx => hlt x (List.mem_of_mem_drop hx)⟩
  · -- `0.`, zeros, then the digits
    refine ⟨⟨by simp, by simp⟩, by simp, ?_, by simp⟩
    simp only [Option.mem_def, Option.some.injEq, forall_eq', ne_eq, List.append_eq_nil_iff,
      List.replicate_eq_nil_iff, reduceCtorEq, and_false, not_false_eq_true, true_and]
    intro x hx
    rcases List.mem_append.1 hx with hx | hx
    · rw [List.eq_of_mem_replicate hx]; omega
    · exact hlt x hx
  · -- one digit and the exponent
    refine ⟨⟨by simp, by simpa using hlt v List.mem_cons_self⟩, by simp, by simp, ?_⟩
    simp only [Option.mem_def, Option.some.injEq, forall_eq']
    exact ⟨digitValues_ne_nil _, digitValues_lt _⟩
  · -- one digit, the others after the point, and the exponent
    refine ⟨⟨by simp, by simpa using hlt v List.mem_cons_self⟩, by simp, ?_, ?_⟩
    · simp only [Option.mem_def, Option.some.injEq, forall_eq']
      exact ⟨hdrop, fun x hx => hlt x (List.mem_of_mem_drop hx)⟩
    · simp only [Option.mem_def, Option.some.injEq, forall_eq']
      exact ⟨digitValues_ne_nil _, digitValues_lt _⟩

theorem Numeral.magnitude_eq {p : Numeral} {n : Nat} {e : Int}
    (hv : digitsValue (p.whole ++ p.fraction.getD []) = n)
    (he : p.power - (p.fraction.getD []).length = e) : p.magnitude = n * 10 ^ e := by
  rw [Numeral.magnitude, hv, he]

theorem signed_digitValues (x : Int) :
    (if decide (x < 0) = true then -(digitsValue (digitValues x.natAbs) : Int)
      else digitsValue (digitValues x.natAbs)) = x := by
  rw [digitsValue_digitValues]
  split
  · rename_i h
    simp only [decide_eq_true_eq] at h
    omega
  · rename_i h
    simp only [decide_eq_true_eq] at h
    omega

theorem magnitude_ofLayout (negative : Bool) (d : Decimal) :
    (Numeral.ofLayout negative d).magnitude = d.digits * 10 ^ d.exp := by
  have hD := digitsValue_digitValues d.digits
  have hpos : 0 < (digitValues d.digits).length :=
    List.length_pos_of_ne_nil (digitValues_ne_nil d.digits)
  have hsplit : digitsValue ((digitValues d.digits).take 1 ++ (digitValues d.digits).drop 1) =
      d.digits := by rw [List.take_append_drop, hD]
  simp only [Numeral.ofLayout]
  split_ifs with hplain hexp hlead hdrop
  · -- digits and zeros, then `.0`: one place more than the zeros, one after the point
    have h1 : digitsValue ((digitValues d.digits ++ List.replicate d.exp.toNat 0) ++ [0]) =
        d.digits * 10 ^ (d.exp.toNat + 1) := by
      rw [digitsValue_append, digitsValue_append, hD, digitsValue_replicate_zero]
      simp [Nat.pow_succ, Nat.mul_assoc, digitsValue_cons]
    rw [Numeral.magnitude_eq (n := d.digits * 10 ^ (d.exp.toNat + 1)) (e := -1) (by simpa using h1)
      (by simp [Numeral.power])]
    have hk : d.exp = ((d.exp.toNat + 1 : ℕ) : Int) + -1 := by omega
    conv_rhs => rw [hk, zpow_add₀ (by norm_num), zpow_natCast]
    push_cast
    ring
  · -- a point among the digits
    rw [Numeral.magnitude_eq (n := d.digits) (e := d.exp)
      (by simpa [List.take_append_drop] using hD)
      (by simp [Numeral.power]; omega)]
  · -- `0.` and zeros before the digits
    rw [Numeral.magnitude_eq (n := d.digits) (e := d.exp)
      (by simp [digitsValue_append, digitsValue_cons, hD])
      (by simp [Numeral.power]; omega)]
  · -- one digit and the exponent
    have hfr : (none : Option (List Nat)).getD [] = (digitValues d.digits).drop 1 := hdrop.symm
    have he : Numeral.power ⟨negative, (digitValues d.digits).take 1, none,
        some (decide (d.exp + ((digitValues d.digits).length : Int) - 1 < 0),
          digitValues (d.exp + ((digitValues d.digits).length : Int) - 1).natAbs)⟩ =
        d.exp + ((digitValues d.digits).length : Int) - 1 := signed_digitValues _
    rw [Numeral.magnitude_eq (n := d.digits) (e := d.exp) (by rw [hfr]; exact hsplit)
      (by rw [he, hfr, List.length_drop]; omega)]
  · -- one digit, the others after the point, and the exponent
    have he : Numeral.power ⟨negative, (digitValues d.digits).take 1,
        some ((digitValues d.digits).drop 1),
        some (decide (d.exp + ((digitValues d.digits).length : Int) - 1 < 0),
          digitValues (d.exp + ((digitValues d.digits).length : Int) - 1).natAbs)⟩ =
        d.exp + ((digitValues d.digits).length : Int) - 1 := signed_digitValues _
    rw [Numeral.magnitude_eq (n := d.digits) (e := d.exp) hsplit
      (by rw [he, Option.getD_some, List.length_drop]; omega)]

theorem whole_ofLayout_le (negative : Bool) (d : Decimal) :
    digitsValue (Numeral.ofLayout negative d).whole ≤ u64Max := by
  have hlt := digitValues_lt d.digits
  -- the whole digits: at most sixteen, each below ten
  obtain ⟨hlen, hdig⟩ : (Numeral.ofLayout negative d).whole.length ≤ 16 ∧
      ∀ x ∈ (Numeral.ofLayout negative d).whole, x < 10 := by
    simp only [Numeral.ofLayout]
    split_ifs with hplain hexp hlead
    · refine ⟨by simp; omega, fun x hx => ?_⟩
      rcases List.mem_append.1 hx with hx | hx
      · exact hlt x hx
      · rw [List.eq_of_mem_replicate hx]; omega
    · exact ⟨by simp; omega, fun x hx => hlt x (List.mem_of_mem_take hx)⟩
    · exact ⟨by simp, by simp⟩
    all_goals exact ⟨by simp, fun x hx => hlt x (List.mem_of_mem_take hx)⟩
  refine le_of_lt ?_
  calc digitsValue (Numeral.ofLayout negative d).whole
      < 10 ^ (Numeral.ofLayout negative d).whole.length := digitsValue_lt hdig
    _ ≤ 10 ^ 16 := Nat.pow_le_pow_right (by decide) hlen
    _ ≤ u64Max := by decide

theorem lead_le {d : Decimal} (hd : 0 < d.digits) (hq : (d.digits : ℚ) * 10 ^ d.exp < 10 ^ 309) :
    d.exp + ((digitValues d.digits).length : Int) - 1 ≤ 308 := by
  obtain ⟨v, vs, hvals, hv, -⟩ := digitValues_facts hd
  have hlow : 10 ^ vs.length ≤ d.digits := by
    rw [← digitsValue_digitValues d.digits, hvals]
    exact pow_le_digitsValue hv vs
  rw [hvals, List.length_cons]
  by_contra hgt
  -- `10^lead ≤ digits * 10^exp`, and `lead ≥ 309`
  have h1 : (10 : ℚ) ^ (309 : ℕ) ≤ 10 ^ ((vs.length : Int) + d.exp) := by
    rw [← zpow_natCast]
    exact zpow_le_zpow_right₀ (by norm_num) (by push_cast at hgt ⊢; omega)
  have h2 : (10 : ℚ) ^ ((vs.length : Int) + d.exp) ≤ d.digits * 10 ^ d.exp := by
    rw [zpow_add₀ (by norm_num), zpow_natCast]
    exact mul_le_mul_of_nonneg_right (by exact_mod_cast hlow) (by positivity)
  exact absurd (h1.trans h2) (not_le.2 hq)

/-- **A laid-out positive decimal no larger than the room below the largest double reads as
a number.** -/
theorem value_ofLayout (negative : Bool) {d : Decimal} (hd : 0 < d.digits)
    (hq : (d.digits : ℚ) * 10 ^ d.exp ≤ (2 ^ 53 - 7 / 2) * 2 ^ (971 : Int)) :
    ∃ v, (Numeral.ofLayout negative d).value = .ok v := by
  have hlead := lead_le hd (hq.trans_lt maxValue_lt_pow10)
  refine Numeral.value_ok (whole_ofLayout_le negative d) ?_ (by rwa [magnitude_ofLayout])
  -- only the exponent form has an exponent; a positive one is the leading digit's place
  simp only [Numeral.ofLayout]
  split_ifs
  all_goals simp only [Option.mem_def, reduceCtorEq, IsEmpty.forall_iff, implies_true,
    Option.some.injEq, forall_eq', decide_eq_false_iff_not, not_lt]
  all_goals
    intro hnn
    rw [digitsValue_digitValues]
    simp only [i32Max, Nat.pow_eq]
    omega

/-! ### The text of a double -/

theorem readsBack_pos {m : Nat} {e : Int} {d : Decimal} (hm : 0 < m) (h : readsBack m e d = true) :
    0 < d.digits := by
  rcases Nat.eq_zero_or_pos d.digits with h0 | h0
  · -- a zero lies below the lower end, which is positive
    have hlo : 0 < (if (m == Nat.pow 2 52 && decide (e > minExp)) = true then 4 * m - 1 else 4 * m - 2) := by
      split <;> omega
    have hlt : ∀ lo : Nat, 0 < lo → cmpScaled d.digits d.exp lo (e - 2) = .lt := by
      intro lo hlo
      simp only [cmpScaled, h0, Nat.zero_mul]
      exact Nat.compare_eq_lt.2 (Nat.mul_pos (Nat.mul_pos hlo (Nat.pow_pos (by decide)))
        (Nat.pow_pos (by decide)))
    simp only [readsBack, hlt _ hlo] at h
    simp at h
  · exact h0

theorem strip_go_pos {digits : Nat} (exp : Int) (fuel : Nat) (h : 0 < digits) :
    0 < (Decimal.strip.go digits exp fuel).digits := by
  induction fuel generalizing digits exp with
  | zero => exact h
  | succ fuel ih =>
    simp only [Decimal.strip.go]
    split
    · rename_i hz
      exact ih _ (Nat.div_pos (by omega) (by decide))
    · exact h

theorem shortest_pos (tie : Tie) {m : Nat} (e : Int) (hm : 0 < m) :
    0 < (shortest tie m e).digits := by
  unfold shortest
  dsimp only
  split
  · rename_i d hd
    obtain ⟨i, -, hi⟩ := List.exists_of_findSome?_eq_some hd
    exact strip_go_pos _ _ (readsBack_pos hm (readsBack_of_pick hi))
  · apply strip_go_pos
    simp only [ratio, Nat.pow_eq]
    split
    · rename_i he
      have : 0 < m * 2 ^ e.toNat := Nat.mul_pos hm (Nat.pow_pos (by decide))
      simp only [show (-e).toNat = 0 by omega, pow_zero, Nat.mul_one, Nat.div_one]
      exact this
    · rename_i he
      -- `m * 10^k / 2^k` is at least `m`
      apply Nat.div_pos _ (Nat.pow_pos (by decide))
      calc 2 ^ (-e).toNat ≤ 10 ^ (-e).toNat := Nat.pow_le_pow_left (by decide) _
        _ ≤ m * 10 ^ (-e).toNat := Nat.le_mul_of_pos_left _ hm

theorem half_above_le {m : Nat} {e : Int} (hm : m < 2 ^ 53) (he : e ≤ 971)
    (htop : ¬(e = 971 ∧ 2 ^ 53 - 3 ≤ m)) :
    ((m : ℚ) + 1 / 2) * 2 ^ e ≤ (2 ^ 53 - 7 / 2) * 2 ^ (971 : Int) := by
  have hm' : (m : ℚ) + 1 ≤ 2 ^ 53 := by exact_mod_cast hm
  rcases lt_or_eq_of_le he with hlt | rfl
  · -- a lower binade: at most `2^53 * 2^970`, half the top of the range
    calc ((m : ℚ) + 1 / 2) * 2 ^ e ≤ 2 ^ 53 * 2 ^ (970 : Int) :=
          mul_le_mul (by linarith) (zpow_le_zpow_right₀ one_le_two (by omega)) (by positivity)
            (by positivity)
      _ = 2 ^ 52 * 2 ^ (971 : Int) := by
          rw [show (971 : Int) = 970 + 1 by norm_num, zpow_add_one₀ two_ne_zero]
          ring
      _ ≤ (2 ^ 53 - 7 / 2) * 2 ^ (971 : Int) :=
          mul_le_mul_of_nonneg_right (by norm_num) (by positivity)
  · have hm4 : (m : ℚ) + 4 ≤ 2 ^ 53 := by exact_mod_cast (show m + 4 ≤ 2 ^ 53 by omega)
    exact mul_le_mul_of_nonneg_right (by linarith) (by positivity)

theorem value_ofLayout_top : ∀ j < 3, ∀ s : Bool,
    (Numeral.value (Numeral.ofLayout s (shortest .toEven (2 ^ 53 - 3 + j) 971))).toBool = true := by
  decide +kernel

theorem ofLayout_zero (s : Bool) : Numeral.ofLayout s ⟨0, 0⟩ = ⟨s, [0], some [0], none⟩ := by
  cases s <;> rfl

theorem exists_ok_of_toBool {ε α : Type} {r : Except ε α} (h : r.toBool = true) :
    ∃ v, r = .ok v := by
  cases r with
  | error e => cases h
  | ok v => exact ⟨v, rfl⟩

/-- The numeral the text of a double spells after its sign: zero as `0.0`, anything else as its
shortest decimal laid out. -/
def renderNumeral : Binary64 → Numeral
  | .finite s m e => Numeral.ofLayout s (if m = 0 then ⟨0, 0⟩ else shortest .toEven m e)
  | _ => ⟨false, [0], none, none⟩

/-- **The text of every double of the format is a sign and a written numeral that the reader
values**: zero as `0.0`, anything else as its shortest decimal laid out. -/
theorem render_numeral {x : Binary64} (hx : x.Valid) :
    ∃ v : Number, octets (Binary64.render numberStyle x) =
        (if (renderNumeral x).negative then [45] else []) ++ (renderNumeral x).octets ∧
      (renderNumeral x).Written ∧ (renderNumeral x).value = .ok v := by
  obtain ⟨s, m, e⟩ | ⟨s⟩ | - := x
  · obtain ⟨hm, he⟩ := hx
    have hsign : octets (if s = true then "-" else "") = if s = true then [45] else [] := by
      cases s <;> decide
    -- the sign, then the layout of the decimal chosen for the mantissa
    have htext : ∀ d : Decimal, octets ((if s = true then "-" else "") ++ Binary64.layout numberStyle d) =
        (if (Numeral.ofLayout s d).negative = true then [45] else []) ++ (Numeral.ofLayout s d).octets := by
      intro d
      rw [octets_append, hsign, octets_layout s d]
      simp only [Numeral.ofLayout]
      split_ifs <;> rfl
    simp only [Binary64.render, renderNumeral]
    by_cases hm0 : m = 0
    · -- zero is written `0.0`
      simp only [if_pos hm0]
      rw [ofLayout_zero]
      refine exists_ok_of_toBool ?_ |>.imp fun v hv => ⟨?_, ⟨⟨by simp, by simp⟩, by simp, by simp, by simp⟩, hv⟩
      · cases s <;> decide
      · rw [← ofLayout_zero s]
        exact htext ⟨0, 0⟩
    · simp only [if_neg hm0]
      have hpos := shortest_pos .toEven e (Nat.pos_of_ne_zero hm0)
      have hv : ∃ v, (Numeral.ofLayout s (shortest .toEven m e)).value = .ok v := by
        by_cases htop : e = 971 ∧ 2 ^ 53 - 3 ≤ m
        · -- the three largest mantissas of the top binade, checked one by one
          obtain ⟨rfl, hge⟩ := htop
          obtain ⟨j, hj, rfl⟩ : ∃ j, j < 3 ∧ m = 2 ^ 53 - 3 + j := ⟨m - (2 ^ 53 - 3), by omega, by omega⟩
          exact exists_ok_of_toBool (value_ofLayout_top j hj s)
        · exact value_ofLayout s hpos ((shortest_le .toEven m e).trans (half_above_le hm he htop))
      obtain ⟨v, hv⟩ := hv
      exact ⟨v, htext _, written_ofLayout s hpos, hv⟩
  · exact hx.elim
  · exact hx.elim

end AgentDeck.Json
