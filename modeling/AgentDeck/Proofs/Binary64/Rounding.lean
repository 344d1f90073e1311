import Mathlib
import AgentDeck.Json.Numeral
import AgentDeck.Binary64.Shortest

/-!
How far rounding moves a value.

`ofRatio` rounds `num / den` to a mantissa at the unit exponent of its binade
(`unitExp`, `unitMant`), and carries into the next binade when the mantissa reaches
`2^53`. The rounded mantissa is within half a unit of the exact one, so in the normal
range a rounded value is within one part in `2^53` of the ratio (`ofRatio_le_of_normal`,
`ofRatio_ge_of_normal`), and a ratio no larger than the largest double stays finite
(`ofRatio_finite_of_le`). Every finite result is a double of the format (`Valid`).

From these: the double nearest a natural times the double nearest `10^k` is finite while
the exact product leaves room for the three roundings (`ofNat_mul_pow10_finite`), and a
quotient by the double nearest `10^k` never overflows (`Valid.div_pow10`). The shortest
decimal of a value lies at most half a unit above it (`shortest_le`).
-/

namespace AgentDeck.Binary64

/-! ### Powers of two as quotients -/

theorem two_zpow_of_nonneg {k : Int} (hk : 0 ≤ k) : (2 : ℚ) ^ k = ((2 ^ k.toNat : ℕ) : ℚ) := by
  rw [Nat.cast_pow, Nat.cast_ofNat, ← zpow_natCast, Int.toNat_of_nonneg hk]

theorem two_zpow_of_neg {k : Int} (hk : k < 0) : (2 : ℚ) ^ k = 1 / ((2 ^ (-k).toNat : ℕ) : ℚ) := by
  rw [Nat.cast_pow, Nat.cast_ofNat, ← zpow_natCast, Int.toNat_of_nonneg (by omega),
    zpow_neg, one_div, inv_inv]

theorem zpow_eq_div (b : ℚ) (i : Int) : b ^ i = b ^ i.toNat / b ^ (-i).toNat := by
  rcases le_or_gt 0 i with h | h
  · rw [show (-i).toNat = 0 by omega, pow_zero, div_one, ← zpow_natCast, Int.toNat_of_nonneg h]
  · rw [show i.toNat = 0 by omega, pow_zero, ← zpow_natCast, Int.toNat_of_nonneg (by omega),
      zpow_neg, one_div, inv_inv]

theorem ratio_snd_pos (m : Nat) (e : Int) : 0 < (ratio m e).2 := by
  unfold ratio
  split <;> simp [Nat.pow_eq]

theorem ratio_div (m : Nat) (e : Int) : ((ratio m e).1 : ℚ) / (ratio m e).2 = m * 2 ^ e := by
  unfold ratio
  simp only [Nat.pow_eq]
  split
  · rename_i he
    rw [two_zpow_of_nonneg he]
    push_cast
    ring
  · rename_i he
    rw [two_zpow_of_neg (by omega), mul_one_div]

theorem ratio_zero (e : Int) : (ratio 0 e).1 = 0 := by
  unfold ratio
  split <;> simp

/-! ### The binade and the rounded mantissa -/

theorem atLeastPow2_iff (k : Int) (num : Nat) {den : Nat} (hd : 0 < den) :
    atLeastPow2 k num den = true ↔ (2 : ℚ) ^ k ≤ num / den := by
  have hd' : (0 : ℚ) < den := by exact_mod_cast hd
  rw [le_div_iff₀ hd']
  unfold atLeastPow2
  simp only [Nat.pow_eq]
  split
  · rename_i hk
    rw [decide_eq_true_iff, two_zpow_of_nonneg hk, mul_comm, ← Nat.cast_mul]
    exact_mod_cast Iff.rfl
  · rename_i hk
    rw [decide_eq_true_iff, two_zpow_of_neg (by omega), one_div_mul_eq_div,
      div_le_iff₀ (by positivity), ← Nat.cast_mul]
    exact_mod_cast Iff.rfl

theorem floorLog2_spec {num den : Nat} (hn : 0 < num) (hd : 0 < den) :
    (2 : ℚ) ^ floorLog2 num den ≤ num / den ∧ (num : ℚ) / den < 2 ^ (floorLog2 num den + 1) := by
  have hn1 : ((2 ^ num.log2 : ℕ) : ℚ) ≤ num := by exact_mod_cast Nat.log2_self_le hn.ne'
  have hn2 : (num : ℚ) < ((2 ^ (num.log2 + 1) : ℕ) : ℚ) := by exact_mod_cast Nat.lt_log2_self
  have hd1 : ((2 ^ den.log2 : ℕ) : ℚ) ≤ den := by exact_mod_cast Nat.log2_self_le hd.ne'
  have hd2 : (den : ℚ) < ((2 ^ (den.log2 + 1) : ℕ) : ℚ) := by exact_mod_cast Nat.lt_log2_self
  push_cast at hn1 hn2 hd1 hd2
  have hnq : (0 : ℚ) < num := by exact_mod_cast hn
  have hdq : (0 : ℚ) < den := by exact_mod_cast hd
  -- the difference of the binary lengths is the binade or one above it
  have hlo : (2 : ℚ) ^ ((num.log2 : Int) - den.log2 - 1) < num / den := by
    rw [show (num.log2 : Int) - den.log2 - 1 = (num.log2 : Int) - ((den.log2 + 1 : ℕ) : Int) by
      push_cast; ring, zpow_sub₀ two_ne_zero, zpow_natCast, zpow_natCast]
    calc (2 : ℚ) ^ num.log2 / 2 ^ (den.log2 + 1) ≤ num / 2 ^ (den.log2 + 1) := by gcongr
      _ < num / den := div_lt_div_of_pos_left hnq hdq hd2
  have hhi : (num : ℚ) / den < 2 ^ ((num.log2 : Int) - den.log2 + 1) := by
    rw [show (num.log2 : Int) - den.log2 + 1 = ((num.log2 + 1 : ℕ) : Int) - (den.log2 : Int) by
      push_cast; ring, zpow_sub₀ two_ne_zero, zpow_natCast, zpow_natCast]
    calc (num : ℚ) / den ≤ num / 2 ^ den.log2 := by gcongr
      _ < 2 ^ (num.log2 + 1) / 2 ^ den.log2 := by gcongr
  unfold floorLog2
  dsimp only
  split
  · rename_i h
    exact ⟨(atLeastPow2_iff _ _ hd).1 h, hhi⟩
  · rename_i h
    refine ⟨hlo.le, ?_⟩
    rw [sub_add_cancel]
    exact lt_of_not_ge fun h' => h ((atLeastPow2_iff _ _ hd).2 h')

theorem roundHalfEven_two_mul (num : Nat) {den : Nat} (hd : 0 < den) :
    2 * (roundHalfEven num den * den) ≤ 2 * num + den ∧
      2 * num ≤ 2 * (roundHalfEven num den * den) + den := by
  have hdm := Nat.div_add_mod num den
  have hr := Nat.mod_lt num hd
  dsimp only [roundHalfEven]
  split
  · rename_i hc
    simp only [Bool.or_eq_true, decide_eq_true_eq, Bool.and_eq_true, beq_iff_eq] at hc
    rw [Nat.add_mul, Nat.mul_comm (num / den) den]
    omega
  · rename_i hc
    simp only [Bool.or_eq_true, decide_eq_true_eq, Bool.and_eq_true, beq_iff_eq, not_or,
      not_and] at hc
    rw [Nat.mul_comm (num / den) den]
    omega

theorem roundHalfEven_near_half (num : Nat) {den : Nat} (hd : 0 < den) :
    |(roundHalfEven num den : ℚ) - num / den| ≤ 1 / 2 := by
  obtain ⟨h1, h2⟩ := roundHalfEven_two_mul num hd
  have hdq : (0 : ℚ) < den := by exact_mod_cast hd
  have h1' : 2 * ((roundHalfEven num den : ℚ) * den) ≤ 2 * num + den := by exact_mod_cast h1
  have h2' : 2 * (num : ℚ) ≤ 2 * (roundHalfEven num den * den) + den := by exact_mod_cast h2
  have e : (roundHalfEven num den : ℚ) - num / den = (roundHalfEven num den * den - num) / den := by
    field_simp
  rw [e, abs_div, abs_of_pos hdq, div_le_iff₀ hdq, abs_le]
  constructor <;> linarith

/-- The exponent of the unit `ofRatio` rounds `num / den` to: 52 binades below its own, but
never below the least exponent. -/
def unitExp (num den : Nat) : Int := max (floorLog2 num den - 52) minExp

/-- `num / den` in units of `2^unitExp`, rounded to the nearest, a tie to the even one. -/
def unitMant (num den : Nat) : Nat :=
  if 0 ≤ unitExp num den then roundHalfEven num (den * Nat.pow 2 (unitExp num den).toNat)
  else roundHalfEven (num * Nat.pow 2 (-unitExp num den).toNat) den

variable {num den : Nat}

theorem ofRatio_of_pos (hn : num ≠ 0) (hd : den ≠ 0) (neg : Bool) :
    ofRatio neg num den =
      if unitMant num den = 2 ^ 53 then
        (if unitExp num den + 1 > maxExp then .infinite neg
          else .finite neg (2 ^ 52) (unitExp num den + 1))
      else if unitExp num den > maxExp then .infinite neg
        else .finite neg (unitMant num den) (unitExp num den) := by
  unfold ofRatio
  simp only [hn, hd, or_self, ↓reduceIte]
  rw [← unitExp, ← unitMant]
  split <;> rename_i hM <;> simp only [Nat.pow_eq] at hM <;> simp [hM]

theorem ofRatio_zero (neg : Bool) (den : Nat) : ofRatio neg 0 den = .finite neg 0 minExp := by
  simp [ofRatio]

theorem unitMant_near (hd : 0 < den) :
    |(unitMant num den : ℚ) - num / den / 2 ^ unitExp num den| ≤ 1 / 2 := by
  have hdq : (0 : ℚ) < den := by exact_mod_cast hd
  unfold unitMant
  simp only [Nat.pow_eq]
  split
  · rename_i he
    have h := roundHalfEven_near_half num
      (show 0 < den * 2 ^ (unitExp num den).toNat by positivity)
    rwa [two_zpow_of_nonneg he, div_div, ← Nat.cast_mul]
  · rename_i he
    have h := roundHalfEven_near_half (num * 2 ^ (-unitExp num den).toNat) hd
    rw [Nat.cast_mul, mul_div_right_comm] at h
    rwa [two_zpow_of_neg (by omega), div_div_eq_mul_div, div_one]

theorem ratio_lt_two_pow (hn : 0 < num) (hd : 0 < den) :
    (num : ℚ) / den / 2 ^ unitExp num den < 2 ^ 53 := by
  have hfl := (floorLog2_spec hn hd).2
  have hu : floorLog2 num den - 52 ≤ unitExp num den := le_max_left _ _
  rw [div_lt_iff₀ (by positivity), ← zpow_natCast, ← zpow_add₀ two_ne_zero]
  calc (num : ℚ) / den < 2 ^ (floorLog2 num den + 1) := hfl
    _ ≤ 2 ^ (((53 : ℕ) : Int) + unitExp num den) := zpow_le_zpow_right₀ one_le_two (by omega)

theorem unitMant_le (hn : 0 < num) (hd : 0 < den) : unitMant num den ≤ 2 ^ 53 := by
  have h := (abs_le.1 (@unitMant_near num den hd)).2
  have hr := ratio_lt_two_pow hn hd
  have : (unitMant num den : ℚ) < 2 ^ 53 + 1 := by linarith
  exact_mod_cast Nat.lt_succ_iff.1 (by exact_mod_cast this)

/-! ### Finite results -/

theorem ofRatio_eq_finite (hn : 0 < num) (hd : 0 < den) {neg s : Bool} {m : Nat} {e : Int}
    (h : ofRatio neg num den = .finite s m e) :
    s = neg ∧ (m : ℚ) * 2 ^ e = unitMant num den * 2 ^ unitExp num den ∧
      m < 2 ^ 53 ∧ minExp ≤ e ∧ e ≤ maxExp := by
  have hle := unitMant_le hn hd
  have hmin : minExp ≤ unitExp num den := le_max_right _ _
  rw [ofRatio_of_pos hn.ne' hd.ne'] at h
  split_ifs at h with hM he he
  · cases h
    refine ⟨rfl, ?_, by norm_num, by omega, by omega⟩
    rw [hM, zpow_add_one₀ two_ne_zero]
    push_cast
    ring
  · cases h
    exact ⟨rfl, rfl, by omega, hmin, by omega⟩

/-- A double of the format: finite, with a mantissa below `2^53` and an exponent no larger
than the largest. -/
def Valid : Binary64 → Prop
  | .finite _ m e => m < 2 ^ 53 ∧ e ≤ maxExp
  | _ => False

theorem Valid.negate {x : Binary64} (h : x.Valid) : x.negate.Valid := by
  cases x with
  | finite s m e => exact h
  | infinite s => exact h.elim
  | nan => exact h.elim

/-- What `ofRatio` gives is an infinity or a double of the format. -/
theorem valid_ofRatio {neg : Bool} (h : (ofRatio neg num den).isInfinite = false) :
    (ofRatio neg num den).Valid := by
  rcases Nat.eq_zero_or_pos num with rfl | hn
  · rw [ofRatio_zero]
    exact ⟨by norm_num, by decide⟩
  rcases Nat.eq_zero_or_pos den with rfl | hd
  · simp only [ofRatio, or_true, ↓reduceIte]
    exact ⟨by norm_num, by decide⟩
  cases hr : ofRatio neg num den with
  | finite s m e =>
    obtain ⟨-, -, hm, -, he⟩ := ofRatio_eq_finite hn hd hr
    exact ⟨hm, he⟩
  | infinite s => rw [hr] at h; cases h
  | nan => rw [ofRatio_of_pos hn.ne' hd.ne'] at hr; split_ifs at hr

/-- A ratio no larger than the largest double rounds to a finite value. -/
theorem ofRatio_finite_of_le (hd : 0 < den) (neg : Bool)
    (h : (num : ℚ) / den ≤ (2 ^ 53 - 1) * 2 ^ (971 : Int)) :
    ∃ m e, ofRatio neg num den = .finite neg m e := by
  rcases Nat.eq_zero_or_pos num with rfl | hn
  · exact ⟨0, minExp, ofRatio_zero neg den⟩
  have hfl := (floorLog2_spec hn hd).1
  -- the ratio lies below `2^1024`, so its binade is at most `1023`
  have hfl' : floorLog2 num den ≤ 1023 := by
    by_contra hc
    have h1 : (2 : ℚ) ^ (1024 : Int) ≤ 2 ^ floorLog2 num den :=
      zpow_le_zpow_right₀ one_le_two (by omega)
    have h2 : (2 ^ 53 - 1) * (2 : ℚ) ^ (971 : Int) < 2 ^ (1024 : Int) := by
      rw [show (1024 : Int) = ((53 : ℕ) : Int) + 971 by norm_num, zpow_add₀ two_ne_zero,
        zpow_natCast]
      exact mul_lt_mul_of_pos_right (by norm_num) (by positivity)
    exact absurd (h1.trans (hfl.trans h)) (not_le.2 h2)
  have hu : unitExp num den ≤ 971 := max_le (by omega) (by decide)
  have hnear := (abs_le.1 (@unitMant_near num den hd)).2
  rw [ofRatio_of_pos hn.ne' hd.ne']
  by_cases hM : unitMant num den = 2 ^ 53
  · -- a carry into the next binade happens only below the top one
    have hu' : unitExp num den < 971 := by
      by_contra hc
      have h971 : unitExp num den = 971 := by omega
      rw [h971, hM, Nat.cast_pow, Nat.cast_ofNat] at hnear
      have : (num : ℚ) / den / 2 ^ (971 : Int) ≤ 2 ^ 53 - 1 := by
        rw [div_le_iff₀ (by positivity)]
        exact h
      linarith
    simp only [hM, ↓reduceIte, gt_iff_lt, maxExp]
    rw [if_neg (by omega)]
    exact ⟨_, _, rfl⟩
  · simp only [hM, ↓reduceIte, gt_iff_lt, maxExp]
    rw [if_neg (by omega)]
    exact ⟨_, _, rfl⟩

/-! ### Relative error in the normal range -/

section Normal

variable (hn : 0 < num) (hd : 0 < den) (hnorm : (2 : ℚ) ^ (minExp + 52) ≤ num / den)
include hn hd hnorm

theorem unitExp_of_normal : unitExp num den = floorLog2 num den - 52 := by
  have hfl := (floorLog2_spec hn hd).2
  have hge : minExp + 52 ≤ floorLog2 num den := by
    by_contra hc
    have : (2 : ℚ) ^ (floorLog2 num den + 1) ≤ 2 ^ (minExp + 52) :=
      zpow_le_zpow_right₀ one_le_two (by omega)
    linarith
  exact max_eq_left (by omega)

theorem half_unit_le : (2 : ℚ) ^ unitExp num den / 2 ≤ num / den * 2⁻¹ ^ 53 := by
  rw [unitExp_of_normal hn hd hnorm, zpow_sub₀ two_ne_zero]
  calc (2 : ℚ) ^ floorLog2 num den / 2 ^ (52 : Int) / 2 = 2 ^ floorLog2 num den * 2⁻¹ ^ 53 := by
        rw [zpow_ofNat]; ring
    _ ≤ num / den * 2⁻¹ ^ 53 := by gcongr; exact (floorLog2_spec hn hd).1

/-- Rounding a ratio in the normal range raises it by at most one part in `2^53`. -/
theorem ofRatio_le_of_normal {m : Nat} {e : Int} (h : ofRatio false num den = .finite false m e) :
    (m : ℚ) * 2 ^ e ≤ num / den * (1 + 2⁻¹ ^ 53) := by
  obtain ⟨-, hval, -⟩ := ofRatio_eq_finite hn hd h
  have hnear := (abs_le.1 (@unitMant_near num den hd)).2
  have h2u : (0 : ℚ) < 2 ^ unitExp num den := by positivity
  -- the rounded value is at most half a unit above the ratio
  have hup : (unitMant num den : ℚ) * 2 ^ unitExp num den ≤ num / den + 2 ^ unitExp num den / 2 := by
    have := mul_le_mul_of_nonneg_right hnear h2u.le
    rw [sub_mul, div_mul_cancel₀ _ h2u.ne'] at this
    linarith
  rw [hval]
  linarith [half_unit_le hn hd hnorm]

/-- Rounding a ratio in the normal range lowers it by at most one part in `2^53`. -/
theorem ofRatio_ge_of_normal {m : Nat} {e : Int} (h : ofRatio false num den = .finite false m e) :
    num / den * (1 - 2⁻¹ ^ 53) ≤ (m : ℚ) * 2 ^ e := by
  obtain ⟨-, hval, -⟩ := ofRatio_eq_finite hn hd h
  have hnear := (abs_le.1 (@unitMant_near num den hd)).1
  have h2u : (0 : ℚ) < 2 ^ unitExp num den := by positivity
  -- the rounded value is at most half a unit below the ratio
  have hlow : (num : ℚ) / den - 2 ^ unitExp num den / 2 ≤ unitMant num den * 2 ^ unitExp num den := by
    have := mul_le_mul_of_nonneg_right hnear h2u.le
    rw [sub_mul, div_mul_cancel₀ _ h2u.ne'] at this
    linarith
  rw [hval]
  linarith [half_unit_le hn hd hnorm]

end Normal

/-! ### The steps of reading a number -/

theorem finite_mul_finite (s t : Bool) (m n : Nat) (e f : Int) :
    finite s m e * finite t n f =
      ofRatio (s != t) (ratio (m * n) (e + f)).1 (ratio (m * n) (e + f)).2 :=
  rfl

theorem maxValue_cast : (((2 ^ 53 - 1) * 2 ^ 971 : ℕ) : ℚ) = (2 ^ 53 - 1) * 2 ^ (971 : Int) := by
  rw [Nat.cast_mul, Nat.cast_sub Nat.one_le_two_pow, zpow_ofNat]
  simp only [Nat.cast_pow, Nat.cast_ofNat, Nat.cast_one]

/-- The double nearest a positive natural is within one part in `2^53` of it. -/
theorem ofNat_near {n : Nat} (hn : 0 < n) (hmax : n ≤ (2 ^ 53 - 1) * 2 ^ 971) :
    ∃ a ea, ofNat n = .finite false a ea ∧ (a : ℚ) * 2 ^ ea ≤ n * (1 + 2⁻¹ ^ 53) ∧
      n * (1 - 2⁻¹ ^ 53) ≤ (a : ℚ) * 2 ^ ea := by
  have hq : (n : ℚ) / 1 ≤ (2 ^ 53 - 1) * 2 ^ (971 : Int) := by
    rw [div_one, ← maxValue_cast]
    exact_mod_cast hmax
  obtain ⟨a, ea, h⟩ := ofRatio_finite_of_le Nat.one_pos false hq
  have hnorm : (2 : ℚ) ^ (minExp + 52) ≤ n / 1 := by
    rw [div_one]
    calc (2 : ℚ) ^ (minExp + 52) ≤ 2 ^ (0 : Int) := zpow_le_zpow_right₀ one_le_two (by decide)
      _ ≤ n := by rw [zpow_zero]; exact_mod_cast hn
  refine ⟨a, ea, h, ?_, ?_⟩
  · simpa using ofRatio_le_of_normal hn Nat.one_pos hnorm h
  · simpa using ofRatio_ge_of_normal hn Nat.one_pos hnorm h

/-- Zero times a finite value is a zero. -/
theorem ofNat_zero_mul (t : Bool) (n : Nat) (f : Int) :
    ofNat 0 * finite t n f = .finite t 0 minExp := by
  rw [ofNat, ofRatio_zero, finite_mul_finite, Nat.zero_mul, ratio_zero, ofRatio_zero]
  cases t <;> rfl

end AgentDeck.Binary64

namespace AgentDeck.Json

open Binary64

theorem pow10_near {k : Nat} (hk : k ≤ 308) :
    ∃ b eb, pow10 k = .finite false b eb ∧ (b : ℚ) * 2 ^ eb ≤ 10 ^ k * (1 + 2⁻¹ ^ 53) ∧
      10 ^ k * (1 - 2⁻¹ ^ 53) ≤ (b : ℚ) * 2 ^ eb := by
  have hmax : 10 ^ k ≤ (2 ^ 53 - 1) * 2 ^ 971 :=
    (Nat.pow_le_pow_right (by decide) hk).trans (by decide +kernel)
  have h := ofNat_near (Nat.pow_pos (by decide : 0 < 10)) hmax
  simpa [pow10, Nat.pow_eq] using h

/-- The double nearest `10^k` is at least one. -/
theorem one_le_pow10 {k : Nat} (hk : k ≤ 308) :
    ∃ b eb, pow10 k = .finite false b eb ∧ 1 ≤ (b : ℚ) * 2 ^ eb ∧ 0 < b := by
  rcases Nat.eq_zero_or_pos k with rfl | hk0
  · exact ⟨2 ^ 52, -52, by decide +kernel, by norm_num, by norm_num⟩
  obtain ⟨b, eb, hb, -, hlow⟩ := pow10_near hk
  have h10 : (10 : ℚ) ≤ 10 ^ k := le_self_pow₀ (by norm_num) hk0.ne'
  have h1 : (1 : ℚ) ≤ b * 2 ^ eb := by
    have : (1 : ℚ) ≤ 10 * (1 - 2⁻¹ ^ 53) := by norm_num
    nlinarith
  refine ⟨b, eb, hb, h1, Nat.pos_of_ne_zero fun h0 => ?_⟩
  rw [h0, Nat.cast_zero, zero_mul] at h1
  exact absurd h1 (by norm_num)

/-- The double nearest `sig` times the double nearest `10^k`, rounded, is finite when
`sig * 10^k` leaves room below the largest double for the three roundings. -/
theorem ofNat_mul_pow10_finite {sig k : Nat} (hk : k ≤ 308)
    (h : (sig : ℚ) * 10 ^ k ≤ (2 ^ 53 - 7 / 2) * 2 ^ (971 : Int)) :
    ∃ m e, Binary64.ofNat sig * pow10 k = .finite false m e := by
  obtain ⟨b, eb, hb, hbv, -⟩ := pow10_near hk
  rcases Nat.eq_zero_or_pos sig with rfl | hs
  · exact ⟨0, minExp, by rw [hb, ofNat_zero_mul]⟩
  have h10 : (1 : ℚ) ≤ 10 ^ k := one_le_pow₀ (by norm_num)
  have h2 : (0 : ℚ) < 2 ^ (971 : Int) := by positivity
  have hsig : sig ≤ (2 ^ 53 - 1) * 2 ^ 971 := by
    have : (sig : ℚ) ≤ (((2 ^ 53 - 1) * 2 ^ 971 : ℕ) : ℚ) := by
      rw [maxValue_cast]
      calc (sig : ℚ) ≤ sig * 10 ^ k := le_mul_of_one_le_right (Nat.cast_nonneg _) h10
        _ ≤ (2 ^ 53 - 7 / 2) * 2 ^ (971 : Int) := h
        _ ≤ (2 ^ 53 - 1) * 2 ^ (971 : Int) := mul_le_mul_of_nonneg_right (by norm_num) h2.le
    exact_mod_cast this
  obtain ⟨a, ea, ha, hav, -⟩ := ofNat_near hs hsig
  rw [ha, hb, finite_mul_finite]
  apply ofRatio_finite_of_le (ratio_snd_pos _ _)
  rw [ratio_div]
  -- both roundings together raise the product by less than the room left
  have hroom : (2 ^ 53 - 7 / 2 : ℚ) * (1 + 2⁻¹ ^ 53) ^ 2 ≤ 2 ^ 53 - 1 := by norm_num
  calc ((a * b : ℕ) : ℚ) * 2 ^ (ea + eb) = (a * 2 ^ ea) * (b * 2 ^ eb) := by
        rw [zpow_add₀ two_ne_zero]; push_cast; ring
    _ ≤ (sig * (1 + 2⁻¹ ^ 53)) * (10 ^ k * (1 + 2⁻¹ ^ 53)) :=
        mul_le_mul hav hbv (mul_nonneg (Nat.cast_nonneg _) (zpow_nonneg zero_le_two _))
          (mul_nonneg (Nat.cast_nonneg _) (by norm_num))
    _ = sig * 10 ^ k * (1 + 2⁻¹ ^ 53) ^ 2 := by ring
    _ ≤ (2 ^ 53 - 7 / 2) * 2 ^ (971 : Int) * (1 + 2⁻¹ ^ 53) ^ 2 :=
        mul_le_mul_of_nonneg_right h (by positivity)
    _ ≤ (2 ^ 53 - 1) * 2 ^ (971 : Int) := by
        rw [mul_right_comm]
        exact mul_le_mul_of_nonneg_right hroom h2.le

/-- A quotient of a double of the format by the double nearest `10^k` is one too. -/
theorem Binary64.Valid.div_pow10 {x : Binary64} (hx : x.Valid) {k : Nat} (hk : k ≤ 308) :
    (x / pow10 k).Valid := by
  obtain ⟨b, eb, hb, h1, hb0⟩ := one_le_pow10 hk
  cases x with
  | infinite s => exact hx.elim
  | nan => exact hx.elim
  | finite s m e =>
    obtain ⟨hm, he⟩ := hx
    rw [hb]
    show (Binary64.div (.finite s m e) (.finite false b eb)).Valid
    simp only [Binary64.div, hb0.ne', ↓reduceIte]
    -- the quotient is no larger than the dividend, itself no larger than the largest double
    have hpos : 0 < (ratio m e).2 * (ratio b eb).1 := by
      refine Nat.mul_pos (ratio_snd_pos m e) (Nat.pos_of_ne_zero fun h0 => ?_)
      have := ratio_div b eb
      rw [h0, Nat.cast_zero, zero_div] at this
      have hb' : (0 : ℚ) < b * 2 ^ eb := by positivity
      linarith
    obtain ⟨m', e', hq⟩ := @ofRatio_finite_of_le ((ratio m e).1 * (ratio b eb).2) _ hpos
      (s != false) (by
        have hmv := ratio_div m e
        have hbv := ratio_div b eb
        have hd1 := ratio_snd_pos m e
        have hd2 := ratio_snd_pos b eb
        have hq : (((ratio m e).1 * (ratio b eb).2 : ℕ) : ℚ) / ((ratio m e).2 * (ratio b eb).1 : ℕ) =
            (m * 2 ^ e) / (b * 2 ^ eb) := by
          rw [← hmv, ← hbv]
          have : ((ratio b eb).1 : ℚ) ≠ 0 := by
            intro h0
            rw [h0, zero_div] at hbv
            have hb' : (0 : ℚ) < b * 2 ^ eb := by positivity
            linarith
          field_simp
          push_cast
          ring
        rw [hq]
        have hmax : (m : ℚ) * 2 ^ e ≤ (2 ^ 53 - 1) * 2 ^ (971 : Int) := by
          have hm' : (m : ℚ) + 1 ≤ 2 ^ 53 := by exact_mod_cast hm
          have he' : e ≤ 971 := he
          calc (m : ℚ) * 2 ^ e ≤ (2 ^ 53 - 1) * 2 ^ e :=
                mul_le_mul_of_nonneg_right (by linarith) (by positivity)
            _ ≤ (2 ^ 53 - 1) * 2 ^ (971 : Int) :=
                mul_le_mul_of_nonneg_left (zpow_le_zpow_right₀ one_le_two he') (by norm_num)
        calc (m : ℚ) * 2 ^ e / (b * 2 ^ eb) ≤ m * 2 ^ e := div_le_self (by positivity) h1
          _ ≤ _ := hmax)
    exact valid_ofRatio (by rw [hq]; rfl)

end AgentDeck.Json

namespace AgentDeck.Binary64

/-! ### The shortest decimal -/

theorem le_of_cmpScaled {a n : Nat} {i j : Int} (h : cmpScaled a i n j ≠ .gt) :
    (a : ℚ) * 10 ^ i ≤ n * 2 ^ j := by
  unfold cmpScaled at h
  have h' := Nat.compare_ne_gt.1 h
  simp only [Nat.pow_eq] at h'
  have hq : (a : ℚ) * 10 ^ i.toNat * 2 ^ (-j).toNat ≤ n * 2 ^ j.toNat * 10 ^ (-i).toNat := by
    exact_mod_cast h'
  rw [zpow_eq_div 10, zpow_eq_div 2, ← mul_div_assoc, ← mul_div_assoc,
    div_le_div_iff₀ (by positivity) (by positivity)]
  linarith

theorem readsBack_le {m : Nat} {e : Int} {d : Decimal} (h : readsBack m e d = true) :
    (d.digits : ℚ) * 10 ^ d.exp ≤ (m + 1 / 2) * 2 ^ e := by
  unfold readsBack at h
  simp only [Bool.and_eq_true, Bool.or_eq_true, beq_iff_eq] at h
  have hne : cmpScaled d.digits d.exp (4 * m + 2) (e - 2) ≠ .gt := by
    rcases h.2 with h | ⟨-, h⟩ <;> rw [h] <;> decide
  calc (d.digits : ℚ) * 10 ^ d.exp ≤ ((4 * m + 2 : ℕ) : ℚ) * 2 ^ (e - 2) := le_of_cmpScaled hne
    _ = (m + 1 / 2) * 2 ^ e := by
      rw [zpow_sub₀ two_ne_zero]
      push_cast
      ring

/-- A candidate `pick` keeps reads back. -/
theorem readsBack_of_pick {tie : Tie} {m : Nat} {e : Int} {a : Nat} {g : Int} {d : Decimal}
    (h : pick tie m e a g = some d) : readsBack m e d = true := by
  unfold pick at h
  cases hl : readsBack m e ⟨a, g⟩ <;> cases hu : readsBack m e ⟨a + 1, g⟩ <;>
    simp only [hl, hu] at h
  · cases h
  · cases h; exact hu
  · cases h; exact hl
  · -- both read back: the nearer is kept, or on a tie the one the format says
    split at h
    · cases h; exact hl
    · cases h; exact hu
    · split at h
      · split at h <;> cases h <;> assumption
      · cases h; exact hu

theorem strip_go_val (digits : Nat) (exp : Int) (fuel : Nat) :
    ((Decimal.strip.go digits exp fuel).digits : ℚ) * 10 ^ (Decimal.strip.go digits exp fuel).exp =
      digits * 10 ^ exp := by
  induction fuel generalizing digits exp with
  | zero => rfl
  | succ fuel ih =>
    simp only [Decimal.strip.go]
    split
    · rename_i hz
      have h10 : ((digits / 10 : ℕ) : ℚ) * 10 = digits := by
        exact_mod_cast Nat.div_mul_cancel (Nat.dvd_of_mod_eq_zero hz.2)
      rw [ih, zpow_add_one₀ (by norm_num), ← h10]
      ring
    · rfl

theorem strip_val (d : Decimal) :
    (d.strip.digits : ℚ) * 10 ^ d.strip.exp = d.digits * 10 ^ d.exp :=
  strip_go_val d.digits d.exp 400

/-- **The shortest decimal** of `m * 2^e` lies at most half a unit above it: the first grid
with a candidate gives one that reads back, and past seventeen digits the exact value is cut
to whole units of its last place. -/
theorem shortest_le (tie : Tie) (m : Nat) (e : Int) :
    ((shortest tie m e).digits : ℚ) * 10 ^ (shortest tie m e).exp ≤ (m + 1 / 2) * 2 ^ e := by
  have hr := ratio_div m e
  have hpos := ratio_snd_pos m e
  unfold shortest
  dsimp only
  split
  · rename_i d hd
    obtain ⟨i, -, hi⟩ := List.exists_of_findSome?_eq_some hd
    rw [strip_val]
    exact readsBack_le (readsBack_of_pick hi)
  · generalize ratio m e = r at hr hpos ⊢
    obtain ⟨num, den⟩ := r
    dsimp only at hr hpos ⊢
    rw [strip_val]
    simp only [Nat.pow_eq]
    have hden : (0 : ℚ) < den := by exact_mod_cast hpos
    calc (((num * 10 ^ (-e).toNat / den : ℕ) : ℚ)) * 10 ^ (-((-e).toNat : Int))
        ≤ (num * 10 ^ (-e).toNat / den : ℚ) * 10 ^ (-((-e).toNat : Int)) := by
          gcongr
          exact_mod_cast Nat.cast_div_le
      _ = m * 2 ^ e := by
          rw [← hr, zpow_neg, zpow_natCast]
          field_simp
      _ ≤ (m + 1 / 2) * 2 ^ e := by gcongr; norm_num

end AgentDeck.Binary64
