import Mathlib
import AgentDeck.Proofs.Json.Cursor

/-!
Reading back a written integer.

An integer is written as its decimal digits, a negative one after a minus sign. The reader
takes the digits up to the first octet that cannot continue a number, joins them into a
significand while it fits in 64 bits, and values the numeral (`Numeral.value`): with
neither fraction nor exponent it is the integer itself, unsigned up to `2^64 - 1` and
negative down to `-2^63`.
-/

namespace AgentDeck.Json

variable {c : Cursor} {after : List UInt8}

/-- What may follow a number: nothing that continues it, neither a digit nor the point nor
an exponent mark. -/
def NumberEnd (after : List UInt8) : Prop :=
  ∀ b ∈ after.head?, isDigitOctet b = false ∧ b ≠ 46 ∧ b ≠ 101 ∧ b ≠ 69

theorem readNumber_digits {negative : Bool} {b : UInt8} {bs : List UInt8} {v : Number}
    (h : c.rest = b :: bs ++ after) (hb : isDigitOctet b = true)
    (hbs : ∀ x ∈ bs, isDigitOctet x = true) (hlead : b = 48 → bs = []) (hend : NumberEnd after)
    (hv : Numeral.value ⟨negative, (b :: bs).map (fun x => x.toNat - 48), none, none⟩ = .ok v) :
    readNumber negative c = .ok (v, c.advance (bs.length + 1)) := by
  have h1 : ¬(b < 48 ∨ 57 < b) := by
    simp [isDigitOctet, UInt8.le_iff_toNat_le] at hb
    simp [UInt8.lt_iff_toNat_lt]
    omega
  have hafter : (c.advance (bs.length + 1)).rest = after := by
    rw [Cursor.rest_advance, h]; simp
  have hpeek : peek (c.advance (bs.length + 1)) = .ok (after.head?, c.advance (bs.length + 1)) := by
    rw [peek_apply, hafter]
  -- nothing after the digits starts a fraction or an exponent
  have h46 : after.head? ≠ some 46 := fun he => (hend 46 he).2.1 rfl
  have h101 : ¬(after.head? = some 101 ∨ after.head? = some 69) := by
    rintro (he | he)
    · exact (hend 101 he).2.2.1 rfl
    · exact (hend 69 he).2.2.2 rfl
  unfold readNumber
  rw [bind_of_ok (next_of_cons h)]
  simp only [h1, if_false]
  by_cases h48 : b = 48
  · -- a leading zero: the number is `0`, whatever does not continue it follows
    subst h48
    obtain rfl := hlead rfl
    simp only [if_true]
    simp only [List.length_nil, Nat.zero_add] at hpeek
    have hv0 : Numeral.value ⟨negative, [0], none, none⟩ = .ok v := hv
    rw [bind_of_ok hpeek]
    rcases hh : after.head? with _ | d
    · simp only [pure_bind]
      rw [hh] at hpeek h46 h101
      rw [bind_of_ok hpeek]
      simp only [h46, if_false]
      rw [bind_of_ok hpeek]
      simp only [h101, if_false]
      rw [hv0]
      rfl
    · have hd : ¬(48 ≤ d ∧ d ≤ 57) := by
        have hnd := (hend d hh).1
        simpa [isDigitOctet] using hnd
      simp only [hd, if_false, pure_bind]
      rw [hh] at hpeek h46 h101
      rw [bind_of_ok hpeek]
      simp only [h46, if_false]
      rw [bind_of_ok hpeek]
      simp only [h101, if_false]
      rw [hv0]
      rfl
  · have htake : takeDigits (c.advance 1) =
        .ok (bs.map (fun x => x.toNat - 48), c.advance (bs.length + 1)) := by
      have hr : (c.advance 1).rest = bs ++ after := by rw [Cursor.rest_advance, h]; rfl
      have hw : (bs ++ after).takeWhile isDigitOctet = bs := by
        rw [List.takeWhile_append_of_pos hbs]
        cases after with
        | nil => simp
        | cons x xs => simp [(hend x rfl).1]
      rw [takeDigits_apply, hr, hw, Cursor.advance_advance, Nat.add_comm 1]
    simp only [h48, if_false]
    rw [bind_of_ok htake]
    simp only [pure_bind]
    rw [bind_of_ok hpeek]
    simp only [h46, if_false]
    rw [bind_of_ok hpeek]
    simp only [h101, if_false]
    simp only [List.map_cons] at hv
    rw [hv]
    rfl

/-! ### The decimal digits of a natural number -/

/-- ASCII characters are their own single octets. -/
theorem flatMap_utf8EncodeChar_ascii : ∀ (cs : List Char), (∀ ch ∈ cs, ch.toNat < 0x80) →
    cs.flatMap String.utf8EncodeChar = cs.map fun ch => UInt8.ofNat ch.toNat
  | [], _ => rfl
  | ch :: cs, h => by
    have hch : String.utf8EncodeChar ch = [UInt8.ofNat ch.toNat] := by
      have hv : ch.val.toNat = ch.toNat := rfl
      have hlt := h ch List.mem_cons_self
      simp [String.utf8EncodeChar, hv, show ch.toNat ≤ 127 by omega]
    rw [List.flatMap_cons, hch,
      flatMap_utf8EncodeChar_ascii cs (fun x hx => h x (List.mem_cons_of_mem _ hx))]
    rfl

theorem toNat_of_isDigit {ch : Char} (h : ch.isDigit = true) : 48 ≤ ch.toNat ∧ ch.toNat ≤ 57 := by
  simpa [Char.isDigit, UInt32.le_iff_toNat_le] using h

theorem octets_toString (n : Nat) :
    octets (toString n) = (Nat.toDigits 10 n).map fun ch => UInt8.ofNat ch.toNat := by
  simp only [octets, Nat.toString_eq_repr, Nat.toList_repr]
  refine flatMap_utf8EncodeChar_ascii _ fun ch hch => ?_
  have := toNat_of_isDigit (Nat.isDigit_of_mem_toDigits (by omega) (by omega) hch)
  omega

theorem isDigitOctet_toString (n : Nat) : ∀ b ∈ octets (toString n), isDigitOctet b = true := by
  rw [octets_toString]
  intro b hb
  obtain ⟨ch, hch, rfl⟩ := List.mem_map.1 hb
  have := toNat_of_isDigit (Nat.isDigit_of_mem_toDigits (by omega) (by omega) hch)
  simp [isDigitOctet, UInt8.le_iff_toNat_le, Nat.mod_eq_of_lt (show ch.toNat < 256 by omega)]
  omega

/-- The text of a number starts with a digit. -/
theorem octets_toString_cons (n : Nat) :
    ∃ b r, octets (toString n) = b :: r ∧ isDigitOctet b = true := by
  obtain ⟨b, r, hbr⟩ : ∃ b r, octets (toString n) = b :: r := by
    rw [octets_toString]
    cases hd : Nat.toDigits 10 n with
    | nil => exact absurd hd Nat.toDigits_ne_nil
    | cons ch cs => exact ⟨_, _, rfl⟩
  exact ⟨b, r, hbr, isDigitOctet_toString n b (by rw [hbr]; exact List.mem_cons_self)⟩

/-- A digit is no blank, no bracket, no sign and no letter. -/
theorem isDigitOctet_facts {b : UInt8} (hb : isDigitOctet b = true) :
    (48 ≤ b ∧ b ≤ 57) ∧ isSpace b = false ∧ b ≠ 45 ∧ b ≠ 93 ∧ b ≠ 110 := by
  have hb' : 48 ≤ b ∧ b ≤ 57 := by simpa [isDigitOctet] using hb
  simp only [UInt8.le_iff_toNat_le] at hb'
  refine ⟨by simpa [isDigitOctet] using hb, ?_, ?_, ?_, ?_⟩
  · simp only [isSpace, Bool.or_eq_false_iff, beq_eq_false_iff_ne]
    refine ⟨⟨⟨?_, ?_⟩, ?_⟩, ?_⟩ <;> intro he <;> subst he <;> simp at hb'
  all_goals intro he; subst he; simp at hb'

theorem digitValues_toString (n : Nat) :
    (octets (toString n)).map (fun b => b.toNat - 48) =
      (Nat.toDigits 10 n).map fun ch => ch.toNat - 48 := by
  rw [octets_toString, List.map_map]
  refine List.map_congr_left fun ch hch => ?_
  have := toNat_of_isDigit (Nat.isDigit_of_mem_toDigits (by omega) (by omega) hch)
  simp [Nat.mod_eq_of_lt (show ch.toNat < 256 by omega)]

/-- The digits of `n`, joined from the left, make `n`. -/
theorem foldl_digits (n : Nat) :
    ((Nat.toDigits 10 n).map fun ch => ch.toNat - 48).foldl (fun a d => a * 10 + d) 0 = n := by
  have h := Nat.ofDigitChars_ten_toDigits (n := n)
  simp only [Nat.ofDigitChars_eq_foldl] at h
  rw [List.foldl_map]
  simpa [Nat.mul_comm] using h

/-- The first digit of a positive number is not `0`. -/
theorem head_toDigits (n : Nat) (hn : 1 ≤ n) :
    ∃ ch cs, Nat.toDigits 10 n = ch :: cs ∧ ch ≠ '0' := by
  induction n using Nat.strong_induction_on with
  | _ n ih =>
    by_cases h10 : n < 10
    · refine ⟨Nat.digitChar n, [], Nat.toDigits_of_lt_base h10, ?_⟩
      interval_cases n <;> decide
    · obtain ⟨ch, cs, hcs, hch⟩ := ih (n / 10) (by omega) (by omega)
      refine ⟨ch, cs ++ [Nat.digitChar (n % 10)], ?_, hch⟩
      rw [Nat.toDigits_of_base_le (by omega) (by omega), hcs]
      rfl

theorem le_foldl_digits (ds : List Nat) (sig : Nat) :
    sig ≤ ds.foldl (fun a d => a * 10 + d) sig := by
  induction ds generalizing sig with
  | nil => exact le_refl sig
  | cons d ds ih =>
    have := ih (sig * 10 + d)
    simp only [List.foldl_cons]
    omega

/-- Digits whose value fits in 64 bits all join the significand. -/
theorem absorb_of_le (ds : List Nat) (sig : Nat) (h : ds.foldl (fun a d => a * 10 + d) sig ≤ u64Max) :
    absorb sig ds = (ds.foldl (fun a d => a * 10 + d) sig, []) := by
  induction ds generalizing sig with
  | nil => rfl
  | cons d ds ih =>
    have hle := le_foldl_digits ds (sig * 10 + d)
    simp only [List.foldl_cons] at h ⊢
    rw [absorb, if_pos (by omega), ih _ h]

theorem absorb_toDigits {n : Nat} (hn : n ≤ u64Max) :
    absorb 0 ((Nat.toDigits 10 n).map fun ch => ch.toNat - 48) = (n, []) := by
  rw [absorb_of_le _ _ (by rw [foldl_digits]; exact hn), foldl_digits]

theorem value_nat {n : Nat} (hn : n ≤ u64Max) :
    Numeral.value ⟨false, (Nat.toDigits 10 n).map (fun ch => ch.toNat - 48), none, none⟩ =
      .ok (.nat n) := by
  simp [Numeral.value, absorb_toDigits hn]

theorem value_neg {n : Nat} (h1 : 1 ≤ n) (h2 : n ≤ 2 ^ 63) :
    Numeral.value ⟨true, (Nat.toDigits 10 n).map (fun ch => ch.toNat - 48), none, none⟩ =
      .ok (.neg n) := by
  have hn : n ≤ u64Max := by simp [u64Max]; omega
  have hp : ¬(n = 0 ∨ Nat.pow 2 63 < n) := by simp [Nat.pow_eq]; omega
  simp [Numeral.value, absorb_toDigits hn, hp]

/-- **The written digits of `n` read back as the numeral of `n`**, and the reader stands
after them. -/
theorem readNumber_toString {negative : Bool} {n : Nat} {v : Number}
    (h : c.rest = octets (toString n) ++ after) (hend : NumberEnd after)
    (hv : Numeral.value ⟨negative, (Nat.toDigits 10 n).map (fun ch => ch.toNat - 48), none, none⟩ =
      .ok v) :
    readNumber negative c = .ok (v, c.advance (octets (toString n)).length) := by
  have hdig := isDigitOctet_toString n
  obtain ⟨b, bs, hbs⟩ : ∃ b bs, octets (toString n) = b :: bs := by
    rw [octets_toString]
    cases hd : Nat.toDigits 10 n with
    | nil => exact absurd hd Nat.toDigits_ne_nil
    | cons ch cs => exact ⟨_, _, rfl⟩
  have hlead : b = 48 → bs = [] := by
    intro hb
    rcases Nat.eq_zero_or_pos n with rfl | hn
    · have h0 : octets (toString 0) = [48] := rfl
      rw [h0] at hbs
      exact (List.cons.inj hbs).2.symm
    · obtain ⟨ch, cs, hcs, hch⟩ := head_toDigits n hn
      rw [octets_toString, hcs] at hbs
      have hb' : UInt8.ofNat ch.toNat = b := (List.cons.inj hbs).1
      have hd := toNat_of_isDigit (Nat.isDigit_of_mem_toDigits (by omega) (by omega)
        (hcs ▸ List.mem_cons_self : ch ∈ Nat.toDigits 10 n))
      have hne : ch.toNat ≠ 48 := fun he => hch (by rw [← Char.ofNat_toNat ch, he])
      rw [← hb'] at hb
      have := congrArg UInt8.toNat hb
      simp [Nat.mod_eq_of_lt (show ch.toNat < 256 by omega)] at this
      omega
  rw [hbs] at h hdig
  have hv' : Numeral.value ⟨negative, (b :: bs).map (fun x => x.toNat - 48), none, none⟩ = .ok v := by
    rw [← hbs, digitValues_toString]; exact hv
  rw [readNumber_digits h (hdig b List.mem_cons_self)
    (fun x hx => hdig x (List.mem_cons_of_mem _ hx)) hlead hend hv', hbs]
  rfl

end AgentDeck.Json
