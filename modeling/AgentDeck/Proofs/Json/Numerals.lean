import Mathlib
import AgentDeck.Proofs.Json.Numbers

/-!
Reading back a written numeral.

A numeral is written as its whole digits, then optionally a point and fraction digits, then
optionally `e`, a sign and exponent digits (`Numeral.octets`). Written that way
(`Numeral.Written`: digits throughout, a leading `0` standing alone, something after the point
and after the `e`), the reader takes the whole text and values exactly that numeral
(`readNumber_numeral`). The reader's work after the whole digits is split into the same two
phases the text has, `fractionPart` and `exponentPart`, which are its own continuations
restated as definitions.
-/

namespace AgentDeck.Json

/-- The number reader from the exponent mark on, the digits before it read. -/
def exponentPart (negative : Bool) (whole : List Nat) (fraction : Option (List Nat)) :
    ReadM Number := do
  let mut exponent : Option (Bool × List Nat) := none
  let p ← peek
  if p = some 101 ∨ p = some 69 then
    skip
    let mut expNeg := false
    match ← peek with
    | some 43 => skip
    | some 45 => do skip; expNeg := true
    | _ => pure ()
    match ← next with
    | none => failHere .truncated eofValue
    | some d =>
      if d < 48 ∨ 57 < d then failHere .malformed "invalid number"
      else
        let rest ← takeDigits
        exponent := some (expNeg, (d.toNat - 48) :: rest)
  match Numeral.value { negative, whole, fraction, exponent } with
  | .ok n => pure n
  | .error unread => do
    modify fun c => { c with pos := c.pos - unread }
    failHere .malformed "number out of range"

/-- The number reader from the point on, the whole digits read. -/
def fractionPart (negative : Bool) (whole : List Nat) : ReadM Number := do
  if (← peek) = some 46 then
    skip
    let frac ← takeDigits
    if frac.isEmpty then
      match ← peek with
      | some _ => failNext .malformed "invalid number"
      | none => failNext .truncated eofValue
    exponentPart negative whole (some frac)
  else exponentPart negative whole none

variable {c : Cursor} {after : List UInt8}

/-- The value of a digit octet. -/
abbrev digitValue (b : UInt8) : Nat := b.toNat - 48

theorem takeDigits_of {ds r : List UInt8} (h : c.rest = ds ++ r)
    (hds : ∀ x ∈ ds, isDigitOctet x = true) (hr : ∀ b ∈ r.head?, isDigitOctet b = false) :
    takeDigits c = .ok (ds.map digitValue, c.advance ds.length) := by
  have hw : (ds ++ r).takeWhile isDigitOctet = ds := by
    rw [List.takeWhile_append_of_pos hds]
    cases r with
    | nil => simp
    | cons x xs => simp [hr x rfl]
  rw [takeDigits_apply, h, hw]

theorem exponentPart_none {negative : Bool} {whole : List Nat} {fr : Option (List Nat)} {v : Number}
    (h : c.rest = after) (hend : ∀ b ∈ after.head?, b ≠ 101 ∧ b ≠ 69)
    (hv : Numeral.value ⟨negative, whole, fr, none⟩ = .ok v) :
    exponentPart negative whole fr c = .ok (v, c) := by
  have hp : ¬(after.head? = some 101 ∨ after.head? = some 69) := by
    rintro (he | he)
    · exact (hend 101 he).1 rfl
    · exact (hend 69 he).2 rfl
  unfold exponentPart
  rw [bind_of_ok peek_apply, h]
  simp only [hp, if_false]
  rw [hv]
  rfl

theorem exponentPart_some {negative : Bool} {whole : List Nat} {fr : Option (List Nat)}
    {en : Bool} {e₁ : UInt8} {es : List UInt8} {v : Number}
    (h : c.rest = 101 :: (if en then 45 else 43) :: e₁ :: (es ++ after))
    (he₁ : isDigitOctet e₁ = true) (hes : ∀ x ∈ es, isDigitOctet x = true)
    (hend : ∀ b ∈ after.head?, isDigitOctet b = false)
    (hv : Numeral.value ⟨negative, whole, fr, some (en, (e₁ :: es).map digitValue)⟩ = .ok v) :
    exponentPart negative whole fr c = .ok (v, c.advance (es.length + 3)) := by
  have hd : ¬(e₁ < 48 ∨ 57 < e₁) := by
    simp [isDigitOctet, UInt8.le_iff_toNat_le] at he₁
    simp [UInt8.lt_iff_toNat_lt]
    omega
  have h1 : (c.advance 1).rest = (if en then 45 else 43) :: e₁ :: (es ++ after) := by
    rw [Cursor.rest_advance, h]; rfl
  have h2 : (c.advance 2).rest = e₁ :: (es ++ after) := by
    rw [Cursor.rest_advance, h]; rfl
  have h3 : (c.advance 3).rest = es ++ after := by
    rw [Cursor.rest_advance, h]; rfl
  have hdig := takeDigits_of h3 hes hend
  unfold exponentPart
  rw [bind_of_ok peek_apply, h, List.head?_cons, if_pos (Or.inl rfl)]
  rw [bind_of_ok skip_apply, bind_of_ok peek_apply, h1]
  simp only [List.map_cons] at hv
  -- the sign is taken, then the first digit and the rest
  cases en
  · simp only [Bool.false_eq_true, if_false, List.head?_cons]
    rw [bind_of_ok skip_apply, Cursor.advance_advance, bind_of_ok (next_of_cons h2)]
    simp only [hd, if_false]
    rw [Cursor.advance_advance, bind_of_ok hdig]
    simp only [hv, Cursor.advance_advance, Nat.add_comm 3]
    rfl
  · simp only [if_true, List.head?_cons]
    rw [bind_of_ok skip_apply, Cursor.advance_advance, bind_of_ok (next_of_cons h2)]
    simp only [hd, if_false]
    rw [Cursor.advance_advance, bind_of_ok hdig]
    simp only [hv, Cursor.advance_advance, Nat.add_comm 3]
    rfl

theorem fractionPart_none {negative : Bool} {whole : List Nat} {r : List UInt8}
    (h : c.rest = r) (hr : r.head? ≠ some 46) :
    fractionPart negative whole c = exponentPart negative whole none c := by
  unfold fractionPart
  rw [bind_of_ok peek_apply, h]
  simp only [hr, if_false]

theorem fractionPart_some {negative : Bool} {whole : List Nat} {f₁ : UInt8} {fs r : List UInt8}
    (h : c.rest = 46 :: f₁ :: (fs ++ r)) (hf₁ : isDigitOctet f₁ = true)
    (hfs : ∀ x ∈ fs, isDigitOctet x = true) (hr : ∀ b ∈ r.head?, isDigitOctet b = false) :
    fractionPart negative whole c =
      exponentPart negative whole (some ((f₁ :: fs).map digitValue)) (c.advance (fs.length + 2)) := by
  have h1 : (c.advance 1).rest = (f₁ :: fs) ++ r := by rw [Cursor.rest_advance, h]; rfl
  have hdig := takeDigits_of h1 (by simpa [hf₁] using hfs) hr
  unfold fractionPart
  rw [bind_of_ok peek_apply, h, List.head?_cons, if_pos rfl, bind_of_ok skip_apply,
    bind_of_ok hdig]
  simp only [List.map_cons, List.isEmpty_cons, Bool.false_eq_true, if_false, Cursor.advance_advance,
    List.length_cons]
  rw [show 1 + (fs.length + 1) = fs.length + 2 by omega]

theorem readNumber_whole {negative : Bool} {w₁ : UInt8} {ws r : List UInt8}
    (h : c.rest = w₁ :: (ws ++ r)) (hw₁ : isDigitOctet w₁ = true)
    (hws : ∀ x ∈ ws, isDigitOctet x = true) (hlead : w₁ = 48 → ws = [])
    (hr : ∀ b ∈ r.head?, isDigitOctet b = false) :
    readNumber negative c =
      fractionPart negative ((w₁ :: ws).map digitValue) (c.advance (ws.length + 1)) := by
  have h1 : ¬(w₁ < 48 ∨ 57 < w₁) := by
    simp [isDigitOctet, UInt8.le_iff_toNat_le] at hw₁
    simp [UInt8.lt_iff_toNat_lt]
    omega
  unfold readNumber
  rw [bind_of_ok (next_of_cons h)]
  simp only [h1, if_false]
  by_cases h48 : w₁ = 48
  · subst h48
    obtain rfl := hlead rfl
    have hpeek : peek (c.advance 1) = .ok (r.head?, c.advance 1) := by
      rw [peek_apply, Cursor.rest_advance, h]; rfl
    simp only [if_true]
    rw [bind_of_ok hpeek]
    rcases hh : r.head? with _ | d
    · rfl
    · have hd : ¬(48 ≤ d ∧ d ≤ 57) := by
        have hnd := hr d hh
        simpa [isDigitOctet] using hnd
      simp only [hd, if_false]
      rfl
  · have h1' : (c.advance 1).rest = ws ++ r := by rw [Cursor.rest_advance, h]; rfl
    simp only [h48, if_false]
    rw [bind_of_ok (takeDigits_of h1' hws hr)]
    simp only [Cursor.advance_advance, Nat.add_comm 1]
    rfl

/-- The octet of a digit's value. -/
def digitOctet (v : Nat) : UInt8 := UInt8.ofNat (v + 48)

theorem isDigitOctet_digitOctet {v : Nat} (hv : v < 10) : isDigitOctet (digitOctet v) = true := by
  simp [isDigitOctet, digitOctet, UInt8.le_iff_toNat_le, Nat.mod_eq_of_lt (show v + 48 < 256 by omega)]
  omega

theorem digitValue_digitOctet {v : Nat} (hv : v < 10) : digitValue (digitOctet v) = v := by
  simp [digitValue, digitOctet, Nat.mod_eq_of_lt (show v + 48 < 256 by omega)]

theorem map_digitValue_digitOctet {vs : List Nat} (h : ∀ v ∈ vs, v < 10) :
    (vs.map digitOctet).map digitValue = vs := by
  rw [List.map_map]
  conv_rhs => rw [← List.map_id vs]
  exact List.map_congr_left fun v hv => digitValue_digitOctet (h v hv)

theorem digits_map_digitOctet {vs : List Nat} (h : ∀ v ∈ vs, v < 10) :
    ∀ x ∈ vs.map digitOctet, isDigitOctet x = true := by
  intro x hx
  obtain ⟨u, hu, rfl⟩ := List.mem_map.1 hx
  exact isDigitOctet_digitOctet (h u hu)

/-- The octets of an exponent: `e`, its sign and its digits. -/
def exponentOctets (ex : Option (Bool × List Nat)) : List UInt8 :=
  (ex.map fun ex => 101 :: (if ex.1 then 45 else 43) :: ex.2.map digitOctet).getD []

/-- The octets of a fraction: the point and its digits. -/
def fractionOctets (fr : Option (List Nat)) : List UInt8 :=
  (fr.map fun fs => 46 :: fs.map digitOctet).getD []

theorem exponentPart_octets {negative : Bool} {whole : List Nat} {fr : Option (List Nat)}
    {ex : Option (Bool × List Nat)} {v : Number}
    (hex : ∀ e ∈ ex, e.2 ≠ [] ∧ ∀ v ∈ e.2, v < 10) (h : c.rest = exponentOctets ex ++ after)
    (hend : NumberEnd after) (hv : Numeral.value ⟨negative, whole, fr, ex⟩ = .ok v) :
    exponentPart negative whole fr c = .ok (v, c.advance (exponentOctets ex).length) := by
  cases ex with
  | none =>
    exact exponentPart_none (by simpa [exponentOctets] using h)
      (fun b hb => ⟨(hend b hb).2.2.1, (hend b hb).2.2.2⟩) hv
  | some ex =>
    obtain ⟨en, es⟩ := ex
    obtain ⟨hne, hd⟩ := hex _ rfl
    obtain ⟨e₁, es, rfl⟩ := List.exists_cons_of_ne_nil hne
    have hdig := digits_map_digitOctet hd
    have hev : List.map digitValue (digitOctet e₁ :: List.map digitOctet es) = e₁ :: es :=
      map_digitValue_digitOctet hd
    have h' : c.rest = 101 :: (if en then 45 else 43) :: digitOctet e₁ ::
        (es.map digitOctet ++ after) := by simpa [exponentOctets] using h
    rw [exponentPart_some h' (hdig _ List.mem_cons_self)
      (fun x hx => hdig x (List.mem_cons_of_mem _ hx)) (fun b hb => (hend b hb).1)
      (by rw [hev]; exact hv)]
    simp [exponentOctets]

theorem fractionPart_octets {negative : Bool} {whole : List Nat} {fr : Option (List Nat)}
    {r : List UInt8} (hfr : ∀ fs ∈ fr, fs ≠ [] ∧ ∀ v ∈ fs, v < 10)
    (h : c.rest = fractionOctets fr ++ r) (hr : ∀ b ∈ r.head?, isDigitOctet b = false ∧ b ≠ 46) :
    fractionPart negative whole c =
      exponentPart negative whole fr (c.advance (fractionOctets fr).length) := by
  cases fr with
  | none =>
    exact fractionPart_none (by simpa [fractionOctets] using h)
      (fun he => (hr 46 he).2 rfl)
  | some fs =>
    obtain ⟨hne, hd⟩ := hfr _ rfl
    obtain ⟨f₁, fs, rfl⟩ := List.exists_cons_of_ne_nil hne
    have hdig := digits_map_digitOctet hd
    have hfv : List.map digitValue (digitOctet f₁ :: List.map digitOctet fs) = f₁ :: fs :=
      map_digitValue_digitOctet hd
    have h' : c.rest = 46 :: digitOctet f₁ :: (fs.map digitOctet ++ r) := by
      simpa [fractionOctets] using h
    rw [fractionPart_some h' (hdig _ List.mem_cons_self)
      (fun x hx => hdig x (List.mem_cons_of_mem _ hx)) (fun b hb => (hr b hb).1), hfv]
    simp [fractionOctets]

/-- The text of a numeral after its sign: its digits, a point and digits, and `e`, a sign and
digits. -/
def Numeral.octets (p : Numeral) : List UInt8 :=
  p.whole.map digitOctet ++ fractionOctets p.fraction ++ exponentOctets p.exponent

/-- A numeral as a writer lays it out: digits throughout, a leading `0` standing alone, and
a digit at least after the point and in the exponent. -/
structure Numeral.Written (p : Numeral) : Prop where
  whole : p.whole ≠ [] ∧ ∀ v ∈ p.whole, v < 10
  lead : p.whole.head? = some 0 → p.whole = [0]
  fraction : ∀ fs ∈ p.fraction, fs ≠ [] ∧ ∀ v ∈ fs, v < 10
  exponent : ∀ ex ∈ p.exponent, ex.2 ≠ [] ∧ ∀ v ∈ ex.2, v < 10

/-- **A written numeral reads back as itself**: the reader takes its whole text and values
it, wherever what follows cannot continue a number. -/
theorem readNumber_numeral {p : Numeral} {v : Number} (hp : p.Written)
    (h : c.rest = p.octets ++ after) (hend : NumberEnd after) (hv : Numeral.value p = .ok v) :
    readNumber p.negative c = .ok (v, c.advance p.octets.length) := by
  obtain ⟨negative, whole, fraction, exponent⟩ := p
  obtain ⟨⟨hne, hwd⟩, hlead, hfr, hex⟩ := hp
  obtain ⟨w₁, ws, rfl⟩ := List.exists_cons_of_ne_nil hne
  have hdig := digits_map_digitOctet hwd
  have hlead' : digitOctet w₁ = 48 → ws.map digitOctet = [] := by
    intro h48
    have : w₁ = 0 := by
      have := digitValue_digitOctet (hwd w₁ List.mem_cons_self)
      rw [h48] at this
      exact this.symm
    simpa using (List.cons.inj (hlead (by simp [this]))).2
  have hwv : List.map digitValue (digitOctet w₁ :: List.map digitOctet ws) = w₁ :: ws :=
    map_digitValue_digitOctet hwd
  -- past the whole digits stands a point or an exponent mark, never a digit
  have hexp : ∀ b ∈ (exponentOctets exponent ++ after).head?,
      isDigitOctet b = false ∧ b ≠ 46 := by
    cases exponent with
    | none => simpa [exponentOctets] using fun b hb => And.intro (hend b hb).1 (hend b hb).2.1
    | some ex => simp [exponentOctets]; decide
  have hfrac : ∀ b ∈ (fractionOctets fraction ++ (exponentOctets exponent ++ after)).head?,
      isDigitOctet b = false := by
    cases fraction with
    | none => simpa [fractionOctets] using fun b hb => (hexp b hb).1
    | some fs => simp [fractionOctets]; decide
  have h₁ : c.rest = digitOctet w₁ ::
      (ws.map digitOctet ++ (fractionOctets fraction ++ (exponentOctets exponent ++ after))) := by
    simpa [Numeral.octets] using h
  have h₂ := Cursor.rest_of_eq_length c (k := (ws.map digitOctet).length + 1)
    (q := digitOctet w₁ :: ws.map digitOctet)
    h₁ (by simp)
  have h₃ := Cursor.rest_of_eq_length _ (k := (fractionOctets fraction).length) h₂ rfl
  rw [readNumber_whole h₁ (hdig _ List.mem_cons_self)
      (fun x hx => hdig x (List.mem_cons_of_mem _ hx)) hlead' hfrac, hwv,
    fractionPart_octets hfr h₂ hexp, exponentPart_octets hex h₃ hend hv]
  simp only [Cursor.advance_advance, Numeral.octets, List.length_append, List.length_map]
  congr 2

end AgentDeck.Json
