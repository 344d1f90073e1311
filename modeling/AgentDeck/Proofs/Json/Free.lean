import Mathlib
import AgentDeck.Proofs.Json.Doubles
import AgentDeck.Proofs.Json.Document

/-!
Reading back a free-form document.

The free-form reader makes values of one form (`Json.Canonical`): integers that fit in 64 bits,
doubles of the format, and objects with strictly ordered keys. Written in pretty form and read
again, such a value comes back with every string, key, array and object as it was; only a
number can change, into what its own text reads as (`Number.reread`). A double's shortest text
is read by rounded steps and need not give the same double back. The whole document then reads
as `Json.reread` of the value, as long as it nests less deeply than the reader allows
(`parse_pretty`). The proof follows `Json.Canonical`, one lemma for each kind of value
(`ReadsAnyAs`), with the loops over items and members shared with the shaped reader.
-/

namespace AgentDeck

open Json Binary64

/-! ### Numbers -/

/-- A number of the form the reader makes: an unsigned integer that fits in 64 bits, a
negative integer down to `-2^63`, or a double of the format. -/
def Number.Canonical : Number → Prop
  | .nat n => n ≤ u64Max
  | .neg n => 1 ≤ n ∧ n ≤ 2 ^ 63
  | .float x => x.Valid

/-- The numeral the text of a number spells after its sign. -/
def Number.numeral : Number → Numeral
  | .nat n => ⟨false, digitValues n, none, none⟩
  | .neg n => ⟨true, digitValues n, none, none⟩
  | .float x => renderNumeral x

/-- What the text of a number reads as: the value of the numeral it spells. -/
def Number.reread (n : Number) : Number :=
  match n.numeral.value with
  | .ok v => v
  | .error _ => n

/-- The text of `n` is a sign and a written numeral `p`, which the reader values as `v`. -/
structure Number.Spelled (n : Number) (p : Numeral) (v : Number) : Prop where
  text : octets n.text = (if p.negative then [45] else []) ++ p.octets
  written : p.Written
  value : p.value = .ok v

end AgentDeck

namespace AgentDeck.Json

open AgentDeck.Binary64

variable {c : Cursor} {q after : List UInt8}

theorem octets_toString_digits (n : Nat) : octets (toString n) = (digitValues n).map digitOctet := by
  rw [octets_toString, digitValues, List.map_map]
  refine List.map_congr_left fun ch hch => ?_
  have := toNat_of_isDigit (isDigit_of_mem_toDigits ch hch)
  simp [digitOctet, Nat.sub_add_cancel this.1]

theorem written_digits (negative : Bool) (n : Nat) :
    (⟨negative, digitValues n, none, none⟩ : Numeral).Written := by
  refine ⟨⟨digitValues_ne_nil n, digitValues_lt n⟩, fun h0 => ?_, by simp, by simp⟩
  rcases Nat.eq_zero_or_pos n with rfl | hn
  · rfl
  · obtain ⟨v, vs, hvs, hv⟩ := digitValues_head n hn
    simp [hvs] at h0
    omega

theorem text_float {x : Binary64} (hx : x.Valid) : (Number.float x).text = render numberStyle x := by
  obtain ⟨s, m, e⟩ | ⟨s⟩ | - := x
  · rfl
  · exact hx.elim
  · exact hx.elim

theorem Number.reread_of_value {n v : Number} (h : n.numeral.value = .ok v) : n.reread = v := by
  rw [Number.reread, h]

/-- **Every number of the reader's form is spelled by its text**, the numeral it spells being
worth what the text reads as. -/
theorem Number.Canonical.spelled {n : Number} (h : n.Canonical) : n.Spelled n.numeral n.reread := by
  cases n with
  | nat n =>
    have hv : (Number.nat n).numeral.value = .ok (.nat n) := value_nat h
    refine ⟨?_, written_digits false n, by rw [hv, Number.reread_of_value hv]⟩
    rw [Number.text, octets_toString_digits]
    simp [Number.numeral, Numeral.octets, fractionOctets, exponentOctets]
  | neg n =>
    have hv : (Number.neg n).numeral.value = .ok (.neg n) := value_neg h.1 h.2
    refine ⟨?_, written_digits true n, by rw [hv, Number.reread_of_value hv]⟩
    have hminus : octets "-" = [45] := by decide
    rw [Number.text, octets_append, hminus, octets_toString_digits]
    simp [Number.numeral, Numeral.octets, fractionOctets, exponentOctets]
  | float x =>
    obtain ⟨v, htext, hw, hv⟩ := render_numeral h
    have hv' : (Number.float x).numeral.value = .ok v := hv
    exact ⟨by rw [text_float h, htext]; rfl, hw, by rw [hv', Number.reread_of_value hv']⟩

/-- A written numeral starts with a digit. -/
theorem Numeral.Written.octets_cons {p : Numeral} (hp : p.Written) :
    ∃ b r, p.octets = b :: r ∧ isDigitOctet b = true := by
  obtain ⟨w₁, ws, hw⟩ := List.exists_cons_of_ne_nil hp.whole.1
  refine ⟨digitOctet w₁, ws.map digitOctet ++ fractionOctets p.fraction ++ exponentOctets p.exponent,
    by simp [Numeral.octets, hw], isDigitOctet_digitOctet ?_⟩
  exact hp.whole.2 w₁ (by rw [hw]; exact List.mem_cons_self)

/-- **A spelled number where a value is expected**: the reader takes its text, sign and all,
and answers what the numeral is worth. -/
theorem readAny_spelled {n : Number} {p : Numeral} {v : Number} (hs : n.Spelled p v) (F : Nat)
    (h : c.rest = q ++ octets n.text ++ after) (hq : Blank q) (hend : NumberEnd after) :
    readAny (F + 1) c = .ok (.num v, c.advance (q.length + (octets n.text).length)) := by
  obtain ⟨b, r, hbr, hb⟩ := hs.written.octets_cons
  obtain ⟨hdig, hsp, h45, -, -⟩ := isDigitOctet_facts hb
  rw [hs.text] at h ⊢
  cases hneg : p.negative with
  | false =>
    simp only [hneg, Bool.false_eq_true, ↓reduceIte, List.nil_append] at h ⊢
    have hsk := skipBlanks_token (b := b) (r := r ++ after) (by rw [h, hbr]; simp) hq hsp
    have hnum := readNumber_numeral (c := c.advance q.length) hs.written
      (Cursor.rest_of_eq c (by rw [h, List.append_assoc])) hend hs.value
    rw [hneg] at hnum
    have hb' : b ≠ 110 ∧ b ≠ 116 ∧ b ≠ 102 := by
      simp only [isDigitOctet, Bool.and_eq_true, decide_eq_true_eq] at hb
      refine ⟨?_, ?_, ?_⟩ <;> intro he <;> subst he <;> simp at hb
    unfold readAny
    rw [bind_of_ok hsk]
    simp only [hb', h45, hdig, and_self, ↓reduceIte]
    rw [bind_of_ok hnum, Cursor.advance_advance]
    rfl
  | true =>
    simp only [hneg, ↓reduceIte, List.singleton_append] at h ⊢
    have hsk := skipBlanks_token (b := 45) (r := p.octets ++ after) (by rw [h]; simp) hq rfl
    have hnum := readNumber_numeral (c := c.advance (q.length + 1)) hs.written
      (by rw [Cursor.rest_advance, h]; simp) hend hs.value
    rw [hneg] at hnum
    unfold readAny
    rw [bind_of_ok hsk]
    simp +decide only [↓reduceIte]
    rw [bind_of_ok skip_apply, Cursor.advance_advance, bind_of_ok hnum, Cursor.advance_advance]
    simp only [List.length_cons]
    rw [Nat.add_assoc, Nat.add_comm 1]
    rfl

/-! ### Values of the reader's form -/

mutual

/-- How deeply a value nests: every array and object adds a level. -/
def depth : Json → Nat
  | .arr xs => depthItems xs + 1
  | .obj ms => depthMembers ms + 1
  | _ => 0

/-- The deepest of the items of an array. -/
def depthItems : List Json → Nat
  | [] => 0
  | x :: xs => max (depth x) (depthItems xs)

/-- The deepest of the values of an object's members. -/
def depthMembers : List (String × Json) → Nat
  | [] => 0
  | (_, v) :: ms => max (depth v) (depthMembers ms)

end

mutual

/-- What the pretty text of a value reads as: every number becomes what its own text reads
as, and everything else stays. -/
def reread : Json → Json
  | .num n => .num n.reread
  | .arr xs => .arr (rereadItems xs)
  | .obj ms => .obj (rereadMembers ms)
  | j => j

/-- The items of an array, each read again. -/
def rereadItems : List Json → List Json
  | [] => []
  | x :: xs => reread x :: rereadItems xs

/-- The members of an object, each value read again. -/
def rereadMembers : List (String × Json) → List (String × Json)
  | [] => []
  | (k, v) :: ms => (k, reread v) :: rereadMembers ms

end

theorem rereadItems_eq_map (xs : List Json) : rereadItems xs = xs.map reread := by
  induction xs with
  | nil => rfl
  | cons x xs ih => rw [rereadItems, ih, List.map_cons]

theorem rereadMembers_eq_map (ms : List (String × Json)) :
    rereadMembers ms = ms.map fun m => (m.1, reread m.2) := by
  induction ms with
  | nil => rfl
  | cons m ms ih => rw [rereadMembers, ih, List.map_cons]

theorem depth_le_depthItems {x : Json} {xs : List Json} (hx : x ∈ xs) : depth x ≤ depthItems xs := by
  induction xs with
  | nil => cases hx
  | cons y ys ih =>
    rw [depthItems]
    rcases List.mem_cons.1 hx with rfl | hx
    · exact le_max_left _ _
    · exact (ih hx).trans (le_max_right _ _)

theorem depth_le_depthMembers {m : String × Json} {ms : List (String × Json)} (hm : m ∈ ms) :
    depth m.2 ≤ depthMembers ms := by
  induction ms with
  | nil => cases hm
  | cons n ns ih =>
    obtain ⟨k, v⟩ := n
    rw [depthMembers]
    rcases List.mem_cons.1 hm with rfl | hm
    · exact le_max_left _ _
    · exact (ih hm).trans (le_max_right _ _)

/-- A value of the form the free-form reader makes: numbers of the reader's form, and objects
whose keys stand in strictly increasing order. -/
inductive Canonical : Json → Prop
  | null : Canonical .null
  | bool (b : Bool) : Canonical (.bool b)
  | num {n : Number} : n.Canonical → Canonical (.num n)
  | str (s : String) : Canonical (.str s)
  | arr {xs : List Json} : (∀ x ∈ xs, Canonical x) → Canonical (.arr xs)
  | obj {ms : List (String × Json)} : ms.Pairwise (fun a b => a.1 < b.1) →
      (∀ m ∈ ms, Canonical m.2) → Canonical (.obj ms)

/-! ### Reading any value -/

/-- Reading any value where the pretty text of `j` stands takes that text and answers `r`,
given fuel for the text and `k`, and nesting room above `k`. -/
def ReadsAnyAs (k : Nat) (j r : Json) : Prop :=
  ∀ (d fuel : Nat) (c : Cursor) (q after : List UInt8),
    c.rest = q ++ octets (prettyAt d j) ++ after → Blank q → Ends after →
    (octets (prettyAt d j)).length + k ≤ fuel → k < c.room →
    readAny fuel c = .ok (r, c.advance (q.length + (octets (prettyAt d j)).length))

theorem readShape_any (F : Nat) : readShape (F + 1) .any = readAny F := by
  unfold readShape
  rfl

theorem ReadsAnyAs.readsAs {k : Nat} {j r : Json} (h : ReadsAnyAs k j r) : ReadsAs .any k j r := by
  intro d fuel c q after hc hq hend hfuel hroom
  obtain ⟨F, rfl⟩ : ∃ F, fuel = F + 1 := ⟨fuel - 1, by omega⟩
  rw [readShape_any]
  exact h d F c q after hc hq hend (by omega) hroom

theorem ReadsAs.mono {s : Shape} {k k' : Nat} {j r : Json} (h : ReadsAs s k j r) (hk : k ≤ k') :
    ReadsAs s k' j r :=
  fun d fuel c q after hc hq hend hfuel hroom => h d fuel c q after hc hq hend (by omega) (by omega)

theorem ReadsAnyAs.mono {k k' : Nat} {j r : Json} (h : ReadsAnyAs k j r) (hk : k ≤ k') :
    ReadsAnyAs k' j r :=
  fun d fuel c q after hc hq hend hfuel hroom => h d fuel c q after hc hq hend (by omega) (by omega)

theorem readsAnyAs_null : ReadsAnyAs 0 .null .null := by
  intro d fuel c q after h hq _ hfuel _
  rw [octets_prettyAt_null] at h hfuel ⊢
  obtain ⟨F, rfl⟩ : ∃ F, fuel = F + 1 := ⟨fuel - 1, by simp at hfuel; omega⟩
  have hsk := skipBlanks_token (b := 110) (r := [117, 108, 108] ++ after) (by rw [h]; simp) hq rfl
  have hw := expectWord_of (c := c.advance (q.length + 1)) (w := [117, 108, 108]) (r := after)
    (by rw [Cursor.rest_advance, h]; simp)
  unfold readAny
  rw [bind_of_ok hsk]
  simp only [↓reduceIte]
  rw [bind_of_ok skip_apply, Cursor.advance_advance, bind_of_ok hw, Cursor.advance_advance]
  rfl


theorem readsAnyAs_bool (b : Bool) : ReadsAnyAs 0 (.bool b) (.bool b) := by
  intro d fuel c q after h hq _ hfuel _
  rw [octets_prettyAt_bool] at h hfuel ⊢
  cases b with
  | true =>
    simp only [↓reduceIte] at h hfuel ⊢
    obtain ⟨F, rfl⟩ : ∃ F, fuel = F + 1 := ⟨fuel - 1, by simp at hfuel; omega⟩
    have hs := skipBlanks_token (b := 116) (r := [114, 117, 101] ++ after) (by rw [h]; simp) hq rfl
    have hw := expectWord_of (c := c.advance (q.length + 1)) (w := [114, 117, 101]) (r := after)
      (by rw [Cursor.rest_advance, h]; simp)
    unfold readAny
    rw [bind_of_ok hs]
    simp +decide only [↓reduceIte]
    rw [bind_of_ok skip_apply, Cursor.advance_advance, bind_of_ok hw, Cursor.advance_advance]
    rfl
  | false =>
    simp only [Bool.false_eq_true, ↓reduceIte] at h hfuel ⊢
    obtain ⟨F, rfl⟩ : ∃ F, fuel = F + 1 := ⟨fuel - 1, by simp at hfuel; omega⟩
    have hs := skipBlanks_token (b := 102) (r := [97, 108, 115, 101] ++ after) (by rw [h]; simp) hq rfl
    have hw := expectWord_of (c := c.advance (q.length + 1)) (w := [97, 108, 115, 101])
      (r := after) (by rw [Cursor.rest_advance, h]; simp)
    unfold readAny
    rw [bind_of_ok hs]
    simp +decide only [↓reduceIte]
    rw [bind_of_ok skip_apply, Cursor.advance_advance, bind_of_ok hw, Cursor.advance_advance]
    rfl

theorem octets_prettyAt_num (d : Nat) (n : Number) : octets (prettyAt d (.num n)) = octets n.text := by
  rw [prettyAt_scalar d (.num n) (fun _ h => nomatch h) (fun _ h => nomatch h), compact]

theorem readsAnyAs_num {n : Number} (hn : n.Canonical) : ReadsAnyAs 0 (.num n) (.num n.reread) := by
  intro d fuel c q after h hq hend hfuel _
  rw [octets_prettyAt_num] at h hfuel ⊢
  have hs := Number.Canonical.spelled hn
  obtain ⟨b, r, hbr, -⟩ := hs.written.octets_cons
  have hlen : 0 < (octets n.text).length := by
    rw [hs.text, hbr]
    simp
  obtain ⟨F, rfl⟩ : ∃ F, fuel = F + 1 := ⟨fuel - 1, by omega⟩
  exact readAny_spelled hs F h hq hend.numberEnd

theorem readsAnyAs_str (s : String) : ReadsAnyAs 0 (.str s) (.str s) := by
  intro d fuel c q after h hq _ hfuel _
  rw [octets_prettyAt_str] at h hfuel ⊢
  obtain ⟨hsk, hr⟩ := readString_here h hq
  obtain ⟨F, rfl⟩ : ∃ F, fuel = F + 1 := ⟨fuel - 1, by rw [octets_quote] at hfuel; simp at hfuel; omega⟩
  unfold readAny
  rw [bind_of_ok hsk]
  simp +decide only [↓reduceIte]
  rw [bind_of_ok hr]
  rfl

theorem readsAnyAs_arr {xs : List Json} {k : Nat} {f : Json → Json}
    (hxs : ∀ x ∈ xs, Opens x ∧ ReadsAnyAs k x (f x)) :
    ReadsAnyAs (k + 1) (.arr xs) (.arr (xs.map f)) := by
  intro d fuel c q after h hq hend hfuel hroom
  -- the text is an opening bracket, what the item loop reads, and a closing bracket
  obtain ⟨mid, hmid⟩ : ∃ mid, octets (prettyAt d (.arr xs)) = 91 :: mid ++ [93] := by
    cases xs with
    | nil => exact ⟨[], by rw [octets_prettyAt_arr_nil]; rfl⟩
    | cons x xs =>
      exact ⟨10 :: (itemOctets d x ++ laterItems d xs ++ 10 :: List.replicate (2 * d) 32),
        by rw [octets_prettyAt_arr]; simp [closing]⟩
  have hL : (octets (prettyAt d (.arr xs))).length = mid.length + 2 := by rw [hmid]; simp
  obtain ⟨F, rfl⟩ : ∃ F, fuel = F + 1 := ⟨fuel - 1, by omega⟩
  have hsk := skipBlanks_token (b := 91) (r := mid ++ [93] ++ after) (by rw [h, hmid]; simp) hq rfl
  have henter := enterNesting_of (c := c.advance q.length) (by simp only [Cursor.advance_room]; omega)
  have hitems := readItems_all (c := { c.advance (q.length + 1) with room := c.room - 1 })
    (F := F) (k := k) (f := f) after (fun x hx => ⟨(hxs x hx).1, (hxs x hx).2.readsAs⟩)
    (by simp only [Cursor.rest_room]; rw [Cursor.rest_advance, h, hmid]; simp) (by omega)
    (by simp; omega)
  have hclose := closeArray_of (c := { c.advance (q.length + 1 + mid.length) with room := c.room - 1 })
    (r := after) (by
      simp only [Cursor.rest_room]
      exact Cursor.rest_of_eq_length c (q := q ++ 91 :: mid) (r := 93 :: after)
        (by rw [h, hmid]; simp) (by simp; omega))
  unfold readAny
  rw [bind_of_ok hsk]
  simp +decide only [↓reduceIte]
  rw [bind_of_ok henter]
  simp only [Cursor.advance_room]
  rw [bind_of_ok skip_apply]
  simp only [Cursor.advance_with_room, Cursor.advance_advance]
  rw [bind_of_ok hitems]
  simp only [Cursor.advance_with_room, Cursor.advance_advance, hL, Nat.add_sub_cancel]
  rw [bind_of_ok hclose, bind_of_ok leaveNesting_apply]
  simp only [Cursor.advance_with_room, Cursor.advance_advance]
  rw [Nat.sub_add_cancel (by omega), show q.length + 1 + mid.length + 1 = q.length + (mid.length + 2) by omega]
  rfl


theorem readMembers_member {G : Nat} {first : Bool} {acc : List (String × Json)} {k : String}
    {v : Json} {c₁ c₂ c₃ : Cursor} (hk : nextKey first c = .ok (some k, c₁))
    (hcolon : expectColon c₁ = .ok ((), c₂)) (hval : readAny G c₂ = .ok (v, c₃)) :
    readMembers (G + 1) first acc c = readMembers G false ((k, v) :: acc) c₃ := by
  conv_lhs => unfold readMembers
  rw [bind_of_ok hk]
  simp only
  rw [bind_of_ok hcolon, bind_of_ok hval]

theorem readMembers_later {d k : Nat} {f : Json → Json} (after : List UInt8) :
    ∀ (ns : List (String × Json)) (G : Nat) (c : Cursor) (acc : List (String × Json)),
      (∀ n ∈ ns, ReadsAnyAs k n.2 (f n.2)) →
      c.rest = laterMembers d ns ++ closing d 125 ++ after →
      (laterMembers d ns).length + k < G → k < c.room →
      readMembers G false acc c =
        .ok (acc.reverse ++ ns.map (fun n => (n.1, f n.2)),
          c.advance ((laterMembers d ns).length + 1 + 2 * d))
  | [], G, c, acc, _, h, hG, _ => by
    obtain ⟨G, rfl⟩ : ∃ G', G = G' + 1 := ⟨G - 1, by simp at hG; omega⟩
    have hk := nextKey_close (i := false) (q := 10 :: List.replicate (2 * d) 32) (r := after)
      (by rw [h]; simp [closing]) (blank_closing_head d)
    unfold readMembers
    rw [bind_of_ok hk]
    simp only [List.map_nil, List.append_nil, laterMembers_nil, List.length_nil,
      List.length_cons, List.length_replicate]
    rw [Nat.zero_add, Nat.add_comm 1]
    rfl
  | n :: ns, G, c, acc, hns, h, hG, hroom => by
    have hlen : (laterMembers d (n :: ns)).length = 2 + 2 * (d + 1) + (octets (quote n.1)).length +
        2 + (octets (prettyAt (d + 1) n.2)).length + (laterMembers d ns).length := by
      simp [memberOctets]; omega
    obtain ⟨G, rfl⟩ : ∃ G', G = G' + 1 := ⟨G - 1, by omega⟩
    have hk := nextKey_later (c := c) (q := 10 :: List.replicate (2 * (d + 1)) 32) (k := n.1)
      (r := [58, 32] ++ octets (prettyAt (d + 1) n.2) ++ laterMembers d ns ++ closing d 125 ++ after)
      (by rw [h]; simp [memberOctets]) (blank_closing_head (d + 1))
    have hcolon := expectColon_of
      (c := c.advance (1 + (10 :: List.replicate (2 * (d + 1)) (32 : UInt8)).length + (octets (quote n.1)).length))
      (r := 32 :: (octets (prettyAt (d + 1) n.2) ++ laterMembers d ns ++ closing d 125 ++ after))
      (Cursor.rest_of_eq_length c
        (q := 44 :: 10 :: List.replicate (2 * (d + 1)) 32 ++ octets (quote n.1))
        (by rw [h]; simp [memberOctets]) (by simp; omega))
    have hval := hns n List.mem_cons_self (d + 1) G
      ((c.advance (1 + (10 :: List.replicate (2 * (d + 1)) (32 : UInt8)).length + (octets (quote n.1)).length)).advance 1)
      [32] (laterMembers d ns ++ closing d 125 ++ after)
      (by
        rw [Cursor.advance_advance]
        exact Cursor.rest_of_eq_length c
          (q := 44 :: 10 :: List.replicate (2 * (d + 1)) 32 ++ octets (quote n.1) ++ [58])
          (by rw [h]; simp [memberOctets]) (by simp; omega))
      (Blank.cons rfl Blank.nil) (by cases ns <;> simp [Ends, closing]) (by omega) (by simpa using hroom)
    have hrest := readMembers_later (d := d) (k := k) (f := f) after ns G
      (c.advance (2 + 2 * (d + 1) + (octets (quote n.1)).length + 2 +
        (octets (prettyAt (d + 1) n.2)).length)) ((n.1, f n.2) :: acc)
      (fun x hx => hns x (List.mem_cons_of_mem _ hx))
      (Cursor.rest_of_eq_length c
        (q := 44 :: 10 :: List.replicate (2 * (d + 1)) 32 ++ octets (quote n.1) ++ [58, 32] ++
          octets (prettyAt (d + 1) n.2))
        (by rw [h]; simp [memberOctets]) (by simp; omega))
      (by omega) (by simpa using hroom)
    have hpos : 1 + (10 :: List.replicate (2 * (d + 1)) (32 : UInt8)).length +
        (octets (quote n.1)).length + (1 + ([(32 : UInt8)].length + (octets (prettyAt (d + 1) n.2)).length)) =
        2 + 2 * (d + 1) + (octets (quote n.1)).length + 2 + (octets (prettyAt (d + 1) n.2)).length := by
      simp; omega
    rw [readMembers_member hk hcolon hval, Cursor.advance_advance, Cursor.advance_advance, hpos, hrest,
      Cursor.advance_advance, hlen]
    simp only [List.reverse_cons, List.append_assoc, List.singleton_append, List.map_cons,
      Nat.add_assoc]

theorem readMembers_all {d k F : Nat} {f : Json → Json} {ms : List (String × Json)}
    (after : List UInt8) (hms : ∀ m ∈ ms, ReadsAnyAs k m.2 (f m.2))
    (h : c.rest = (octets (prettyAt d (.obj ms))).drop 1 ++ after)
    (hF : (octets (prettyAt d (.obj ms))).length + k < F + 1) (hroom : k < c.room) :
    readMembers F true [] c =
      .ok (ms.map (fun m => (m.1, f m.2)), c.advance ((octets (prettyAt d (.obj ms))).length - 2)) := by
  cases ms with
  | nil =>
    rw [octets_prettyAt_obj_nil] at h hF ⊢
    obtain ⟨G, rfl⟩ : ∃ G, F = G + 1 := ⟨F - 1, by simp at hF; omega⟩
    have hk := nextKey_close (i := true) (q := []) (r := after) (by simpa using h) Blank.nil
    unfold readMembers
    rw [bind_of_ok hk]
    rfl
  | cons m ms =>
    rw [octets_prettyAt_obj] at h hF ⊢
    have hlen : (([123, 10] : List UInt8) ++ memberOctets d m ++ laterMembers d ms ++
        closing d 125).length = 1 + 2 * (d + 1) + (octets (quote m.1)).length + 2 +
          (octets (prettyAt (d + 1) m.2)).length + ((laterMembers d ms).length + 1 + 2 * d) + 2 := by
      simp only [memberOctets, closing, List.length_append, List.length_cons, List.length_replicate,
        List.length_nil]
      omega
    rw [hlen] at hF
    obtain ⟨G, rfl⟩ : ∃ G, F = G + 1 := ⟨F - 1, by omega⟩
    have hk := nextKey_first (c := c) (q := 10 :: List.replicate (2 * (d + 1)) 32) (k := m.1)
      (r := [58, 32] ++ octets (prettyAt (d + 1) m.2) ++ laterMembers d ms ++ closing d 125 ++ after)
      (by rw [h]; simp [memberOctets]) (blank_closing_head (d + 1))
    have hcolon := expectColon_of
      (c := c.advance ((10 :: List.replicate (2 * (d + 1)) (32 : UInt8)).length + (octets (quote m.1)).length))
      (r := 32 :: (octets (prettyAt (d + 1) m.2) ++ laterMembers d ms ++ closing d 125 ++ after))
      (Cursor.rest_of_eq_length c
        (q := 10 :: List.replicate (2 * (d + 1)) 32 ++ octets (quote m.1))
        (by rw [h]; simp [memberOctets]) (by simp; omega))
    have hval := hms m List.mem_cons_self (d + 1) G
      ((c.advance ((10 :: List.replicate (2 * (d + 1)) (32 : UInt8)).length + (octets (quote m.1)).length)).advance 1)
      [32] (laterMembers d ms ++ closing d 125 ++ after)
      (by
        rw [Cursor.advance_advance]
        exact Cursor.rest_of_eq_length c
          (q := 10 :: List.replicate (2 * (d + 1)) 32 ++ octets (quote m.1) ++ [58])
          (by rw [h]; simp [memberOctets]) (by simp; omega))
      (Blank.cons rfl Blank.nil) (by cases ms <;> simp [Ends, closing]) (by omega) (by simp; omega)
    have hrest := readMembers_later (d := d) (k := k) (f := f) after ms G
      (c.advance (1 + 2 * (d + 1) + (octets (quote m.1)).length + 2 +
        (octets (prettyAt (d + 1) m.2)).length)) [(m.1, f m.2)]
      (fun x hx => hms x (List.mem_cons_of_mem _ hx))
      (Cursor.rest_of_eq_length c
        (q := 10 :: List.replicate (2 * (d + 1)) 32 ++ octets (quote m.1) ++ [58, 32] ++
          octets (prettyAt (d + 1) m.2))
        (by rw [h]; simp [memberOctets]) (by simp; omega))
      (by omega) hroom
    have hpos : (10 :: List.replicate (2 * (d + 1)) (32 : UInt8)).length +
        (octets (quote m.1)).length + (1 + ([(32 : UInt8)].length + (octets (prettyAt (d + 1) m.2)).length)) =
        1 + 2 * (d + 1) + (octets (quote m.1)).length + 2 + (octets (prettyAt (d + 1) m.2)).length := by
      simp; omega
    rw [readMembers_member hk hcolon hval, Cursor.advance_advance, Cursor.advance_advance, hpos,
      hrest, Cursor.advance_advance, hlen, Nat.add_sub_cancel]
    simp


theorem foldl_keepNew {l acc : List (String × Json)} (hl : (l.map Prod.fst).Nodup)
    (hacc : ∀ m ∈ l, ∀ a ∈ acc, a.1 ≠ m.1) :
    l.foldl (fun acc m => if acc.any (·.1 == m.1) then acc else m :: acc) acc = l.reverse ++ acc := by
  induction l generalizing acc with
  | nil => rfl
  | cons m l ih =>
    rw [List.map_cons, List.nodup_cons] at hl
    have hnew : acc.any (·.1 == m.1) = false := by
      rw [List.any_eq_false]
      intro a ha hkey
      exact hacc m List.mem_cons_self a ha (by simpa using hkey)
    rw [List.foldl_cons, hnew, if_neg Bool.false_ne_true, ih hl.2]
    · simp
    · intro n hn a ha
      rcases List.mem_cons.1 ha with rfl | ha
      · exact fun he => hl.1 (he ▸ List.mem_map_of_mem hn)
      · exact hacc n (List.mem_cons_of_mem _ hn) a ha

theorem sortMembers_of_sorted {ms : List (String × Json)}
    (h : ms.Pairwise (fun a b => a.1 < b.1)) : sortMembers ms = ms := by
  have hnd : (ms.map Prod.fst).Nodup :=
    List.pairwise_map.2 (h.imp fun hab => ne_of_lt hab)
  unfold sortMembers
  rw [foldl_keepNew (by rw [List.map_reverse]; exact List.nodup_reverse.2 hnd) (by simp),
    List.reverse_reverse, List.append_nil]
  exact List.mergeSort_of_pairwise (h.imp fun hab => by simp [le_of_lt hab])

theorem readsAnyAs_obj {ms : List (String × Json)} {k : Nat} {f : Json → Json}
    (hms : ∀ m ∈ ms, ReadsAnyAs k m.2 (f m.2)) (hsorted : ms.Pairwise (fun a b => a.1 < b.1)) :
    ReadsAnyAs (k + 1) (.obj ms) (.obj (ms.map fun m => (m.1, f m.2))) := by
  intro d fuel c q after h hq hend hfuel hroom
  -- the text is an opening brace, what the member loop reads, and a closing brace
  obtain ⟨mid, hmid⟩ : ∃ mid, octets (prettyAt d (.obj ms)) = 123 :: mid ++ [125] := by
    cases ms with
    | nil => exact ⟨[], by rw [octets_prettyAt_obj_nil]; rfl⟩
    | cons m ms =>
      exact ⟨10 :: (memberOctets d m ++ laterMembers d ms ++ 10 :: List.replicate (2 * d) 32),
        by rw [octets_prettyAt_obj]; simp [closing]⟩
  have hL : (octets (prettyAt d (.obj ms))).length = mid.length + 2 := by rw [hmid]; simp
  obtain ⟨F, rfl⟩ : ∃ F, fuel = F + 1 := ⟨fuel - 1, by omega⟩
  have hsk := skipBlanks_token (b := 123) (r := mid ++ [125] ++ after) (by rw [h, hmid]; simp) hq rfl
  have henter := enterNesting_of (c := c.advance q.length) (by simp only [Cursor.advance_room]; omega)
  have hmembers := readMembers_all (c := { c.advance (q.length + 1) with room := c.room - 1 })
    (F := F) (k := k) (f := f) after hms
    (by simp only [Cursor.rest_room]; rw [Cursor.rest_advance, h, hmid]; simp) (by omega)
    (by simp; omega)
  have hclose := closeObject_of (c := { c.advance (q.length + 1 + mid.length) with room := c.room - 1 })
    (r := after) (by
      simp only [Cursor.rest_room]
      exact Cursor.rest_of_eq_length c (q := q ++ 123 :: mid) (r := 125 :: after)
        (by rw [h, hmid]; simp) (by simp; omega))
  -- the members come in the order written, which is already sorted
  have hsort : sortMembers (ms.map fun m => (m.1, f m.2)) = ms.map fun m => (m.1, f m.2) :=
    sortMembers_of_sorted (List.pairwise_map.2 hsorted)
  unfold readAny
  rw [bind_of_ok hsk]
  simp +decide only [↓reduceIte]
  rw [bind_of_ok henter]
  simp only [Cursor.advance_room]
  rw [bind_of_ok skip_apply]
  simp only [Cursor.advance_with_room, Cursor.advance_advance]
  rw [bind_of_ok hmembers]
  simp only [Cursor.advance_with_room, Cursor.advance_advance, hL, Nat.add_sub_cancel]
  rw [bind_of_ok hclose, bind_of_ok leaveNesting_apply]
  simp only [Cursor.advance_with_room, Cursor.advance_advance, hsort]
  rw [Nat.sub_add_cancel (by omega), show q.length + 1 + mid.length + 1 = q.length + (mid.length + 2) by omega]
  rfl


/-- The pretty text of a value of the reader's form opens with no blank and no closing bracket. -/
theorem Canonical.opens {j : Json} (h : j.Canonical) : Opens j := by
  intro d
  cases h with
  | null => exact ⟨110, _, octets_prettyAt_null d, rfl, by decide⟩
  | bool b =>
    cases b
    · exact ⟨102, _, by rw [octets_prettyAt_bool]; rfl, rfl, by decide⟩
    · exact ⟨116, _, by rw [octets_prettyAt_bool]; rfl, rfl, by decide⟩
  | @num n hn =>
    have hs := Number.Canonical.spelled hn
    obtain ⟨b, r, hbr, hb⟩ := hs.written.octets_cons
    obtain ⟨-, hsp, -, h93, -⟩ := isDigitOctet_facts hb
    rw [octets_prettyAt_num, hs.text, hbr]
    cases n.numeral.negative
    · exact ⟨b, r, rfl, hsp, h93⟩
    · exact ⟨45, b :: r, rfl, rfl, by decide⟩
  | str s => exact ⟨34, _, by rw [octets_prettyAt_str, octets_quote]; rfl, rfl, by decide⟩
  | @arr xs _ =>
    cases xs with
    | nil => exact ⟨91, _, octets_prettyAt_arr_nil d, rfl, by decide⟩
    | cons x xs => exact ⟨91, _, by rw [octets_prettyAt_arr]; rfl, rfl, by decide⟩
  | @obj ms _ _ =>
    cases ms with
    | nil => exact ⟨123, _, octets_prettyAt_obj_nil d, rfl, by decide⟩
    | cons m ms => exact ⟨123, _, by rw [octets_prettyAt_obj]; rfl, rfl, by decide⟩

theorem Canonical.readsAnyAs {j : Json} (h : j.Canonical) : ReadsAnyAs j.depth j j.reread := by
  induction h with
  | null => exact readsAnyAs_null
  | bool b => exact readsAnyAs_bool b
  | num hn => exact readsAnyAs_num hn
  | str s => exact readsAnyAs_str s
  | @arr xs hxs ih =>
    show ReadsAnyAs (depthItems xs + 1) (.arr xs) (.arr (rereadItems xs))
    rw [rereadItems_eq_map]
    exact readsAnyAs_arr fun x hx => ⟨(hxs x hx).opens, (ih x hx).mono (depth_le_depthItems hx)⟩
  | @obj ms hsorted _ ih =>
    show ReadsAnyAs (depthMembers ms + 1) (.obj ms) (.obj (rereadMembers ms))
    rw [rereadMembers_eq_map]
    exact readsAnyAs_obj (fun m hm => (ih m hm).mono (depth_le_depthMembers hm)) hsorted


theorem depthItems_le {xs : List Json} {n : Nat} (h : ∀ x ∈ xs, depth x ≤ n) : depthItems xs ≤ n := by
  induction xs with
  | nil => exact Nat.zero_le n
  | cons x xs ih =>
    rw [depthItems]
    exact max_le (h x List.mem_cons_self) (ih fun y hy => h y (List.mem_cons_of_mem _ hy))

theorem depthMembers_le {ms : List (String × Json)} {n : Nat} (h : ∀ m ∈ ms, depth m.2 ≤ n) :
    depthMembers ms ≤ n := by
  induction ms with
  | nil => exact Nat.zero_le n
  | cons m ms ih =>
    obtain ⟨k, v⟩ := m
    rw [depthMembers]
    exact max_le (h (k, v) List.mem_cons_self) (ih fun y hy => h y (List.mem_cons_of_mem _ hy))

theorem length_item_lt {d : Nat} {xs : List Json} {y : Json} (hy : y ∈ xs) :
    (octets (prettyAt (d + 1) y)).length + 2 ≤ (octets (prettyAt d (.arr xs))).length := by
  cases xs with
  | nil => cases hy
  | cons x xs =>
    rw [octets_prettyAt_arr]
    simp only [itemOctets, laterItems, closing, List.length_append, List.length_cons,
      List.length_replicate, List.length_flatMap, List.length_nil]
    rcases List.mem_cons.1 hy with rfl | hy
    · omega
    · have := List.le_sum_of_mem (List.mem_map_of_mem
        (f := fun y => ([44, 10] ++ (List.replicate (2 * (d + 1)) 32 ++ octets (prettyAt (d + 1) y))).length) hy)
      simp only [List.length_append, List.length_cons, List.length_replicate, List.length_nil] at this
      omega

theorem length_member_lt {d : Nat} {ms : List (String × Json)} {m : String × Json} (hm : m ∈ ms) :
    (octets (prettyAt (d + 1) m.2)).length + 2 ≤ (octets (prettyAt d (.obj ms))).length := by
  cases ms with
  | nil => cases hm
  | cons n ns =>
    rw [octets_prettyAt_obj]
    simp only [memberOctets, laterMembers, closing, List.length_append, List.length_cons,
      List.length_replicate, List.length_flatMap, List.length_nil]
    rcases List.mem_cons.1 hm with rfl | hm
    · omega
    · have := List.le_sum_of_mem (List.mem_map_of_mem
        (f := fun m => ([44, 10] ++ (List.replicate (2 * (d + 1)) 32 ++ octets (quote m.1) ++ [58, 32] ++
          octets (prettyAt (d + 1) m.2))).length) hm)
      simp only [List.length_append, List.length_cons, List.length_replicate, List.length_nil] at this
      omega

theorem depth_le_length {j : Json} (h : j.Canonical) (d : Nat) :
    j.depth ≤ (octets (prettyAt d j)).length := by
  induction h generalizing d with
  | null | bool _ | num _ | str _ => exact Nat.zero_le _
  | @arr xs _ ih =>
    have hlen : 2 ≤ (octets (prettyAt d (.arr xs))).length := by
      cases xs with
      | nil => rw [octets_prettyAt_arr_nil]; simp
      | cons x xs => exact (Nat.le_add_left 2 _).trans (length_item_lt List.mem_cons_self)
    have hitems : depthItems xs ≤ (octets (prettyAt d (.arr xs))).length - 1 :=
      depthItems_le fun x hx => by have := ih x hx (d + 1); have := length_item_lt (d := d) hx; omega
    show depthItems xs + 1 ≤ _
    omega
  | @obj ms _ _ ih =>
    have hlen : 2 ≤ (octets (prettyAt d (.obj ms))).length := by
      cases ms with
      | nil => rw [octets_prettyAt_obj_nil]; simp
      | cons m ms => exact (Nat.le_add_left 2 _).trans (length_member_lt List.mem_cons_self)
    have hmembers : depthMembers ms ≤ (octets (prettyAt d (.obj ms))).length - 1 :=
      depthMembers_le fun m hm => by have := ih m hm (d + 1); have := length_member_lt (d := d) hm; omega
    show depthMembers ms + 1 ≤ _
    omega


/-- **A value of the reader's form written in pretty form reads back as `reread` of itself**:
strings, keys, arrays and objects as they were, and each number as what its text reads as, as
long as the value nests less deeply than the reader allows. -/
theorem parse_pretty {j : Json} (hj : j.Canonical) (hd : j.depth < maxNesting) :
    parse (pretty j) = .ok j.reread := by
  let c : Cursor := { src := (pretty j).toUTF8, pos := 0, room := maxNesting }
  have hrest : c.rest = [] ++ octets (prettyAt 0 j) ++ [] := by
    show (pretty j).toUTF8.data.toList.drop 0 = _
    rw [octets_eq_data]; simp [pretty]
  have hsize : (pretty j).toUTF8.size = (octets (prettyAt 0 j)).length := by
    rw [← octets_eq_data]; simp [pretty]
  have hval := hj.readsAnyAs.readsAs 0 (4 * (pretty j).toUTF8.size + 64) c [] [] hrest Blank.nil
    (by simp [Ends]) (by have := depth_le_length hj 0; rw [hsize]; omega) (by simpa [c] using hd)
  have hend := skipBlanks_of (c := c.advance (([] : List UInt8).length + (octets (prettyAt 0 j)).length))
    (q := []) (r := []) (Cursor.rest_of_eq_length c (r := []) (by simpa using hrest) (by simp)) Blank.nil
    (by simp [NoLeadBlank])
  unfold parse readDocument
  simp only [StateT.run']
  rw [bind_of_ok hval, bind_of_ok hend]
  rfl

end AgentDeck.Json
