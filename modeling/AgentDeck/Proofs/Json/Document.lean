import Mathlib
import AgentDeck.Proofs.Json.Layout

/-!
Reading back a document in pretty form.

Wherever the pretty text of a value of shape `s` stands, after blanks and before a line
break, a comma or the end, the reader of `s` takes exactly that text and answers the value
(`Fits.readsBack`). The proof follows `Fits`: one lemma for each kind of value, the array and
object lemmas built on one lemma for the loop over their items and members. A whole
document in pretty form thus reads back as the value written (`readDocument_pretty`).
-/

namespace AgentDeck.Json

variable {c : Cursor} {q after : List UInt8}

/-- What follows a value in pretty form: the end of the text, a line break or a comma. -/
def Ends (after : List UInt8) : Prop := ∀ b ∈ after.head?, b = 10 ∨ b = 44

theorem Ends.numberEnd (h : Ends after) : NumberEnd after := by
  intro b hb
  rcases h b hb with rfl | rfl <;> decide

/-- Reading with shape `s` where the pretty text of `j` stands takes that text and answers
`j`, given fuel and nesting room for the shape. -/
def ReadsBack (s : Shape) (j : Json) : Prop :=
  ∀ (d fuel : Nat) (c : Cursor) (q after : List UInt8),
    c.rest = q ++ octets (prettyAt d j) ++ after → Blank q → Ends after →
    (octets (prettyAt d j)).length + s.depth < fuel → s.depth < c.room →
    readShape fuel s c = .ok (j, c.advance (q.length + (octets (prettyAt d j)).length))

/-- Reading with shape `s` where the pretty text of `j` stands takes that text and answers
`r`, given fuel past the text and `k`, and nesting room above `k`. A value reads back when it
reads as itself with the depth of its shape (`ReadsBack`). -/
def ReadsAs (s : Shape) (k : Nat) (j r : Json) : Prop :=
  ∀ (d fuel : Nat) (c : Cursor) (q after : List UInt8),
    c.rest = q ++ octets (prettyAt d j) ++ after → Blank q → Ends after →
    (octets (prettyAt d j)).length + k < fuel → k < c.room →
    readShape fuel s c = .ok (r, c.advance (q.length + (octets (prettyAt d j)).length))

/-- The pretty text of `j` starts with an octet that is no blank and no closing bracket. -/
def Opens (j : Json) : Prop :=
  ∀ d, ∃ b r, octets (prettyAt d j) = b :: r ∧ isSpace b = false ∧ b ≠ 93

theorem Fits.opens {s : Shape} {j : Json} (h : Fits s j) : Opens j := fun d => by
  obtain ⟨b, r, hbr, hsp, h93, -⟩ := h.octets_head d
  exact ⟨b, r, hbr, hsp, h93⟩

/-- Blanks before a token are skipped, and the reader looks at the token's first octet. -/
theorem skipBlanks_token {b : UInt8} {r : List UInt8} (h : c.rest = q ++ b :: r)
    (hq : Blank q) (hb : isSpace b = false) :
    skipBlanks c = .ok (some b, c.advance q.length) :=
  skipBlanks_of h hq (fun x hx => by cases hx; exact hb)

/-! ### Scalars -/

/-- A written string where a value is expected: the reader finds its opening quote and reads
it back. -/
theorem readString_here {s : String} (h : c.rest = q ++ octets (quote s) ++ after)
    (hq : Blank q) :
    skipBlanks c = .ok (some 34, c.advance q.length) ∧
      readString (c.advance q.length) =
        .ok (s, c.advance (q.length + (octets (quote s)).length)) := by
  refine ⟨skipBlanks_token (r := escaped s.toList ++ [34] ++ after)
    (by rw [h, octets_quote]; simp) hq rfl, ?_⟩
  rw [readString_quote s (r := after) (Cursor.rest_of_eq c (by rw [h, List.append_assoc])),
    Cursor.advance_advance]

theorem readsBack_text (e s : String) : ReadsBack (.text e) (.str s) := by
  intro d fuel c q after h hq _ hfuel _
  obtain ⟨F, rfl⟩ : ∃ F, fuel = F + 1 := ⟨fuel - 1, by omega⟩
  rw [octets_prettyAt_str] at h ⊢
  obtain ⟨hs, hr⟩ := readString_here h hq
  unfold readShape
  simp only
  rw [bind_of_ok hs]
  simp only [↓reduceIte]
  rw [bind_of_ok hr]
  rfl

theorem readsBack_tags {names : List String} {s : String} (hs : s ∈ names) :
    ReadsBack (.tags names) (.str s) := by
  intro d fuel c q after h hq _ hfuel _
  obtain ⟨F, rfl⟩ : ∃ F, fuel = F + 1 := ⟨fuel - 1, by omega⟩
  rw [octets_prettyAt_str] at h ⊢
  obtain ⟨hsk, hr⟩ := readString_here h hq
  have hc : names.contains s = true := List.contains_iff_mem.2 hs
  unfold readShape
  simp only
  rw [bind_of_ok hsk]
  simp only [↓reduceIte]
  rw [bind_of_ok hr]
  simp only [hc, ↓reduceIte]
  rfl

theorem readsBack_parsed {e : String} {conv : String → Except String Json} {s : String}
    (hconv : conv s = .ok (.str s)) : ReadsBack (.parsed e conv) (.str s) := by
  intro d fuel c q after h hq _ hfuel _
  obtain ⟨F, rfl⟩ : ∃ F, fuel = F + 1 := ⟨fuel - 1, by omega⟩
  rw [octets_prettyAt_str] at h ⊢
  obtain ⟨hsk, hr⟩ := readString_here h hq
  unfold readShape
  simp only
  rw [bind_of_ok hsk]
  simp only [↓reduceIte]
  rw [bind_of_ok hr]
  simp only [hconv]
  rfl

theorem readsBack_flag (b : Bool) : ReadsBack .flag (.bool b) := by
  intro d fuel c q after h hq _ hfuel _
  obtain ⟨F, rfl⟩ : ∃ F, fuel = F + 1 := ⟨fuel - 1, by omega⟩
  rw [octets_prettyAt_bool] at h ⊢
  cases b with
  | true =>
    simp only [↓reduceIte] at h ⊢
    have hs := skipBlanks_token (b := 116) (r := [114, 117, 101] ++ after)
      (by rw [h]; simp) hq rfl
    have hw := expectWord_of (c := c.advance (q.length + 1)) (w := [114, 117, 101]) (r := after)
      (by rw [Cursor.rest_advance, h]; simp)
    unfold readShape
    simp only
    rw [bind_of_ok hs]
    simp only [↓reduceIte]
    rw [bind_of_ok skip_apply, Cursor.advance_advance, bind_of_ok hw, Cursor.advance_advance]
    rfl
  | false =>
    simp only [Bool.false_eq_true, ↓reduceIte] at h ⊢
    have hs := skipBlanks_token (b := 102) (r := [97, 108, 115, 101] ++ after)
      (by rw [h]; simp) hq rfl
    have hw := expectWord_of (c := c.advance (q.length + 1)) (w := [97, 108, 115, 101])
      (r := after) (by rw [Cursor.rest_advance, h]; simp)
    unfold readShape
    simp only
    rw [bind_of_ok hs]
    simp +decide only [↓reduceIte]
    rw [bind_of_ok skip_apply, Cursor.advance_advance, bind_of_ok hw, Cursor.advance_advance]
    rfl

theorem readsBack_number {s : Shape} {n : Nat} {v : Number} {negative : Bool}
    (hkind : (∃ name max, s = .unsigned name max) ∨ ∃ name lo hi, s = .signed name lo hi)
    (hv : Numeral.value ⟨negative, (Nat.toDigits 10 n).map (fun ch => ch.toNat - 48), none, none⟩ =
      .ok v)
    (hfit : fitNumber s v = .ok (.num v))
    (htext : ∀ d, octets (prettyAt d (.num v)) =
      (if negative then [45] else []) ++ octets (toString n)) :
    ReadsBack s (.num v) := by
  intro d fuel c q after h hq hend hfuel _
  obtain ⟨F, rfl⟩ : ∃ F, fuel = F + 1 := ⟨fuel - 1, by omega⟩
  rw [htext] at h ⊢
  obtain ⟨b, r, hbr, hb⟩ := octets_toString_cons n
  obtain ⟨hdig, hsp, h45, -, -⟩ := isDigitOctet_facts hb
  cases negative with
  | false =>
    simp only [Bool.false_eq_true, ↓reduceIte, List.nil_append] at h ⊢
    have hsk := skipBlanks_token (b := b) (r := r ++ after) (by rw [h, hbr]; simp) hq hsp
    have hnum := readNumber_toString (c := c.advance q.length)
      (Cursor.rest_of_eq c (by rw [h, List.append_assoc])) hend.numberEnd hv
    rcases hkind with ⟨name, max, rfl⟩ | ⟨name, lo, hi, rfl⟩ <;>
    · unfold readShape
      simp only
      rw [bind_of_ok hsk]
      simp only [h45, hdig, or_true, and_self, ↓reduceIte, decide_false]
      rw [bind_of_ok hnum, Cursor.advance_advance]
      simp only [hfit]
      rfl
  | true =>
    simp only [↓reduceIte, List.singleton_append] at h ⊢
    have hsk := skipBlanks_token (b := 45) (r := octets (toString n) ++ after) (by rw [h]; simp)
      hq rfl
    have hnum := readNumber_toString (c := c.advance (q.length + 1))
      (by rw [Cursor.rest_advance, h]; simp) hend.numberEnd hv
    rcases hkind with ⟨name, max, rfl⟩ | ⟨name, lo, hi, rfl⟩ <;>
    · unfold readShape
      simp only
      rw [bind_of_ok hsk]
      simp only [true_or, ↓reduceIte, decide_true]
      rw [bind_of_ok skip_apply, Cursor.advance_advance, bind_of_ok hnum, Cursor.advance_advance]
      simp only [hfit, List.length_cons]
      rw [Nat.add_assoc, Nat.add_comm 1]
      rfl

/-! ### Options -/

theorem readsBack_null (inner : Shape) : ReadsBack (.opt inner) .null := by
  intro d fuel c q after h hq _ hfuel _
  obtain ⟨F, rfl⟩ : ∃ F, fuel = F + 1 := ⟨fuel - 1, by omega⟩
  rw [octets_prettyAt_null] at h ⊢
  have hsk := skipBlanks_token (b := 110) (r := [117, 108, 108] ++ after) (by rw [h]; simp) hq rfl
  have hw := expectWord_of (c := c.advance (q.length + 1)) (w := [117, 108, 108]) (r := after)
    (by rw [Cursor.rest_advance, h]; simp)
  unfold readShape
  simp only
  rw [bind_of_ok hsk]
  simp only
  rw [bind_of_ok skip_apply, Cursor.advance_advance, bind_of_ok hw, Cursor.advance_advance]
  rfl

theorem readsBack_some {inner : Shape} {j : Json} (hj : Fits inner j) (hnull : j ≠ .null)
    (ih : ReadsBack inner j) : ReadsBack (.opt inner) j := by
  intro d fuel c q after h hq hend hfuel hroom
  obtain ⟨F, rfl⟩ : ∃ F, fuel = F + 1 := ⟨fuel - 1, by omega⟩
  obtain ⟨b, r, hbr, hsp, -, hn⟩ := hj.octets_head d
  have hsk := skipBlanks_token (b := b) (r := r ++ after) (by rw [h, hbr]; simp) hq hsp
  have hin : readShape F inner (c.advance q.length) =
      .ok (j, c.advance (q.length + (octets (prettyAt d j)).length)) := by
    have := ih d F (c.advance q.length) [] after
      (by rw [Cursor.rest_of_eq c (by rw [h, List.append_assoc])]; simp) Blank.nil hend
      (by simp only [Shape.depth] at hfuel; omega) (by simp only [Shape.depth] at hroom; simpa using Nat.lt_of_succ_lt hroom)
    rwa [List.length_nil, Nat.zero_add, Cursor.advance_advance] at this
  unfold readShape
  simp only
  rw [bind_of_ok hsk, ← hin]
  refine congrFun ?_ _
  split
  · rename_i heq
    cases heq
    exact absurd (hn rfl) hnull
  · rfl

/-! ### Arrays -/

theorem closeArray_of {r : List UInt8} (h : c.rest = 93 :: r) :
    closeArray c = .ok ((), c.advance 1) := by
  have hsk : skipBlanks c = .ok (some 93, c) :=
    skipBlanks_token (q := []) (by simpa using h) Blank.nil rfl
  unfold closeArray
  rw [bind_of_ok hsk]
  rfl

theorem blank_closing_head (d : Nat) : Blank (10 :: List.replicate (2 * d) 32) :=
  Blank.cons rfl (blank_replicate _)

theorem readItems_later {item : Shape} {d k : Nat} {f : Json → Json} (after : List UInt8) :
    ∀ (ys : List Json) (G : Nat) (c : Cursor) (acc : List Json),
      (∀ y ∈ ys, Opens y ∧ ReadsAs item k y (f y)) →
      c.rest = laterItems d ys ++ closing d 93 ++ after →
      (laterItems d ys).length + k < G → k < c.room →
      readItems G item false acc c =
        .ok (acc.reverse ++ ys.map f, c.advance ((laterItems d ys).length + 1 + 2 * d))
  | [], G, c, acc, _, h, hG, _ => by
    obtain ⟨G, rfl⟩ : ∃ G', G = G' + 1 := ⟨G - 1, by simp at hG; omega⟩
    have hsk := skipBlanks_token (q := 10 :: List.replicate (2 * d) 32) (b := 93) (r := after)
      (by rw [h]; simp [closing]) (blank_closing_head d) rfl
    unfold readItems
    rw [bind_of_ok hsk]
    simp only [↓reduceIte, List.append_nil, laterItems_nil, List.length_nil, List.length_cons,
      List.length_replicate, List.map_nil]
    rw [Nat.zero_add, Nat.add_comm 1]
    rfl
  | y :: ys, G, c, acc, hys, h, hG, hroom => by
    obtain ⟨G, rfl⟩ : ∃ G', G = G' + 1 := ⟨G - 1, by simp at hG; omega⟩
    obtain ⟨hoy, hry⟩ := hys y List.mem_cons_self
    obtain ⟨b, r, hbr, hsp, h93⟩ := hoy (d + 1)
    have hlen : (laterItems d (y :: ys)).length =
        2 + 2 * (d + 1) + (octets (prettyAt (d + 1) y)).length + (laterItems d ys).length := by
      simp [itemOctets]; omega
    -- the comma, then the blanks before the item
    have hsk : skipBlanks c = .ok (some 44, c) := by
      simpa using skipBlanks_token (q := []) (b := 44)
        (r := 10 :: (itemOctets d y ++ laterItems d ys) ++ closing d 93 ++ after)
        (by rw [h]; simp) Blank.nil rfl
    have hsk2 : skipBlanks (c.advance 1) = .ok (some b, c.advance (2 + 2 * (d + 1))) := by
      rw [skipBlanks_token (c := c.advance 1) (q := 10 :: List.replicate (2 * (d + 1)) 32)
        (b := b) (r := r ++ laterItems d ys ++ closing d 93 ++ after)
        (by rw [Cursor.rest_advance, h]; simp [itemOctets, hbr]) (blank_closing_head (d + 1)) hsp,
        Cursor.advance_advance]
      simp only [List.length_cons, List.length_replicate]
      congr 3
      omega
    have hy := hry (d + 1) G (c.advance (2 + 2 * (d + 1))) [] (laterItems d ys ++ closing d 93 ++ after)
      (Cursor.rest_of_eq_length c (q := 44 :: 10 :: List.replicate (2 * (d + 1)) 32)
        (by rw [h]; simp [itemOctets]) (by simp; omega))
      Blank.nil (by cases ys <;> simp [Ends, closing]) (by omega) (by simpa using hroom)
    have hrest := readItems_later (d := d) after ys G
      (c.advance (2 + 2 * (d + 1) + (octets (prettyAt (d + 1) y)).length)) (f y :: acc)
      (fun x hx => hys x (List.mem_cons_of_mem _ hx))
      (Cursor.rest_of_eq_length c
        (q := 44 :: 10 :: List.replicate (2 * (d + 1)) 32 ++ octets (prettyAt (d + 1) y))
        (by rw [h]; simp [itemOctets]) (by simp; omega))
      (by omega) (by simpa using hroom)
    have hnext : (readShape G item >>= fun v => readItems G item false (v :: acc))
        (c.advance (2 + 2 * (d + 1))) =
        .ok (acc.reverse ++ (y :: ys).map f,
          c.advance ((laterItems d (y :: ys)).length + 1 + 2 * d)) := by
      rw [bind_of_ok hy, List.length_nil, Nat.zero_add, Cursor.advance_advance,
        hrest, Cursor.advance_advance, hlen, List.reverse_cons, List.append_assoc, List.map_cons]
      congr 3
      omega
    unfold readItems
    rw [bind_of_ok hsk]
    simp +decide only [↓reduceIte]
    rw [bind_of_ok skip_apply, bind_of_ok hsk2, ← hnext]
    refine congrFun ?_ _
    split
    · rename_i heq; cases heq; exact absurd rfl h93
    · rfl
    · rename_i heq; cases heq

/-- The loop over all items of a written array, from after its opening bracket: it stops
before the closing bracket with what the items read as, in order. -/
theorem readItems_all {item : Shape} {d k F : Nat} {f : Json → Json} {xs : List Json}
    (after : List UInt8) (hxs : ∀ x ∈ xs, Opens x ∧ ReadsAs item k x (f x))
    (h : c.rest = (octets (prettyAt d (.arr xs))).drop 1 ++ after)
    (hF : (octets (prettyAt d (.arr xs))).length + k < F + 1) (hroom : k < c.room) :
    readItems F item true [] c =
      .ok (xs.map f, c.advance ((octets (prettyAt d (.arr xs))).length - 2)) := by
  cases xs with
  | nil =>
    rw [octets_prettyAt_arr_nil] at h hF ⊢
    obtain ⟨G, rfl⟩ : ∃ G, F = G + 1 := ⟨F - 1, by simp at hF; omega⟩
    have hsk : skipBlanks c = .ok (some 93, c) := by
      simpa using skipBlanks_token (q := []) (b := 93) (r := after) (by simpa using h) Blank.nil rfl
    unfold readItems
    rw [bind_of_ok hsk]
    rfl
  | cons x xs =>
    rw [octets_prettyAt_arr] at h hF ⊢
    obtain ⟨G, rfl⟩ : ∃ G, F = G + 1 := ⟨F - 1, by simp [itemOctets] at hF; omega⟩
    obtain ⟨hox, hrx⟩ := hxs x List.mem_cons_self
    obtain ⟨b, r, hbr, hsp, h93⟩ := hox (d + 1)
    have hsk : skipBlanks c = .ok (some b, c.advance (1 + 2 * (d + 1))) := by
      rw [skipBlanks_token (q := 10 :: List.replicate (2 * (d + 1)) 32) (b := b)
        (r := r ++ laterItems d xs ++ closing d 93 ++ after)
        (by rw [h]; simp [itemOctets, hbr]) (blank_closing_head (d + 1)) hsp]
      simp only [List.length_cons, List.length_replicate]
      congr 3
      omega
    have hx := hrx (d + 1) G (c.advance (1 + 2 * (d + 1))) [] (laterItems d xs ++ closing d 93 ++ after)
      (Cursor.rest_of_eq_length c (q := 10 :: List.replicate (2 * (d + 1)) 32)
        (by rw [h]; simp [itemOctets]) (by simp; omega))
      Blank.nil (by cases xs <;> simp [Ends, closing]) (by simp [itemOctets] at hF; omega)
      hroom
    have hrest := readItems_later (d := d) after xs G
      (c.advance (1 + 2 * (d + 1) + (octets (prettyAt (d + 1) x)).length)) [f x]
      (fun y hy => hxs y (List.mem_cons_of_mem _ hy))
      (Cursor.rest_of_eq_length c
        (q := 10 :: List.replicate (2 * (d + 1)) 32 ++ octets (prettyAt (d + 1) x))
        (by rw [h]; simp [itemOctets]) (by simp; omega))
      (by simp [itemOctets] at hF; omega) (by simpa using hroom)
    unfold readItems
    rw [bind_of_ok hsk]
    simp only [h93, ↓reduceIte]
    rw [bind_of_ok hx, List.length_nil, Nat.zero_add, Cursor.advance_advance, hrest,
      Cursor.advance_advance]
    simp only [List.reverse_singleton, List.singleton_append, itemOctets, closing,
      List.length_append, List.length_cons, List.length_replicate, List.length_nil, List.map_cons]
    congr 3
    omega

theorem readsBack_list {item : Shape} {xs : List Json}
    (hxs : ∀ x ∈ xs, Fits item x ∧ ReadsBack item x) : ReadsBack (.list item) (.arr xs) := by
  intro d fuel c q after h hq hend hfuel hroom
  obtain ⟨F, rfl⟩ : ∃ F, fuel = F + 1 := ⟨fuel - 1, by omega⟩
  simp only [Shape.depth] at hfuel hroom
  -- the text is an opening bracket, what the item loop reads, and a closing bracket
  obtain ⟨mid, hmid⟩ : ∃ mid, octets (prettyAt d (.arr xs)) = 91 :: mid ++ [93] := by
    cases xs with
    | nil => exact ⟨[], by rw [octets_prettyAt_arr_nil]; rfl⟩
    | cons x xs =>
      exact ⟨10 :: (itemOctets d x ++ laterItems d xs ++ 10 :: List.replicate (2 * d) 32),
        by rw [octets_prettyAt_arr]; simp [closing]⟩
  have hL : (octets (prettyAt d (.arr xs))).length = mid.length + 2 := by rw [hmid]; simp
  have hsk := skipBlanks_token (b := 91) (r := mid ++ [93] ++ after) (by rw [h, hmid]; simp) hq rfl
  have henter := enterNesting_of (c := c.advance q.length) (by simp only [Cursor.advance_room]; omega)
  have hitems := readItems_all (c := { c.advance (q.length + 1) with room := c.room - 1 })
    (F := F) (k := item.depth) (f := id) after (fun x hx => ⟨(hxs x hx).1.opens, (hxs x hx).2⟩)
    (by simp only [Cursor.rest_room]; rw [Cursor.rest_advance, h, hmid]; simp) (by omega)
    (by simp; omega)
  rw [List.map_id] at hitems
  have hclose := closeArray_of (c := { c.advance (q.length + 1 + mid.length) with room := c.room - 1 })
    (r := after) (by
      simp only [Cursor.rest_room]
      exact Cursor.rest_of_eq_length c (q := q ++ 91 :: mid) (r := 93 :: after)
        (by rw [h, hmid]; simp) (by simp; omega))
  unfold readShape
  simp only
  rw [bind_of_ok hsk]
  simp only [↓reduceIte]
  rw [bind_of_ok henter]
  simp only [Cursor.advance_room]
  rw [bind_of_ok skip_apply]
  simp only [Cursor.advance_with_room, Cursor.advance_advance]
  rw [bind_of_ok hitems]
  simp only [Cursor.advance_with_room, Cursor.advance_advance, hL, Nat.add_sub_cancel]
  rw [bind_of_ok hclose, bind_of_ok leaveNesting_apply]
  simp only [Cursor.advance_with_room, Cursor.advance_advance]
  rw [Nat.sub_add_cancel (by omega), show q.length + 1 + mid.length + 1 = q.length + (mid.length + 2) by omega]
  rfl

/-! ### Objects -/

theorem closeObject_of {r : List UInt8} (h : c.rest = 125 :: r) :
    closeObject c = .ok ((), c.advance 1) := by
  have hsk : skipBlanks c = .ok (some 125, c) :=
    skipBlanks_token (q := []) (by simpa using h) Blank.nil rfl
  unfold closeObject
  rw [bind_of_ok hsk]
  rfl

theorem expectColon_of {r : List UInt8} (h : c.rest = 58 :: r) :
    expectColon c = .ok ((), c.advance 1) := by
  have hsk : skipBlanks c = .ok (some 58, c) :=
    skipBlanks_token (q := []) (by simpa using h) Blank.nil rfl
  unfold expectColon
  rw [bind_of_ok hsk]
  rfl

/-- The closing brace ends the keys, first or not. -/
theorem nextKey_close {i : Bool} {r : List UInt8} (h : c.rest = q ++ 125 :: r)
    (hq : Blank q) : nextKey i c = .ok (none, c.advance q.length) := by
  have hsk := skipBlanks_token h hq rfl
  unfold nextKey
  rw [bind_of_ok hsk]
  rfl

/-- The first key of an object, after blanks. -/
theorem nextKey_first {k : String} {r : List UInt8} (h : c.rest = q ++ octets (quote k) ++ r)
    (hq : Blank q) :
    nextKey true c = .ok (some k, c.advance (q.length + (octets (quote k)).length)) := by
  obtain ⟨hsk, hrd⟩ := readString_here h hq
  unfold nextKey
  rw [bind_of_ok hsk]
  simp +decide only [pure_bind, ↓reduceIte]
  rw [bind_of_ok hrd]
  rfl

/-- A later key, after its comma and blanks. -/
theorem nextKey_later {k : String} {r : List UInt8}
    (h : c.rest = 44 :: (q ++ octets (quote k) ++ r)) (hq : Blank q) :
    nextKey false c = .ok (some k, c.advance (1 + q.length + (octets (quote k)).length)) := by
  have hsk : skipBlanks c = .ok (some 44, c) := by
    simpa using skipBlanks_token (q := []) (by simpa using h) Blank.nil rfl
  obtain ⟨hsk2, hrd⟩ := readString_here (c := c.advance 1) (by rw [Cursor.rest_advance, h]; rfl) hq
  unfold nextKey
  rw [bind_of_ok hsk]
  simp +decide only [↓reduceIte]
  rw [bind_of_ok skip_apply, bind_of_ok hsk2]
  simp +decide only
  rw [bind_of_ok hrd, Cursor.advance_advance, Nat.add_assoc]
  rfl

theorem find?_field {fields : List (String × Shape × Default)} {k : String}
    (hk : k ∈ fields.map Prod.fst) :
    ∃ fs dflt, fields.find? (·.1 == k) = some (k, fs, dflt) ∧ (k, fs, dflt) ∈ fields := by
  obtain ⟨g, hg, hgk⟩ := List.mem_map.1 hk
  obtain ⟨f, hf⟩ : ∃ f, fields.find? (·.1 == k) = some f :=
    Option.isSome_iff_exists.1 (List.find?_isSome.2 ⟨g, hg, by simp [hgk]⟩)
  have hfk : f.1 = k := by simpa using List.find?_some hf
  obtain ⟨fk, fs, dflt⟩ := f
  simp only at hfk
  subst hfk
  exact ⟨fs, dflt, hf, List.mem_of_find?_eq_some hf⟩

theorem lookup_of_mem {ms : List (String × Json)} {m : String × Json}
    (hnd : (ms.map Prod.fst).Nodup) (hm : m ∈ ms) : ms.lookup m.1 = some m.2 := by
  induction ms with
  | nil => cases hm
  | cons n ns ih =>
    simp only [List.map_cons, List.nodup_cons] at hnd
    rcases List.mem_cons.1 hm with rfl | hm
    · simp [List.lookup]
    · have hne : (m.1 == n.1) = false :=
        beq_eq_false_iff_ne.2 fun he => hnd.1 (he ▸ List.mem_map_of_mem hm)
      simp [List.lookup, hne, ih hnd.2 hm]

theorem mapM_of_lookup {g : String × Shape × Default → Except String (String × Json)}
    {ms : List (String × Json)} (hnd : (ms.map Prod.fst).Nodup)
    (hg : ∀ f v, ms.reverse.lookup f.1 = some v → g f = .ok (f.1, v)) :
    ∀ (fs : List (String × Shape × Default)) (ns : List (String × Json)),
      (∀ n ∈ ns, n ∈ ms) → ns.map Prod.fst = fs.map Prod.fst → fs.mapM g = .ok ns := by
  have hnd' : (ms.reverse.map Prod.fst).Nodup := by
    rw [List.map_reverse]; exact List.nodup_reverse.2 hnd
  intro fs
  induction fs with
  | nil => intro ns _ h; cases ns with | nil => rfl | cons _ _ => cases h
  | cons f fs ih =>
    intro ns hns h
    cases ns with
    | nil => cases h
    | cons n ns =>
      simp only [List.map_cons, List.cons.injEq] at h
      have hlk : ms.reverse.lookup f.1 = some n.2 := by
        rw [← h.1]; exact lookup_of_mem hnd' (List.mem_reverse.2 (hns n List.mem_cons_self))
      rw [List.mapM_cons, hg f n.2 hlk, ← h.1,
        ih ns (fun x hx => hns x (List.mem_cons_of_mem _ hx)) h.2]
      rfl

theorem completeFields_reverse {fields : List (String × Shape × Default)} {ms : List (String × Json)}
    (hnd : (ms.map Prod.fst).Nodup) (hkeys : ms.map Prod.fst = fields.map Prod.fst) :
    completeFields fields ms.reverse = .ok (.obj ms) := by
  unfold completeFields
  rw [mapM_of_lookup hnd ?_ fields ms (fun _ h => h) hkeys]
  · rfl
  · rintro ⟨name, s, dflt⟩ v hv
    simp only at hv ⊢
    rw [hv]

theorem readFields_member {G : Nat} {fields : List (String × Shape × Default)} {first : Bool}
    {acc : List (String × Json)} {k k' : String} {fs : Shape} {dflt : Default} {v : Json}
    {c₁ c₂ c₃ : Cursor} (hk : nextKey first c = .ok (some k, c₁))
    (hfind : fields.find? (·.1 == k) = some (k', fs, dflt)) (hany : acc.any (·.1 == k) = false)
    (hcolon : expectColon c₁ = .ok ((), c₂)) (hval : readShape G fs c₂ = .ok (v, c₃)) :
    readFields (G + 1) fields first acc c = readFields G fields false ((k, v) :: acc) c₃ := by
  conv_lhs => unfold readFields
  rw [bind_of_ok hk]
  simp only [hfind, hany, Bool.false_eq_true, ↓reduceIte]
  rw [bind_of_ok hcolon, bind_of_ok hval]

theorem readFields_later {fields : List (String × Shape × Default)} {d : Nat} (after : List UInt8) :
    ∀ (ns : List (String × Json)) (G : Nat) (c : Cursor) (acc : List (String × Json)),
      (∀ n ∈ ns, n.1 ∈ fields.map Prod.fst ∧
        ∀ f ∈ fields, f.1 = n.1 → Fits f.2.1 n.2 ∧ ReadsBack f.2.1 n.2) →
      ((acc.reverse ++ ns).map Prod.fst).Nodup →
      c.rest = laterMembers d ns ++ closing d 125 ++ after →
      (laterMembers d ns).length + Shape.fieldsDepth fields < G →
      Shape.fieldsDepth fields < c.room →
      readFields G fields false acc c =
        .ok (ns.reverse ++ acc, c.advance ((laterMembers d ns).length + 1 + 2 * d))
  | [], G, c, acc, _, _, h, hG, _ => by
    obtain ⟨G, rfl⟩ : ∃ G', G = G' + 1 := ⟨G - 1, by simp at hG; omega⟩
    have hk := nextKey_close (i := false) (q := 10 :: List.replicate (2 * d) 32) (r := after)
      (by rw [h]; simp [closing]) (blank_closing_head d)
    unfold readFields
    rw [bind_of_ok hk]
    simp only [List.reverse_nil, List.nil_append, laterMembers_nil, List.length_nil,
      List.length_cons, List.length_replicate]
    rw [Nat.zero_add, Nat.add_comm 1]
    rfl
  | n :: ns, G, c, acc, hns, hnd, h, hG, hroom => by
    obtain ⟨G, rfl⟩ : ∃ G', G = G' + 1 := ⟨G - 1, by simp at hG; omega⟩
    obtain ⟨hkey, hfit⟩ := hns n List.mem_cons_self
    obtain ⟨fs, dflt, hfind, hmem⟩ := find?_field hkey
    obtain ⟨hfn, hrn⟩ : Fits fs n.2 ∧ ReadsBack fs n.2 := hfit (n.1, fs, dflt) hmem rfl
    have hdepth : fs.depth ≤ Shape.fieldsDepth fields := depth_le_fieldsDepth hmem
    have hlen : (laterMembers d (n :: ns)).length = 2 + 2 * (d + 1) + (octets (quote n.1)).length +
        2 + (octets (prettyAt (d + 1) n.2)).length + (laterMembers d ns).length := by
      simp [memberOctets]; omega
    -- the key is new: no member gathered so far has it
    have hany : (acc.any (·.1 == n.1)) = false := by
      rw [List.map_append, List.map_cons] at hnd
      have hout := (List.nodup_append.1 hnd).2.2
      rw [List.any_eq_false]
      intro m hm hmk
      exact hout m.1 (List.mem_map_of_mem (List.mem_reverse.2 hm)) n.1 List.mem_cons_self
        (by simpa using hmk)
    have hk := nextKey_later (c := c) (q := 10 :: List.replicate (2 * (d + 1)) 32) (k := n.1)
      (r := [58, 32] ++ octets (prettyAt (d + 1) n.2) ++ laterMembers d ns ++ closing d 125 ++ after)
      (by rw [h]; simp [memberOctets]) (blank_closing_head (d + 1))
    have hcolon := expectColon_of
      (c := c.advance (1 + (10 :: List.replicate (2 * (d + 1)) (32 : UInt8)).length + (octets (quote n.1)).length))
      (r := 32 :: (octets (prettyAt (d + 1) n.2) ++ laterMembers d ns ++ closing d 125 ++ after))
      (Cursor.rest_of_eq_length c
        (q := 44 :: 10 :: List.replicate (2 * (d + 1)) 32 ++ octets (quote n.1))
        (by rw [h]; simp [memberOctets]) (by simp; omega))
    have hval := hrn (d + 1) G
      ((c.advance (1 + (10 :: List.replicate (2 * (d + 1)) (32 : UInt8)).length + (octets (quote n.1)).length)).advance 1)
      [32] (laterMembers d ns ++ closing d 125 ++ after)
      (by
        rw [Cursor.advance_advance]
        exact Cursor.rest_of_eq_length c
          (q := 44 :: 10 :: List.replicate (2 * (d + 1)) 32 ++ octets (quote n.1) ++ [58])
          (by rw [h]; simp [memberOctets]) (by simp; omega))
      (Blank.cons rfl Blank.nil) (by cases ns <;> simp [Ends, closing]) (by omega) (by simp; omega)
    have hrest := readFields_later (d := d) after ns G
      (c.advance (2 + 2 * (d + 1) + (octets (quote n.1)).length + 2 +
        (octets (prettyAt (d + 1) n.2)).length)) (n :: acc)
      (fun x hx => hns x (List.mem_cons_of_mem _ hx)) (by simpa using hnd)
      (Cursor.rest_of_eq_length c
        (q := 44 :: 10 :: List.replicate (2 * (d + 1)) 32 ++ octets (quote n.1) ++ [58, 32] ++
          octets (prettyAt (d + 1) n.2))
        (by rw [h]; simp [memberOctets]) (by simp; omega))
      (by omega) (by simpa using hroom)
    have hpos : 1 + (10 :: List.replicate (2 * (d + 1)) (32 : UInt8)).length +
        (octets (quote n.1)).length + (1 + ([(32 : UInt8)].length + (octets (prettyAt (d + 1) n.2)).length)) =
        2 + 2 * (d + 1) + (octets (quote n.1)).length + 2 + (octets (prettyAt (d + 1) n.2)).length := by
      simp; omega
    rw [readFields_member hk hfind hany hcolon hval, Prod.mk.eta, Cursor.advance_advance,
      Cursor.advance_advance, hpos, hrest, Cursor.advance_advance, hlen]
    simp only [List.reverse_cons, List.append_assoc, List.singleton_append, Nat.add_assoc]

theorem readFields_all {fields : List (String × Shape × Default)} {d F : Nat}
    {ms : List (String × Json)} (after : List UInt8)
    (hms : ∀ m ∈ ms, m.1 ∈ fields.map Prod.fst ∧
      ∀ f ∈ fields, f.1 = m.1 → Fits f.2.1 m.2 ∧ ReadsBack f.2.1 m.2)
    (hnd : (ms.map Prod.fst).Nodup)
    (h : c.rest = (octets (prettyAt d (.obj ms))).drop 1 ++ after)
    (hF : (octets (prettyAt d (.obj ms))).length + Shape.fieldsDepth fields < F + 1)
    (hroom : Shape.fieldsDepth fields < c.room) :
    readFields F fields true [] c =
      .ok (ms.reverse, c.advance ((octets (prettyAt d (.obj ms))).length - 2)) := by
  cases ms with
  | nil =>
    rw [octets_prettyAt_obj_nil] at h hF ⊢
    obtain ⟨G, rfl⟩ : ∃ G, F = G + 1 := ⟨F - 1, by simp at hF; omega⟩
    have hk := nextKey_close (i := true) (q := []) (r := after) (by simpa using h) Blank.nil
    unfold readFields
    rw [bind_of_ok hk]
    rfl
  | cons m ms =>
    rw [octets_prettyAt_obj] at h hF ⊢
    obtain ⟨hkey, hfit⟩ := hms m List.mem_cons_self
    obtain ⟨fs, dflt, hfind, hmem⟩ := find?_field hkey
    obtain ⟨hfm, hrm⟩ : Fits fs m.2 ∧ ReadsBack fs m.2 := hfit (m.1, fs, dflt) hmem rfl
    have hdepth : fs.depth ≤ Shape.fieldsDepth fields := depth_le_fieldsDepth hmem
    have hlen : (([123, 10] : List UInt8) ++ memberOctets d m ++ laterMembers d ms ++
        closing d 125).length = 1 + 2 * (d + 1) + (octets (quote m.1)).length + 2 +
          (octets (prettyAt (d + 1) m.2)).length + ((laterMembers d ms).length + 1 + 2 * d) + 2 := by
      simp only [memberOctets, closing, List.length_append, List.length_cons, List.length_replicate,
        List.length_nil]
      omega
    rw [hlen] at hF
    obtain ⟨G, rfl⟩ : ∃ G, F = G + 1 := ⟨F - 1, by omega⟩
    have hk := nextKey_first (c := c) (q := 10 :: List.replicate (2 * (d + 1)) 32) (k := m.1)
      (r := [58, 32] ++ octets (prettyAt (d + 1) m.2) ++ laterMembers d ms ++ closing d 125 ++ after)
      (by rw [h]; simp [memberOctets]) (blank_closing_head (d + 1))
    have hcolon := expectColon_of
      (c := c.advance ((10 :: List.replicate (2 * (d + 1)) (32 : UInt8)).length + (octets (quote m.1)).length))
      (r := 32 :: (octets (prettyAt (d + 1) m.2) ++ laterMembers d ms ++ closing d 125 ++ after))
      (Cursor.rest_of_eq_length c
        (q := 10 :: List.replicate (2 * (d + 1)) 32 ++ octets (quote m.1))
        (by rw [h]; simp [memberOctets]) (by simp; omega))
    have hval := hrm (d + 1) G
      ((c.advance ((10 :: List.replicate (2 * (d + 1)) (32 : UInt8)).length + (octets (quote m.1)).length)).advance 1)
      [32] (laterMembers d ms ++ closing d 125 ++ after)
      (by
        rw [Cursor.advance_advance]
        exact Cursor.rest_of_eq_length c
          (q := 10 :: List.replicate (2 * (d + 1)) 32 ++ octets (quote m.1) ++ [58])
          (by rw [h]; simp [memberOctets]) (by simp; omega))
      (Blank.cons rfl Blank.nil) (by cases ms <;> simp [Ends, closing]) (by omega) (by simp; omega)
    have hrest := readFields_later (d := d) after ms G
      (c.advance (1 + 2 * (d + 1) + (octets (quote m.1)).length + 2 +
        (octets (prettyAt (d + 1) m.2)).length)) [m]
      (fun x hx => hms x (List.mem_cons_of_mem _ hx)) (by simpa using hnd)
      (Cursor.rest_of_eq_length c
        (q := 10 :: List.replicate (2 * (d + 1)) 32 ++ octets (quote m.1) ++ [58, 32] ++
          octets (prettyAt (d + 1) m.2))
        (by rw [h]; simp [memberOctets]) (by simp; omega))
      (by omega) hroom
    have hpos : (10 :: List.replicate (2 * (d + 1)) (32 : UInt8)).length +
        (octets (quote m.1)).length + (1 + ([(32 : UInt8)].length + (octets (prettyAt (d + 1) m.2)).length)) =
        1 + 2 * (d + 1) + (octets (quote m.1)).length + 2 + (octets (prettyAt (d + 1) m.2)).length := by
      simp; omega
    rw [readFields_member hk hfind rfl hcolon hval, Prod.mk.eta, Cursor.advance_advance,
      Cursor.advance_advance, hpos, hrest, Cursor.advance_advance, hlen, Nat.add_sub_cancel,
      List.reverse_cons]

theorem readsBack_record {name : String} {fields : List (String × Shape × Default)}
    {ms : List (String × Json)} (hnd : (fields.map Prod.fst).Nodup)
    (hkeys : ms.map Prod.fst = fields.map Prod.fst)
    (hms : ∀ m ∈ ms, ∀ f ∈ fields, f.1 = m.1 → Fits f.2.1 m.2 ∧ ReadsBack f.2.1 m.2) :
    ReadsBack (.record name fields) (.obj ms) := by
  intro d fuel c q after h hq hend hfuel hroom
  obtain ⟨F, rfl⟩ : ∃ F, fuel = F + 1 := ⟨fuel - 1, by omega⟩
  simp only [Shape.depth] at hfuel hroom
  have hms' : ∀ m ∈ ms, m.1 ∈ fields.map Prod.fst ∧
      ∀ f ∈ fields, f.1 = m.1 → Fits f.2.1 m.2 ∧ ReadsBack f.2.1 m.2 :=
    fun m hm => ⟨hkeys ▸ List.mem_map_of_mem hm, hms m hm⟩
  -- the text is an opening brace, what the member loop reads, and a closing brace
  obtain ⟨mid, hmid⟩ : ∃ mid, octets (prettyAt d (.obj ms)) = 123 :: mid ++ [125] := by
    cases ms with
    | nil => exact ⟨[], by rw [octets_prettyAt_obj_nil]; rfl⟩
    | cons m ms =>
      exact ⟨10 :: (memberOctets d m ++ laterMembers d ms ++ 10 :: List.replicate (2 * d) 32),
        by rw [octets_prettyAt_obj]; simp [closing]⟩
  have hL : (octets (prettyAt d (.obj ms))).length = mid.length + 2 := by rw [hmid]; simp
  have hsk := skipBlanks_token (b := 123) (r := mid ++ [125] ++ after) (by rw [h, hmid]; simp) hq rfl
  have henter := enterNesting_of (c := c.advance q.length) (by simp only [Cursor.advance_room]; omega)
  have hfields := readFields_all (c := { c.advance (q.length + 1) with room := c.room - 1 })
    (F := F) after hms' (hkeys ▸ hnd)
    (by simp only [Cursor.rest_room]; rw [Cursor.rest_advance, h, hmid]; simp) (by omega)
    (by simp; omega)
  have hclose := closeObject_of (c := { c.advance (q.length + 1 + mid.length) with room := c.room - 1 })
    (r := after) (by
      simp only [Cursor.rest_room]
      exact Cursor.rest_of_eq_length c (q := q ++ 123 :: mid) (r := 125 :: after)
        (by rw [h, hmid]; simp) (by simp; omega))
  unfold readShape
  simp only
  rw [bind_of_ok hsk]
  simp only [↓reduceIte]
  rw [bind_of_ok henter]
  simp only [Cursor.advance_room]
  rw [bind_of_ok skip_apply]
  simp only [Cursor.advance_with_room, Cursor.advance_advance]
  rw [bind_of_ok hfields]
  simp only [Cursor.advance_with_room, Cursor.advance_advance, hL, Nat.add_sub_cancel]
  rw [bind_of_ok hclose, bind_of_ok leaveNesting_apply]
  simp only [Cursor.advance_with_room, Cursor.advance_advance]
  rw [completeFields_reverse (hkeys ▸ hnd) hkeys]
  rw [Nat.sub_add_cancel (by omega), show q.length + 1 + mid.length + 1 = q.length + (mid.length + 2) by omega]
  rfl

/-- Every value that fits its shape reads back from its pretty text, wherever that text stands. -/
theorem Fits.readsBack {s : Shape} {j : Json} (h : Fits s j) : ReadsBack s j := by
  induction h with
  | text e s => exact readsBack_text e s
  | flag b => exact readsBack_flag b
  | unsigned hmax hu =>
    exact readsBack_number (.inl ⟨_, _, rfl⟩) (value_nat (hmax.trans hu))
      (by simp [fitNumber, hmax]) (fun d => by rw [octets_prettyAt_nat]; rfl)
  | signedNat hhi hu =>
    exact readsBack_number (.inr ⟨_, _, _, rfl⟩) (value_nat hu)
      (by simp [fitNumber, hhi]) (fun d => by rw [octets_prettyAt_nat]; rfl)
  | signedNeg hlo h1 h2 =>
    exact readsBack_number (.inr ⟨_, _, _, rfl⟩) (value_neg h1 h2)
      (by simp [fitNumber, hlo]) (fun d => by rw [octets_prettyAt_neg]; rfl)
  | null inner => exact readsBack_null inner
  | some hj hnull ih => exact readsBack_some hj hnull ih
  | list hxs ih => exact readsBack_list fun x hx => ⟨hxs x hx, ih x hx⟩
  | tags hs => exact readsBack_tags hs
  | parsed hconv => exact readsBack_parsed hconv
  | record hnd hkeys hms ih =>
    exact readsBack_record hnd hkeys fun m hm f hf hfm => ⟨hms m hm f hf hfm, ih m hm f hf hfm⟩

/-- **A value that fits its shape reads back from its pretty text**, as long as the shape
nests less than 64 levels deep. -/
theorem readDocument_pretty {s : Shape} {j : Json} (hj : Fits s j) (hd : s.depth < 64) :
    readDocument s (pretty j) = .ok j := by
  let c : Cursor := { src := (pretty j).toUTF8, pos := 0, room := maxNesting }
  have hrest : c.rest = [] ++ octets (prettyAt 0 j) ++ [] := by
    show (pretty j).toUTF8.data.toList.drop 0 = _
    rw [octets_eq_data]; simp [pretty]
  have hsize : (pretty j).toUTF8.size = (octets (prettyAt 0 j)).length := by
    rw [← octets_eq_data]; simp [pretty]
  have hval := hj.readsBack 0 (4 * (pretty j).toUTF8.size + 64) c [] [] hrest Blank.nil
    (by simp [Ends]) (by rw [hsize]; omega) (by simp [c, maxNesting]; omega)
  have hend := skipBlanks_of (c := c.advance (([] : List UInt8).length + (octets (prettyAt 0 j)).length))
    (q := []) (r := []) (Cursor.rest_of_eq_length c (r := []) (by simpa using hrest) (by simp)) Blank.nil
    (by simp [NoLeadBlank])
  unfold readDocument
  simp only [StateT.run']
  rw [bind_of_ok hval, bind_of_ok hend]
  rfl

end AgentDeck.Json
