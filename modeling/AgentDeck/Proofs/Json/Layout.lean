import Mathlib
import AgentDeck.Proofs.Json.Strings
import AgentDeck.Proofs.Json.Numbers

/-!
The octets of a value in pretty form, and the values a shape reads back.

`prettyAt` writes an array item or an object member on a line of its own, indented one level
deeper than its brackets; the octets of a written array or object split into the opening
bracket, the first item, each further item after a comma, and the closing line
(`octets_prettyAt_arr`, `octets_prettyAt_obj`).

`Fits s j` says that `j` is a value in the form shape `s` stores it: a string for a text,
an integer in range for a number shape, a name of the enumeration for tags, a text that the
conversion of a parsed shape keeps as it is, and an object whose members are the record's
fields in order. `Shape.depth` counts how deeply a shape nests.
-/

namespace AgentDeck.Json

/-! ### Octets of written values -/

theorem octets_intercalate (sep a : String) (as : List String) :
    octets (sep.intercalate (a :: as)) = octets a ++ as.flatMap fun b => octets sep ++ octets b := by
  induction as generalizing a with
  | nil => simp [String.intercalate_singleton]
  | cons b bs ih => rw [String.intercalate_cons_cons, octets_append, octets_append, ih]; simp

/-- The octets of an array item written at depth `d + 1`, with its indentation. -/
def itemOctets (d : Nat) (x : Json) : List UInt8 :=
  List.replicate (2 * (d + 1)) 32 ++ octets (prettyAt (d + 1) x)

/-- The octets of an object member written at depth `d + 1`, with its indentation. -/
def memberOctets (d : Nat) (m : String × Json) : List UInt8 :=
  List.replicate (2 * (d + 1)) 32 ++ octets (quote m.1) ++ [58, 32] ++ octets (prettyAt (d + 1) m.2)

/-- The octets of array items after the first, each after a comma. -/
def laterItems (d : Nat) (xs : List Json) : List UInt8 :=
  xs.flatMap fun y => [44, 10] ++ itemOctets d y

/-- The octets of object members after the first, each after a comma. -/
def laterMembers (d : Nat) (ms : List (String × Json)) : List UInt8 :=
  ms.flatMap fun m => [44, 10] ++ memberOctets d m

/-- The line that closes a bracket `b` opened at depth `d`. -/
def closing (d : Nat) (b : UInt8) : List UInt8 := 10 :: (List.replicate (2 * d) 32 ++ [b])

@[simp] theorem laterItems_nil (d : Nat) : laterItems d [] = [] := rfl

@[simp] theorem laterItems_cons (d : Nat) (y : Json) (ys : List Json) :
    laterItems d (y :: ys) = 44 :: 10 :: (itemOctets d y ++ laterItems d ys) := rfl

@[simp] theorem laterMembers_nil (d : Nat) : laterMembers d [] = [] := rfl

@[simp] theorem laterMembers_cons (d : Nat) (m : String × Json) (ms : List (String × Json)) :
    laterMembers d (m :: ms) = 44 :: 10 :: (memberOctets d m ++ laterMembers d ms) := rfl

variable (d : Nat)

theorem prettyAt_scalar (j : Json) (hx : ∀ xs, j ≠ .arr xs) (hm : ∀ ms, j ≠ .obj ms) :
    prettyAt d j = compact j :=
  prettyAt.eq_5 d j (fun h => hx [] h) (fun h => hm [] h) hx hm

theorem octets_prettyAt_null : octets (prettyAt d .null) = [110, 117, 108, 108] := by
  rw [prettyAt_scalar d .null (fun _ h => nomatch h) (fun _ h => nomatch h), compact]; rfl

theorem octets_prettyAt_bool (b : Bool) :
    octets (prettyAt d (.bool b)) = if b then [116, 114, 117, 101] else [102, 97, 108, 115, 101] := by
  rw [prettyAt_scalar d (.bool b) (fun _ h => nomatch h) (fun _ h => nomatch h), compact]
  cases b <;> rfl

theorem octets_prettyAt_nat (n : Nat) :
    octets (prettyAt d (.num (.nat n))) = octets (toString n) := by
  rw [prettyAt_scalar d (.num (.nat n)) (fun _ h => nomatch h) (fun _ h => nomatch h), compact]; rfl

theorem octets_prettyAt_neg (n : Nat) :
    octets (prettyAt d (.num (.neg n))) = 45 :: octets (toString n) := by
  rw [prettyAt_scalar d (.num (.neg n)) (fun _ h => nomatch h) (fun _ h => nomatch h), compact]
  simp only [Number.text, octets_append]
  rfl

theorem octets_prettyAt_str (s : String) : octets (prettyAt d (.str s)) = octets (quote s) := by
  rw [prettyAt_scalar d (.str s) (fun _ h => nomatch h) (fun _ h => nomatch h), compact]

theorem octets_prettyAt_arr_nil : octets (prettyAt d (.arr [])) = [91, 93] := by
  rw [prettyAt]; rfl

theorem octets_prettyAt_obj_nil : octets (prettyAt d (.obj [])) = [123, 125] := by
  rw [prettyAt]; rfl

theorem octets_prettyAt_arr (x : Json) (xs : List Json) :
    octets (prettyAt d (.arr (x :: xs))) =
      [91, 10] ++ itemOctets d x ++ laterItems d xs ++ closing d 93 := by
  rw [prettyAt.eq_3 d (x :: xs) (List.cons_ne_nil x xs)]
  simp only [List.map_attach_eq_pmap, List.pmap_eq_map, List.map_cons, octets_append,
    octets_intercalate, octets_indent, List.flatMap_map, itemOctets, laterItems, closing]
  simp
  rfl

theorem octets_prettyAt_obj (m : String × Json) (ms : List (String × Json)) :
    octets (prettyAt d (.obj (m :: ms))) =
      [123, 10] ++ memberOctets d m ++ laterMembers d ms ++ closing d 125 := by
  rw [prettyAt.eq_4 d (m :: ms) (List.cons_ne_nil m ms)]
  simp only [List.map_attach_eq_pmap, List.pmap_eq_map, List.map_cons, octets_append,
    octets_intercalate, octets_indent, List.flatMap_map, memberOctets, laterMembers, closing]
  simp
  rfl

/-! ### Shapes and the values they read back -/

mutual

/-- How deeply a shape nests: every option, list and record adds a level. -/
def Shape.depth : Shape → Nat
  | .opt inner => inner.depth + 1
  | .list item => item.depth + 1
  | .record _ fields => Shape.fieldsDepth fields + 1
  | _ => 0

/-- The deepest of the shapes of a record's fields. -/
def Shape.fieldsDepth : List (String × Shape × Default) → Nat
  | [] => 0
  | (_, s, _) :: rest => max s.depth (Shape.fieldsDepth rest)

end

theorem depth_le_fieldsDepth {fields : List (String × Shape × Default)} {f : String × Shape × Default}
    (hf : f ∈ fields) : f.2.1.depth ≤ Shape.fieldsDepth fields := by
  induction fields with
  | nil => cases hf
  | cons g gs ih =>
    obtain ⟨name, s, dflt⟩ := g
    rcases List.mem_cons.1 hf with rfl | hf
    · simp [Shape.fieldsDepth]
    · have := ih hf
      simp only [Shape.fieldsDepth]
      omega

/-- `j` is a value in the form shape `s` stores it. -/
inductive Fits : Shape → Json → Prop
  | text (e s : String) : Fits (.text e) (.str s)
  | flag (b : Bool) : Fits .flag (.bool b)
  | unsigned {name : String} {max n : Nat} : n ≤ max → max ≤ u64Max →
      Fits (.unsigned name max) (.num (.nat n))
  | signedNat {name : String} {lo hi : Int} {n : Nat} : (n : Int) ≤ hi → n ≤ u64Max →
      Fits (.signed name lo hi) (.num (.nat n))
  | signedNeg {name : String} {lo hi : Int} {n : Nat} : lo ≤ -(n : Int) → 1 ≤ n → n ≤ 2 ^ 63 →
      Fits (.signed name lo hi) (.num (.neg n))
  | null (inner : Shape) : Fits (.opt inner) .null
  | some {inner : Shape} {j : Json} : Fits inner j → j ≠ .null → Fits (.opt inner) j
  | list {item : Shape} {xs : List Json} : (∀ x ∈ xs, Fits item x) → Fits (.list item) (.arr xs)
  | tags {names : List String} {s : String} : s ∈ names → Fits (.tags names) (.str s)
  | parsed {e : String} {conv : String → Except String Json} {s : String} :
      conv s = .ok (.str s) → Fits (.parsed e conv) (.str s)
  | record {name : String} {fields : List (String × Shape × Default)} {ms : List (String × Json)} :
      (fields.map Prod.fst).Nodup → ms.map Prod.fst = fields.map Prod.fst →
      (∀ m ∈ ms, ∀ f ∈ fields, f.1 = m.1 → Fits f.2.1 m.2) → Fits (.record name fields) (.obj ms)

/-- A written value starts with an octet that is no blank and no closing bracket, and with
`n` only when it is `null`. -/
theorem Fits.octets_head {s : Shape} {j : Json} (h : Fits s j) :
    ∃ b r, octets (prettyAt d j) = b :: r ∧ isSpace b = false ∧ b ≠ 93 ∧ (b = 110 → j = .null) := by
  induction h with
  | text e s | tags _ | parsed _ =>
    exact ⟨34, _, by rw [octets_prettyAt_str, octets_quote]; rfl, rfl, by decide, fun he => absurd he (by decide)⟩
  | flag b =>
    cases b
    · exact ⟨102, _, by rw [octets_prettyAt_bool]; rfl, rfl, by decide, fun he => absurd he (by decide)⟩
    · exact ⟨116, _, by rw [octets_prettyAt_bool]; rfl, rfl, by decide, fun he => absurd he (by decide)⟩
  | unsigned _ _ | signedNat _ _ =>
    obtain ⟨b, r, hbr, hb⟩ := octets_toString_cons _
    obtain ⟨-, h1, -, h2, h3⟩ := isDigitOctet_facts hb
    exact ⟨b, r, by rw [octets_prettyAt_nat, hbr], h1, h2, fun he => (h3 he).elim⟩
  | signedNeg _ _ _ =>
    exact ⟨45, _, octets_prettyAt_neg d _, rfl, by decide, fun he => absurd he (by decide)⟩
  | null inner => exact ⟨110, _, octets_prettyAt_null d, rfl, by decide, fun _ => rfl⟩
  | some _ _ ih => exact ih
  | @list item xs _ _ =>
    cases xs with
    | nil => exact ⟨91, _, octets_prettyAt_arr_nil d, rfl, by decide, fun he => absurd he (by decide)⟩
    | cons x xs => exact ⟨91, _, by rw [octets_prettyAt_arr]; rfl, rfl, by decide, fun he => absurd he (by decide)⟩
  | @record name fields ms _ _ _ _ =>
    cases ms with
    | nil => exact ⟨123, _, octets_prettyAt_obj_nil d, rfl, by decide, fun he => absurd he (by decide)⟩
    | cons m ms => exact ⟨123, _, by rw [octets_prettyAt_obj]; rfl, rfl, by decide, fun he => absurd he (by decide)⟩

end AgentDeck.Json
