import Mathlib
import AgentDeck.Text.Width

/-!
Cutting a text to a column budget.

`fit max s` keeps `s` when the text, measured whole, takes at most `max` columns. Otherwise it
keeps the longest start of `s` whose characters, measured one at a time, take at most `max - 1`
columns, and marks the cut with an ellipsis of one column.

The two measures differ. Measured whole, a control character takes a column, a variation
selector can widen the character before it, and pictures joined by zero width joiners share
their columns; measured one at a time, a control character takes none and a joined picture
takes all its pieces. So a cut text keeps to its budget as its characters add up
(`fitColumns_within_budget`), but measured whole it can be wider than the budget
(`fitColumns_can_overflow`).
-/

namespace AgentDeck.Text

/-- Columns of a text measured one character at a time, a control character counting none. -/
def charSum (s : List Char) : Nat := (s.map charColumns).sum

@[simp] theorem charSum_nil : charSum [] = 0 := rfl

@[simp] theorem charSum_cons (c : Char) (s : List Char) :
    charSum (c :: s) = charColumns c + charSum s := by
  simp [charSum]

@[simp] theorem charSum_append (s t : List Char) : charSum (s ++ t) = charSum s + charSum t := by
  simp [charSum]

theorem charSum_prefix_le {q s : List Char} (h : q <+: s) : charSum q ≤ charSum s := by
  obtain ⟨t, rfl⟩ := h
  simp

/-! ### The cut -/

@[simp] theorem takeColumns_nil (room : Nat) : takeColumns room [] = [] := rfl

theorem takeColumns_cons (room : Nat) (c : Char) (cs : List Char) :
    takeColumns room (c :: cs) =
      if charColumns c ≤ room then c :: takeColumns (room - charColumns c) cs else [] := rfl

theorem takeColumns_prefix (room : Nat) (s : List Char) : takeColumns room s <+: s := by
  induction s generalizing room with
  | nil => exact List.prefix_refl []
  | cons c cs ih =>
    rw [takeColumns_cons]
    split
    · exact List.cons_prefix_cons.mpr ⟨rfl, ih _⟩
    · exact List.nil_prefix

theorem charSum_takeColumns_le (room : Nat) (s : List Char) : charSum (takeColumns room s) ≤ room := by
  induction s generalizing room with
  | nil => simp
  | cons c cs ih =>
    rw [takeColumns_cons]
    split
    · have := ih (room - charColumns c)
      simp only [charSum_cons]
      omega
    · simp

theorem prefix_takeColumns {room : Nat} {q s : List Char} (hq : q <+: s) (hfit : charSum q ≤ room) :
    q <+: takeColumns room s := by
  induction s generalizing room q with
  | nil =>
    rw [List.prefix_nil.mp hq]
    exact List.nil_prefix
  | cons c cs ih =>
    rcases List.prefix_cons_iff.mp hq with rfl | ⟨t, rfl, ht⟩
    · exact List.nil_prefix
    · -- the first character fits, so the cut goes on past it with the room that is left
      rw [charSum_cons] at hfit
      rw [takeColumns_cons, if_pos (by omega)]
      exact List.cons_prefix_cons.mpr ⟨rfl, ih ht (by omega)⟩

theorem charSum_le_iff_prefix_takeColumns {room : Nat} {s q : List Char} (hq : q <+: s) :
    charSum q ≤ room ↔ q <+: takeColumns room s :=
  ⟨prefix_takeColumns hq, fun h => (charSum_prefix_le h).trans (charSum_takeColumns_le room s)⟩

theorem charColumns_ellipsis : charColumns ellipsis = 1 := by decide +kernel

theorem fit_of_lt {max : Nat} {s : List Char} (hwide : max < columns s) (hmax : 0 < max) :
    fit max s = takeColumns (max - 1) s ++ [ellipsis] := by
  rw [fit, if_neg (by omega), if_neg (by omega)]

theorem charSum_fit_of_lt {max : Nat} {s : List Char} (hwide : max < columns s) (hmax : 0 < max) :
    charSum (fit max s) ≤ max := by
  rw [fit_of_lt hwide hmax, charSum_append, charSum_cons, charColumns_ellipsis, charSum_nil]
  have := charSum_takeColumns_le (max - 1) s
  omega

/-! ### Strings -/

theorem toList_fitColumns (s : String) (max : Nat) : (s.fitColumns max).toList = fit max s.toList :=
  String.toList_ofList

/-- **What a cut keeps.** A string that takes at most `max` columns is kept whole; a wider one is
emptied when `max` is zero, and otherwise becomes the longest start of it whose characters,
measured one at a time, fit in `max - 1` columns, followed by an ellipsis; measured that way the
result fits in `max` columns. -/
theorem fitColumns_within_budget (s : String) (max : Nat) :
    (s.columns ≤ max → s.fitColumns max = s) ∧
    (max < s.columns → max = 0 → s.fitColumns max = "") ∧
    (max < s.columns → 0 < max →
      ∃ p, p <+: s.toList ∧ (∀ q, q <+: s.toList → (charSum q ≤ max - 1 ↔ q <+: p)) ∧
        (s.fitColumns max).toList = p ++ [ellipsis] ∧ charSum (s.fitColumns max).toList ≤ max) := by
  refine ⟨fun hfit => ?_, fun hwide hzero => ?_, fun hwide hmax => ?_⟩
  · rw [String.fitColumns, fit_of_columns_le hfit, String.ofList_toList]
  · rw [String.fitColumns, fit, if_neg (by rw [String.columns] at hwide; omega), if_pos hzero]
  · have hwide' : max < columns s.toList := hwide
    refine ⟨takeColumns (max - 1) s.toList, takeColumns_prefix _ _,
      fun q hq => charSum_le_iff_prefix_takeColumns hq, ?_, ?_⟩
    · rw [toList_fitColumns, fit_of_lt hwide' hmax]
    · rw [toList_fitColumns]
      exact charSum_fit_of_lt hwide' hmax

/-- A cut at a budget of five columns keeps the first word of `hello world`: the string is wider
than the budget, and the budget has room for the ellipsis. -/
theorem hello_world_cut_within_budget :
    5 < "hello world".columns ∧ 0 < 5 ∧
      ∃ p, p <+: "hello world".toList ∧
        (∀ q, q <+: "hello world".toList → (charSum q ≤ 5 - 1 ↔ q <+: p)) ∧
        ("hello world".fitColumns 5).toList = p ++ [ellipsis] ∧
        charSum ("hello world".fitColumns 5).toList ≤ 5 := by
  have hwide : 5 < "hello world".columns := by decide +kernel
  exact ⟨hwide, Nat.succ_pos 4, (fitColumns_within_budget "hello world" 5).2.2 hwide (Nat.succ_pos 4)⟩

/-- Two tabs take a column each in a string but none one at a time: cut to one column, they are
kept whole before the ellipsis, and the result takes three columns. -/
theorem fitColumns_can_overflow :
    ¬ ∀ (s : String) (max : Nat), (s.fitColumns max).columns ≤ max := by
  intro h
  have hcut : ("\t\t".fitColumns 1).columns = 3 := by decide +kernel
  have := h "\t\t" 1
  omega

end AgentDeck.Text
