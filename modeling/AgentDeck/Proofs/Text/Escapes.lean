import Mathlib
import AgentDeck.Text.Ansi
import AgentDeck.Agent.Prompt
import AgentDeck.Render
import AgentDeck.Proofs.Text.Fit

/-!
What stripping escape sequences leaves behind.

An escape sequence is a control sequence, `ESC [`, parameter characters and one ASCII letter,
or an operating system command, `ESC ]`, characters other than `BEL`, and a `BEL`
(`IsEscape`). Stripping scans from the left: a sequence that starts where the scan stands is
dropped (`stripEscapes_escape`), any other character is kept (`stripEscapes_keep`). These two
equations describe the scan whole (`stripEscapes_induction`), and the text is kept as it is
exactly when it holds no sequence (`stripEscapes_eq_self_iff`).

One pass does not always leave a clean text. An `ESC` that opens no sequence, alone or followed
by `[` and parameter characters, runs into whatever follows a sequence that stands right after
it: `ESC [ ESC [ 0 m 1 m` becomes `ESC [ 1 m` (`stripEscapes_splices`). Where no such `ESC`
stands right before a sequence (`Spliced`), the stripped text, the pane lines the dashboard
prints and the lines the prompt detector reads hold no sequence, and stripping again changes
nothing (`stripped_text_escape_free`).
-/

namespace AgentDeck.Text

/-! ### Escape sequences -/

/-- One escape sequence: `ESC [`, parameter characters and an ASCII letter; or `ESC ]`,
characters other than `BEL`, and a `BEL`. -/
inductive IsEscape : List Char → Prop
  | control {p : List Char} {c : Char} (hp : ∀ x ∈ p, isParamChar x = true)
      (hc : c.isAlpha = true) : IsEscape ('\x1b' :: '[' :: (p ++ [c]))
  | command {b : List Char} (hb : '\x07' ∉ b) : IsEscape ('\x1b' :: ']' :: (b ++ ['\x07']))

/-- An escape sequence starts the text. -/
def StartsEscape (t : List Char) : Prop := ∃ u v, t = u ++ v ∧ IsEscape u

/-- An escape sequence stands somewhere in the text. -/
def HasEscape (t : List Char) : Prop := ∃ w v, t = w ++ v ∧ StartsEscape v

theorem isAlpha_of_isParamChar {c : Char} (h : isParamChar c = true) : c.isAlpha = false := by
  simp only [isParamChar, Char.isAlpha, Char.isUpper, Char.isLower, Char.isDigit,
    Bool.or_eq_true, Bool.and_eq_true, decide_eq_true_eq, beq_iff_eq, Bool.or_eq_false_iff,
    Bool.and_eq_false_iff, decide_eq_false_iff_not] at h ⊢
  rcases h with (h | rfl) | rfl
  · simp only [UInt32.le_iff_toNat_le, ge_iff_le] at *
    have : '9'.val.toNat = 57 := rfl
    have : 'A'.val.toNat = 65 := rfl
    have : 'a'.val.toNat = 97 := rfl
    omega
  · decide
  · decide

theorem IsEscape.eq_append_close {u : List Char} (h : IsEscape u) :
    ∃ w z, u = w ++ [z] ∧ (z.isAlpha = true ∨ z = '\x07') := by
  cases h with
  | @control p c _ hc => exact ⟨'\x1b' :: '[' :: p, c, rfl, .inl hc⟩
  | @command b _ => exact ⟨'\x1b' :: ']' :: b, '\x07', rfl, .inr rfl⟩

theorem IsEscape.length_pos {u : List Char} (h : IsEscape u) : 0 < u.length := by
  cases h <;> simp

theorem closeControl_eq_some_iff {r a : List Char} :
    closeControl r = some a ↔
      ∃ p c, r = p ++ c :: a ∧ (∀ x ∈ p, isParamChar x = true) ∧ c.isAlpha = true := by
  induction r with
  | nil => simp [closeControl]
  | cons d r ih =>
    constructor
    · intro h
      simp only [closeControl] at h
      split at h
      · obtain ⟨p, c, rfl, hp, hc⟩ := ih.mp h
        exact ⟨d :: p, c, rfl, by simpa [*] using hp, hc⟩
      · split at h
        · cases h
          exact ⟨[], d, rfl, by simp, ‹_›⟩
        · cases h
    · rintro ⟨p, c, hr, hp, hc⟩
      cases p with
      | nil =>
        obtain ⟨rfl, rfl⟩ := List.cons.inj hr
        have : isParamChar d = false := by
          cases hd : isParamChar d
          · rfl
          · simp [isAlpha_of_isParamChar hd] at hc
        simp [closeControl, this, hc]
      | cons x p =>
        obtain ⟨rfl, rfl⟩ := List.cons.inj hr
        simp only [List.mem_cons, forall_eq_or_imp] at hp
        simp only [closeControl, hp.1, if_true]
        exact ih.mpr ⟨p, c, rfl, hp.2, hc⟩

theorem closeCommand_eq_some_iff {r a : List Char} :
    closeCommand r = some a ↔ ∃ b, r = b ++ '\x07' :: a ∧ '\x07' ∉ b := by
  induction r with
  | nil => simp [closeCommand]
  | cons d r ih =>
    by_cases hd : d = '\x07'
    · subst hd
      constructor
      · intro h
        simp only [closeCommand, if_true, Option.some.injEq] at h
        exact ⟨[], by simp [h]⟩
      · rintro ⟨b, hr, hb⟩
        cases b with
        | nil => simpa [closeCommand] using hr
        | cons x b => simp_all
    · simp only [closeCommand, hd, if_false, ih]
      constructor
      · rintro ⟨b, rfl, hb⟩
        exact ⟨d :: b, rfl, by simp [Ne.symm hd, hb]⟩
      · rintro ⟨b, hr, hb⟩
        cases b with
        | nil => simp_all
        | cons x b =>
          obtain ⟨rfl, rfl⟩ := List.cons.inj hr
          exact ⟨b, rfl, fun h => hb (List.mem_cons_of_mem _ h)⟩

theorem closeCommand_eq_none_iff {r : List Char} : closeCommand r = none ↔ '\x07' ∉ r := by
  induction r with
  | nil => simp [closeCommand]
  | cons d r ih =>
    by_cases hd : d = '\x07'
    · simp [closeCommand, hd]
    · simp [closeCommand, hd, ih, Ne.symm hd]

/-! ### Where a sequence starts -/

theorem startsEscape_control_iff {r : List Char} :
    StartsEscape ('\x1b' :: '[' :: r) ↔ ∃ a, closeControl r = some a := by
  constructor
  · rintro ⟨u, v, huv, hu⟩
    cases hu with
    | control hp hc =>
      simp only [List.cons_append, List.append_assoc,
        List.cons.injEq, true_and] at huv
      exact ⟨v, closeControl_eq_some_iff.mpr ⟨_, _, huv, hp, hc⟩⟩
    | command _ => simp at huv
  · rintro ⟨a, h⟩
    obtain ⟨p, c, rfl, hp, hc⟩ := closeControl_eq_some_iff.mp h
    exact ⟨_, a, by simp, .control hp hc⟩

theorem startsEscape_command_iff {r : List Char} :
    StartsEscape ('\x1b' :: ']' :: r) ↔ '\x07' ∈ r := by
  constructor
  · rintro ⟨u, v, huv, hu⟩
    cases hu with
    | control _ _ => simp at huv
    | command _ =>
      simp only [List.cons_append, List.append_assoc,
        List.cons.injEq, true_and] at huv
      simp [huv]
  · intro h
    obtain ⟨a, ha⟩ := Option.ne_none_iff_exists'.mp (mt closeCommand_eq_none_iff.mp (not_not.mpr h))
    obtain ⟨b, rfl, hb⟩ := closeCommand_eq_some_iff.mp ha
    exact ⟨_, a, by simp, .command hb⟩

theorem not_startsEscape {t : List Char} (h1 : ∀ r, t ≠ '\x1b' :: '[' :: r)
    (h2 : ∀ r, t ≠ '\x1b' :: ']' :: r) : ¬ StartsEscape t := by
  rintro ⟨u, v, rfl, hu⟩
  cases hu with
  | @control p c _ _ => exact h1 (p ++ c :: v) (by simp)
  | @command b _ => exact h2 (b ++ '\x07' :: v) (by simp)

theorem not_startsEscape_of_ne {c : Char} {r : List Char} (h : c ≠ '\x1b') :
    ¬ StartsEscape (c :: r) :=
  not_startsEscape (by simp [h]) (by simp [h])

theorem not_startsEscape_nil : ¬ StartsEscape [] :=
  not_startsEscape (by simp) (by simp)

theorem StartsEscape.append {t : List Char} (h : StartsEscape t) (e : List Char) :
    StartsEscape (t ++ e) := by
  obtain ⟨u, v, rfl, hu⟩ := h
  exact ⟨u, v ++ e, by simp, hu⟩

/-! ### Where a sequence stands -/

theorem not_hasEscape_nil : ¬ HasEscape [] := by
  rintro ⟨w, v, h, hv⟩
  obtain ⟨-, rfl⟩ := List.append_eq_nil_iff.mp h.symm
  exact not_startsEscape_nil hv

theorem hasEscape_cons {c : Char} {r : List Char} :
    HasEscape (c :: r) ↔ StartsEscape (c :: r) ∨ HasEscape r := by
  constructor
  · rintro ⟨w, v, h, hv⟩
    cases w with
    | nil => exact .inl (by simpa [h] using hv)
    | cons x w =>
      obtain ⟨-, rfl⟩ := List.cons.inj h
      exact .inr ⟨w, v, rfl, hv⟩
  · rintro (h | ⟨w, v, rfl, hv⟩)
    · exact ⟨[], _, rfl, h⟩
    · exact ⟨c :: w, v, rfl, hv⟩

theorem HasEscape.mono {t t' : List Char} (h : HasEscape t) (ht : t <:+: t') :
    HasEscape t' := by
  obtain ⟨w, v, rfl, hv⟩ := h
  obtain ⟨s, e, rfl⟩ := ht
  exact ⟨s ++ w, v ++ e, by simp, hv.append e⟩

theorem HasEscape.of_append {t e : List Char} (h : HasEscape (t ++ e))
    (he : ∀ z ∈ e, z.isAlpha = false ∧ z ≠ '\x07') : HasEscape t := by
  obtain ⟨w, v, hwv, u, v', rfl, hu⟩ := h
  obtain ⟨x, z, rfl, hz⟩ := hu.eq_append_close
  have hwv' : t ++ e = (w ++ x ++ [z]) ++ v' := by simpa using hwv
  rcases List.append_eq_append_iff.mp hwv' with ⟨a, ha, hea⟩ | ⟨a, hta, -⟩
  · -- the sequence closes where `t` ends, or its closing character lies in `e`
    rcases List.eq_nil_or_concat a with rfl | ⟨a', y, rfl⟩
    · exact ⟨w, x ++ [z], by simpa using ha.symm, x ++ [z], [], by simp, hu⟩
    · have hzy : z = y := by simpa using congrArg List.getLast? ha
      have hy : y ∈ e := by simp [hea]
      obtain ⟨hya, hyb⟩ := he y hy
      subst hzy
      rcases hz with hz | hz
      · simp [hz] at hya
      · exact absurd hz hyb
  · exact ⟨w, x ++ [z] ++ a, by simp [hta], x ++ [z], a, by simp, hu⟩

/-! ### The scan -/

@[simp] theorem stripEscapes_nil : stripEscapes [] = [] := by
  rw [stripEscapes]

/-- A sequence where the scan stands is dropped whole. -/
theorem stripEscapes_escape {u : List Char} (hu : IsEscape u) (v : List Char) :
    stripEscapes (u ++ v) = stripEscapes v := by
  cases hu with
  | @control p c hp hc =>
    have h : closeControl (p ++ c :: v) = some v := closeControl_eq_some_iff.mpr ⟨p, c, rfl, hp, hc⟩
    have huv : '\x1b' :: '[' :: (p ++ [c]) ++ v = '\x1b' :: '[' :: (p ++ c :: v) := by simp
    rw [huv, stripEscapes]
    split <;> simp_all
  | @command b hb =>
    have h : closeCommand (b ++ '\x07' :: v) = some v := closeCommand_eq_some_iff.mpr ⟨b, rfl, hb⟩
    have huv : '\x1b' :: ']' :: (b ++ ['\x07']) ++ v = '\x1b' :: ']' :: (b ++ '\x07' :: v) := by
      simp
    rw [huv, stripEscapes]
    split <;> simp_all

/-- A character that starts no sequence is kept. -/
theorem stripEscapes_keep {c : Char} {r : List Char} (h : ¬ StartsEscape (c :: r)) :
    stripEscapes (c :: r) = c :: stripEscapes r := by
  rw [stripEscapes.eq_def]
  split
  · rename_i heq
    cases heq
  · rename_i rest heq
    obtain ⟨rfl, rfl⟩ := List.cons.inj heq
    split
    · rename_i a ha
      exact absurd (startsEscape_control_iff.mpr ⟨a, ha⟩) h
    · rfl
  · rename_i rest heq
    obtain ⟨rfl, rfl⟩ := List.cons.inj heq
    split
    · rename_i a ha
      exact absurd (startsEscape_command_iff.mpr
        (not_not.mp (mt closeCommand_eq_none_iff.mpr (by simp [ha])))) h
    · rfl
  · rename_i c' rest _ _ heq
    obtain ⟨rfl, rfl⟩ := List.cons.inj heq
    rfl

/-- The scan, told by its two equations: drop a sequence that starts here, else keep one
character and go on. -/
theorem stripEscapes_induction {P : List Char → Prop} (nil : P [])
    (escape : ∀ u v, IsEscape u → P v → P (u ++ v))
    (keep : ∀ c r, ¬ StartsEscape (c :: r) → P r → P (c :: r)) : ∀ t, P t
  | [] => nil
  | c :: r => by
    by_cases hs : StartsEscape (c :: r)
    · obtain ⟨u, v, huv, hu⟩ := hs
      have : v.length ≤ r.length := by
        have hlen := congrArg List.length huv
        rw [List.length_append, List.length_cons] at hlen
        have := hu.length_pos
        omega
      rw [huv]
      exact escape u v hu (stripEscapes_induction nil escape keep v)
    · exact keep c r hs (stripEscapes_induction nil escape keep r)
termination_by t => t.length

theorem stripEscapes_sublist (t : List Char) : List.Sublist (stripEscapes t) t := by
  induction t using stripEscapes_induction with
  | nil => simp
  | escape u v hu ih =>
    rw [stripEscapes_escape hu]
    exact ih.trans (List.sublist_append_right u v)
  | keep c r hc ih =>
    rw [stripEscapes_keep hc]
    exact ih.cons_cons c

theorem stripEscapes_of_not_hasEscape {t : List Char} (h : ¬ HasEscape t) :
    stripEscapes t = t := by
  induction t with
  | nil => simp
  | cons c r ih =>
    rw [hasEscape_cons, not_or] at h
    rw [stripEscapes_keep h.1, ih h.2]

theorem length_stripEscapes_lt {t : List Char} (h : HasEscape t) :
    (stripEscapes t).length < t.length := by
  induction t using stripEscapes_induction with
  | nil => exact absurd h not_hasEscape_nil
  | escape u v hu _ =>
    rw [stripEscapes_escape hu, List.length_append]
    have := (stripEscapes_sublist v).length_le
    have := hu.length_pos
    omega
  | keep c r hc ih =>
    rw [stripEscapes_keep hc, List.length_cons, List.length_cons]
    have := ih ((hasEscape_cons.mp h).resolve_left hc)
    omega

/-- **Fixed points**: stripping keeps a text as it is exactly when the text holds no escape
sequence. -/
theorem stripEscapes_eq_self_iff {t : List Char} : stripEscapes t = t ↔ ¬ HasEscape t := by
  constructor
  · intro h hs
    have := length_stripEscapes_lt hs
    rw [h] at this
    exact lt_irrefl _ this
  · exact stripEscapes_of_not_hasEscape

/-! ### Splices -/

/-- An `ESC` that is followed, right away or after `[` and parameter characters, by an escape
sequence. Dropping that sequence brings the `ESC` next to what came after it. -/
def Spliced (t : List Char) : Prop :=
  ∃ w q v, t = w ++ '\x1b' :: (q ++ v) ∧
    (q = [] ∨ ∃ p, q = '[' :: p ∧ ∀ x ∈ p, isParamChar x = true) ∧ StartsEscape v

theorem Spliced.mono {t t' : List Char} (h : Spliced t) (ht : t <:+: t') : Spliced t' := by
  obtain ⟨w, q, v, rfl, hq, hv⟩ := h
  obtain ⟨s, e, rfl⟩ := ht
  exact ⟨s ++ w, q, v ++ e, by simp, hq, hv.append e⟩

theorem closeControl_stripEscapes {r : List Char} (hr : closeControl r = none)
    (hs : ∀ p v, r = p ++ v → (∀ x ∈ p, isParamChar x = true) → ¬ StartsEscape v) :
    closeControl (stripEscapes r) = none := by
  induction r with
  | nil => simp [closeControl]
  | cons d r ih =>
    rw [stripEscapes_keep (hs [] (d :: r) rfl (by simp))]
    by_cases hd : isParamChar d = true
    · simp only [closeControl, hd, if_true] at hr ⊢
      exact ih hr fun p v hpv hp => hs (d :: p) v (by simp [hpv]) (List.forall_mem_cons.mpr ⟨hd, hp⟩)
    · simpa [closeControl, hd] using hr

theorem not_startsEscape_kept {c : Char} {r : List Char} (hc : ¬ StartsEscape (c :: r))
    (hs : ¬ Spliced (c :: r)) : ¬ StartsEscape (c :: stripEscapes r) := by
  by_cases hesc : c = '\x1b'
  · subst hesc
    cases r with
    | nil => simpa using not_startsEscape (t := ['\x1b']) (by simp) (by simp)
    | cons d r =>
      have hd : ¬ StartsEscape (d :: r) := fun h => hs ⟨[], [], d :: r, by simp, .inl rfl, h⟩
      rw [stripEscapes_keep hd]
      by_cases h1 : d = '['
      · subst h1
        rw [startsEscape_control_iff, not_exists] at hc ⊢
        have hr : closeControl r = none := Option.eq_none_iff_forall_ne_some.mpr hc
        have := closeControl_stripEscapes hr fun p v hpv hp hv =>
          hs ⟨[], '[' :: p, v, by simp [hpv], .inr ⟨p, rfl, hp⟩, hv⟩
        simp [this]
      · by_cases h2 : d = ']'
        · subst h2
          rw [startsEscape_command_iff] at hc ⊢
          exact fun h => hc ((stripEscapes_sublist r).subset h)
        · exact not_startsEscape (by simp [h1]) (by simp [h2])
  · exact not_startsEscape_of_ne hesc

/-- **One pass suffices without splices**: a text with no spliced `ESC` is stripped of every
escape sequence. -/
theorem not_hasEscape_stripEscapes {t : List Char} (h : ¬ Spliced t) :
    ¬ HasEscape (stripEscapes t) := by
  induction t using stripEscapes_induction with
  | nil => simpa using not_hasEscape_nil
  | escape u v hu ih =>
    rw [stripEscapes_escape hu]
    exact ih fun hv => h (hv.mono (List.suffix_append u v).isInfix)
  | keep c r hc ih =>
    rw [stripEscapes_keep hc, hasEscape_cons, not_or]
    exact ⟨not_startsEscape_kept hc h, ih fun hr => h (hr.mono (List.suffix_cons c r).isInfix)⟩

theorem stripEscapes_stripEscapes {t : List Char} (h : ¬ Spliced t) :
    stripEscapes (stripEscapes t) = stripEscapes t :=
  stripEscapes_of_not_hasEscape (not_hasEscape_stripEscapes h)

/-! ### Lines lie in their text -/

theorem splitPieces_head_isPrefix :
    ∀ {s p : List Char} {ps : List (List Char)}, lines.splitPieces s = p :: ps → p <+: s
  | [], p, ps, h => by
    simp only [lines.splitPieces, List.cons.injEq] at h
    rw [← h.1]
  | c :: cs, p, ps, h => by
    simp only [lines.splitPieces] at h
    split at h
    · rw [← (List.cons.inj h).1]
      exact List.nil_prefix
    · split at h
      · rw [← (List.cons.inj h).1]
        exact List.cons_prefix_cons.mpr ⟨rfl, List.nil_prefix⟩
      · rename_i q qs hq
        rw [← (List.cons.inj h).1]
        exact List.cons_prefix_cons.mpr ⟨rfl, splitPieces_head_isPrefix hq⟩

theorem splitPieces_isInfix : ∀ {s p : List Char}, p ∈ lines.splitPieces s → p <:+: s
  | [], p, h => by
    simp only [lines.splitPieces, List.mem_singleton] at h
    rw [h]
  | c :: cs, p, h => by
    simp only [lines.splitPieces] at h
    split at h
    · rcases List.mem_cons.mp h with rfl | h
      · exact List.nil_infix
      · exact (splitPieces_isInfix h).trans (List.suffix_cons c cs).isInfix
    · split at h
      · rw [List.mem_singleton.mp h]
        exact (List.cons_prefix_cons.mpr ⟨rfl, List.nil_prefix⟩).isInfix
      · rename_i q qs hq
        rcases List.mem_cons.mp h with rfl | h
        · exact (List.cons_prefix_cons.mpr ⟨rfl, splitPieces_head_isPrefix hq⟩).isInfix
        · have := splitPieces_isInfix (s := cs) (by rw [hq]; exact List.mem_cons_of_mem q h)
          exact this.trans (List.suffix_cons c cs).isInfix

theorem dropReturn_isPrefix (l : List Char) : dropReturn l <+: l := by
  unfold dropReturn
  split
  · rename_i rest h
    have : l = rest.reverse ++ ['\r'] := by
      rw [← List.reverse_reverse l, h]
      simp
    rw [this]
    exact List.prefix_append _ _
  · exact List.prefix_refl l

theorem lines_isInfix {s l : List Char} (h : l ∈ lines s) : l <:+: s := by
  have body (hl : l ∈ (lines.splitPieces s).dropLast.map dropReturn) : l <:+: s := by
    obtain ⟨p, hp, rfl⟩ := List.mem_map.mp hl
    exact (dropReturn_isPrefix p).isInfix.trans (splitPieces_isInfix (List.dropLast_subset _ hp))
  unfold lines at h
  split at h
  · simp at h
  · simp only at h
    split at h
    · rename_i last hlast
      split at h
      · exact body h
      · rcases List.mem_append.mp h with h | h
        · exact body h
        · rw [List.mem_singleton.mp h]
          exact splitPieces_isInfix (List.mem_of_getLast? hlast)
    · exact body h

theorem trimTailChars_isPrefix (s : List Char) : trimTailChars s <+: s := by
  have := List.reverse_prefix.mpr (List.dropWhile_suffix isBlank (l := s.reverse))
  simpa [trimTailChars] using this

theorem textLines_isInfix {s l : String} (h : l ∈ s.textLines) : l.toList <:+: s.toList := by
  obtain ⟨x, hx, rfl⟩ := List.mem_map.mp h
  rw [String.toList_ofList]
  exact lines_isInfix hx

/-! ### Deciding splices -/

/-- Whether an escape sequence starts the text, computed. -/
def escapeStarts : List Char → Bool
  | '\x1b' :: '[' :: r => (closeControl r).isSome
  | '\x1b' :: ']' :: r => r.contains '\x07'
  | _ => false

theorem escapeStarts_iff {t : List Char} : escapeStarts t = true ↔ StartsEscape t := by
  rw [escapeStarts.eq_def]
  split
  · rw [startsEscape_control_iff, Option.isSome_iff_exists]
  · rw [startsEscape_command_iff, List.contains_iff_mem]
  · rename_i h1 h2
    simp only [Bool.false_eq_true, false_iff]
    exact not_startsEscape (fun r h => h1 r h) (fun r h => h2 r h)

/-- Whether parameter characters and then an escape sequence start the text, computed. -/
def escapeAfterParams : List Char → Bool
  | [] => false
  | c :: r => escapeStarts (c :: r) || (isParamChar c && escapeAfterParams r)

theorem escapeAfterParams_iff {t : List Char} :
    escapeAfterParams t = true ↔
      ∃ p v, t = p ++ v ∧ (∀ x ∈ p, isParamChar x = true) ∧ StartsEscape v := by
  induction t with
  | nil =>
    simp only [escapeAfterParams, Bool.false_eq_true, false_iff, not_exists, not_and]
    intro p v h _
    rw [(List.append_eq_nil_iff.mp h.symm).2]
    exact not_startsEscape_nil
  | cons c r ih =>
    simp only [escapeAfterParams, Bool.or_eq_true, Bool.and_eq_true, escapeStarts_iff, ih]
    constructor
    · rintro (h | ⟨hc, p, v, rfl, hp, hv⟩)
      · exact ⟨[], c :: r, rfl, by simp, h⟩
      · exact ⟨c :: p, v, rfl, List.forall_mem_cons.mpr ⟨hc, hp⟩, hv⟩
    · rintro ⟨p, v, h, hp, hv⟩
      cases p with
      | nil => exact .inl (by simpa [h] using hv)
      | cons x p =>
        obtain ⟨rfl, rfl⟩ := List.cons.inj h
        rw [List.forall_mem_cons] at hp
        exact .inr ⟨hp.1, p, v, rfl, hp.2, hv⟩

theorem spliced_cons_iff {c : Char} {r : List Char} :
    Spliced (c :: r) ↔
      (c = '\x1b' ∧ (StartsEscape r ∨ ∃ r', r = '[' :: r' ∧
        ∃ p v, r' = p ++ v ∧ (∀ x ∈ p, isParamChar x = true) ∧ StartsEscape v)) ∨
      Spliced r := by
  constructor
  · rintro ⟨w, q, v, h, hq, hv⟩
    cases w with
    | nil =>
      obtain ⟨rfl, rfl⟩ := List.cons.inj h
      rcases hq with rfl | ⟨p, rfl, hp⟩
      · exact .inl ⟨rfl, .inl hv⟩
      · exact .inl ⟨rfl, .inr ⟨p ++ v, by simp, p, v, rfl, hp, hv⟩⟩
    | cons x w =>
      obtain ⟨-, rfl⟩ := List.cons.inj h
      exact .inr ⟨w, q, v, rfl, hq, hv⟩
  · rintro (⟨rfl, hv | ⟨r', rfl, p, v, rfl, hp, hv⟩⟩ | ⟨w, q, v, rfl, hq, hv⟩)
    · exact ⟨[], [], r, rfl, .inl rfl, hv⟩
    · exact ⟨[], '[' :: p, v, by simp, .inr ⟨p, rfl, hp⟩, hv⟩
    · exact ⟨c :: w, q, v, rfl, hq, hv⟩

/-- Whether the text has a spliced `ESC`, computed. -/
def spliced : List Char → Bool
  | [] => false
  | c :: r =>
    (c == '\x1b' && (escapeStarts r || (r.head? == some '[' && escapeAfterParams r.tail))) ||
      spliced r

theorem spliced_iff {t : List Char} : spliced t = true ↔ Spliced t := by
  induction t with
  | nil =>
    simp only [spliced, Bool.false_eq_true, false_iff]
    rintro ⟨w, q, v, h, -, -⟩
    simp at h
  | cons c r ih =>
    have hopen : (r.head? == some '[' && escapeAfterParams r.tail) = true ↔
        ∃ r', r = '[' :: r' ∧
          ∃ p v, r' = p ++ v ∧ (∀ x ∈ p, isParamChar x = true) ∧ StartsEscape v := by
      cases r with
      | nil => simp
      | cons d r =>
        simp only [List.head?_cons, List.tail_cons, Bool.and_eq_true, beq_iff_eq,
          Option.some.injEq, escapeAfterParams_iff, List.cons.injEq]
        constructor
        · rintro ⟨rfl, h⟩
          exact ⟨r, ⟨rfl, rfl⟩, h⟩
        · rintro ⟨r', ⟨rfl, rfl⟩, h⟩
          exact ⟨rfl, h⟩
    rw [spliced, spliced_cons_iff, Bool.or_eq_true, Bool.and_eq_true, Bool.or_eq_true, hopen,
      escapeStarts_iff, ih, beq_iff_eq]

instance : DecidablePred Spliced := fun _ => decidable_of_iff _ spliced_iff

/-! ### Stripped text and the lines shown -/

theorem toList_stripEscapes (s : String) : s.stripEscapes.toList = stripEscapes s.toList :=
  String.toList_ofList

theorem not_hasEscape_line {t : String} (h : ¬ HasEscape t.toList) :
    ¬ HasEscape (Render.line t).toList := by
  have hclose : ∀ z ∈ [ellipsis, '\n'], z.isAlpha = false ∧ z ≠ '\x07' := by
    simp only [List.mem_cons, List.not_mem_nil, or_false, forall_eq_or_imp, forall_eq]
    exact ⟨⟨rfl, by decide⟩, rfl, by decide⟩
  have hfeed : ∀ z ∈ ['\n'], z.isAlpha = false ∧ z ≠ '\x07' := fun z hz =>
    hclose z (List.mem_cons_of_mem _ hz)
  intro hl
  have hfeed' : "\n".toList = ['\n'] := rfl
  rw [Render.line, String.toList_append, toList_fitColumns, hfeed'] at hl
  unfold fit at hl
  split_ifs at hl
  · exact h (hl.of_append hfeed)
  · exact not_hasEscape_nil (hl.of_append hfeed)
  · rw [List.append_assoc] at hl
    have hcut := takeColumns_prefix (Render.width - 1) t.toList
    exact h ((hl.of_append hclose).mono hcut.isInfix)

/-- **Stripping a pane text.** When no `ESC` of the text stands, alone or followed by `[` and
parameter characters, right before an escape sequence, one pass strips every sequence: the
stripped text holds none and stripping it again changes nothing, and neither the preview lines
the dashboard prints nor the lines the prompt detector reads hold one. -/
theorem stripped_text_escape_free (s : String) (hs : ¬ Spliced s.toList) :
    ¬ HasEscape s.stripEscapes.toList ∧ s.stripEscapes.stripEscapes = s.stripEscapes ∧
      (∀ l ∈ Render.previewLines s, ¬ HasEscape l.toList) ∧
      ∀ n, ∀ l ∈ Prompt.lastLines s n, ¬ HasEscape l.toList := by
  have hline (l : String) (hl : l.toList <:+: s.toList) : ¬ HasEscape l.stripEscapes.toList := by
    rw [toList_stripEscapes]
    exact not_hasEscape_stripEscapes fun h => hs (h.mono hl)
  refine ⟨hline s (List.infix_refl _), ?_, ?_, ?_⟩
  · unfold String.stripEscapes
    rw [String.toList_ofList, stripEscapes_stripEscapes hs]
  · intro l hl
    obtain ⟨l', hl', rfl⟩ := List.mem_map.mp hl
    have hpre : s.trimBlankEnd.toList <+: s.toList := by
      unfold String.trimBlankEnd
      rw [String.toList_ofList]
      exact trimTailChars_isPrefix _
    exact not_hasEscape_line (hline l' ((textLines_isInfix hl').trans hpre.isInfix))
  · intro n l hl
    simp only [Prompt.lastLines, List.mem_reverse] at hl
    obtain ⟨l', hl', rfl⟩ := List.mem_map.mp (List.mem_filter.mp (List.mem_of_mem_take hl)).1
    exact hline l' (textLines_isInfix (List.mem_reverse.mp hl'))

/-- A coloured word and a window title, on two lines of a pane: no `ESC` is spliced, and
stripping clears both lines. -/
theorem coloured_pane_escape_free :
    ¬ Spliced "\x1b[32mok\x1b[0m\n\x1b]0;title\x07$ ".toList ∧
      ¬ HasEscape "\x1b[32mok\x1b[0m\n\x1b]0;title\x07$ ".stripEscapes.toList ∧
      "\x1b[32mok\x1b[0m\n\x1b]0;title\x07$ ".stripEscapes.stripEscapes =
        "\x1b[32mok\x1b[0m\n\x1b]0;title\x07$ ".stripEscapes ∧
      (∀ l ∈ Render.previewLines "\x1b[32mok\x1b[0m\n\x1b]0;title\x07$ ", ¬ HasEscape l.toList) ∧
      ∀ n, ∀ l ∈ Prompt.lastLines "\x1b[32mok\x1b[0m\n\x1b]0;title\x07$ " n,
        ¬ HasEscape l.toList := by
  have h : ¬ Spliced "\x1b[32mok\x1b[0m\n\x1b]0;title\x07$ ".toList := by decide
  exact ⟨h, stripped_text_escape_free _ h⟩

/-- **One pass can splice.** An `ESC [` that a control sequence interrupts is joined to the text
after it: the stripped text is a new control sequence, which a second pass removes. -/
theorem stripEscapes_splices :
    "\x1b[\x1b[0m1m".stripEscapes = "\x1b[1m" ∧ HasEscape "\x1b[1m".toList ∧
      "\x1b[1m".stripEscapes = "" := by
  refine ⟨by decide +kernel, ⟨[], _, rfl, escapeStarts_iff.mp (by decide)⟩, by decide +kernel⟩

end AgentDeck.Text
