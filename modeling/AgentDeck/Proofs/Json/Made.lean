import AgentDeck.Proofs.Json.Free

/-!
What the free-form reader makes.

Every document the free-form reader accepts holds a value of the reader's form
(`Json.Canonical`) that nests less deeply than the reader allows (`parse_made`). With
`parse_pretty`, a value read once reads back from its pretty text as `Json.reread` of itself.

The proof follows the reader. Each step of it has a specification (`RoomSpec`): started with
some nesting room, a run that succeeds gives a result of a stated kind and leaves some room.
Steps that only move the cursor keep the room (`KeepsRoom`); entering an array or an object
takes a unit of room and leaving gives it back. Specifications compose along `bind`, so a
step's specification follows its `do` block, whose join points are named and specified once.
The readers of values, items and members are taken together, by induction on their fuel
(`roomSpec_readAny`).
-/

namespace AgentDeck.Json

open AgentDeck.Binary64

variable {α β : Type} {r r' : Nat}

/-! ### Specifications of reading steps -/

/-- Started with nesting room `r`, a run of `m` that succeeds gives a result with `P` and
leaves room `r'`. A fault promises nothing. -/
def RoomSpec (r : Nat) (m : ReadM α) (P : α → Prop) (r' : Nat) : Prop :=
  ∀ c a c', c.room = r → m c = .ok (a, c') → P a ∧ c'.room = r'

/-- A step that, when it succeeds, leaves the nesting room as it found it. -/
def KeepsRoom (m : ReadM α) : Prop := ∀ r, RoomSpec r m (fun _ => True) r

theorem RoomSpec.bind {x : ReadM α} {f : α → ReadM β} {P : α → Prop} {Q : β → Prop}
    {r₁ r₂ : Nat} (hx : RoomSpec r x P r₁) (hf : ∀ a, P a → RoomSpec r₁ (f a) Q r₂) :
    RoomSpec r (x >>= f) Q r₂ := by
  intro c b c'' hc h
  rcases hxc : x c with e | ⟨a, c'⟩
  · have : (x >>= f) c = .error e := by
      show (x c >>= fun p => f p.1 p.2) = _
      rw [hxc]; rfl
    rw [this] at h
    cases h
  · rw [bind_of_ok hxc] at h
    obtain ⟨ha, hc'⟩ := hx c a c' hc hxc
    exact hf a ha c' b c'' hc' h

theorem roomSpec_pure {P : α → Prop} {a : α} (h : P a) : RoomSpec r (pure a : ReadM α) P r := by
  rintro c b c' rfl h'
  cases h'
  exact ⟨h, rfl⟩

theorem roomSpec_of_fails {m : ReadM α} {P : α → Prop} (h : ∀ c p, m c ≠ .ok p) :
    RoomSpec r m P r' :=
  fun c _ _ _ hm => absurd hm (h c _)

theorem failHere_ne_ok (cat : Category) (msg : String) (c : Cursor) (p : α × Cursor) :
    (failHere cat msg : ReadM α) c ≠ .ok p := by
  intro h
  simp [failHere, bind, StateT.bind, get, getThe, MonadStateOf.get, StateT.get, throw, throwThe,
    MonadExceptOf.throw, StateT.lift, Except.bind, pure, Except.pure] at h

theorem failNext_ne_ok (cat : Category) (msg : String) (c : Cursor) (p : α × Cursor) :
    (failNext cat msg : ReadM α) c ≠ .ok p := by
  intro h
  simp [failNext, bind, StateT.bind, get, getThe, MonadStateOf.get, StateT.get, throw, throwThe,
    MonadExceptOf.throw, StateT.lift, Except.bind, pure, Except.pure] at h

theorem bind_ne_ok_of_ne_ok {x : ReadM α} {f : α → ReadM β} {c : Cursor}
    (hx : ∀ p, x c ≠ .ok p) (p : β × Cursor) : (x >>= f) c ≠ .ok p := by
  rcases hxc : x c with e | q
  · intro h
    have : (x >>= f) c = .error e := by
      show (x c >>= fun p => f p.1 p.2) = _
      rw [hxc]; rfl
    rw [this] at h
    cases h
  · exact absurd hxc (hx q)

section Faults

variable {P : α → Prop} {Q : β → Prop} {f : α → ReadM β} (cat : Category) (msg : String)

theorem roomSpec_failHere : RoomSpec r (failHere cat msg : ReadM α) P r' :=
  roomSpec_of_fails (failHere_ne_ok cat msg)

theorem roomSpec_failNext : RoomSpec r (failNext cat msg : ReadM α) P r' :=
  roomSpec_of_fails (failNext_ne_ok cat msg)

theorem roomSpec_failHere_bind : RoomSpec r (failHere cat msg >>= f) Q r' :=
  roomSpec_of_fails fun c => bind_ne_ok_of_ne_ok (failHere_ne_ok cat msg c)

theorem roomSpec_failNext_bind : RoomSpec r (failNext cat msg >>= f) Q r' :=
  roomSpec_of_fails fun c => bind_ne_ok_of_ne_ok (failNext_ne_ok cat msg c)

end Faults

theorem KeepsRoom.bind {x : ReadM α} {f : α → ReadM β} (hx : KeepsRoom x)
    (hf : ∀ a, KeepsRoom (f a)) : KeepsRoom (x >>= f) :=
  fun r => (hx r).bind fun a _ => hf a r

theorem keepsRoom_pure (a : α) : KeepsRoom (pure a : ReadM α) :=
  fun _ => roomSpec_pure trivial

theorem keepsRoom_of_advance {m : ReadM α} (h : ∀ c, ∃ a k, m c = .ok (a, c.advance k)) :
    KeepsRoom m := by
  rintro r c a c' rfl hm
  obtain ⟨b, k, hk⟩ := h c
  rw [hk] at hm
  cases hm
  exact ⟨trivial, rfl⟩

theorem keepsRoom_modify {f : Cursor → Cursor} (hf : ∀ c, (f c).room = c.room) :
    KeepsRoom (modify f : ReadM PUnit) := by
  rintro r c a c' rfl h
  cases h
  exact ⟨trivial, hf c⟩

/-! ### Steps that leave the nesting room alone -/

theorem keepsRoom_peek : KeepsRoom peek :=
  keepsRoom_of_advance fun _ => ⟨_, 0, by rw [peek_apply]; rfl⟩

theorem keepsRoom_skip : KeepsRoom skip :=
  keepsRoom_of_advance fun _ => ⟨(), 1, skip_apply⟩

theorem keepsRoom_skipBlanks : KeepsRoom skipBlanks :=
  keepsRoom_of_advance fun _ => ⟨_, _, skipBlanks_apply⟩

theorem keepsRoom_takeDigits : KeepsRoom takeDigits :=
  keepsRoom_of_advance fun _ => ⟨_, _, takeDigits_apply⟩

theorem keepsRoom_get : KeepsRoom (get : ReadM Cursor) :=
  keepsRoom_of_advance fun c => ⟨c, 0, rfl⟩

theorem keepsRoom_next : KeepsRoom next := by
  unfold next
  refine keepsRoom_peek.bind fun b => ?_
  split
  · exact keepsRoom_skip.bind fun _ => keepsRoom_pure _
  · exact keepsRoom_pure _

theorem keepsRoom_expectWord (w : List UInt8) : KeepsRoom (expectWord w) := by
  induction w with
  | nil => exact keepsRoom_pure ()
  | cons b w ih =>
    unfold expectWord
    refine keepsRoom_next.bind fun x => ?_
    split
    · exact fun _ => roomSpec_failHere _ _
    · split
      · exact ih
      · exact fun _ => roomSpec_failHere _ _

theorem keepsRoom_hexQuad : KeepsRoom hexQuad := by
  rintro r c a c' rfl h
  unfold hexQuad at h
  rw [bind_of_ok (rfl : (get : ReadM Cursor) c = .ok (c, c))] at h
  dsimp only at h
  split at h
  · -- past the end: the fault is raised after the cursor is set to the end
    simp only [bind, StateT.bind, set, StateT.set, Except.bind, pure, Except.pure] at h
    split at h
    · cases h
    · rename_i hf
      exact absurd hf (failHere_ne_ok _ _ _ _)
  · simp only [bind, StateT.bind, set, StateT.set, Except.bind, pure, Except.pure] at h
    rcases hm : (List.take 4 (List.drop c.pos c.src.toList)).mapM hexValue with _ | vs
    · rw [hm] at h
      exact absurd h (failHere_ne_ok _ _ _ _)
    · rw [hm] at h
      cases h
      exact ⟨trivial, rfl⟩

theorem keepsRoom_unicodeEscape : KeepsRoom unicodeEscape := by
  unfold unicodeEscape
  refine keepsRoom_hexQuad.bind fun n => ?_
  split
  · exact fun _ => roomSpec_failHere _ _
  split
  · exact keepsRoom_pure _
  -- a high surrogate: a backslash, a `u` and the low half must follow
  refine keepsRoom_peek.bind fun b => ?_
  dsimp only
  split
  · refine keepsRoom_skip.bind fun _ => keepsRoom_peek.bind fun b' => ?_
    split
    · refine keepsRoom_skip.bind fun _ => keepsRoom_hexQuad.bind fun m => ?_
      split
      · exact fun _ => roomSpec_failHere _ _
      · exact keepsRoom_pure _
    · exact keepsRoom_skip.bind fun _ _ => roomSpec_failHere_bind _ _
    · exact fun _ => roomSpec_failHere_bind _ _
  · exact keepsRoom_skip.bind fun _ _ => roomSpec_failHere_bind _ _
  · exact fun _ => roomSpec_failHere_bind _ _

theorem keepsRoom_stringBody (fuel : Nat) (acc : Array UInt8) : KeepsRoom (stringBody fuel acc) := by
  induction fuel generalizing acc with
  | zero =>
    unfold stringBody
    exact fun _ => roomSpec_failHere _ _
  | succ fuel ih =>
    unfold stringBody
    refine keepsRoom_next.bind fun b => ?_
    split
    · exact fun _ => roomSpec_failHere _ _
    · exact keepsRoom_pure _
    · -- an escape: its letter, or four hex digits
      refine keepsRoom_next.bind fun b' => ?_
      split
      · exact fun _ => roomSpec_failHere _ _
      · split_ifs
        all_goals first
          | exact ih _
          | exact keepsRoom_unicodeEscape.bind fun _ => ih _
          | exact fun _ => roomSpec_failHere _ _
    · split
      · exact fun _ => roomSpec_failHere _ _
      · exact ih _

theorem keepsRoom_readString : KeepsRoom readString :=
  keepsRoom_skip.bind fun _ => keepsRoom_get.bind fun _ => keepsRoom_stringBody _ _

/-! ### Numbers -/

theorem valid_zero : Binary64.zero.Valid := ⟨by norm_num, by decide⟩

theorem valid_ofNat {n : Nat} (hn : n ≤ u64Max) : (Binary64.ofNat n).Valid := by
  rcases Nat.eq_zero_or_pos n with rfl | hpos
  · rw [Binary64.ofNat, ofRatio_zero]
    exact valid_zero
  · have hmax : n ≤ (2 ^ 53 - 1) * 2 ^ 971 := hn.trans (by decide +kernel)
    obtain ⟨a, ea, h, -⟩ := ofNat_near hpos hmax
    refine valid_ofRatio ?_
    rw [← Binary64.ofNat, h]
    rfl

theorem valid_mul_pow10 {x : Binary64} (hx : x.Valid) {k : Nat} (hk : k ≤ 308)
    (h : (x * pow10 k).isInfinite = false) : (x * pow10 k).Valid := by
  obtain ⟨b, eb, hb, -⟩ := one_le_pow10 hk
  cases x with
  | infinite s => exact hx.elim
  | nan => exact hx.elim
  | finite s m e =>
    rw [hb, finite_mul_finite] at h ⊢
    exact valid_ofRatio h

theorem valid_scaleByPow10 {f g : Binary64} (hf : f.Valid) {e : Int} {fuel : Nat}
    (h : scaleByPow10 f e fuel = some g) : g.Valid := by
  induction fuel generalizing f e with
  | zero =>
    cases h
    exact hf
  | succ fuel ih =>
    rw [scaleByPow10] at h
    split_ifs at h with hsmall hnonneg hzero hnonneg'
    · -- a product is kept only when it is finite
      dsimp only at h
      split_ifs at h with hinf
      cases h
      exact valid_mul_pow10 hf (by omega) (by simpa using hinf)
    · cases h
      exact Binary64.Valid.div_pow10 hf (by omega)
    · cases h
      exact hf
    · exact ih (Binary64.Valid.div_pow10 hf le_rfl) h

theorem absorb_fst_le {sig : Nat} (hs : sig ≤ u64Max) (ds : List Nat) : (absorb sig ds).1 ≤ u64Max := by
  induction ds generalizing sig with
  | nil => exact hs
  | cons d ds ih =>
    rw [absorb]
    split
    · exact ih ‹_›
    · exact hs

theorem Numeral.canonical_of_value {p : Numeral} {n : Number} (h : p.value = .ok n) :
    n.Canonical := by
  unfold Numeral.value at h
  split at h
  rename_i sig₀ intLeft hw
  split at h
  rename_i sig e hse
  -- the significand stays within 64 bits, with or without the fraction's digits
  have hsig : sig ≤ u64Max := by
    have h₀ : sig₀ ≤ u64Max := by simpa [hw] using absorb_fst_le (Nat.zero_le u64Max) p.whole
    split at hse
    · cases hse
      exact h₀
    · rename_i fs _
      split at hse
      rename_i s left hs
      cases hse
      simpa [hs] using absorb_fst_le h₀ fs
  extract_lets signed scaled at h
  have hfloat : ∀ {f : Binary64}, f.Valid → (Number.float (signed f)).Canonical := by
    intro f hf
    simp only [signed]
    split
    · exact hf.negate
    · exact hf
  have hscaled : ∀ {e' : Int}, scaled e' = .ok n → n.Canonical := by
    intro e' hs
    simp only [scaled] at hs
    split at hs
    · cases hs
      exact hfloat (valid_scaleByPow10 (valid_ofNat hsig) ‹_›)
    · cases hs
  split at h
  · -- an exponent: a scaled double, or a signed zero when the exponent is too small
    split at h
    · exact hscaled h
    · split_ifs at h
      cases h
      exact hfloat valid_zero
  · split_ifs at h with hint hpos hbig
    · cases h
      exact hsig
    · cases h
      exact hfloat (valid_ofNat hsig)
    · cases h
      simp only [Nat.pow_eq, not_or, not_lt] at hbig
      exact ⟨Nat.one_le_iff_ne_zero.2 hbig.1, hbig.2⟩
    · exact hscaled h

theorem roomSpec_readNumber (negative : Bool) :
    RoomSpec r (readNumber negative) Number.Canonical r := by
  unfold readNumber
  refine (keepsRoom_next r).bind fun first _ => ?_
  split
  · exact roomSpec_failHere _ _
  split
  · exact roomSpec_failHere _ _
  -- the join points of the do-block: after the whole part, the fraction, the exponent's sign
  extract_lets fraction exponent expPlus expMinus afterWhole
  have hWhole : ∀ w, RoomSpec r (afterWhole w) Number.Canonical r := by
    intro w
    simp -zeta only [afterWhole]
    refine (keepsRoom_peek r).bind fun dot _ => ?_
    extract_lets afterFraction
    have hFraction : ∀ u f, RoomSpec r (afterFraction u f) Number.Canonical r := by
      intro u f
      simp -zeta only [afterFraction]
      refine (keepsRoom_peek r).bind fun p _ => ?_
      extract_lets finish afterSign
      have hFinish : ∀ u e, RoomSpec r (finish u e) Number.Canonical r := by
        intro u e
        simp -zeta only [finish]
        split
        · exact roomSpec_pure (Numeral.canonical_of_value ‹_›)
        · refine (keepsRoom_modify ?_ r).bind fun _ _ => roomSpec_failHere _ _
          exact fun _ => rfl
      split
      · refine (keepsRoom_skip r).bind fun _ _ => (keepsRoom_peek r).bind fun sign _ => ?_
        have hSign : ∀ u s, RoomSpec r (afterSign u s) Number.Canonical r := by
          intro u s
          simp -zeta only [afterSign]
          refine (keepsRoom_next r).bind fun d _ => ?_
          split
          · exact roomSpec_failHere_bind _ _
          · split
            · exact roomSpec_failHere_bind _ _
            · exact (keepsRoom_takeDigits r).bind fun _ _ => hFinish () _
        split
        · exact (keepsRoom_skip r).bind fun u _ => hSign u _
        · exact (keepsRoom_skip r).bind fun u _ => hSign u _
        · exact hSign () _
      · exact hFinish () _
    split
    · refine (keepsRoom_skip r).bind fun _ _ => (keepsRoom_takeDigits r).bind fun frac _ => ?_
      extract_lets someFraction withFraction
      split
      · refine (keepsRoom_peek r).bind fun _ _ => ?_
        split
        · exact roomSpec_failNext_bind _ _
        · exact roomSpec_failNext_bind _ _
      · exact hFraction () _
    · exact hFraction () _
  split
  · refine (keepsRoom_peek r).bind fun d _ => ?_
    split
    · split
      · exact roomSpec_failNext_bind _ _
      · exact (keepsRoom_pure _ r).bind fun w _ => hWhole w
    · exact (keepsRoom_pure _ r).bind fun w _ => hWhole w
  · exact ((keepsRoom_takeDigits r).bind fun _ _ => keepsRoom_pure _ r).bind fun w _ => hWhole w

/-! ### Punctuation and nesting -/

theorem keepsRoom_nextKey (first : Bool) : KeepsRoom (nextKey first) := by
  unfold nextKey
  refine keepsRoom_skipBlanks.bind fun b => ?_
  extract_lets afterSeparator
  have hKey : ∀ b, KeepsRoom (afterSeparator b) := by
    intro b
    simp -zeta only [afterSeparator]
    split
    · exact keepsRoom_readString.bind fun _ => keepsRoom_pure _
    all_goals exact fun _ => roomSpec_failNext _ _
  split
  · exact keepsRoom_pure _
  · split
    · exact fun _ => roomSpec_failNext_bind _ _
    · exact keepsRoom_skip.bind fun _ => keepsRoom_skipBlanks.bind hKey
  · split
    · exact (keepsRoom_pure _).bind hKey
    · exact fun _ => roomSpec_failNext_bind _ _
  · exact fun _ => roomSpec_failNext_bind _ _

theorem keepsRoom_expectColon : KeepsRoom expectColon := by
  unfold expectColon
  refine keepsRoom_skipBlanks.bind fun b => ?_
  split
  · exact keepsRoom_skip
  all_goals exact fun _ => roomSpec_failNext _ _

theorem keepsRoom_closeArray : KeepsRoom closeArray := by
  unfold closeArray
  refine keepsRoom_skipBlanks.bind fun b => ?_
  split
  · exact keepsRoom_skip
  · refine keepsRoom_skip.bind fun _ => keepsRoom_skipBlanks.bind fun b' => ?_
    split <;> exact fun _ => roomSpec_failNext _ _
  all_goals exact fun _ => roomSpec_failNext _ _

theorem keepsRoom_closeObject : KeepsRoom closeObject := by
  unfold closeObject
  refine keepsRoom_skipBlanks.bind fun b => ?_
  split
  · exact keepsRoom_skip
  all_goals exact fun _ => roomSpec_failNext _ _

theorem roomSpec_enterNesting : RoomSpec r enterNesting (fun _ => 1 < r) (r - 1) := by
  rintro c a c' rfl h
  by_cases hr : 1 < c.room
  · rw [enterNesting_of hr] at h
    cases h
    exact ⟨hr, rfl⟩
  · unfold enterNesting at h
    rw [bind_of_ok (rfl : (get : ReadM Cursor) c = .ok (c, c)), if_pos (by omega)] at h
    exact absurd h (bind_ne_ok_of_ne_ok (failNext_ne_ok _ _ c) _)

theorem roomSpec_leaveNesting : RoomSpec r leaveNesting (fun _ => True) (r + 1) := by
  rintro c a c' rfl h
  rw [leaveNesting_apply] at h
  cases h
  exact ⟨trivial, rfl⟩

/-! ### Sorted members -/

theorem foldl_keepNew_keys (l acc : List (String × Json)) (hacc : (acc.map Prod.fst).Nodup) :
    ((l.foldl (fun acc m => if acc.any (·.1 == m.1) then acc else m :: acc) acc).map
        Prod.fst).Nodup ∧
      ∀ m ∈ l.foldl (fun acc m => if acc.any (·.1 == m.1) then acc else m :: acc) acc,
        m ∈ acc ∨ m ∈ l := by
  induction l generalizing acc with
  | nil => exact ⟨hacc, fun m hm => .inl hm⟩
  | cons x l ih =>
    rw [List.foldl_cons]
    split
    · obtain ⟨hnd, hsub⟩ := ih acc hacc
      exact ⟨hnd, fun m hm => (hsub m hm).imp_right (List.mem_cons_of_mem x)⟩
    · rename_i hnew
      have hx : x.1 ∉ acc.map Prod.fst := by
        simp only [List.any_eq_true, beq_iff_eq, not_exists, not_and] at hnew
        simpa using fun y hy => hnew (x.1, y) hy rfl
      obtain ⟨hnd, hsub⟩ := ih (x :: acc) (by rw [List.map_cons]; exact List.nodup_cons.2 ⟨hx, hacc⟩)
      refine ⟨hnd, fun m hm => ?_⟩
      rcases hsub m hm with h | h
      · rcases List.mem_cons.1 h with rfl | h
        · exact .inr List.mem_cons_self
        · exact .inl h
      · exact .inr (List.mem_cons_of_mem x h)

theorem sortMembers_sorted (ms : List (String × Json)) :
    (sortMembers ms).Pairwise (fun a b => a.1 < b.1) := by
  unfold sortMembers
  obtain ⟨hnd, -⟩ := foldl_keepNew_keys ms.reverse [] List.nodup_nil
  -- merge sort orders the kept members by key, and their keys are all different
  have hle := @List.pairwise_mergeSort _ (fun a b : String × Json => decide (a.1 ≤ b.1))
    (fun a b c hab hbc => by simp only [decide_eq_true_eq] at hab hbc ⊢; exact hab.trans hbc)
    (fun a b => by simpa using le_total a.1 b.1)
    (ms.reverse.foldl (fun acc m => if acc.any (·.1 == m.1) then acc else m :: acc) [])
  have hne := List.pairwise_map.1 (((List.mergeSort_perm _ fun a b : String × Json => decide (a.1 ≤ b.1)).map
    Prod.fst).nodup_iff.2 hnd)
  exact (hle.and hne).imp fun ⟨hab, hab'⟩ => lt_of_le_of_ne (by simpa using hab) hab'

theorem mem_of_mem_sortMembers {m : String × Json} {ms : List (String × Json)}
    (h : m ∈ sortMembers ms) : m ∈ ms := by
  unfold sortMembers at h
  rw [List.mem_mergeSort] at h
  rcases (foldl_keepNew_keys ms.reverse [] List.nodup_nil).2 m h with h | h
  · cases h
  · exact List.mem_reverse.1 h

theorem lookup_cons_of_ne {k k' : String} {b : Json} {l : List (String × Json)} (hk : k ≠ k') :
    ((k', b) :: l).lookup k = l.lookup k := by
  rw [List.lookup_cons, beq_false_of_ne hk]

theorem lookup_eq_of_perm {l l' : List (String × Json)} (hp : l.Perm l')
    (hnd : (l.map Prod.fst).Nodup) (k : String) : l.lookup k = l'.lookup k := by
  have hnd' : (l'.map Prod.fst).Nodup := (hp.map Prod.fst).nodup_iff.1 hnd
  -- a member of a list with distinct keys is what its key looks up
  have hmem : ∀ {m : List (String × Json)} {b : Json}, (m.map Prod.fst).Nodup → (k, b) ∈ m →
      m.lookup k = some b := by
    intro m b hm hb
    induction m with
    | nil => cases hb
    | cons p m ih =>
      obtain ⟨k', b'⟩ := p
      rw [List.map_cons, List.nodup_cons] at hm
      rcases List.mem_cons.1 hb with h | h
      · cases h
        exact List.lookup_cons_self
      · have hkm : k ∈ m.map Prod.fst := List.mem_map_of_mem (f := Prod.fst) h
        have hk : k ≠ k' := fun he => hm.1 (he ▸ hkm)
        rw [lookup_cons_of_ne hk]
        exact ih hm.2 h
  cases hl : l.lookup k with
  | some b =>
    obtain ⟨l₁, l₂, rfl, -⟩ := List.lookup_eq_some_iff.1 hl
    exact (hmem hnd' (hp.subset (by simp))).symm
  | none =>
    symm
    rw [List.lookup_eq_none_iff] at hl ⊢
    exact fun p hp' => hl p (hp.symm.subset hp')

theorem lookup_foldl_keepNew (L acc : List (String × Json)) (k : String) :
    (L.foldl (fun acc m => if acc.any (·.1 == m.1) then acc else m :: acc) acc).lookup k =
      (acc.lookup k).or (L.lookup k) := by
  induction L generalizing acc with
  | nil => simp
  | cons x L ih =>
    obtain ⟨k', b'⟩ := x
    rw [List.foldl_cons]
    by_cases hk : k = k'
    · -- the member's own key: answered by the kept members if they have it, else by it
      subst hk
      split
      · rename_i hold
        obtain ⟨b, hb⟩ : ∃ b, acc.lookup k = some b := by
          rw [← Option.isSome_iff_exists, List.lookup_isSome_iff]
          simpa using hold
        rw [ih, hb]
        rfl
      · rename_i hnew
        have hnone : acc.lookup k = none := by
          rw [List.lookup_eq_none_iff]
          simp only [List.any_eq_true, beq_iff_eq, not_exists, not_and] at hnew
          exact fun p hp => bne_iff_ne.2 fun he => hnew p hp he.symm
        rw [ih, List.lookup_cons_self, hnone, List.lookup_cons_self]
        rfl
    · split <;> rw [ih] <;> simp only [lookup_cons_of_ne hk]

theorem lookup_sortMembers (ms : List (String × Json)) (k : String) :
    (sortMembers ms).lookup k = ms.reverse.lookup k := by
  unfold sortMembers
  obtain ⟨hnd, -⟩ := foldl_keepNew_keys ms.reverse [] List.nodup_nil
  rw [← lookup_eq_of_perm (List.mergeSort_perm _ _).symm hnd, lookup_foldl_keepNew]
  simp

/-- A member set in an object answers its key, and every other key as before (as the last
member having it). -/
theorem lookup_setMember (ms : List (String × Json)) (key : String) (v : Json) (k : String) :
    (setMember ms key v).lookup k = if k = key then some v else ms.reverse.lookup k := by
  rw [setMember, lookup_sortMembers, List.reverse_append, List.reverse_singleton,
    List.singleton_append]
  by_cases hk : k = key
  · subst hk
    rw [List.lookup_cons_self, if_pos rfl]
  · rw [lookup_cons_of_ne hk, if_neg hk]

theorem lookup_reverse {ms : List (String × Json)} (hnd : (ms.map Prod.fst).Nodup) (k : String) :
    ms.reverse.lookup k = ms.lookup k :=
  lookup_eq_of_perm (List.reverse_perm ms) (by rwa [List.map_reverse, List.nodup_reverse]) k

theorem nodup_keys_sortMembers (ms : List (String × Json)) :
    ((sortMembers ms).map Prod.fst).Nodup :=
  List.pairwise_map.2 ((sortMembers_sorted ms).imp ne_of_lt)

theorem lookup_rereadMembers (ms : List (String × Json)) (k : String) :
    (rereadMembers ms).lookup k = (ms.lookup k).map reread := by
  rw [rereadMembers_eq_map]
  induction ms with
  | nil => rfl
  | cons m ms ih =>
    obtain ⟨k', b⟩ := m
    by_cases hk : k = k'
    · subst hk
      simp only [List.map_cons, List.lookup_cons_self, Option.map_some]
    · simp only [List.map_cons, lookup_cons_of_ne hk, ih]

/-! ### Values -/

/-- A value the reader can make with nesting room `r`: of the reader's form, and nesting less
deeply than `r`. -/
def MadeWithin (r : Nat) (j : Json) : Prop := j.Canonical ∧ j.depth < r

theorem madeWithin_arr {xs : List Json} (hr : 1 < r) (hxs : ∀ x ∈ xs, MadeWithin (r - 1) x) :
    MadeWithin r (.arr xs) := by
  refine ⟨.arr fun x hx => (hxs x hx).1, ?_⟩
  have : depthItems xs ≤ r - 2 := depthItems_le fun x hx => by have := (hxs x hx).2; omega
  show depthItems xs + 1 < r
  omega

theorem madeWithin_obj {ms : List (String × Json)} (hr : 1 < r) (hms : ∀ m ∈ ms, MadeWithin (r - 1) m.2) :
    MadeWithin r (.obj (sortMembers ms)) := by
  have hsorted : ∀ m ∈ sortMembers ms, MadeWithin (r - 1) m.2 :=
    fun m hm => hms m (mem_of_mem_sortMembers hm)
  refine ⟨.obj (sortMembers_sorted ms) fun m hm => (hsorted m hm).1, ?_⟩
  have : depthMembers (sortMembers ms) ≤ r - 2 :=
    depthMembers_le fun m hm => by have := (hsorted m hm).2; omega
  show depthMembers (sortMembers ms) + 1 < r
  omega

/-- What the free-form reader makes with `F` steps of fuel, from a cursor with nesting room
`r`: any value, the items of an array and the members of an object all fit in `r`, and the
room is as it was when they are read. -/
theorem roomSpec_readAny (F : Nat) :
    (∀ r, 0 < r → RoomSpec r (readAny F) (MadeWithin r) r) ∧
    (∀ r first acc, 0 < r → (∀ x ∈ acc, MadeWithin r x) →
      RoomSpec r (readItems F .any first acc) (fun xs => ∀ x ∈ xs, MadeWithin r x) r) ∧
    (∀ r first acc, 0 < r → (∀ m ∈ acc, MadeWithin r m.2) →
      RoomSpec r (readMembers F first acc) (fun ms => ∀ m ∈ ms, MadeWithin r m.2) r) ∧
    (∀ r, 0 < r → RoomSpec r (readShape F .any) (MadeWithin r) r) := by
  induction F with
  | zero =>
    refine ⟨fun r _ => ?_, fun r _ _ _ _ => ?_, fun r _ _ _ _ => ?_, fun r _ => ?_⟩
    · unfold readAny
      exact roomSpec_failHere _ _
    · unfold readItems
      exact roomSpec_failHere _ _
    · unfold readMembers
      exact roomSpec_failHere _ _
    · unfold readShape
      exact roomSpec_failHere _ _
  | succ F ih =>
    obtain ⟨hAny, hItems, hMembers, hShape⟩ := ih
    refine ⟨fun r hr => ?_, fun r first acc hr hacc => ?_, fun r first acc hr hacc => ?_,
      fun r hr => ?_⟩
    · -- a value: a literal, a number, a string, or an array or object one level down
      unfold readAny
      refine (keepsRoom_skipBlanks r).bind fun b _ => ?_
      split
      · exact roomSpec_failNext _ _
      split_ifs
      · exact (keepsRoom_skip r).bind fun _ _ => (keepsRoom_expectWord _ r).bind fun _ _ =>
          roomSpec_pure ⟨.null, hr⟩
      · exact (keepsRoom_skip r).bind fun _ _ => (keepsRoom_expectWord _ r).bind fun _ _ =>
          roomSpec_pure ⟨.bool true, hr⟩
      · exact (keepsRoom_skip r).bind fun _ _ => (keepsRoom_expectWord _ r).bind fun _ _ =>
          roomSpec_pure ⟨.bool false, hr⟩
      · exact (keepsRoom_skip r).bind fun _ _ => (roomSpec_readNumber true).bind fun _ hn =>
          roomSpec_pure ⟨.num hn, hr⟩
      · exact (roomSpec_readNumber false).bind fun _ hn => roomSpec_pure ⟨.num hn, hr⟩
      · exact (keepsRoom_readString r).bind fun s _ => roomSpec_pure ⟨.str s, hr⟩
      · refine roomSpec_enterNesting.bind fun _ hr1 => (keepsRoom_skip _).bind fun _ _ =>
          (hItems (r - 1) true [] (by omega) (by simp)).bind fun xs hxs =>
            (keepsRoom_closeArray _).bind fun _ _ => roomSpec_leaveNesting.bind fun _ _ => ?_
        rw [Nat.sub_add_cancel hr1.le]
        exact roomSpec_pure (madeWithin_arr hr1 hxs)
      · refine roomSpec_enterNesting.bind fun _ hr1 => (keepsRoom_skip _).bind fun _ _ =>
          (hMembers (r - 1) true [] (by omega) (by simp)).bind fun ms hms =>
            (keepsRoom_closeObject _).bind fun _ _ => roomSpec_leaveNesting.bind fun _ _ => ?_
        rw [Nat.sub_add_cancel hr1.le]
        exact roomSpec_pure (madeWithin_obj hr1 hms)
      · exact roomSpec_failNext _ _
    · -- the items of an array, each read as any value
      unfold readItems
      refine (keepsRoom_skipBlanks r).bind fun b _ => ?_
      split
      · exact roomSpec_failNext _ _
      split_ifs
      · exact roomSpec_pure fun x hx => hacc x (List.mem_reverse.1 hx)
      · exact (hShape r hr).bind fun v hv =>
          hItems r false (v :: acc) hr (List.forall_mem_cons.2 ⟨hv, hacc⟩)
      · refine (keepsRoom_skip r).bind fun _ _ => (keepsRoom_skipBlanks r).bind fun b' _ => ?_
        split
        · exact roomSpec_failNext _ _
        · exact (hShape r hr).bind fun v hv =>
            hItems r false (v :: acc) hr (List.forall_mem_cons.2 ⟨hv, hacc⟩)
        · exact roomSpec_failNext _ _
      · exact roomSpec_failNext _ _
    · -- the members of an object, each value read as any value
      unfold readMembers
      refine (keepsRoom_nextKey first r).bind fun k _ => ?_
      split
      · exact roomSpec_pure fun m hm => hacc m (List.mem_reverse.1 hm)
      · exact (keepsRoom_expectColon r).bind fun _ _ => (hAny r hr).bind fun v hv =>
          hMembers r false (_ :: acc) hr (List.forall_mem_cons.2 ⟨hv, hacc⟩)
    · rw [readShape_any]
      exact hAny r hr

/-- **What the reader makes.** A document the free-form reader accepts holds a value of the
reader's form, nesting less deeply than the reader allows. -/
theorem parse_made {t : String} {j : Json} (h : parse t = .ok j) :
    j.Canonical ∧ j.depth < maxNesting := by
  unfold parse readDocument at h
  extract_lets src run at h
  -- the document: one value with the full room, then nothing but blanks
  have hrun : RoomSpec maxNesting run (MadeWithin maxNesting) maxNesting := by
    simp -zeta only [run]
    refine ((roomSpec_readAny _).2.2.2 maxNesting (by decide)).bind fun v hv =>
      (keepsRoom_skipBlanks _).bind fun b _ => ?_
    split
    · exact roomSpec_failNext _ _
    · exact roomSpec_pure hv
  rcases hr : run { src := src, pos := 0, room := maxNesting } with e | ⟨v, c'⟩
  · simp [StateT.run', hr] at h
  · simp only [StateT.run', hr] at h
    cases h
    exact (hrun _ _ _ rfl hr).1

end AgentDeck.Json
