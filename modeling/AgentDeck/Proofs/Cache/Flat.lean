import Mathlib
import AgentDeck.Cache.Basic

/-!
The side-data cache seen as one flat map.

A cache keeps its entries by session id and then by field. Read as one finite map from an id
and a field to an entry (`FlatCache`), each operation does what it says on that map: a read
answers the entry of its key when it is fresh, a write replaces one key, a drop removes the keys
it names, and a count counts keys. The two levels show only in the counts: pruning by id counts
the ids it drops, the other counts count entries. Both agree with the flat map because no id is
kept without fields or twice, and no field twice under one id (`TtlCache.Wf`), which every
operation keeps.

Main statement: `TtlCache.replies_eq_flat`: whatever the calls and the clock readings they are
made at, a cache that starts empty answers every call as the flat map does.
-/

namespace AgentDeck

/-! ### Tables of pairs -/

section Lookup

variable {κ β γ : Type} [BEq κ] [LawfulBEq κ]

@[simp] theorem lookup_cons_self (a : κ) (b : β) (l : List (κ × β)) :
    ((a, b) :: l).lookup a = some b := by
  simp

theorem lookup_cons_of_ne {a k : κ} (b : β) (l : List (κ × β)) (h : a ≠ k) :
    ((k, b) :: l).lookup a = l.lookup a := by
  simp [List.lookup_cons, beq_eq_false_iff_ne.mpr h]

theorem lookup_eq_none_iff (l : List (κ × β)) (a : κ) :
    l.lookup a = none ↔ a ∉ l.map Prod.fst := by
  induction l with
  | nil => simp
  | cons p l ih =>
    obtain ⟨k, b⟩ := p
    by_cases hk : a = k
    · subst hk
      simp
    · simp [lookup_cons_of_ne _ _ hk, ih, hk]

theorem lookup_filter_fst (q : κ → Bool) (l : List (κ × β)) (a : κ) :
    (l.filter fun p => q p.1).lookup a = if q a then l.lookup a else none := by
  induction l with
  | nil => simp
  | cons p l ih =>
    obtain ⟨k, b⟩ := p
    by_cases hk : a = k
    · subst hk
      by_cases hq : q a <;> simp [hq, ih]
    · by_cases hq : q k <;> simp [hq, ih, lookup_cons_of_ne _ _ hk]

theorem lookup_map_snd (g : κ → β → γ) (l : List (κ × β)) (a : κ) :
    (l.map fun p => (p.1, g p.1 p.2)).lookup a = (l.lookup a).map (g a) := by
  induction l with
  | nil => simp
  | cons p l ih =>
    obtain ⟨k, b⟩ := p
    by_cases hk : a = k
    · subst hk
      simp
    · simp [lookup_cons_of_ne _ _ hk, ih]

theorem lookup_append (l₁ l₂ : List (κ × β)) (a : κ) :
    (l₁ ++ l₂).lookup a = (l₁.lookup a).or (l₂.lookup a) := by
  induction l₁ with
  | nil => simp
  | cons p l ih =>
    obtain ⟨k, b⟩ := p
    by_cases hk : a = k
    · subst hk
      simp
    · simp [lookup_cons_of_ne _ _ hk, ih]

variable {l : List (κ × β)}

/-- With no key twice, a lookup finds exactly the pairs of the table. -/
theorem lookup_eq_some_iff (h : (l.map Prod.fst).Nodup) {a : κ} {b : β} :
    l.lookup a = some b ↔ (a, b) ∈ l := by
  induction l with
  | nil => simp
  | cons p l ih =>
    obtain ⟨k, c⟩ := p
    rw [List.map_cons, List.nodup_cons] at h
    by_cases hk : a = k
    · subst hk
      -- the head is the only pair with key `a`
      have hnot : (a, b) ∉ l := fun hm => h.1 (List.mem_map.mpr ⟨_, hm, rfl⟩)
      simp [hnot, eq_comm]
    · simp [lookup_cons_of_ne _ _ hk, ih h.2, hk]

theorem lookup_filter_snd (h : (l.map Prod.fst).Nodup) (r : β → Bool) (a : κ) :
    (l.filter fun p => r p.2).lookup a = (l.lookup a).filter r := by
  induction l with
  | nil => simp
  | cons p l ih =>
    obtain ⟨k, b⟩ := p
    rw [List.map_cons, List.nodup_cons] at h
    by_cases hk : a = k
    · subst hk
      have hnone : l.lookup a = none := (lookup_eq_none_iff l a).mpr h.1
      by_cases hr : r b <;> simp [hr, ih h.2, hnone, Option.filter_some]
    · by_cases hr : r b <;> simp [hr, ih h.2, lookup_cons_of_ne _ _ hk]

end Lookup

namespace TtlCache

variable {α : Type}

/-! ### The layout of the entries -/

/-- No id is kept without fields or twice, and no field twice under one id. -/
structure Wf (c : TtlCache α) : Prop where
  ids : (c.entries.map Prod.fst).Nodup
  fields : ∀ p ∈ c.entries, (p.2.map Prod.fst).Nodup
  nonempty : ∀ p ∈ c.entries, p.2 ≠ []

/-- Every entry with its key, id by id. -/
def flat (c : TtlCache α) : List ((String × Field) × Entry α) :=
  c.entries.flatMap fun p => p.2.map fun q => ((p.1, q.1), q.2)

theorem mem_flat (c : TtlCache α) {id : String} {f : Field} {e : Entry α} :
    ((id, f), e) ∈ c.flat ↔ ∃ fs, (id, fs) ∈ c.entries ∧ (f, e) ∈ fs := by
  simp [flat]

theorem size_eq_length_flat (c : TtlCache α) : c.size = c.flat.length := by
  simp [size, flat, List.length_flatMap, List.sum_eq_foldr]

theorem entry?_def (c : TtlCache α) (a : String) (g : Field) :
    entry? c a g = (c.entries.lookup a).bind fun fs => fs.lookup g := rfl

theorem entry?_eq (c : TtlCache α) (id : String) (f : Field) :
    c.entry? id f = (c.fieldsOf id).lookup f := by
  unfold entry? fieldsOf
  cases c.entries.lookup id <;> rfl

theorem Wf.nodup_fieldsOf {c : TtlCache α} (h : c.Wf) (id : String) :
    ((c.fieldsOf id).map Prod.fst).Nodup := by
  unfold fieldsOf
  cases hl : c.entries.lookup id with
  | none => simp
  | some fs => exact h.fields _ ((lookup_eq_some_iff h.ids).mp hl)

theorem Wf.entry?_eq_some {c : TtlCache α} (h : c.Wf) {id : String} {f : Field} {e : Entry α} :
    c.entry? id f = some e ↔ ((id, f), e) ∈ c.flat := by
  rw [mem_flat, entry?_def, Option.bind_eq_some_iff]
  constructor
  · rintro ⟨fs, hfs, he⟩
    have hmem := (lookup_eq_some_iff h.ids).mp hfs
    exact ⟨fs, hmem, (lookup_eq_some_iff (h.fields _ hmem)).mp he⟩
  · rintro ⟨fs, hmem, he⟩
    exact ⟨fs, (lookup_eq_some_iff h.ids).mpr hmem, (lookup_eq_some_iff (h.fields _ hmem)).mpr he⟩

theorem Wf.nodup_keys {c : TtlCache α} (h : c.Wf) : (c.flat.map Prod.fst).Nodup := by
  rw [flat, List.map_flatMap, List.nodup_flatMap]
  refine ⟨fun p hp => ?_, ?_⟩
  · -- under one id, the keys differ in their fields
    rw [List.map_map, show (Prod.fst ∘ fun q : Field × Entry α => ((p.1, q.1), q.2)) =
      Prod.mk p.1 ∘ Prod.fst from rfl, ← List.map_map]
    exact (h.fields p hp).map (Prod.mk_right_injective p.1)
  · -- keys under different ids differ
    have hpw : c.entries.Pairwise fun p p' => p.1 ≠ p'.1 := List.pairwise_map.mp h.ids
    refine hpw.imp fun {p p'} hne => ?_
    intro k hk hk'
    simp only [List.map_map, List.mem_map, Function.comp] at hk hk'
    obtain ⟨q, -, rfl⟩ := hk
    obtain ⟨q', -, hq⟩ := hk'
    exact hne (congrArg Prod.fst hq).symm

/-- Keeping some of the ids keeps the layout. -/
theorem Wf.filter {c : TtlCache α} (h : c.Wf) (q : String × List (Field × Entry α) → Bool) :
    (⟨c.entries.filter q⟩ : TtlCache α).Wf :=
  ⟨h.ids.sublist ((List.filter_sublist).map _), fun p hp => h.fields p (List.mem_of_mem_filter hp),
    fun p hp => h.nonempty p (List.mem_of_mem_filter hp)⟩

/-! ### What each operation does to the entries -/

theorem fieldsOf_setFields (c : TtlCache α) (id : String) (fs : List (Field × Entry α))
    (a : String) : (c.setFields id fs).fieldsOf a = if a = id then fs else c.fieldsOf a := by
  unfold setFields fieldsOf
  dsimp only
  split
  · next hfs =>
    -- no fields left: the id goes
    rw [lookup_filter_fst (fun k => k != id)]
    by_cases ha : a = id <;> simp [ha, List.isEmpty_iff.mp hfs]
  · split
    · next hin =>
      -- the id is there: its fields are replaced in place
      have hmap : (c.entries.map fun p => if p.1 == id then (id, fs) else p) =
          c.entries.map fun p => (p.1, if p.1 == id then fs else p.2) := by
        refine List.map_congr_left fun p _ => ?_
        by_cases hp : p.1 = id <;> simp [hp]
      rw [hmap, lookup_map_snd (fun k v => if k == id then fs else v)]
      by_cases ha : a = id
      · subst ha
        obtain ⟨fs', h'⟩ := Option.isSome_iff_exists.mp hin
        simp [h']
      · simp [ha]
    · next hin =>
      -- the id is new: it goes last
      rw [lookup_append]
      by_cases ha : a = id
      · subst ha
        simp [Option.not_isSome_iff_eq_none.mp hin]
      · simp [ha, lookup_cons_of_ne _ _ ha]

theorem entry?_setFields (c : TtlCache α) (id : String) (fs : List (Field × Entry α)) (a : String)
    (g : Field) : entry? (c.setFields id fs) a g = if a = id then fs.lookup g else c.entry? a g := by
  rw [entry?_eq, fieldsOf_setFields, entry?_eq]
  split <;> rfl

theorem Wf.setFields {c : TtlCache α} (h : c.Wf) (id : String) {fs : List (Field × Entry α)}
    (hfs : (fs.map Prod.fst).Nodup) : (c.setFields id fs).Wf := by
  unfold TtlCache.setFields
  dsimp only
  split
  · exact h.filter _
  · next hne =>
    split
    · -- the fields of `id` are replaced in place
      refine ⟨?_, fun p hp => ?_, fun p hp => ?_⟩
      · rw [List.map_map]
        convert h.ids using 1
        refine List.map_congr_left fun p _ => ?_
        by_cases hp : p.1 = id <;> simp [hp]
      · obtain ⟨p', hp', rfl⟩ := List.mem_map.mp hp
        split
        · exact hfs
        · exact h.fields p' hp'
      · obtain ⟨p', hp', rfl⟩ := List.mem_map.mp hp
        split
        · simpa [List.isEmpty_iff] using hne
        · exact h.nonempty p' hp'
    · next hin =>
      -- a new id goes last
      have hnew : id ∉ c.entries.map Prod.fst :=
        (lookup_eq_none_iff _ _).mp (Option.not_isSome_iff_eq_none.mp hin)
      refine ⟨?_, fun p hp => ?_, fun p hp => ?_⟩
      · rw [List.map_append, List.nodup_append]
        refine ⟨h.ids, by simp, fun k hk k' hk' => ?_⟩
        simp only [List.map_cons, List.map_nil, List.mem_singleton] at hk'
        rintro rfl
        exact hnew (hk' ▸ hk)
      · rcases List.mem_append.mp hp with hp | hp
        · exact h.fields p hp
        · rw [List.mem_singleton.mp hp]
          exact hfs
      · rcases List.mem_append.mp hp with hp | hp
        · exact h.nonempty p hp
        · rw [List.mem_singleton.mp hp]
          simpa [List.isEmpty_iff] using hne

theorem entry?_set (c : TtlCache α) (now : Instant) (id : String) (f : Field) (v : α)
    (ttlMs : Nat) (a : String) (g : Field) :
    entry? (c.set now id f v ttlMs) a g =
      if (a, g) = (id, f) then some ⟨v, now, ttlMs⟩ else c.entry? a g := by
  unfold set
  dsimp only
  rw [entry?_setFields]
  by_cases ha : a = id
  · subst ha
    rw [lookup_append, lookup_filter_fst (fun k => k != f), entry?_eq]
    by_cases hg : g = f
    · subst hg
      simp
    · simp [hg, lookup_cons_of_ne _ _ hg]
  · simp [ha]

theorem Wf.set {c : TtlCache α} (h : c.Wf) (now : Instant) (id : String) (f : Field) (v : α)
    (ttlMs : Nat) : (c.set now id f v ttlMs).Wf := by
  refine h.setFields id ?_
  rw [List.map_append, List.nodup_append]
  refine ⟨(h.nodup_fieldsOf id).sublist ((List.filter_sublist).map _), by simp, ?_⟩
  -- the field written was dropped from the others
  intro k hk k' hk'
  obtain ⟨q, hq, rfl⟩ := List.mem_map.mp hk
  simp only [List.map_cons, List.map_nil, List.mem_singleton] at hk'
  subst hk'
  simpa using (List.mem_filter.mp hq).2

/-- The entry stamped again at `now` with a new lifetime, its value kept. -/
def restamp (now : Instant) (ttlMs : Nat) (e : Entry α) : Entry α :=
  { e with stampedAt := now, ttlMs }

theorem touch_fields (now : Instant) (f : Field) (ttlMs : Nat) (fs : List (Field × Entry α)) :
    (fs.map fun (g, e) => if g == f then (g, { e with stampedAt := now, ttlMs := ttlMs })
      else (g, e)) = fs.map fun q => (q.1, if q.1 == f then restamp now ttlMs q.2 else q.2) := by
  refine List.map_congr_left fun q _ => ?_
  obtain ⟨g, e⟩ := q
  by_cases hg : g = f <;> simp [hg, restamp]

theorem touch_snd (c : TtlCache α) (now : Instant) (id : String) (f : Field) (ttlMs : Nat) :
    (c.touch now id f ttlMs).2 = (c.entry? id f).isSome := by
  unfold touch
  split <;> simp_all

theorem entry?_touch (c : TtlCache α) (now : Instant) (id : String) (f : Field) (ttlMs : Nat)
    (a : String) (g : Field) :
    entry? (c.touch now id f ttlMs).1 a g =
      if (a, g) = (id, f) then (c.entry? a g).map (restamp now ttlMs) else c.entry? a g := by
  unfold touch
  split
  · next hf =>
    rw [entry?_setFields, touch_fields, lookup_map_snd (fun k v => if k == f then restamp now ttlMs v
      else v)]
    by_cases ha : a = id
    · subst ha
      by_cases hg : g = f
      · subst hg
        simp [entry?_eq]
      · simp [hg, entry?_eq]
    · simp [ha]
  · next hf =>
    by_cases hk : (a, g) = (id, f)
    · obtain ⟨rfl, rfl⟩ := Prod.mk.inj hk
      simp [hf]
    · simp [hk]

theorem Wf.touch {c : TtlCache α} (h : c.Wf) (now : Instant) (id : String) (f : Field)
    (ttlMs : Nat) : (c.touch now id f ttlMs).1.Wf := by
  unfold TtlCache.touch
  split
  · refine h.setFields id ?_
    rw [touch_fields, List.map_map]
    exact h.nodup_fieldsOf id
  · exact h

theorem entry?_invalidate (c : TtlCache α) (id : String) (f : Field) (a : String) (g : Field) :
    entry? (c.invalidate id f) a g = if (a, g) = (id, f) then none else c.entry? a g := by
  unfold invalidate
  split
  · rw [entry?_setFields, lookup_filter_fst (fun k => k != f)]
    by_cases ha : a = id
    · subst ha
      by_cases hg : g = f <;> simp [hg, entry?_eq]
    · simp [ha]
  · next hin =>
    by_cases hk : (a, g) = (id, f)
    · obtain ⟨rfl, rfl⟩ := Prod.mk.inj hk
      simp [entry?_def, Option.not_isSome_iff_eq_none.mp hin]
    · simp [hk]

theorem Wf.invalidate {c : TtlCache α} (h : c.Wf) (id : String) (f : Field) :
    (c.invalidate id f).Wf := by
  unfold TtlCache.invalidate
  split
  · exact h.setFields id ((h.nodup_fieldsOf id).sublist ((List.filter_sublist).map _))
  · exact h

theorem entry?_invalidateEntity (c : TtlCache α) (id a : String) (g : Field) :
    entry? (c.invalidateEntity id) a g = if a = id then none else c.entry? a g := by
  rw [invalidateEntity, entry?_def, lookup_filter_fst (fun k => k != id)]
  by_cases ha : a = id <;> simp [ha, entry?_def]

theorem entry?_prune (c : TtlCache α) (keep : String → Bool) (a : String) (g : Field) :
    entry? (c.prune keep).1 a g = if keep a then c.entry? a g else none := by
  rw [prune, entry?_def, lookup_filter_fst keep]
  by_cases ha : keep a <;> simp [ha, entry?_def]

theorem pruneOlderThan_entries (c : TtlCache α) (now : Instant) (age : Nat) :
    (c.pruneOlderThan now age).1.entries =
      (c.entries.map fun p => (p.1, p.2.filter fun q => now.since q.2.stampedAt < age)).filter
        fun p => !p.2.isEmpty := rfl

theorem entry?_pruneOlderThan {c : TtlCache α} (h : c.Wf) (now : Instant) (age : Nat) (a : String)
    (g : Field) : entry? (c.pruneOlderThan now age).1 a g =
      (c.entry? a g).filter fun e => now.since e.stampedAt < age := by
  have hids : ((c.entries.map fun p => (p.1, p.2.filter fun q => now.since q.2.stampedAt < age)).map
      Prod.fst).Nodup := by
    rw [List.map_map]
    exact h.ids
  rw [entry?_def (c.pruneOlderThan now age).1, pruneOlderThan_entries,
    lookup_filter_snd hids (fun fs => !fs.isEmpty),
    lookup_map_snd (fun (_ : String) (fs : List (Field × Entry α)) =>
      fs.filter fun q => now.since q.2.stampedAt < age)]
  cases hl : c.entries.lookup a with
  | none => simp [entry?_def, hl]
  | some fs =>
    have hfs : (fs.map Prod.fst).Nodup := h.fields _ ((lookup_eq_some_iff h.ids).mp hl)
    have hentry : c.entry? a g = fs.lookup g := by
      rw [entry?_eq, fieldsOf, hl]
      rfl
    rw [hentry, ← lookup_filter_snd hfs, Option.map_some]
    -- an id whose fields are all dropped has no entry left, as its filtered fields say
    generalize (fs.filter fun q => now.since q.2.stampedAt < age) = kept
    cases kept <;> rfl

theorem Wf.pruneOlderThan {c : TtlCache α} (h : c.Wf) (now : Instant) (age : Nat) :
    (c.pruneOlderThan now age).1.Wf := by
  refine ⟨?_, fun p hp => ?_, fun p hp => ?_⟩ <;> rw [pruneOlderThan_entries] at *
  · refine List.Nodup.sublist ((List.filter_sublist).map _) ?_
    rw [List.map_map]
    exact h.ids
  · obtain ⟨p', hp', rfl⟩ := List.mem_map.mp (List.mem_of_mem_filter hp)
    exact (h.fields p' hp').sublist ((List.filter_sublist).map _)
  · simpa [List.isEmpty_iff] using (List.mem_filter.mp hp).2

theorem prune_snd (c : TtlCache α) (keep : String → Bool) :
    (c.prune keep).2 = (c.entries.filter fun p => !keep p.1).length := by
  rw [prune, List.length_eq_length_filter_add fun p => keep p.1]
  simp

theorem pruneOlderThan_snd (c : TtlCache α) (now : Instant) (age : Nat) :
    (c.pruneOlderThan now age).2 = c.size - (c.pruneOlderThan now age).1.size := rfl

end TtlCache

/-! ### The flat map -/

/-- The cache as one finite map from a session id and a field to an entry. -/
structure FlatCache (α : Type) where
  /-- The keys that have an entry. -/
  keys : Finset (String × Field)
  find : String × Field → Option (Entry α)
  mem_keys : ∀ k, k ∈ keys ↔ (find k).isSome

namespace FlatCache

variable {α : Type}

/-- No keys. -/
def empty : FlatCache α := ⟨∅, fun _ => none, fun _ => by simp⟩

/-- The value of `k`, if `k` has an entry and it is fresh at `now`. -/
def get? (m : FlatCache α) (now : Instant) (k : String × Field) : Option α :=
  (m.find k).bind fun e => if e.isFresh now then some e.value else none

/-- The value of `k` and when it was stamped, fresh or not. -/
def getStamped? (m : FlatCache α) (k : String × Field) : Option (α × Instant) :=
  (m.find k).map fun e => (e.value, e.stampedAt)

/-- `k` has a value fresh at `now`: exactly when `get?` answers one. -/
def isFresh (m : FlatCache α) (now : Instant) (k : String × Field) : Bool := (m.get? now k).isSome

/-- `k` holds `v`, stamped `now`, in place of what it held. -/
def set (m : FlatCache α) (now : Instant) (k : String × Field) (v : α) (ttlMs : Nat) :
    FlatCache α where
  keys := insert k m.keys
  find := Function.update m.find k (some ⟨v, now, ttlMs⟩)
  mem_keys k' := by
    by_cases h : k' = k
    · subst h
      simp
    · simp [h, m.mem_keys]

/-- The entry of `k`, when there is one, stamped `now` with a new lifetime and its value kept;
tells whether there was one. -/
def touch (m : FlatCache α) (now : Instant) (k : String × Field) (ttlMs : Nat) :
    FlatCache α × Bool :=
  (⟨m.keys, Function.update m.find k ((m.find k).map (TtlCache.restamp now ttlMs)), fun k' => by
      by_cases h : k' = k
      · subst h
        simp [m.mem_keys]
      · simp [h, m.mem_keys]⟩,
    (m.find k).isSome)

/-- Only the entries that `p` keeps. -/
def restrict (m : FlatCache α) (p : String × Field → Entry α → Bool) : FlatCache α where
  keys := m.keys.filter fun k => (m.find k).any (p k)
  find k := (m.find k).filter (p k)
  mem_keys k := by
    rw [Finset.mem_filter, m.mem_keys]
    cases m.find k <;> simp

@[simp] theorem find_restrict (m : FlatCache α) (p : String × Field → Entry α → Bool)
    (k : String × Field) : (m.restrict p).find k = (m.find k).filter (p k) := rfl

/-- Without the key `k`. -/
def invalidate (m : FlatCache α) (k : String × Field) : FlatCache α :=
  m.restrict fun k' _ => k' != k

/-- Without the keys of `id`. -/
def invalidateEntity (m : FlatCache α) (id : String) : FlatCache α :=
  m.restrict fun k _ => k.1 != id

/-- Without the keys whose id `keep` rejects; answers how many distinct ids those are. -/
def prune (m : FlatCache α) (keep : String → Bool) : FlatCache α × Nat :=
  (m.restrict fun k _ => keep k.1, ((m.keys.filter fun k => !keep k.1).image Prod.fst).card)

/-- Without the keys stamped `age` milliseconds or more before `now`; answers how many those
are. -/
def pruneOlderThan (m : FlatCache α) (now : Instant) (age : Nat) : FlatCache α × Nat :=
  (m.restrict fun _ e => now.since e.stampedAt < age,
    (m.keys.filter fun k => (m.find k).any fun e => age ≤ now.since e.stampedAt).card)

/-- The number of keys. -/
def len (m : FlatCache α) : Nat := m.keys.card

/-- No keys. -/
def isEmpty (m : FlatCache α) : Bool := decide (m.keys = ∅)

end FlatCache

/-! ### Calls on a cache -/

/-- A call on the cache. -/
inductive CacheCall (α : Type) where
  | get (id : String) (f : Field)
  | getStamped (id : String) (f : Field)
  | isFresh (id : String) (f : Field)
  | set (id : String) (f : Field) (v : α) (ttlMs : Nat)
  | touch (id : String) (f : Field) (ttlMs : Nat)
  | invalidate (id : String) (f : Field)
  | invalidateEntity (id : String)
  | invalidateAll
  | prune (keep : String → Bool)
  | pruneOlderThan (ageMs : Nat)
  | len
  | isEmpty

/-- What a call answers. -/
inductive CacheReply (α : Type) where
  | done
  | value (v : Option α)
  | stamped (v : Option (α × Instant))
  | flag (b : Bool)
  | count (n : Nat)

/-- The answers of a store to calls made one after another, each at its clock reading. -/
def CacheCall.replies {σ α : Type} (answer : σ → Instant → CacheCall α → σ × CacheReply α) :
    σ → List (Instant × CacheCall α) → List (CacheReply α)
  | _, [] => []
  | s, (now, call) :: rest => (answer s now call).2 :: replies answer (answer s now call).1 rest

theorem CacheCall.replies_eq_of_step {σ τ α : Type}
    {ans₁ : σ → Instant → CacheCall α → σ × CacheReply α}
    {ans₂ : τ → Instant → CacheCall α → τ × CacheReply α} (R : σ → τ → Prop)
    (hstep : ∀ s t now call, R s t →
      R (ans₁ s now call).1 (ans₂ t now call).1 ∧ (ans₁ s now call).2 = (ans₂ t now call).2) :
    ∀ (calls : List (Instant × CacheCall α)) (s : σ) (t : τ), R s t →
      replies ans₁ s calls = replies ans₂ t calls
  | [], _, _, _ => rfl
  | (now, call) :: rest, s, t, hr => by
    obtain ⟨hr', hreply⟩ := hstep s t now call hr
    rw [replies, replies, hreply, replies_eq_of_step R hstep rest _ _ hr']

namespace TtlCache

variable {α : Type}

/-- Answer a call made at `now`. -/
def answer (c : TtlCache α) (now : Instant) : CacheCall α → TtlCache α × CacheReply α
  | .get id f => (c, .value (c.get? now id f))
  | .getStamped id f => (c, .stamped (c.getStamped? id f))
  | .isFresh id f => (c, .flag (c.isFresh now id f))
  | .set id f v ttlMs => (c.set now id f v ttlMs, .done)
  | .touch id f ttlMs => ((c.touch now id f ttlMs).1, .flag (c.touch now id f ttlMs).2)
  | .invalidate id f => (c.invalidate id f, .done)
  | .invalidateEntity id => (c.invalidateEntity id, .done)
  | .invalidateAll => (c.invalidateAll, .done)
  | .prune keep => ((c.prune keep).1, .count (c.prune keep).2)
  | .pruneOlderThan age => ((c.pruneOlderThan now age).1, .count (c.pruneOlderThan now age).2)
  | .len => (c, .count c.size)
  | .isEmpty => (c, .flag c.isEmpty)

end TtlCache

namespace FlatCache

variable {α : Type}

/-- Answer a call made at `now`. -/
def answer (m : FlatCache α) (now : Instant) : CacheCall α → FlatCache α × CacheReply α
  | .get id f => (m, .value (m.get? now (id, f)))
  | .getStamped id f => (m, .stamped (m.getStamped? (id, f)))
  | .isFresh id f => (m, .flag (m.isFresh now (id, f)))
  | .set id f v ttlMs => (m.set now (id, f) v ttlMs, .done)
  | .touch id f ttlMs => ((m.touch now (id, f) ttlMs).1, .flag (m.touch now (id, f) ttlMs).2)
  | .invalidate id f => (m.invalidate (id, f), .done)
  | .invalidateEntity id => (m.invalidateEntity id, .done)
  | .invalidateAll => (empty, .done)
  | .prune keep => ((m.prune keep).1, .count (m.prune keep).2)
  | .pruneOlderThan age => ((m.pruneOlderThan now age).1, .count (m.pruneOlderThan now age).2)
  | .len => (m, .count m.len)
  | .isEmpty => (m, .flag m.isEmpty)

end FlatCache

/-! ### The cache refines the flat map -/

namespace TtlCache

variable {α : Type} {c : TtlCache α} {m : FlatCache α}

/-- `c` is laid out well and holds, key by key, the entries of `m`. -/
structure Refines (c : TtlCache α) (m : FlatCache α) : Prop where
  wf : c.Wf
  find : ∀ id f, c.entry? id f = m.find (id, f)

theorem refines_empty : Refines ({} : TtlCache α) FlatCache.empty :=
  ⟨⟨List.nodup_nil, by simp, by simp⟩, fun _ _ => rfl⟩

/-- The keys of the flat map are the keys the entries list. -/
theorem Refines.keys (h : Refines c m) : m.keys = (c.flat.map Prod.fst).toFinset := by
  ext ⟨id, f⟩
  rw [m.mem_keys, ← h.find, List.mem_toFinset, Option.isSome_iff_exists, List.mem_map]
  constructor
  · rintro ⟨e, he⟩
    exact ⟨((id, f), e), h.wf.entry?_eq_some.mp he, rfl⟩
  · rintro ⟨⟨k, e⟩, hk, rfl⟩
    exact ⟨e, h.wf.entry?_eq_some.mpr hk⟩

/-- The cache counts as many entries as the flat map has keys. -/
theorem Refines.size (h : Refines c m) : c.size = m.len := by
  rw [size_eq_length_flat, FlatCache.len, h.keys, List.toFinset_card_of_nodup h.wf.nodup_keys,
    List.length_map]

theorem Refines.get? (h : Refines c m) (now : Instant) (id : String) (f : Field) :
    c.get? now id f = m.get? now (id, f) := by
  rw [TtlCache.get?, FlatCache.get?, h.find]
  cases m.find (id, f) <;> rfl

theorem Refines.getStamped? (h : Refines c m) (id : String) (f : Field) :
    c.getStamped? id f = m.getStamped? (id, f) := by
  rw [TtlCache.getStamped?, FlatCache.getStamped?, h.find]

theorem Refines.isFresh (h : Refines c m) (now : Instant) (id : String) (f : Field) :
    c.isFresh now id f = m.isFresh now (id, f) := by
  rw [TtlCache.isFresh, FlatCache.isFresh, FlatCache.get?, h.find]
  cases m.find (id, f) with
  | none => rfl
  | some e => by_cases he : e.isFresh now <;> simp [he]

theorem Refines.set (h : Refines c m) (now : Instant) (id : String) (f : Field) (v : α)
    (ttlMs : Nat) : Refines (c.set now id f v ttlMs) (m.set now (id, f) v ttlMs) := by
  refine ⟨h.wf.set now id f v ttlMs, fun a g => ?_⟩
  rw [entry?_set, h.find]
  by_cases hk : (a, g) = (id, f) <;> simp [FlatCache.set, hk]

theorem Refines.touch (h : Refines c m) (now : Instant) (id : String) (f : Field) (ttlMs : Nat) :
    Refines (c.touch now id f ttlMs).1 (m.touch now (id, f) ttlMs).1 ∧
      (c.touch now id f ttlMs).2 = (m.touch now (id, f) ttlMs).2 := by
  refine ⟨⟨h.wf.touch now id f ttlMs, fun a g => ?_⟩, by rw [touch_snd, h.find]; rfl⟩
  rw [entry?_touch, h.find]
  by_cases hk : (a, g) = (id, f)
  · obtain ⟨rfl, rfl⟩ := Prod.mk.inj hk
    simp [FlatCache.touch]
  · simp [FlatCache.touch, hk]

theorem Refines.invalidate (h : Refines c m) (id : String) (f : Field) :
    Refines (c.invalidate id f) (m.invalidate (id, f)) := by
  refine ⟨h.wf.invalidate id f, fun a g => ?_⟩
  rw [entry?_invalidate, h.find, FlatCache.invalidate, FlatCache.find_restrict]
  by_cases hk : (a, g) = (id, f) <;> cases m.find (a, g) <;> simp [hk, Option.filter_some]

theorem Refines.invalidateEntity (h : Refines c m) (id : String) :
    Refines (c.invalidateEntity id) (m.invalidateEntity id) := by
  refine ⟨h.wf.filter _, fun a g => ?_⟩
  rw [entry?_invalidateEntity, h.find, FlatCache.invalidateEntity, FlatCache.find_restrict]
  by_cases ha : a = id <;> cases m.find (a, g) <;> simp [ha, Option.filter_some]

theorem Refines.invalidateAll (c : TtlCache α) : Refines c.invalidateAll (FlatCache.empty (α := α)) :=
  ⟨⟨List.nodup_nil, by simp [TtlCache.invalidateAll], by simp [TtlCache.invalidateAll]⟩,
    fun _ _ => rfl⟩

/-- Pruning by id keeps the entries of the ids kept and counts the distinct ids dropped. -/
theorem Refines.prune (h : Refines c m) (keep : String → Bool) :
    Refines (c.prune keep).1 (m.prune keep).1 ∧ (c.prune keep).2 = (m.prune keep).2 := by
  refine ⟨⟨h.wf.filter _, fun a g => ?_⟩, ?_⟩
  · rw [entry?_prune, h.find, FlatCache.prune, FlatCache.find_restrict]
    by_cases ha : keep a <;> cases m.find (a, g) <;> simp [ha, Option.filter_some]
  · -- an id dropped has a field, since no id is kept without one
    have himage : (m.keys.filter fun k => !keep k.1).image Prod.fst =
        ((c.entries.filter fun p => !keep p.1).map Prod.fst).toFinset := by
      ext id
      simp only [Finset.mem_image, Finset.mem_filter, List.mem_toFinset, List.mem_map,
        List.mem_filter, h.keys]
      constructor
      · rintro ⟨⟨a, f⟩, ⟨⟨⟨⟨a', f'⟩, e⟩, hmem, hk⟩, hkeep⟩, rfl⟩
        obtain ⟨rfl, rfl⟩ := Prod.mk.inj hk
        obtain ⟨fs, hfs, -⟩ := (mem_flat c).mp hmem
        exact ⟨(a', fs), ⟨hfs, hkeep⟩, rfl⟩
      · rintro ⟨⟨a, fs⟩, ⟨hfs, hkeep⟩, rfl⟩
        obtain ⟨⟨f, e⟩, hq⟩ := List.exists_mem_of_ne_nil fs (h.wf.nonempty _ hfs)
        exact ⟨(a, f), ⟨⟨((a, f), e), (mem_flat c).mpr ⟨fs, hfs, hq⟩, rfl⟩, hkeep⟩, rfl⟩
    rw [prune_snd, FlatCache.prune, himage,
      List.toFinset_card_of_nodup (h.wf.ids.sublist ((List.filter_sublist).map _)), List.length_map]

/-- Pruning by age keeps the young entries and counts the old ones. -/
theorem Refines.pruneOlderThan (h : Refines c m) (now : Instant) (age : Nat) :
    Refines (c.pruneOlderThan now age).1 (m.pruneOlderThan now age).1 ∧
      (c.pruneOlderThan now age).2 = (m.pruneOlderThan now age).2 := by
  have hr : Refines (c.pruneOlderThan now age).1 (m.pruneOlderThan now age).1 :=
    ⟨h.wf.pruneOlderThan now age, fun a g => by rw [entry?_pruneOlderThan h.wf, h.find]; rfl⟩
  refine ⟨hr, ?_⟩
  -- the keys kept and the keys dropped split the keys
  have hsplit := Finset.card_filter_add_card_filter_not (s := m.keys)
    fun k => (m.find k).any fun e => now.since e.stampedAt < age
  have hold : (m.keys.filter fun k => ¬(m.find k).any fun e => now.since e.stampedAt < age) =
      m.keys.filter fun k => (m.find k).any fun e => age ≤ now.since e.stampedAt := by
    refine Finset.filter_congr fun k hk => ?_
    obtain ⟨e, he⟩ := Option.isSome_iff_exists.mp ((m.mem_keys k).mp hk)
    simp [he]
  rw [pruneOlderThan_snd, h.size, hr.size, FlatCache.len, FlatCache.len]
  simp only [FlatCache.pruneOlderThan, FlatCache.restrict] at hsplit ⊢
  rw [hold] at hsplit
  omega

theorem Refines.isEmpty (h : Refines c m) : c.isEmpty = m.isEmpty := by
  rw [TtlCache.isEmpty, FlatCache.isEmpty, h.size, FlatCache.len]
  by_cases hk : m.keys = ∅ <;> simp [hk]

/-- One call keeps the cache refining the flat map and answers as it does. -/
theorem Refines.answer (h : Refines c m) (now : Instant) (call : CacheCall α) :
    Refines (c.answer now call).1 (m.answer now call).1 ∧
      (c.answer now call).2 = (m.answer now call).2 := by
  cases call with
  | get id f => exact ⟨h, by rw [TtlCache.answer, FlatCache.answer, h.get?]⟩
  | getStamped id f => exact ⟨h, by rw [TtlCache.answer, FlatCache.answer, h.getStamped?]⟩
  | isFresh id f => exact ⟨h, by rw [TtlCache.answer, FlatCache.answer, h.isFresh]⟩
  | set id f v ttlMs => exact ⟨h.set now id f v ttlMs, rfl⟩
  | touch id f ttlMs =>
    obtain ⟨hr, hb⟩ := h.touch now id f ttlMs
    exact ⟨hr, by rw [TtlCache.answer, FlatCache.answer, hb]⟩
  | invalidate id f => exact ⟨h.invalidate id f, rfl⟩
  | invalidateEntity id => exact ⟨h.invalidateEntity id, rfl⟩
  | invalidateAll => exact ⟨Refines.invalidateAll c, rfl⟩
  | prune keep =>
    obtain ⟨hr, hn⟩ := h.prune keep
    exact ⟨hr, by rw [TtlCache.answer, FlatCache.answer, hn]⟩
  | pruneOlderThan age =>
    obtain ⟨hr, hn⟩ := h.pruneOlderThan now age
    exact ⟨hr, by rw [TtlCache.answer, FlatCache.answer, hn]⟩
  | len => exact ⟨h, by rw [TtlCache.answer, FlatCache.answer, h.size]⟩
  | isEmpty => exact ⟨h, by rw [TtlCache.answer, FlatCache.answer, h.isEmpty]⟩

/-- A cache answers every sequence of calls, made at any clock readings, as a flat map from a
session id and a field to an entry does: a read answers a key's value when it is fresh, a write
replaces one key, touching restamps a key that is there, the drops remove the keys they name,
pruning by id counts the ids it drops, pruning by age counts the entries it drops, and the
length is the number of keys. -/
theorem replies_eq_flat (calls : List (Instant × CacheCall α)) :
    CacheCall.replies answer ({} : TtlCache α) calls =
      CacheCall.replies FlatCache.answer FlatCache.empty calls :=
  CacheCall.replies_eq_of_step Refines (fun _ _ now call h => h.answer now call) calls _ _
    refines_empty

/-- Pruning an id with two fields counts one id, and drops two entries. -/
example : CacheCall.replies answer ({} : TtlCache Nat)
    [(⟨0, 0⟩, .set "a" .preview 1 10), (⟨0, 1⟩, .set "a" .worktreeDirty 2 10), (⟨1, 2⟩, .len),
      (⟨2, 3⟩, .prune fun _ => false), (⟨2, 4⟩, .len)] =
    [.done, .done, .count 2, .count 1, .count 0] := by
  rfl

end TtlCache

end AgentDeck
