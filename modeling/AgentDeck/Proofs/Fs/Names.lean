import Mathlib
import AgentDeck.Fs.Tree
import AgentDeck.Proofs.Group.Paths

/-!
Absolute paths made of plain names.

A plain name is one step of a path: not empty, without a slash, and neither `.` nor `..`. The
path down plain names from the root (`Path.ofNames`) is its own normalized form. Reading it
gives back its names, walking it on any file system gives it back, its parent is the path down
all its names but the last, and a new extension changes only its last name. The files of one
directory share the directories above them, and none of them stands under another.
-/

namespace AgentDeck

namespace Text

variable {sep : Char}

theorem splitOnChar_of_not_mem {p : List Char} (h : sep ∉ p) : splitOnChar sep p = [p] := by
  induction p with
  | nil => rfl
  | cons c cs ih =>
    rw [List.mem_cons, not_or] at h
    have hc : c ≠ sep := fun hc => h.1 hc.symm
    simp [splitOnChar, hc, ih h.2]

theorem length_splitOnChar (s : List Char) :
    ((splitOnChar sep s).map List.length).sum + (splitOnChar sep s).length = s.length + 1 := by
  induction s with
  | nil => rfl
  | cons c cs ih =>
    by_cases hc : c = sep
    · subst hc
      rw [splitOnChar_cons_sep]
      simp only [List.map_cons, List.length_nil, List.sum_cons, List.length_cons] at ih ⊢
      omega
    · obtain ⟨p, ps, h, h'⟩ := @splitOnChar_cons_of_ne _ _ cs hc
      rw [h']
      rw [h] at ih
      simp only [List.map_cons, List.sum_cons, List.length_cons] at ih ⊢
      omega

end Text

namespace Path

/-- One step of a path: not empty, without a slash, and neither `.` nor `..`. -/
structure Plain (n : String) : Prop where
  ne_empty : n ≠ ""
  no_slash : '/' ∉ n.toList
  ne_dot : n ≠ "."
  ne_dotdot : n ≠ ".."

/-- The absolute path down the names `ns` from the root. -/
def ofNames (ns : List String) : String := "/" ++ "/".intercalate ns

theorem ofNames_nil : ofNames [] = "/" := rfl

theorem toList_ofNames (ns : List String) :
    (ofNames ns).toList = '/' :: ("/".intercalate ns).toList := by
  simp [ofNames]

theorem toList_ofNames_append {ns : List String} (hns : ns ≠ []) (x : String) :
    (ofNames (ns ++ [x])).toList = (ofNames ns).toList ++ '/' :: x.toList := by
  have hmap : ns.map String.toList ≠ [] := by simpa using hns
  simp only [ofNames, String.toList_append, String.toList_intercalate, List.map_append,
    List.map_cons, List.map_nil]
  rw [show ("/" : String).toList = ['/'] from rfl, Text.intercalate_append_singleton hmap]
  simp

theorem toList_ofNames_singleton (x : String) : (ofNames [x]).toList = '/' :: x.toList := by
  simp [ofNames]

theorem ofNames_append_name (ns : List String) (a b : String) :
    ofNames (ns ++ [a ++ b]) = ofNames (ns ++ [a]) ++ b := by
  rw [← String.toList_inj, String.toList_append]
  rcases List.eq_nil_or_concat' ns with rfl | ⟨ms, m, rfl⟩
  · simp [toList_ofNames_singleton]
  · rw [@toList_ofNames_append (ms ++ [m]) (by simp) (a ++ b),
      @toList_ofNames_append (ms ++ [m]) (by simp) a]
    simp

theorem ofNames_prefix_snoc (ns : List String) (x : String) :
    (ofNames ns).toList <+: (ofNames (ns ++ [x])).toList := by
  rcases List.eq_nil_or_concat' ns with rfl | ⟨ms, m, rfl⟩
  · simp [toList_ofNames_singleton, ofNames_nil]
  · rw [toList_ofNames_append (by simp) x]
    exact List.prefix_append _ _

theorem ofNames_isPrefix_append (ns ms : List String) :
    (ofNames ns).toList <+: (ofNames (ns ++ ms)).toList := by
  induction ms using List.reverseRecOn with
  | nil => simp
  | append_singleton ms x ih =>
    rw [← List.append_assoc]
    exact ih.trans (ofNames_prefix_snoc _ x)

theorem length_ofNames_lt (ns : List String) {x : String} (hx : x ≠ "") :
    (ofNames ns).length < (ofNames (ns ++ [x])).length := by
  have hx' : 0 < x.toList.length := List.length_pos_of_ne_nil (by simpa using hx)
  rw [← String.length_toList, ← String.length_toList]
  rcases List.eq_nil_or_concat' ns with rfl | ⟨ms, m, rfl⟩
  · simpa [toList_ofNames_singleton, ofNames_nil] using hx'
  · rw [toList_ofNames_append (by simp) x]
    simp

/-! ### Reading the path -/

theorem parts_root (rest : List Char) :
    parts ('/' :: rest) = (.root, 1) :: bodyParts 1 (Text.splitOnChar '/' rest) := rfl

theorem bodyParts_append (xs ys : List (List Char)) (start : Nat) :
    bodyParts start (xs ++ ys) =
      bodyParts start xs ++ bodyParts (start + (xs.map List.length).sum + xs.length) ys := by
  induction xs generalizing start with
  | nil => simp [bodyParts]
  | cons p ps ih =>
    have hstart : start + p.length + 1 + (ps.map List.length).sum + ps.length =
        start + ((p :: ps).map List.length).sum + (p :: ps).length := by
      simp only [List.map_cons, List.sum_cons, List.length_cons]
      omega
    simp only [List.cons_append, bodyParts, ih, hstart]
    split
    · rfl
    · split <;> rfl

theorem bodyParts_plain {x : String} (hx : Plain x) (start : Nat) :
    bodyParts start [x.toList] = [(.name x, start + x.length)] := by
  have hne : x.toList.isEmpty = false := by simpa using hx.ne_empty
  have hdot : (x.toList == ['.']) = false := by
    simpa [← String.toList_inj] using hx.ne_dot
  have hdots : (x.toList == ['.', '.']) = false := by
    simpa [← String.toList_inj] using hx.ne_dotdot
  simp [bodyParts, hne, hdot, hdots, String.length_toList]

theorem parts_ofNames_append (ns : List String) {x : String} (hx : Plain x) :
    parts (ofNames (ns ++ [x])).toList =
      parts (ofNames ns).toList ++ [(.name x, (ofNames (ns ++ [x])).length)] := by
  have hsplit : Text.splitOnChar '/' x.toList = [x.toList] :=
    Text.splitOnChar_of_not_mem hx.no_slash
  rcases List.eq_nil_or_concat' ns with rfl | ⟨ms, m, rfl⟩
  · have hL : (ofNames [x]).length = 1 + x.length := by
      rw [← String.length_toList, toList_ofNames_singleton, List.length_cons,
        String.length_toList, Nat.add_comm]
    rw [List.nil_append, toList_ofNames_singleton, parts_root, hsplit, bodyParts_plain hx, hL]
    rfl
  · -- the directory's text is `/` then `rest`; the last name follows after one more slash
    obtain ⟨rest, hrest⟩ : ∃ rest, (ofNames (ms ++ [m])).toList = '/' :: rest :=
      ⟨_, toList_ofNames _⟩
    have hlen := @Text.length_splitOnChar '/' rest
    have hL : (ofNames (ms ++ [m] ++ [x])).length = 1 + rest.length + 1 + x.length := by
      rw [← String.length_toList, toList_ofNames_append (by simp) x, hrest]
      simp only [List.cons_append, List.length_cons, List.length_append, String.length_toList]
      omega
    rw [toList_ofNames_append (by simp) x, hrest, List.cons_append, parts_root, parts_root,
      Text.splitOnChar_append_sep, hsplit, bodyParts_append, bodyParts_plain hx, hL]
    simp only [List.cons_append]
    congr 4
    omega

theorem getLast_parts_ofNames {ns : List String} (hns : ∀ n ∈ ns, Plain n) :
    ∃ c, (parts (ofNames ns).toList).getLast? = some (c, (ofNames ns).length) := by
  rcases List.eq_nil_or_concat' ns with rfl | ⟨ms, m, rfl⟩
  · exact ⟨.root, rfl⟩
  · rw [parts_ofNames_append ms (hns m (by simp))]
    exact ⟨.name m, by simp⟩

theorem components_ofNames {ns : List String} (hns : ∀ n ∈ ns, Plain n) :
    components (ofNames ns) = .root :: ns.map .name := by
  induction ns using List.reverseRecOn with
  | nil => rfl
  | append_singleton ms x ih =>
    have hms : ∀ n ∈ ms, Plain n := fun n hn => hns n (by simp [hn])
    unfold components at ih ⊢
    rw [parts_ofNames_append ms (hns x (by simp)), List.map_append, ih hms]
    simp

theorem ofNames_injective {ns ms : List String} (hns : ∀ n ∈ ns, Plain n)
    (hms : ∀ n ∈ ms, Plain n) (h : ofNames ns = ofNames ms) : ns = ms := by
  have hc := congrArg components h
  rw [components_ofNames hns, components_ofNames hms, List.cons.injEq] at hc
  exact List.map_injective_iff.mpr (fun _ _ h => Component.name.inj h) hc.2

theorem isAbsolute_ofNames (ns : List String) : isAbsolute (ofNames ns) = true := by
  simp [isAbsolute, toList_ofNames]

/-- The directory of a path down plain names is the path down all its names but the last. -/
theorem parent?_ofNames {ns : List String} (hns : ∀ n ∈ ns, Plain n) {x : String}
    (hx : Plain x) : parent? (ofNames (ns ++ [x])) = some (ofNames ns) := by
  obtain ⟨c, hc⟩ := getLast_parts_ofNames hns
  have hpre := ofNames_prefix_snoc ns x
  unfold parent?
  simp only [parts_ofNames_append ns hx, List.getLast?_concat, List.dropLast_concat, hc]
  rw [← String.length_toList, ← List.prefix_iff_eq_take.mp hpre, String.ofList_toList]

/-- Giving a path down plain names a new extension replaces the end of its last name after the
stem. -/
theorem withExtension_ofNames (ns : List String) {stem suffix : String}
    (hx : Plain (stem ++ suffix)) (hstem : (splitDot (stem ++ suffix)).1 = stem) {ext : String}
    (hext : ext ≠ "") :
    withExtension (ofNames (ns ++ [stem ++ suffix])) ext = ofNames (ns ++ [stem ++ "." ++ ext]) := by
  unfold withExtension
  rw [parts_ofNames_append ns hx, List.getLast?_concat]
  dsimp only
  have hcut : (ofNames (ns ++ [stem ++ suffix])).length -
      ((stem ++ suffix).length - (splitDot (stem ++ suffix)).1.length) =
        (ofNames (ns ++ [stem])).toList.length := by
    rw [hstem, ofNames_append_name, String.length_append, String.length_append,
      String.length_toList]
    omega
  rw [hcut, ofNames_append_name ns stem suffix, String.toList_append, List.take_left,
    String.ofList_toList, if_neg (by simpa using hext), ← ofNames_append_name,
    ← ofNames_append_name]

/-- The directories above a path down plain names are those down its first names, however
its last name reads. -/
theorem ancestors_ofNames {ns : List String} (hns : ∀ n ∈ ns, Plain n) {x : String}
    (hx : Plain x) :
    Fs.ancestors (ofNames (ns ++ [x])) =
      (List.range ns.length).map fun i => ofNames (ns.take (i + 1)) := by
  have hall : ∀ n ∈ ns ++ [x], Plain n := by
    intro n hn
    rcases List.mem_append.mp hn with hn | hn
    · exact hns n hn
    · rw [List.mem_singleton.mp hn]
      exact hx
  have hnames : names (components (ofNames (ns ++ [x]))) = ns ++ [x] := by
    rw [components_ofNames hall]
    simp [names, List.filterMap_map]
  unfold Fs.ancestors
  rw [hnames]
  simp only [List.length_append, List.length_singleton, Nat.add_sub_cancel]
  apply List.map_congr_left
  intro i hi
  rw [List.take_append_of_le_length (by simp at hi; omega)]
  rfl

/-! ### Files beside one another -/

/-- The text of a file of a directory: the directory's text and a slash, then its name. -/
theorem toList_ofNames_file (ns : List String) :
    ∃ d, ∀ x, (ofNames (ns ++ [x])).toList = d ++ x.toList := by
  rcases List.eq_nil_or_concat' ns with rfl | ⟨ms, m, rfl⟩
  · exact ⟨['/'], fun x => by simp [toList_ofNames_singleton]⟩
  · exact ⟨(ofNames (ms ++ [m])).toList ++ ['/'],
      fun x => by rw [toList_ofNames_append (by simp) x]; simp⟩

/-- No file of a directory stands under another file of it. -/
theorem not_under_sibling (ns : List String) {x : String} (hx : Plain x) (y : String) :
    ¬(ofNames (ns ++ [y]) ++ "/").toList <+: (ofNames (ns ++ [x])).toList := by
  intro h
  obtain ⟨d, hd⟩ := toList_ofNames_file ns
  rw [String.toList_append, hd, hd, List.append_assoc] at h
  have hsub : y.toList ++ "/".toList <+: x.toList := (List.prefix_append_right_inj _).mp h
  exact hx.no_slash (hsub.subset (List.mem_append_right _ (by decide)))

/-- A path does not stand under a path at least as long. -/
theorem not_under_longer {a p : String} (h : a.length ≤ p.length) :
    ¬(p ++ "/").toList <+: a.toList := by
  intro hp
  have hlen := hp.length_le
  have h1 : ("/" : String).length = 1 := rfl
  simp only [String.toList_append, List.length_append, String.length_toList] at hlen
  omega

theorem isAbsolute_of_plain {x : String} (hx : Plain x) : isAbsolute x = false := by
  rw [Bool.eq_false_iff]
  intro h
  rw [isAbsolute, String.startsWith, String.Slice.startsWith_string_iff] at h
  obtain ⟨rest, hrest⟩ := h
  exact hx.no_slash (by simp at hrest; simp [← hrest])

/-- A plain name joined to a path down names is the path down one name more. -/
theorem join_ofNames {ns : List String} (hns : ∀ n ∈ ns, Plain n) {x : String} (hx : Plain x) :
    join (ofNames ns) x = ofNames (ns ++ [x]) := by
  unfold join
  rw [isAbsolute_of_plain hx, if_neg Bool.false_ne_true]
  rcases List.eq_nil_or_concat' ns with rfl | ⟨ms, m, rfl⟩
  · -- the root ends with its slash
    have hend : (ofNames []).endsWith "/" = true := by
      rw [String.endsWith, String.Slice.endsWith_string_iff]
      simp [ofNames]
    rw [if_pos (by simp [hend])]
    rfl
  · -- a path down names ends with its last name, which has no slash
    have hm : Plain m := hns m (by simp)
    have hend : (ofNames (ms ++ [m])).endsWith "/" = false := by
      rw [Bool.eq_false_iff]
      intro h
      rw [String.endsWith, String.Slice.endsWith_string_iff] at h
      obtain ⟨pre, hpre⟩ := h
      simp only [String.copy_toSlice] at hpre
      obtain ⟨P, hP⟩ : ∃ P, (ofNames (ms ++ [m])).toList = P ++ m.toList := by
        rcases List.eq_nil_or_concat' ms with rfl | ⟨ls, l, rfl⟩
        · exact ⟨['/'], toList_ofNames_singleton m⟩
        · exact ⟨(ofNames (ls ++ [l])).toList ++ ['/'], by
            rw [toList_ofNames_append (by simp)]
            simp⟩
      have hmne : m.toList ≠ [] := by simpa using hm.ne_empty
      have hlast : (pre ++ ['/']).getLast? = (P ++ m.toList).getLast? :=
        congrArg List.getLast? (hpre.trans hP)
      rw [List.getLast?_concat, List.getLast?_append_of_ne_nil _ hmne] at hlast
      exact hm.no_slash (List.mem_of_getLast? hlast.symm)
    have hne : (ofNames (ms ++ [m])).isEmpty = false := by
      simp [ofNames]
    rw [if_neg (by simp [hend, hne]), ← String.toList_inj, toList_ofNames_append (by simp)]
    simp

end Path

end AgentDeck
