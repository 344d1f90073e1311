import Mathlib
import AgentDeck.Proofs.Registry.Targeted
import AgentDeck.Proofs.Hook.Settings

/-!
Installing the status hook into a home.

The install makes the report folder, places the script and registers the agent hooks in the
settings file. Here the three are folders that stand (`Folder.Holds`), the script is none of the
settings files, and the settings file reads as `settingsOf` says: a missing, undecodable or
blank file as an empty object, any other text as a JSON document.

Over settings that read as an object, the install registers the hooks (`installAt_object`). It
writes the file back only when some agent hook lacked its command, after copying the file that
stood there beside it, and the file then reads as `Registers` says, every value that was there
read once more. A second install finds everything in place and changes nothing
(`installAt_settled`). Over settings that are no document, or no object, the install fails and
leaves them as they were (`installAt_not_object`). Main statement:
`hook_install_keeps_settings_and_settles`.

Reading a number once more need not give it back. The text of the double
5494815741369796 · 2^538 reads as 5494815741369795 · 2^538, whose text reads as
5494815741369794 · 2^538, so settings holding such a number see it move each time the install
writes them (`install_moves_kept_number`).
-/

namespace AgentDeck

open AgentDeck.Fs AgentDeck.Path AgentDeck.Act

namespace Fs

theorem Files.chmod_of_file {fs : Files} {p : String} {data : ByteArray} {m t : Nat}
    (hs : fs.stat p = .ok (.file data m t)) (mode : Nat) :
    fs.chmod p mode = .ok (fs.put p (.file data mode t)) := by
  simp [Files.chmod, hs, bind, Except.bind, pure, Except.pure]

theorem Files.get?_chmod {fs fs' : Files} {p q : String} {mode : Nat}
    (h : fs.chmod p mode = .ok fs') (hq : q ≠ p) : fs'.get? q = fs.get? q := by
  unfold Files.chmod at h
  cases hs : fs.stat p with
  | error f => simp [hs, bind, Except.bind] at h
  | ok e =>
    cases e with
    | file data m t =>
      simp only [hs, bind, Except.bind, pure, Except.pure, Except.ok.injEq] at h
      subst h
      exact Files.get?_put_of_ne _ hq _
    | dir t =>
      simp only [hs, bind, Except.bind, pure, Except.pure, Except.ok.injEq] at h
      rw [h]

namespace Folder

variable {d : Folder} {fs fs' : Files} {N : List String} {v : String → Option ByteArray}

theorem Holds.frame_paths (h : d.Holds fs N v) {qs : List String}
    (hq : ∀ q ∈ qs, ∀ t, fs.get? q ≠ some (.dir t)) (hN : ∀ q ∈ qs, ∀ y ∈ N, q ≠ d.file y)
    (hfs : ∀ p, p ∉ qs → fs'.get? p = fs.get? p) : d.Holds fs' N v := by
  -- the directories down to the folder are no such path
  have hdir : ∀ a t, fs.get? a = some (.dir t) → fs'.get? a = fs.get? a :=
    fun a t ha => hfs a fun hmem => hq a hmem t ha
  obtain ⟨t, ht⟩ := h.dir
  obtain ⟨hreach, hget⟩ := (fs.stat_eq_ok).mp ht
  refine ⟨h.plain, ⟨t, (fs'.stat_eq_ok).mpr ⟨?_, ?_⟩⟩, fun y hy => ?_⟩
  · rw [Files.reach_congr _ fun a ha => ?_]
    · exact hreach
    · obtain ⟨t', ht'⟩ := ((fs.reach_eq_ok).mp hreach) a ha
      exact hdir a t' ht'
  · rw [hdir _ t hget]
    exact hget
  · rw [Files.stores_congr (hfs _ fun hmem => hN _ hmem y hy rfl)]
    exact h.stores y hy

theorem Holds.apart (h : d.Holds fs N v) {d' : Folder} {M : List String}
    {v' : String → Option ByteArray} (h' : d'.Holds fs M v')
    (hsep : ∀ y ∈ M, ∀ z ∈ N, d'.file y ≠ d.file z)
    (hfs : ∀ p, p ∉ M.map d'.file → fs'.get? p = fs.get? p) : d.Holds fs' N v := by
  refine h.frame_paths (fun q hq t => ?_) (fun q hq z hz => ?_) hfs
  · obtain ⟨y, hy, rfl⟩ := List.mem_map.1 hq
    exact (h'.stores y hy).not_dir t
  · obtain ⟨y, hy, rfl⟩ := List.mem_map.1 hq
    exact hsep y hy z hz

/-- Setting the permission bits of a filled slot's file keeps every slot. -/
theorem Holds.chmod (h : d.Holds fs N v) {y : String} (hy : y ∈ N) {b : ByteArray}
    (hb : v y = some b) (mode : Nat) :
    ∃ fs', fs.chmod (d.file y) mode = .ok fs' ∧ d.Holds fs' N v := by
  have hpy := h.plain y hy
  obtain ⟨m, t, hst⟩ := h.stat_file hy hb
  refine ⟨_, Files.chmod_of_file hst mode,
    h.frame (T := [y]) (by simp [hpy.ne_empty]) ?_ (fun _ _ _ => rfl) ?_⟩
  · intro q hq
    simp only [List.mem_cons, List.not_mem_nil, or_false, forall_eq] at hq
    exact Files.get?_put_of_ne _ hq.1 _
  · intro z hz _
    simp only [List.mem_cons, List.not_mem_nil, or_false] at hz
    subst hz
    rw [hb]
    exact ⟨mode, t, Files.get?_put_self _ (d.file_ne_root hpy.ne_empty) _⟩

end Folder

end Fs

theorem toUTF8_of_fromUTF8? {b : ByteArray} {t : String} (h : String.fromUTF8? b = some t) :
    t.toUTF8 = b := by
  unfold String.fromUTF8? at h
  split at h
  · cases h
    rfl
  · cases h

namespace Act

theorem chmod_eq {p : String} (hp : Located p) (mode : Nat) :
    chmod p mode = withFiles (·.chmod p mode) := by
  funext w
  simp only [chmod, bind_apply, abs_apply hp]

theorem readText_empty {d : Folder} {w : World} {N : List String} {v : String → Option ByteArray}
    (h : d.Holds w.files N v) {y : String} (hy : y ∈ N) (hv : v y = none) :
    ∃ e, readText (d.file y) w = .error e w := by
  have hget : w.files.get? (d.file y) = none := by simpa [hv, Files.Stores] using h.stores y hy
  have hread : w.files.read (d.file y) = .error .noEntry := by
    simp [Files.read, Files.stat, h.reach (h.plain y hy), hget, bind, Except.bind, throw,
      throwThe, MonadExceptOf.throw]
  have hbytes : readBytes (d.file y) w = .error (.io .noEntry) w := by
    unfold readBytes
    rw [bind_apply_ok (abs_apply (located_file d (h.plain y hy)) w)]
    show io (w.files.read (d.file y)) w = _
    rw [hread]
    rfl
  exact ⟨_, by unfold readText; rw [bind_apply_error hbytes]⟩

end Act

namespace Hook

variable {s : Folder} {x : String} {w : World} {u : String → Option ByteArray}

theorem installScript_of_placed (hs : s.Holds w.files [x] u) (hu : u x = some script.toUTF8) :
    installScript (s.file x) w = .ok false w := by
  unfold installScript
  rw [Registry.parent_file s (hs.plain x (by simp))]
  dsimp only
  rw [bind_apply_ok (Registry.mkdirAll_folder hs),
    bind_apply_ok (by rw [attempt_apply, Registry.readText_slot hs (by simp) hu])]
  simp only [bne_self_eq_false, Bool.not_false, if_true]
  rfl

theorem installScript_of_not_placed (hs : s.Holds w.files [x] u) (hu : u x ≠ some script.toUTF8) :
    ∃ w', installScript (s.file x) w = .ok true w' ∧
      s.Holds w'.files [x] (fun _ => some script.toUTF8) ∧
      ∀ p, p ∉ [s.file x] → w'.files.get? p = w.files.get? p := by
  have hx : x ∈ [x] := List.mem_singleton_self x
  have hloc := located_file s (hs.plain x hx)
  -- whatever stands there is not read as the script
  obtain ⟨res, hres, hneeded⟩ : ∃ res, (readText (s.file x)).attempt w = .ok res w ∧
      ((∃ e, res = .error e) ∨ ∃ t, res = .ok t ∧ t ≠ script) := by
    cases hux : u x with
    | none =>
      obtain ⟨e, he⟩ := readText_empty hs hx hux
      exact ⟨.error e, by rw [attempt_apply, he], .inl ⟨e, rfl⟩⟩
    | some b =>
      have hread := Registry.readText_bytes hs hx hux
      cases hb : String.fromUTF8? b with
      | none =>
        rw [hb] at hread
        exact ⟨.error _, by rw [attempt_apply, hread], .inl ⟨_, rfl⟩⟩
      | some t =>
        rw [hb] at hread
        refine ⟨.ok t, by rw [attempt_apply, hread], .inr ⟨t, rfl, ?_⟩⟩
        rintro rfl
        exact hu (hux.trans (congrArg some (toUTF8_of_fromUTF8? hb).symm))
  obtain ⟨fs₁, hw, hh₁⟩ := hs.write hx script.toUTF8
  obtain ⟨fs₂, hc, hh₂⟩ := hh₁.chmod hx (Function.update_self x _ u) 493
  unfold installScript
  rw [Registry.parent_file s (hs.plain x hx)]
  dsimp only
  rw [bind_apply_ok (Registry.mkdirAll_folder hs), bind_apply_ok hres]
  -- the script is written, then made executable
  have hwrite : (do writeText (s.file x) script; chmod (s.file x) 493; pure true : Act Bool) w =
      .ok true { { w with files := fs₁ } with files := fs₂ } := by
    rw [bind_apply_ok (by rw [writeText_eq hloc]; exact withFiles_apply_ok hw)]
    rw [bind_apply_ok (by rw [chmod_eq hloc]; exact withFiles_apply_ok hc)]
    rfl
  refine ⟨{ { w with files := fs₁ } with files := fs₂ }, ?_, hh₂.congr fun y hy => ?_, fun p hp => ?_⟩
  · rcases hneeded with ⟨e, rfl⟩ | ⟨t, rfl, ht⟩ <;> rw [if_neg (by simp [*]), hwrite]
  · rw [List.mem_singleton.1 hy]
    exact (Function.update_self x _ u).symm
  · rw [List.mem_singleton] at hp
    show fs₂.get? p = w.files.get? p
    rw [Files.get?_chmod hc hp, Files.get?_write hw hp]

/-! ### The settings file -/

/-- The names of the settings file and of the copy kept beside it. -/
def settingsSlots : List String := ["settings.json", "settings.json.bak"]

/-- The settings a file holds, as the install reads them: a missing file, one that is no UTF-8
text, and a blank one count as an empty object; any other text must be a JSON document. -/
def settingsOf : Option ByteArray → Except Json.ReadError Json
  | none => .ok (.obj [])
  | some b =>
    match String.fromUTF8? b with
    | none => .ok (.obj [])
    | some text => if text.trimBlank.isEmpty then .ok (.obj []) else Json.parse text

/-- The settings slots once the file is written with `text`, the file that stood there kept as
the copy beside it. -/
def rewritten (v : String → Option ByteArray) (text : String) : String → Option ByteArray :=
  Function.update (Function.update v "settings.json.bak"
    ((v "settings.json").or (v "settings.json.bak"))) "settings.json" (some text.toUTF8)

variable {d : Folder} {v : String → Option ByteArray}

theorem settings_mem_slots : "settings.json" ∈ settingsSlots := by simp [settingsSlots]

theorem backup_mem_slots : "settings.json.bak" ∈ settingsSlots := by simp [settingsSlots]

theorem withExtension_settings (d : Folder) :
    withExtension (d.file "settings.json") "json.bak" = d.file "settings.json.bak" := by
  have h := @withExtension_ofNames d.names "settings" ".json"
    ⟨by decide, by decide, by decide, by decide⟩ (by decide) "json.bak" (by decide)
  have hjson : ("settings" ++ ".json" : String) = "settings.json" := by decide
  have hbak : ("settings" ++ "." ++ "json.bak" : String) = "settings.json.bak" := by decide
  rw [hjson, hbak] at h
  exact h

theorem trimBlank_ne_empty {t : String} {c : Char} {rest : List Char} (h : t.toList = c :: rest)
    (hc : Text.isBlank c = false) : t.trimBlank.isEmpty = false := by
  have hne : (c :: rest).reverse.dropWhile Text.isBlank ≠ [] := by
    rw [Ne, List.dropWhile_eq_nil_iff]
    intro hall
    simpa [hc] using hall c (by simp)
  unfold String.trimBlank Text.trimChars Text.trimLeadChars Text.trimTailChars
  rw [h, List.dropWhile_cons_of_neg (by simp [hc])]
  simpa [String.isEmpty_iff, String.ofList_eq_empty_iff] using hne

theorem pretty_obj_toList (ms : List (String × Json)) :
    ∃ rest, (Json.pretty (.obj ms)).toList = '\x7b' :: rest := by
  unfold Json.pretty
  cases ms with
  | nil => exact ⟨_, by rw [Json.prettyAt]; rfl⟩
  | cons m ms =>
    rw [Json.prettyAt.eq_4 0 (m :: ms) (List.cons_ne_nil m ms)]
    simp only [String.toList_append]
    exact ⟨_, rfl⟩

theorem settingsOf_pretty (ms : List (String × Json)) :
    settingsOf (some (Json.pretty (.obj ms)).toUTF8) = Json.parse (Json.pretty (.obj ms)) := by
  obtain ⟨rest, hrest⟩ := pretty_obj_toList ms
  have hvalid : String.fromUTF8? (Json.pretty (.obj ms)).toUTF8 = some (Json.pretty (.obj ms)) := by
    simp only [String.fromUTF8?, String.toUTF8_eq_toByteArray, dif_pos (Json.pretty _).isValidUTF8]
    rfl
  simp only [settingsOf, hvalid, trimBlank_ne_empty hrest (by decide), Bool.false_eq_true, if_false]

theorem settingsOf_made {b : Option ByteArray} {ms : List (String × Json)}
    (h : settingsOf b = .ok (.obj ms)) : Json.MadeWithin Json.maxNesting (.obj ms) := by
  have hempty : Json.MadeWithin Json.maxNesting (.obj []) :=
    ⟨.obj List.Pairwise.nil (fun _ h => nomatch h), by decide⟩
  cases b with
  | none =>
    cases h
    exact hempty
  | some b =>
    cases hb : String.fromUTF8? b with
    | none =>
      simp only [settingsOf, hb, Except.ok.injEq, Json.obj.injEq] at h
      subst h
      exact hempty
    | some text =>
      simp only [settingsOf, hb] at h
      split at h
      · cases h
        exact hempty
      · exact Json.parse_made h

theorem readSettings_slot (hd : d.Holds w.files settingsSlots v) :
    readSettings (d.file "settings.json") w = match settingsOf (v "settings.json") with
      | .ok j => .ok j w
      | .error e => .error (.json e) w := by
  unfold readSettings
  cases hv : v "settings.json" with
  | none =>
    obtain ⟨e, he⟩ := readText_empty hd settings_mem_slots hv
    rw [bind_apply_ok (by rw [attempt_apply, he])]
    rfl
  | some b =>
    have hread := Registry.readText_bytes hd settings_mem_slots hv
    cases hb : String.fromUTF8? b with
    | none =>
      rw [hb] at hread
      rw [bind_apply_ok (by rw [attempt_apply, hread])]
      simp only [settingsOf, hb]
      rfl
    | some text =>
      rw [hb] at hread
      rw [bind_apply_ok (by rw [attempt_apply, hread])]
      simp only [settingsOf, hb]
      split
      · rfl
      · cases Json.parse text <;> rfl

theorem writeSettings_unchanged {members : List (String × Json)} {sp ed : String} (existed : Bool)
    (hch : (registerAll (settingsHooks members) sp ed).2 = false) :
    writeSettings (d.file "settings.json") sp ed existed (.obj members) w = .ok false w := by
  unfold writeSettings
  dsimp only
  rcases hr : registerAll (((members.lookup "hooks").bind Json.asObject?).getD []) sp ed with
    ⟨hooks, changed⟩
  have : changed = false := by
    rw [← hch]
    exact (congrArg Prod.snd hr).symm
  subst this
  rfl

theorem writeSettings_not_object {sp ed : String} (existed : Bool) {j : Json}
    (hj : j.asObject? = none) :
    writeSettings (d.file "settings.json") sp ed existed j w =
      .error (.config "Invalid root JSON in ~/.claude/settings.json") w := by
  unfold writeSettings
  cases j with
  | obj ms => cases hj
  | _ => rfl

theorem writeSettings_changed (hd : d.Holds w.files settingsSlots v)
    {members : List (String × Json)} {sp ed : String}
    (hch : (registerAll (settingsHooks members) sp ed).2 = true) :
    ∃ w', writeSettings (d.file "settings.json") sp ed (v "settings.json").isSome (.obj members) w =
        .ok true w' ∧
      d.Holds w'.files settingsSlots (rewritten v (Json.pretty (registeredSettings members sp ed))) ∧
      ∀ p, p ∉ settingsSlots.map d.file → w'.files.get? p = w.files.get? p := by
  have hloc := located_file d (hd.plain _ settings_mem_slots)
  have hlocBak := located_file d (hd.plain _ backup_mem_slots)
  unfold writeSettings
  dsimp only
  rcases hr : registerAll (((members.lookup "hooks").bind Json.asObject?).getD []) sp ed with
    ⟨hooks, changed⟩
  have : changed = true := by
    rw [← hch]
    exact (congrArg Prod.snd hr).symm
  subst this
  have htext : Json.pretty (.obj (Json.setMember members "hooks" (.obj hooks))) =
      Json.pretty (registeredSettings members sp ed) := by
    unfold registeredSettings settingsHooks
    rw [hr]
  simp only [Bool.not_true, Bool.false_eq_true, if_false, htext]
  cases hv : v "settings.json" with
  | none =>
    -- nothing to keep: the file is written at once
    obtain ⟨fs₁, hw, hh₁⟩ := hd.write settings_mem_slots
      (Json.pretty (registeredSettings members sp ed)).toUTF8
    simp only [Option.isSome_none, Bool.false_eq_true, if_false]
    have hslots : rewritten v (Json.pretty (registeredSettings members sp ed)) =
        Function.update v "settings.json" (some (Json.pretty (registeredSettings members sp ed)).toUTF8) := by
      rw [rewritten, hv, Option.none_or, Function.update_eq_self]
    refine ⟨{ w with files := fs₁ }, ?_, hslots ▸ hh₁, fun p hp => ?_⟩
    · rw [bind_apply_ok (by rw [writeText_eq hloc]; exact withFiles_apply_ok hw)]
      rfl
    · exact Files.get?_write hw (by simp [settingsSlots] at hp; exact hp.1)
  | some b =>
    -- the old file is copied beside it first
    obtain ⟨fs₁, hc, hh₁⟩ := hd.copy settings_mem_slots backup_mem_slots hv
    obtain ⟨fs₂, hw, hh₂⟩ := hh₁.write settings_mem_slots
      (Json.pretty (registeredSettings members sp ed)).toUTF8
    simp only [Option.isSome_some, if_true]
    have hslots : rewritten v (Json.pretty (registeredSettings members sp ed)) =
        Function.update (Function.update v "settings.json.bak" (some b)) "settings.json"
          (some (Json.pretty (registeredSettings members sp ed)).toUTF8) := by
      rw [rewritten, hv, Option.some_or]
    refine ⟨{ { w with files := fs₁ } with files := fs₂ }, ?_, hslots ▸ hh₂, fun p hp => ?_⟩
    · rw [withExtension_settings, bind_apply_ok (by rw [attempt_apply, copy_eq hloc hlocBak,
        withFiles_apply_ok hc])]
      rw [bind_apply_ok (by rw [writeText_eq hloc]; exact withFiles_apply_ok hw)]
      rfl
    · simp only [settingsSlots, List.map_cons, List.map_nil, List.mem_cons, List.not_mem_nil,
        or_false, not_or] at hp
      show fs₂.get? p = w.files.get? p
      rw [Files.get?_write hw hp.1, Files.get?_copy hc hp.2]

theorem ensureSettings_apply (hd : d.Holds w.files settingsSlots v) (sp ed : String) :
    ensureSettings (d.file "settings.json") sp ed w =
      match settingsOf (v "settings.json") with
      | .ok j => writeSettings (d.file "settings.json") sp ed (v "settings.json").isSome j w
      | .error e => .error (.json e) w := by
  unfold ensureSettings
  rw [Registry.parent_file d (hd.plain _ settings_mem_slots)]
  dsimp only
  rw [bind_apply_ok (Registry.mkdirAll_folder hd),
    bind_apply_ok (Registry.pathExists_slot hd settings_mem_slots)]
  cases h : settingsOf (v "settings.json") with
  | ok j => rw [bind_apply_ok (by rw [readSettings_slot hd, h])]
  | error e => rw [bind_apply_error (by rw [readSettings_slot hd, h])]

theorem ensureSettings_registered (hd : d.Holds w.files settingsSlots v)
    {members : List (String × Json)} (hm : settingsOf (v "settings.json") = .ok (.obj members))
    {sp ed : String} (hreg : registeredIn (settingsHooks members) sp ed = true) :
    ensureSettings (d.file "settings.json") sp ed w = .ok false w := by
  have hch := registerAll_changed (settingsHooks_made (settingsOf_made hm).of_obj).1 sp ed
  rw [hreg] at hch
  rw [ensureSettings_apply hd, hm]
  exact writeSettings_unchanged _ hch

theorem ensureSettings_object (hd : d.Holds w.files settingsSlots v)
    {members : List (String × Json)} (hm : settingsOf (v "settings.json") = .ok (.obj members))
    (sp ed : String) :
    ∃ w', ensureSettings (d.file "settings.json") sp ed w =
        .ok (!registeredIn (settingsHooks members) sp ed) w' ∧
      d.Holds w'.files settingsSlots (if registeredIn (settingsHooks members) sp ed then v
        else rewritten v (Json.pretty (registeredSettings members sp ed))) ∧
      ∀ p, p ∉ settingsSlots.map d.file → w'.files.get? p = w.files.get? p := by
  cases hreg : registeredIn (settingsHooks members) sp ed
  · -- some agent hook lacks its command
    have hch := registerAll_changed (settingsHooks_made (settingsOf_made hm).of_obj).1 sp ed
    rw [hreg] at hch
    rw [ensureSettings_apply hd, hm]
    simp only [Bool.not_false, Bool.false_eq_true, if_false]
    exact writeSettings_changed hd hch
  · simp only [Bool.not_true, if_true]
    exact ⟨w, ensureSettings_registered hd hm hreg, hd, fun _ _ => rfl⟩

theorem installScript_apply (hs : s.Holds w.files [x] u) :
    ∃ w', installScript (s.file x) w = .ok (decide (u x ≠ some script.toUTF8)) w' ∧
      s.Holds w'.files [x] (fun _ => some script.toUTF8) ∧
      ∀ p, p ∉ [x].map s.file → w'.files.get? p = w.files.get? p := by
  by_cases hu : u x = some script.toUTF8
  · refine ⟨w, by simp [installScript_of_placed hs hu, hu], hs.congr fun y hy => ?_,
      fun _ _ => rfl⟩
    rw [List.mem_singleton.1 hy, hu]
  · obtain ⟨w', h, h', hfs⟩ := installScript_of_not_placed hs hu
    exact ⟨w', by rw [h, decide_eq_true hu], h', hfs⟩

variable {e : Folder} {o : String → Option ByteArray}

theorem installAt_eq_ensure (he : e.Holds w.files [] o) {w₁ : World} {wrote : Bool}
    (h₁ : installScript (s.file x) w = .ok wrote w₁) (sf : String) :
    installAt (s.file x) sf e.path w =
      (do
        let b ← ensureSettings sf (s.file x) e.path
        pure ⟨s.file x, sf, e.path, wrote || b⟩ : Act Install) w₁ := by
  unfold installAt
  rw [bind_apply_ok (Registry.mkdirAll_folder he), bind_apply_ok h₁]

/-- One install over settings that read as an object: the script is in place, the settings
are registered, written back only when some agent hook lacked its command, and the three
folders still stand. -/
theorem installAt_object (hd : d.Holds w.files settingsSlots v) (hs : s.Holds w.files [x] u)
    (he : e.Holds w.files [] o) (hsep : ∀ y ∈ settingsSlots, s.file x ≠ d.file y)
    {members : List (String × Json)} (hm : settingsOf (v "settings.json") = .ok (.obj members)) :
    ∃ w', installAt (s.file x) (d.file "settings.json") e.path w =
        .ok ⟨s.file x, d.file "settings.json", e.path,
          decide (u x ≠ some script.toUTF8) || !registeredIn (settingsHooks members) (s.file x) e.path⟩ w' ∧
      d.Holds w'.files settingsSlots
        (if registeredIn (settingsHooks members) (s.file x) e.path then v
        else rewritten v (Json.pretty (registeredSettings members (s.file x) e.path))) ∧
      s.Holds w'.files [x] (fun _ => some script.toUTF8) ∧ e.Holds w'.files [] o := by
  obtain ⟨w₁, h₁, hs₁, hfs₁⟩ := installScript_apply hs
  have hd₁ := hd.apart hs (fun y hy z hz => by rw [List.mem_singleton.1 hy]; exact hsep z hz) hfs₁
  have he₁ := he.apart hs (fun _ _ _ hz => nomatch hz) hfs₁
  obtain ⟨w₂, h₂, hd₂, hfs₂⟩ := ensureSettings_object hd₁ hm (s.file x) e.path
  refine ⟨w₂, ?_, hd₂, hs₁.apart hd₁ (fun y hy z hz => ?_) hfs₂,
    he₁.apart hd₁ (fun _ _ _ hz => nomatch hz) hfs₂⟩
  · rw [installAt_eq_ensure he h₁, bind_apply_ok h₂]
    rfl
  · rw [List.mem_singleton.1 hz]
    exact (hsep y hy).symm

/-- An install with the script in place over settings whose agent hooks all run their commands
changes nothing, and says so. -/
theorem installAt_settled (hd : d.Holds w.files settingsSlots v)
    (hs : s.Holds w.files [x] fun _ => some script.toUTF8) (he : e.Holds w.files [] o)
    {members : List (String × Json)} (hm : settingsOf (v "settings.json") = .ok (.obj members))
    (hreg : registeredIn (settingsHooks members) (s.file x) e.path = true) :
    installAt (s.file x) (d.file "settings.json") e.path w =
      .ok ⟨s.file x, d.file "settings.json", e.path, false⟩ w := by
  rw [installAt_eq_ensure he (installScript_of_placed hs rfl),
    bind_apply_ok (ensureSettings_registered hd hm hreg)]
  rfl

/-- An install over settings that do not read as an object fails once the script is in place:
with the reader's fault when the file is no JSON document, and with an error naming the
settings file when it holds something other than an object. The settings file and its copy are
left as they were. -/
theorem installAt_not_object (hd : d.Holds w.files settingsSlots v) (hs : s.Holds w.files [x] u)
    (he : e.Holds w.files [] o) (hsep : ∀ y ∈ settingsSlots, s.file x ≠ d.file y) :
    ∃ w', d.Holds w'.files settingsSlots v ∧
      (∀ j, settingsOf (v "settings.json") = .ok j → j.asObject? = none →
        installAt (s.file x) (d.file "settings.json") e.path w =
          .error (.config "Invalid root JSON in ~/.claude/settings.json") w') ∧
      ∀ err, settingsOf (v "settings.json") = .error err →
        installAt (s.file x) (d.file "settings.json") e.path w = .error (.json err) w' := by
  obtain ⟨w₁, h₁, -, hfs₁⟩ := installScript_apply hs
  have hd₁ := hd.apart hs (fun y hy z hz => by rw [List.mem_singleton.1 hy]; exact hsep z hz) hfs₁
  refine ⟨w₁, hd₁, fun j hj hobj => ?_, fun err herr => ?_⟩
  · have hens : ensureSettings (d.file "settings.json") (s.file x) e.path w₁ =
        .error (.config "Invalid root JSON in ~/.claude/settings.json") w₁ := by
      rw [ensureSettings_apply hd₁, hj]
      exact writeSettings_not_object _ hobj
    rw [installAt_eq_ensure he h₁, bind_apply_error hens]
  · have hens : ensureSettings (d.file "settings.json") (s.file x) e.path w₁ = .error (.json err) w₁ := by
      rw [ensureSettings_apply hd₁, herr]
    rw [installAt_eq_ensure he h₁, bind_apply_error hens]

/-- **Installing the hook.** In a world where the settings folder, the script's folder and the
report folder stand, with the script none of the settings files:

* over settings that read as an object, the install places the script and registers both agent
  hooks. When every agent hook ran its command already, the settings file is left as it was;
  otherwise it is written back, after the file that stood there is copied beside it, and it
  reads as the settings with every member but `hooks`, every other hook and every earlier entry
  kept up to `Json.reread`, and an entry added to each agent hook that lacked one. A second
  install with the same paths changes nothing and says so;
* over settings that are no JSON document, or one that is no object, it fails, with the
  settings file and its copy as they were. -/
theorem hook_install_keeps_settings_and_settles (hd : d.Holds w.files settingsSlots v)
    (hs : s.Holds w.files [x] u) (he : e.Holds w.files [] o)
    (hsep : ∀ y ∈ settingsSlots, s.file x ≠ d.file y) :
    (∀ members, settingsOf (v "settings.json") = .ok (.obj members) →
      ∃ inst w' v₁, installAt (s.file x) (d.file "settings.json") e.path w = .ok inst w' ∧
        d.Holds w'.files settingsSlots v₁ ∧ s.Holds w'.files [x] (fun _ => some script.toUTF8) ∧
        (registeredIn (settingsHooks members) (s.file x) e.path = true → v₁ = v) ∧
        (registeredIn (settingsHooks members) (s.file x) e.path = false →
          v₁ "settings.json.bak" = (v "settings.json").or (v "settings.json.bak") ∧
          ∃ ms', settingsOf (v₁ "settings.json") = .ok (.obj ms') ∧
            Registers Json.reread members ms' (s.file x) e.path) ∧
        installAt (s.file x) (d.file "settings.json") e.path w' =
          .ok { inst with changed := false } w') ∧
    ∃ w', d.Holds w'.files settingsSlots v ∧
      (∀ j, settingsOf (v "settings.json") = .ok j → j.asObject? = none →
        installAt (s.file x) (d.file "settings.json") e.path w =
          .error (.config "Invalid root JSON in ~/.claude/settings.json") w') ∧
      ∀ err, settingsOf (v "settings.json") = .error err →
        installAt (s.file x) (d.file "settings.json") e.path w = .error (.json err) w' := by
  refine ⟨fun members hm => ?_, installAt_not_object hd hs he hsep⟩
  obtain ⟨w', hrun, hd', hs', he'⟩ := installAt_object hd hs he hsep hm
  -- what the settings file reads as after the install: registered, and, when it was written,
  -- the old settings read once more
  obtain ⟨ms', hread, hreg', hR⟩ : ∃ ms', settingsOf ((if registeredIn (settingsHooks members)
      (s.file x) e.path then v else rewritten v (Json.pretty (registeredSettings members (s.file x)
        e.path))) "settings.json") = .ok (.obj ms') ∧
      registeredIn (settingsHooks ms') (s.file x) e.path = true ∧
      (registeredIn (settingsHooks members) (s.file x) e.path = false →
        Registers Json.reread members ms' (s.file x) e.path) := by
    cases hreg : registeredIn (settingsHooks members) (s.file x) e.path
    · obtain ⟨ms', hparse, hR, hreg'⟩ :=
        parse_registeredSettings (settingsOf_made hm) (s.file x) e.path
      refine ⟨ms', ?_, hreg', fun _ => hR⟩
      rw [if_neg Bool.false_ne_true, rewritten, Function.update_self]
      unfold registeredSettings
      rw [settingsOf_pretty]
      exact hparse
    · exact ⟨members, by rw [if_pos rfl]; exact hm, hreg, fun h => nomatch h⟩
  refine ⟨_, w', _, hrun, hd', hs', fun h => if_pos h, fun h => ⟨?_, ms', hread, hR h⟩,
    installAt_settled hd' hs' he' hread hreg'⟩
  rw [h, if_neg Bool.false_ne_true, rewritten, Function.update_of_ne (by decide),
    Function.update_self]

/-! ### A home for the hook -/

/-- The agent's settings folder of a home. -/
def claudeFolder : Folder :=
  ⟨["home", ".claude"], fun n hn => by
    simp only [List.mem_cons, List.not_mem_nil, or_false] at hn
    rcases hn with rfl | rfl <;> exact ⟨by decide, by decide, by decide, by decide⟩⟩

/-- The folder of the hook script. -/
def hooksFolder : Folder :=
  ⟨["home", "deckhand", "hooks"], fun n hn => by
    simp only [List.mem_cons, List.not_mem_nil, or_false] at hn
    rcases hn with rfl | rfl | rfl <;> exact ⟨by decide, by decide, by decide, by decide⟩⟩

/-- The folder the hook reports to. -/
def eventsFolder : Folder :=
  ⟨["home", "events"], fun n hn => by
    simp only [List.mem_cons, List.not_mem_nil, or_false] at hn
    rcases hn with rfl | rfl <;> exact ⟨by decide, by decide, by decide, by decide⟩⟩

/-- The folders of a home, with `settings` as the agent's settings file when there is one. -/
def hookHome (settings : Option ByteArray) : World :=
  { files := { entries := [("/home", .dir 0), ("/home/.claude", .dir 0), ("/home/deckhand", .dir 0),
      ("/home/deckhand/hooks", .dir 0), ("/home/events", .dir 0)] ++
      (settings.map fun b => ("/home/.claude/settings.json", .file b 0o644 0)).toList } }

theorem hookHome_claude (settings : Option ByteArray) :
    claudeFolder.Holds (hookHome settings).files settingsSlots fun y =>
      if y = "settings.json" then settings else none where
  plain y hy := by
    simp only [settingsSlots, List.mem_cons, List.not_mem_nil, or_false] at hy
    rcases hy with rfl | rfl <;> exact ⟨by decide, by decide, by decide, by decide⟩
  dir := ⟨0, by cases settings <;> rfl⟩
  stores y hy := by
    simp only [settingsSlots, List.mem_cons, List.not_mem_nil, or_false] at hy
    rcases hy with rfl | rfl <;> cases settings
    · rfl
    · exact ⟨0o644, 0, rfl⟩
    · rfl
    · rfl

theorem hookHome_hooks (settings : Option ByteArray) :
    hooksFolder.Holds (hookHome settings).files ["status_hook.sh"] fun _ => none where
  plain y hy := by
    rw [List.mem_singleton.1 hy]
    exact ⟨by decide, by decide, by decide, by decide⟩
  dir := ⟨0, by cases settings <;> rfl⟩
  stores y hy := by
    rw [List.mem_singleton.1 hy]
    cases settings <;> rfl

theorem hookHome_events (settings : Option ByteArray) :
    eventsFolder.Holds (hookHome settings).files [] fun _ => none where
  plain _ hy := nomatch hy
  dir := ⟨0, by cases settings <;> rfl⟩
  stores _ hy := nomatch hy

theorem hook_apart_settings :
    ∀ y ∈ settingsSlots, hooksFolder.file "status_hook.sh" ≠ claudeFolder.file y := by
  simp only [settingsSlots, List.mem_cons, List.not_mem_nil, or_false]
  rintro y (rfl | rfl) <;> decide

/-- An install into a home without settings, with the three folders standing and the script
none of the settings files: both hooks are registered, and a second install changes nothing. -/
theorem install_into_bare_home :
    claudeFolder.Holds (hookHome none).files settingsSlots (fun y =>
      if y = "settings.json" then none else none) ∧
    hooksFolder.Holds (hookHome none).files ["status_hook.sh"] (fun _ => none) ∧
    eventsFolder.Holds (hookHome none).files [] (fun _ => none) ∧
    (∀ y ∈ settingsSlots, hooksFolder.file "status_hook.sh" ≠ claudeFolder.file y) ∧
    ∃ inst w', installAt (hooksFolder.file "status_hook.sh") (claudeFolder.file "settings.json")
        eventsFolder.path (hookHome none) = .ok inst w' ∧
      installAt (hooksFolder.file "status_hook.sh") (claudeFolder.file "settings.json")
        eventsFolder.path w' = .ok { inst with changed := false } w' := by
  obtain ⟨inst, w', -, hrun, -, -, -, -, hagain⟩ :=
    (hook_install_keeps_settings_and_settles (hookHome_claude none) (hookHome_hooks none)
      (hookHome_events none) hook_apart_settings).1 [] rfl
  exact ⟨hookHome_claude none, hookHome_hooks none, hookHome_events none, hook_apart_settings, inst,
    w', hrun, hagain⟩

/-- Settings holding one number: the double 5494815741369796 · 2^538, near 4.944e177. -/
def numberSettings : List (String × Json) :=
  [("a", .num (.float (.finite false 5494815741369796 538)))]

/-- The install reads the number again as it rewrites the settings: the file read `a` as the
double 5494815741369795 · 2^538 before the install and reads it as 5494815741369794 · 2^538
after. -/
theorem install_moves_kept_number :
    settingsOf (some (Json.pretty (.obj numberSettings)).toUTF8) =
        .ok (.obj [("a", .num (.float (.finite false 5494815741369795 538)))]) ∧
    ∃ inst w' b m t ms', installAt (hooksFolder.file "status_hook.sh")
        (claudeFolder.file "settings.json") eventsFolder.path
        (hookHome (some (Json.pretty (.obj numberSettings)).toUTF8)) = .ok inst w' ∧
      w'.files.get? (claudeFolder.file "settings.json") = some (.file b m t) ∧
      settingsOf (some b) = .ok (.obj ms') ∧
      ms'.lookup "a" = some (.num (.float (.finite false 5494815741369794 538))) := by
  have h796 : Number.reread (.float (.finite false 5494815741369796 538)) =
      .float (.finite false 5494815741369795 538) := by decide +kernel
  have h795 : Number.reread (.float (.finite false 5494815741369795 538)) =
      .float (.finite false 5494815741369794 538) := by decide +kernel
  have hcanon : (Json.obj numberSettings).Canonical :=
    .obj (List.pairwise_singleton _ _) fun m hm => by
      rw [List.mem_singleton.1 hm]
      exact .num ⟨by decide, by decide⟩
  have hread : settingsOf (some (Json.pretty (.obj numberSettings)).toUTF8) =
      .ok (.obj [("a", .num (.float (.finite false 5494815741369795 538)))]) := by
    rw [settingsOf_pretty, Json.parse_pretty hcanon (by decide)]
    simp [numberSettings, Json.reread, Json.rereadMembers, h796]
  have hm : settingsOf ((fun y => if y = "settings.json" then
      some (Json.pretty (.obj numberSettings)).toUTF8 else none) "settings.json") =
      .ok (.obj [("a", .num (.float (.finite false 5494815741369795 538)))]) := hread
  obtain ⟨w', hrun, hd', -, -⟩ :=
    installAt_object (hookHome_claude _) (hookHome_hooks _) (hookHome_events _) hook_apart_settings hm
  have hreg : registeredIn (settingsHooks [("a", .num (.float (.finite false 5494815741369795 538)))])
      (hooksFolder.file "status_hook.sh") eventsFolder.path = false := by decide
  rw [hreg, if_neg Bool.false_ne_true] at hd'
  have hstores := hd'.stores _ settings_mem_slots
  rw [rewritten, Function.update_self] at hstores
  obtain ⟨m, t, hget⟩ := hstores
  obtain ⟨ms', hparse, hR, -⟩ := parse_registeredSettings (settingsOf_made hm) _ _
  refine ⟨hread, _, w', _, m, t, ms', hrun, hget, (settingsOf_pretty _).trans hparse, ?_⟩
  rw [hR.other "a" (by decide)]
  simp [Json.reread, h795]

end Hook

end AgentDeck
