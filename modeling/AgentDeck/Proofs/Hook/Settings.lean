import Mathlib
import AgentDeck.Proofs.Json.Made
import AgentDeck.Hook.Install

/-!
The settings the hook install writes.

The install registers two agent hooks in the settings object: under its `hooks` member, the hook
`UserPromptSubmit` gets an entry running the script with kind `active` and the hook `Stop` one
running it with kind `stop`, each only when no entry of that hook runs that command already.
`registerAll` does it with a fold over the two events that carries a flag for an added entry;
here it is one `setMember` per hook (`registerAll_eq`), and the flag says that some agent hook
did not run its command (`registerAll_changed`).

The settings are written back pretty-printed. Settings as the reader makes them (canonical and
within its nesting, `MadeWithin`) stay so once registered, and so read back as the settings
with the hooks registered and every value that was there read once more
(`parse_registeredSettings`): each member and hook is kept up to `Json.reread`, which is not
the identity on numbers.
-/

namespace AgentDeck.Json

theorem MadeWithin.of_obj {r : Nat} {ms : List (String × Json)} (h : MadeWithin r (.obj ms)) :
    ∀ m ∈ ms, MadeWithin (r - 1) m.2 := by
  obtain ⟨hc, hd⟩ := h
  cases hc with
  | obj _ hms =>
    intro m hm
    have := depth_le_depthMembers hm
    exact ⟨hms m hm, by show _ < _; have : depthMembers ms + 1 < r := hd; omega⟩

theorem MadeWithin.of_arr {r : Nat} {xs : List Json} (h : MadeWithin r (.arr xs)) :
    ∀ x ∈ xs, MadeWithin (r - 1) x := by
  obtain ⟨hc, hd⟩ := h
  cases hc with
  | arr hxs =>
    intro x hx
    have := depth_le_depthItems hx
    exact ⟨hxs x hx, by have : depthItems xs + 1 < r := hd; omega⟩

end AgentDeck.Json

namespace AgentDeck.Hook

open Json

/-- The hooks object of the settings members `ms`: their `hooks` member when it is an object,
an empty one otherwise. -/
def settingsHooks (ms : List (String × Json)) : List (String × Json) :=
  ((ms.lookup "hooks").bind Json.asObject?).getD []

/-- The entries of the hook `name` in the hooks object `hs`: the items of its list, none when
it is no list. -/
def hookEntries (hs : List (String × Json)) (name : String) : List Json :=
  ((hs.lookup name).bind Json.asArray?).getD []

/-- A hook's entries with one running `cmd` added after them when none runs it. -/
def withEntry (entries : List Json) (cmd : String) : List Json :=
  if hasCommand entries cmd then entries else entries ++ [entryFor cmd]

/-- Every agent hook of the hooks object `hs` runs its command already. -/
def registeredIn (hs : List (String × Json)) (sp ed : String) : Bool :=
  events.all fun (name, kind) => hasCommand (hookEntries hs name) (command sp kind ed)

/-- The hooks object `hs` with the hook `name` made to run `cmd`. -/
def registerOne (hs : List (String × Json)) (name cmd : String) : List (String × Json) :=
  setMember hs name (.arr (withEntry (hookEntries hs name) cmd))

/-- Registering the two agent hooks, one after the other. -/
theorem registerAll_eq (hs : List (String × Json)) (sp ed : String) :
    registerAll hs sp ed =
      (registerOne (registerOne hs "UserPromptSubmit" (command sp "active" ed)) "Stop"
          (command sp "stop" ed),
        !hasCommand (hookEntries hs "UserPromptSubmit") (command sp "active" ed) ||
          !hasCommand (hookEntries (registerOne hs "UserPromptSubmit" (command sp "active" ed))
            "Stop") (command sp "stop" ed)) := by
  unfold registerAll events registerOne withEntry hookEntries
  simp only [List.foldl_cons, List.foldl_nil]
  split_ifs <;> simp_all

theorem lookup_registerOne (hs : List (String × Json)) (name cmd k : String) :
    (registerOne hs name cmd).lookup k =
      if k = name then some (.arr (withEntry (hookEntries hs name) cmd)) else hs.reverse.lookup k :=
  lookup_setMember _ _ _ _

theorem nodup_keys_registerOne (hs : List (String × Json)) (name cmd : String) :
    ((registerOne hs name cmd).map Prod.fst).Nodup :=
  nodup_keys_sortMembers _

section Registering

variable {hs : List (String × Json)} (hnd : (hs.map Prod.fst).Nodup) (sp ed : String)
include hnd

theorem lookup_registerAll (k : String) :
    (registerAll hs sp ed).1.lookup k =
      if k = "Stop" then some (.arr (withEntry (hookEntries hs "Stop") (command sp "stop" ed)))
      else if k = "UserPromptSubmit" then
        some (.arr (withEntry (hookEntries hs "UserPromptSubmit") (command sp "active" ed)))
      else hs.lookup k := by
  have hStop : hookEntries (registerOne hs "UserPromptSubmit" (command sp "active" ed)) "Stop" =
      hookEntries hs "Stop" := by
    unfold hookEntries
    rw [lookup_registerOne, if_neg (by decide), lookup_reverse hnd]
  rw [registerAll_eq, lookup_registerOne, hStop, lookup_reverse (nodup_keys_registerOne _ _ _),
    lookup_registerOne, lookup_reverse hnd]

/-- An entry is added exactly when some agent hook does not run its command yet. -/
theorem registerAll_changed : (registerAll hs sp ed).2 = !registeredIn hs sp ed := by
  have hStop : hookEntries (registerOne hs "UserPromptSubmit" (command sp "active" ed)) "Stop" =
      hookEntries hs "Stop" := by
    unfold hookEntries
    rw [lookup_registerOne, if_neg (by decide), lookup_reverse hnd]
  rw [registerAll_eq, hStop]
  simp [registeredIn, events]

end Registering

/-! ### Reading the written settings again -/

theorem field?_reread (j : Json) (k : String) : (reread j).field? k = (j.field? k).map reread := by
  cases j <;> simp [reread, Json.field?, lookup_rereadMembers]

theorem asArray?_reread (j : Json) : (reread j).asArray? = j.asArray?.map (·.map reread) := by
  cases j <;> simp [reread, Json.asArray?, rereadItems_eq_map]

theorem asString?_reread (j : Json) : (reread j).asString? = j.asString? := by
  cases j <;> simp [reread, Json.asString?]

theorem hasCommand_map_reread (xs : List Json) (cmd : String) :
    hasCommand (xs.map reread) cmd = hasCommand xs cmd := by
  have hcmd : ∀ h : Json, ((reread h).field? "command").bind asString? =
      (h.field? "command").bind asString? := by
    intro h
    rw [field?_reread]
    cases h.field? "command" <;> simp [asString?_reread]
  unfold hasCommand
  rw [List.any_map]
  congr 1
  funext e
  rw [Function.comp_apply, field?_reread]
  cases e.field? "hooks" with
  | none => rfl
  | some h =>
    simp only [Option.map_some, Option.bind_some, asArray?_reread]
    cases h.asArray? with
    | none => rfl
    | some hs => simp only [Option.map_some, Option.any_some, List.any_map, Function.comp_def, hcmd]

theorem hasCommand_entryFor (cmd : String) : hasCommand [entryFor cmd] cmd = true := by
  simp [hasCommand, entryFor, Json.field?, Json.asArray?, Json.asString?]

theorem reread_entryFor (cmd : String) : reread (entryFor cmd) = entryFor cmd := rfl

theorem hasCommand_withEntry (xs : List Json) (cmd : String) :
    hasCommand (withEntry xs cmd) cmd = true := by
  unfold withEntry
  split
  · assumption
  · rw [hasCommand, List.any_append, ← hasCommand, ← hasCommand, hasCommand_entryFor, Bool.or_true]

theorem map_reread_withEntry (xs : List Json) (cmd : String) :
    (withEntry xs cmd).map reread = withEntry (xs.map reread) cmd := by
  unfold withEntry
  rw [hasCommand_map_reread]
  split
  · rfl
  · rw [List.map_append, List.map_singleton, reread_entryFor]

theorem depth_entryFor (cmd : String) : (entryFor cmd).depth = 3 := rfl

theorem canonical_entryFor (cmd : String) : (entryFor cmd).Canonical := by
  unfold entryFor
  refine .obj (List.pairwise_pair.2 (show ("hooks" : String) < "matcher" by decide)) fun m hm => ?_
  simp only [List.mem_cons, List.not_mem_nil, or_false] at hm
  rcases hm with rfl | rfl
  · refine .arr fun x hx => ?_
    simp only [List.mem_singleton] at hx
    subst hx
    exact .obj (List.pairwise_pair.2 (show ("command" : String) < "type" by decide)) fun m hm => by
      simp only [List.mem_cons, List.not_mem_nil, or_false] at hm
      rcases hm with rfl | rfl <;> exact .str _
  · exact .str _

/-! ### The settings written back -/

theorem mem_of_lookup_eq_some {l : List (String × Json)} {k : String} {v : Json}
    (h : l.lookup k = some v) : (k, v) ∈ l := by
  obtain ⟨l₁, l₂, rfl, -⟩ := List.lookup_eq_some_iff.1 h
  simp

theorem nodup_keys_of_canonical {ms : List (String × Json)} (h : (Json.obj ms).Canonical) :
    (ms.map Prod.fst).Nodup := by
  cases h with
  | obj hsorted _ => exact List.pairwise_map.2 (hsorted.imp ne_of_lt)

/-- The hooks object of settings of the reader's form is of that form one level down, and
its keys are all different. -/
theorem settingsHooks_made {r : Nat} {ms : List (String × Json)}
    (h : ∀ m ∈ ms, MadeWithin r m.2) :
    ((settingsHooks ms).map Prod.fst).Nodup ∧ ∀ m ∈ settingsHooks ms, MadeWithin (r - 1) m.2 := by
  unfold settingsHooks
  cases hl : ms.lookup "hooks" with
  | none => simp
  | some j =>
    cases j with
    | obj hs =>
      have hj := h _ (mem_of_lookup_eq_some hl)
      exact ⟨nodup_keys_of_canonical hj.1, hj.of_obj⟩
    | _ => simp [Json.asObject?]

theorem hookEntries_made {r : Nat} {hs : List (String × Json)} (h : ∀ m ∈ hs, MadeWithin r m.2)
    (name : String) : ∀ x ∈ hookEntries hs name, MadeWithin (r - 1) x := by
  unfold hookEntries
  cases hl : hs.lookup name with
  | none => simp
  | some j =>
    cases j with
    | arr xs => exact (h _ (mem_of_lookup_eq_some hl)).of_arr
    | _ => simp [Json.asArray?]

theorem registerOne_made {r : Nat} (hr : 5 < r) {hs : List (String × Json)}
    (h : ∀ m ∈ hs, MadeWithin (r - 1) m.2) (name cmd : String) :
    ∀ m ∈ hs ++ [(name, .arr (withEntry (hookEntries hs name) cmd))], MadeWithin (r - 1) m.2 := by
  intro m hm
  rcases List.mem_append.1 hm with hm | hm
  · exact h m hm
  rw [List.mem_singleton] at hm
  subst hm
  have hentries := hookEntries_made h name
  refine madeWithin_arr (by omega) fun x hx => ?_
  unfold withEntry at hx
  split at hx
  · exact hentries x hx
  · rcases List.mem_append.1 hx with hx | hx
    · exact hentries x hx
    · rw [List.mem_singleton] at hx
      subst hx
      exact ⟨canonical_entryFor _, by rw [depth_entryFor]; omega⟩

/-- The settings object written back: `ms` with the agent hooks registered under `hooks`. -/
def registeredSettings (ms : List (String × Json)) (sp ed : String) : Json :=
  .obj (setMember ms "hooks" (.obj (registerAll (settingsHooks ms) sp ed).1))

theorem registeredSettings_made {r : Nat} (hr : 6 < r) {ms : List (String × Json)}
    (h : MadeWithin r (.obj ms)) (sp ed : String) : MadeWithin r (registeredSettings ms sp ed) := by
  have hms := h.of_obj
  obtain ⟨-, hhooks⟩ := settingsHooks_made hms
  have hfirst := registerOne_made (by omega) hhooks "UserPromptSubmit" (command sp "active" ed)
  have hone : ∀ m ∈ registerOne (settingsHooks ms) "UserPromptSubmit" (command sp "active" ed),
      MadeWithin (r - 1 - 1) m.2 := fun m hm => hfirst m (mem_of_mem_sortMembers hm)
  have hboth := registerOne_made (by omega) hone "Stop" (command sp "stop" ed)
  unfold registeredSettings setMember
  refine madeWithin_obj (by omega) fun m hm => ?_
  rcases List.mem_append.1 hm with hm | hm
  · exact hms m hm
  rw [List.mem_singleton] at hm
  subst hm
  rw [registerAll_eq]
  exact madeWithin_obj (by omega) hboth

theorem settingsHooks_of_lookup {ms hs : List (String × Json)}
    (h : ms.lookup "hooks" = some (.obj hs)) : settingsHooks ms = hs := by
  unfold settingsHooks
  rw [h]
  rfl

theorem hookEntries_of_lookup {hs : List (String × Json)} {name : String} {xs : List Json}
    (h : hs.lookup name = some (.arr xs)) : hookEntries hs name = xs := by
  unfold hookEntries
  rw [h]
  rfl

/-- The settings members `ms'` are `ms` with the agent hooks of the script `sp` reporting to
`ed` registered, each value that was there kept as `f` of itself: every member but `hooks`,
every hook but the agent's two, and the entries of each of those two, in order, followed by an
entry running its command when none ran it. A `hooks` member that is no object counts as one
without hooks, and a hook that is no list as one without entries. -/
structure Registers (f : Json → Json) (ms ms' : List (String × Json)) (sp ed : String) : Prop where
  other : ∀ k, k ≠ "hooks" → ms'.lookup k = (ms.lookup k).map f
  hooks : ∃ hs', ms'.lookup "hooks" = some (.obj hs') ∧
    (∀ k, k ∉ events.map Prod.fst → hs'.lookup k = ((settingsHooks ms).lookup k).map f) ∧
    ∀ name kind, (name, kind) ∈ events → hs'.lookup name =
      some (.arr ((hookEntries (settingsHooks ms) name).map f ++
        if hasCommand (hookEntries (settingsHooks ms) name) (command sp kind ed) then []
        else [entryFor (command sp kind ed)]))

theorem lookup_registerAll_event {hs : List (String × Json)} (hnd : (hs.map Prod.fst).Nodup)
    (sp ed : String) {name kind : String} (hev : (name, kind) ∈ events) :
    (registerAll hs sp ed).1.lookup name =
      some (.arr (withEntry (hookEntries hs name) (command sp kind ed))) := by
  simp only [events, List.mem_cons, Prod.mk.injEq, List.not_mem_nil, or_false] at hev
  rcases hev with ⟨rfl, rfl⟩ | ⟨rfl, rfl⟩ <;> rw [lookup_registerAll hnd] <;> simp

/-- **Registered settings read back.** Settings of the reader's form, written back with the
agent hooks registered, read as those settings with every value that was there read again;
each agent hook then runs its command. -/
theorem parse_registeredSettings {ms : List (String × Json)} (h : MadeWithin maxNesting (.obj ms))
    (sp ed : String) :
    ∃ ms', parse (pretty (registeredSettings ms sp ed)) = .ok (.obj ms') ∧
      Registers reread ms ms' sp ed ∧ registeredIn (settingsHooks ms') sp ed = true := by
  have hmade := registeredSettings_made (by decide) h sp ed
  have hnd := nodup_keys_of_canonical h.1
  obtain ⟨hhnd, -⟩ := settingsHooks_made h.of_obj
  have hlook : (rereadMembers (setMember ms "hooks" (.obj (registerAll (settingsHooks ms) sp ed).1))).lookup
      "hooks" = some (.obj (rereadMembers (registerAll (settingsHooks ms) sp ed).1)) := by
    rw [lookup_rereadMembers, lookup_setMember, if_pos rfl]
    rfl
  -- each agent hook's list, read again
  have hentries : ∀ name kind, (name, kind) ∈ events →
      hookEntries (rereadMembers (registerAll (settingsHooks ms) sp ed).1) name =
        (withEntry (hookEntries (settingsHooks ms) name) (command sp kind ed)).map reread := by
    intro name kind hev
    refine hookEntries_of_lookup ?_
    rw [lookup_rereadMembers, lookup_registerAll_event hhnd sp ed hev]
    simp [reread, rereadItems_eq_map]
  refine ⟨_, parse_pretty hmade.1 hmade.2, ⟨fun k hk => ?_, ⟨_, hlook, fun k hk => ?_,
    fun name kind hev => ?_⟩⟩, ?_⟩
  · rw [lookup_rereadMembers, lookup_setMember, if_neg hk, lookup_reverse hnd]
  · obtain ⟨hkA, hkS⟩ : k ≠ "UserPromptSubmit" ∧ k ≠ "Stop" := by
      simpa [events] using hk
    rw [lookup_rereadMembers, lookup_registerAll hhnd, if_neg hkS, if_neg hkA]
  · rw [lookup_rereadMembers, lookup_registerAll_event hhnd sp ed hev]
    simp only [reread, rereadItems_eq_map, Option.map_some, map_reread_withEntry]
    unfold withEntry
    rw [hasCommand_map_reread]
    split <;> simp
  · rw [settingsHooks_of_lookup hlook]
    simp only [registeredIn, List.all_eq_true]
    rintro ⟨name, kind⟩ hev
    rw [hentries name kind hev, hasCommand_map_reread, hasCommand_withEntry]

end AgentDeck.Hook
