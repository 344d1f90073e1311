import Mathlib
import AgentDeck.Registry
import AgentDeck.Proofs.Json.Document
import AgentDeck.Proofs.Time.Text

/-!
The stored forms of sessions, tasks, groups, registry contents and view states, read back.

Each record is written as an object with its fields in declaration order, and each fits the
shape its reader checks: the keys of the shape in the same order, each value of the field's
shape. So the pretty text of the record reads back as the value written
(`readDocument_pretty`), and decoding that value gives the record back: every field of a
session or task, instants of the years 0 to 9999 to the nanosecond, a group without its
members, which are derived and never stored (`Contents.ofText_pretty`), and a view state whose
offset fits in 64 bits (`ViewState.ofText_pretty`).
-/

namespace AgentDeck

open AgentDeck.Json AgentDeck.Time

/-! ### Records and optional values -/

theorem exists_of_forall₂ {α β : Type} {R : α → β → Prop} {l₁ : List α} {l₂ : List β}
    (h : List.Forall₂ R l₁ l₂) {a : α} (ha : a ∈ l₁) : ∃ b ∈ l₂, R a b := by
  induction h with
  | nil => cases ha
  | cons hab _ ih =>
    rcases List.mem_cons.mp ha with rfl | ha
    · exact ⟨_, List.mem_cons_self, hab⟩
    · obtain ⟨b, hb, hr⟩ := ih ha
      exact ⟨b, List.mem_cons_of_mem _ hb, hr⟩

theorem fits_record {name : String} {fields : List (String × Shape × Default)}
    {ms : List (String × Json)} (hnd : (fields.map Prod.fst).Nodup)
    (h : List.Forall₂ (fun m f => m.1 = f.1 ∧ Fits f.2.1 m.2) ms fields) :
    Fits (.record name fields) (.obj ms) := by
  have hkeys : ms.map Prod.fst = fields.map Prod.fst := by
    clear hnd
    induction h with
    | nil => rfl
    | cons hmf _ ih => simp [hmf.1, ih]
  refine .record hnd hkeys fun m hm f hf hfm => ?_
  -- the field of the member's key is the one it stands beside, keys being distinct
  obtain ⟨f', hf', hmf'⟩ := exists_of_forall₂ h hm
  obtain rfl : f = f' := List.inj_on_of_nodup_map hnd hf hf' (hfm.trans hmf'.1)
  exact hmf'.2

theorem fits_ofOption {α : Type} {inner : Shape} {f : α → Json} {o : Option α}
    (hf : ∀ a ∈ o, Fits inner (f a) ∧ f a ≠ .null) : Fits (.opt inner) (ofOption f o) := by
  cases o with
  | none => exact .null inner
  | some a => exact .some (hf a rfl).1 (hf a rfl).2

theorem fits_str (e s : String) : Fits (.text e) (.str s) ∧ Json.str s ≠ .null :=
  ⟨.text e s, Json.noConfusion⟩

@[simp] theorem field?_obj (ms : List (String × Json)) (key : String) :
    (Json.obj ms).field? key = ms.lookup key := rfl

theorem Session.optText_of_field {j : Json} {key : String} {o : Option String}
    (h : j.field? key = some (ofOption .str o)) : Session.optText j key = some o := by
  cases o <;> simp [Session.optText, h, ofOption]

/-! ### Names and instants -/

@[simp] theorem Tool.ofJson?_toJson (t : Tool) : Tool.ofJson? t.toJson = some t := by
  simp [Tool.ofJson?, Tool.toJson, Json.asString?]

@[simp] theorem Status.ofJson?_toJson (t : Status) : Status.ofJson? t.toJson = some t := by
  simp [Status.ofJson?, Status.toJson, Json.asString?]

@[simp] theorem TaskStatus.ofJson?_toJson (t : TaskStatus) : TaskStatus.ofJson? t.toJson = some t := by
  simp [TaskStatus.ofJson?, TaskStatus.toJson, Json.asString?]

theorem Tool.fits_toJson (t : Tool) : Fits Tool.shape t.toJson :=
  .tags (List.mem_map_of_mem (by cases t <;> decide))

theorem Status.fits_toJson (t : Status) : Fits Status.shape t.toJson :=
  .tags (List.mem_map_of_mem (by cases t <;> decide))

theorem TaskStatus.fits_toJson (t : TaskStatus) : Fits TaskStatus.shape t.toJson :=
  .tags (List.mem_map_of_mem (by cases t <;> decide))

namespace Time

theorem Stamp.Regular.fits_toJson {t : Stamp} (h : t.Regular) : Fits Stamp.shape t.toJson :=
  .parsed (by simp [parse_text h])

theorem Stamp.ofJson?_toJson {t : Stamp} (h : t.Regular) : Stamp.ofJson? t.toJson = some t := by
  simp [Stamp.ofJson?, Stamp.toJson, parse_text h]

end Time

/-! ### Sessions -/

/-- The instants of a session are ones their text holds exactly. -/
structure Session.Stamped (s : Session) : Prop where
  created : s.createdAt.Regular
  accessed : ∀ t ∈ s.lastAccessedAt, t.Regular

theorem Session.fits_worktreeJson (w : Worktree) :
    Fits Session.worktreeShape (Session.worktreeJson w) ∧ Session.worktreeJson w ≠ .null :=
  ⟨fits_record (by decide) <|
    .cons ⟨rfl, .text _ _⟩ <| .cons ⟨rfl, .text _ _⟩ <| .cons ⟨rfl, .text _ _⟩ .nil,
    Json.noConfusion⟩

theorem Session.fits_toJson {s : Session} (h : s.Stamped) : Fits Session.shape s.toJson :=
  fits_record (by decide) <|
    .cons ⟨rfl, .text _ _⟩ <| .cons ⟨rfl, .text _ _⟩ <| .cons ⟨rfl, .text _ _⟩ <|
    .cons ⟨rfl, .text _ _⟩ <| .cons ⟨rfl, fits_ofOption fun a _ => fits_str _ a⟩ <|
    .cons ⟨rfl, .text _ _⟩ <| .cons ⟨rfl, s.tool.fits_toJson⟩ <| .cons ⟨rfl, s.status.fits_toJson⟩ <|
    .cons ⟨rfl, h.created.fits_toJson⟩ <|
    .cons ⟨rfl, fits_ofOption fun t ht => ⟨(h.accessed t ht).fits_toJson, Json.noConfusion⟩⟩ <|
    .cons ⟨rfl, fits_ofOption fun a _ => fits_str _ a⟩ <|
    .cons ⟨rfl, fits_ofOption fun a _ => fits_str _ a⟩ <|
    .cons ⟨rfl, fits_ofOption fun w _ => Session.fits_worktreeJson w⟩ .nil

theorem Session.ofJson?_toJson {s : Session} (h : s.Stamped) : Session.ofJson? s.toJson = some s := by
  obtain ⟨id, title, projectPath, groupPath, parentId, command, tool, status, createdAt, accessed,
    claude, gemini, worktree⟩ := s
  obtain ⟨hc, ha⟩ := h
  unfold Session.ofJson?
  rw [Session.optText_of_field (o := parentId) rfl, Session.optText_of_field (o := claude) rfl,
    Session.optText_of_field (o := gemini) rfl]
  -- the two optional records are matched on their stored form
  cases accessed with
  | none =>
    cases worktree <;>
      simp [Session.toJson, List.lookup, ofOption, Json.asString?, Stamp.toJson, Stamp.ofJson?,
        parse_text hc, worktreeJson, worktreeOfJson?]
  | some t =>
    cases worktree <;>
      simp [Session.toJson, List.lookup, ofOption, Json.asString?, Stamp.toJson, Stamp.ofJson?,
        parse_text hc, parse_text (ha t rfl), worktreeJson, worktreeOfJson?]

/-! ### Tasks and groups -/

theorem Task.fits_toJson (t : Task) : Fits Task.shape t.toJson :=
  fits_record (by decide) <|
    .cons ⟨rfl, .text _ _⟩ <| .cons ⟨rfl, .text _ _⟩ <|
    .cons ⟨rfl, fits_ofOption fun a _ => fits_str _ a⟩ <| .cons ⟨rfl, t.status.fits_toJson⟩ <|
    .cons ⟨rfl, .flag _⟩ .nil

theorem Task.ofJson?_toJson (t : Task) : Task.ofJson? t.toJson = some t := by
  obtain ⟨id, title, sessionId, status, orphaned⟩ := t
  cases sessionId <;>
    simp [Task.ofJson?, Task.toJson, List.lookup, ofOption, Json.asString?, Json.asBool?]

/-- The group as a reader of the registry gets it: members are derived, never stored. -/
def Group.stored (g : Group) : Group := { g with sessions := [] }

/-- The display order of the group fits the 32-bit integer it is stored as. -/
def Group.InRange (g : Group) : Prop := -2147483648 ≤ g.order ∧ g.order ≤ 2147483647

theorem fits_ofInt {name : String} {lo hi i : Int} (hlo : lo ≤ i) (hhi : i ≤ hi) (hlo' : -2 ^ 63 ≤ lo)
    (hhi' : hi ≤ 2 ^ 64 - 1) : Fits (.signed name lo hi) (ofInt i) := by
  unfold ofInt
  split_ifs with h0
  · exact .signedNat (by omega) (by simp only [u64Max, Nat.pow_eq]; omega)
  · exact .signedNeg (by omega) (by omega) (by omega)

theorem Group.fits_storedJson {g : Group} (h : g.InRange) : Fits Group.shape g.storedJson :=
  fits_record (by decide) <|
    .cons ⟨rfl, .text _ _⟩ <| .cons ⟨rfl, .text _ _⟩ <| .cons ⟨rfl, .flag _⟩ <|
    .cons ⟨rfl, fits_ofInt h.1 h.2 (by decide) (by decide)⟩ .nil

theorem Group.ofJson?_storedJson (g : Group) : Group.ofJson? g.storedJson = some g.stored := by
  have horder : Json.asInt? (ofInt g.order) = some g.order := by
    unfold ofInt
    split_ifs with h0 <;> simp [Json.asInt?] <;> omega
  simp [Group.ofJson?, Group.storedJson, Group.stored, List.lookup, Json.asString?, Json.asBool?,
    horder]

/-! ### Registry contents and view states -/

/-- Contents that their stored text holds exactly: every instant in the years 0 to 9999 and
every display order a 32-bit integer. -/
structure Contents.Storable (c : Contents) : Prop where
  sessions : ∀ s ∈ c.sessions, s.Stamped
  groups : ∀ g ∈ c.groups, g.InRange
  updatedAt : c.updatedAt.Regular

theorem Contents.fits_toJson {c : Contents} (h : c.Storable) : Fits Contents.shape c.toJson :=
  fits_record (by decide) <|
    .cons ⟨rfl, .list fun j hj => by
      obtain ⟨s, hs, rfl⟩ := List.mem_map.mp hj
      exact Session.fits_toJson (h.sessions s hs)⟩ <|
    .cons ⟨rfl, .list fun j hj => by
      obtain ⟨g, hg, rfl⟩ := List.mem_map.mp hj
      exact Group.fits_storedJson (h.groups g hg)⟩ <|
    .cons ⟨rfl, .list fun j hj => by
      obtain ⟨t, -, rfl⟩ := List.mem_map.mp hj
      exact t.fits_toJson⟩ <|
    .cons ⟨rfl, h.updatedAt.fits_toJson⟩ .nil

theorem mapM_map_of_decode {α γ : Type} {dec : Json → Option γ} (enc : α → Json) (img : α → γ)
    {xs : List α} (h : ∀ x ∈ xs, dec (enc x) = some (img x)) :
    (xs.map enc).mapM dec = some (xs.map img) := by
  induction xs with
  | nil => rfl
  | cons x xs ih =>
    simp [h x List.mem_cons_self, ih fun y hy => h y (List.mem_cons_of_mem _ hy)]

theorem Contents.ofJson?_toJson {c : Contents} (h : c.Storable) :
    Contents.ofJson? c.toJson = some { c with groups := c.groups.map Group.stored } := by
  have hs := mapM_map_of_decode Session.toJson id fun s hs => Session.ofJson?_toJson (h.sessions s hs)
  have hg := mapM_map_of_decode Group.storedJson Group.stored fun g (_ : g ∈ c.groups) =>
    Group.ofJson?_storedJson g
  have ht := mapM_map_of_decode Task.toJson id fun t (_ : t ∈ c.tasks) => Task.ofJson?_toJson t
  rw [List.map_id] at hs ht
  simp [Contents.ofJson?, Contents.toJson, List.lookup, Json.asArray?, hs, hg, ht,
    Stamp.ofJson?_toJson h.updatedAt]

/-- **Registry text read back.** The text a write stores reads back as the contents written,
groups without their members. -/
theorem Contents.ofText_pretty {c : Contents} (h : c.Storable) :
    Contents.ofText (pretty c.toJson) = .ok { c with groups := c.groups.map Group.stored } := by
  have hread := readDocument_pretty (Contents.fits_toJson h) (by decide)
  unfold Contents.ofText
  rw [hread]
  simp only [Except.mapError, bind, Except.bind, Contents.ofJson?_toJson h]
  rfl

theorem ViewState.fits_toJson {v : ViewState} (h : v.offset ≤ u64Max) :
    Fits ViewState.shape v.toJson :=
  fits_record (by decide) <|
    .cons ⟨rfl, fits_ofOption fun a _ => fits_str _ a⟩ <|
    .cons ⟨rfl, fits_ofOption fun a _ => fits_str _ a⟩ <|
    .cons ⟨rfl, .unsigned h le_rfl⟩ .nil

/-- **View state read back.** The text of a view state whose offset fits in 64 bits reads back
as that view state. -/
theorem ViewState.ofText_pretty {v : ViewState} (h : v.offset ≤ u64Max) :
    ViewState.ofText (pretty v.toJson) = v := by
  have hread := readDocument_pretty (ViewState.fits_toJson h) (by decide)
  obtain ⟨cursorSession, cursorGroup, offset⟩ := v
  rw [ViewState.ofText, hread]
  simp only [ViewState.ofJson?, ViewState.toJson]
  rw [Session.optText_of_field (o := cursorSession) rfl, Session.optText_of_field (o := cursorGroup) rfl]
  simp [List.lookup, ofNat, Json.asNat?]

end AgentDeck
