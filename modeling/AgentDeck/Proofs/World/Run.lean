import Mathlib
import AgentDeck.World
import AgentDeck.Proofs.Fs.Folder

/-!
Running actions on the world.

An action is run by applying it to a world. Two facts about a run are used throughout: what
it leaves whether it succeeds or fails (`Keeps`, `KeepsOnFailure`), and, for the file
actions given a path that every walk finds as it is (`Located`), that the action is its file
operation applied to the files and nothing else.
-/

namespace AgentDeck.Act

open Fs

/-- The world a run leaves, whether it succeeds or fails. -/
def after {α : Type} : EStateM.Result Error World α → World
  | .ok _ w => w
  | .error _ w => w

/-- Every run of `a` from a world satisfying `P`, successful or not, ends in one. -/
def Keeps {α : Type} (P : World → Prop) (a : Act α) : Prop := ∀ w, P w → P (after (a w))

/-- Every failing run of `a` from a world satisfying `P` ends in one. -/
def KeepsOnFailure {α : Type} (P : World → Prop) (a : Act α) : Prop :=
  ∀ w e w', P w → a w = .error e w' → P w'

/-- Every run of `a` leaves the world as it found it. -/
def ReadsOnly {α : Type} (a : Act α) : Prop := ∀ w, after (a w) = w

/-- A path that every walk finds as it is, from any directory and over any files. -/
def Located (p : String) : Prop := ∀ (fs : Files) (cwd : String), fs.locate cwd p = .ok p

theorem located_ofNames {ns : List String} (hns : ∀ n ∈ ns, Path.Plain n) :
    Located (Path.ofNames ns) :=
  fun fs cwd => fs.locate_ofNames hns cwd

theorem located_file (d : Folder) {x : String} (hx : Path.Plain x) : Located (d.file x) := by
  refine located_ofNames fun n hn => ?_
  rcases List.mem_append.mp hn with hn | hn
  · exact d.plain n hn
  · rw [List.mem_singleton.mp hn]
    exact hx

variable {α β : Type} {P : World → Prop} {w w₁ w' : World}

/-! ### Binds -/

theorem bind_apply (x : Act α) (f : α → Act β) (w : World) :
    (x >>= f) w = match x w with
      | .ok a w₁ => f a w₁
      | .error e w₁ => .error e w₁ := by
  simp only [bind, EStateM.bind]
  cases x w <;> rfl

theorem bind_apply_ok {x : Act α} {f : α → Act β} {a : α} (h : x w = .ok a w₁) :
    (x >>= f) w = f a w₁ := by
  rw [bind_apply, h]

theorem bind_apply_error {x : Act α} {f : α → Act β} {e : Error} (h : x w = .error e w₁) :
    (x >>= f) w = .error e w₁ := by
  rw [bind_apply, h]

/-- A bind whose first half succeeds runs on as its second half does. -/
theorem bind_of_ok {x : Act α} {f : α → Act β} {a : α} {r : EStateM.Result Error World β}
    (h : x w = .ok a w₁) (h' : f a w₁ = r) : (x >>= f) w = r := by
  rw [bind_apply_ok h, h']

/-- A bind that succeeds ran both halves successfully. -/
theorem bind_eq_ok {x : Act α} {f : α → Act β} {b : β} (h : (x >>= f) w = .ok b w') :
    ∃ a w₁, x w = .ok a w₁ ∧ f a w₁ = .ok b w' := by
  rw [bind_apply] at h
  split at h
  · exact ⟨_, _, ‹_›, h⟩
  · cases h

theorem Keeps.bind {x : Act α} {f : α → Act β} (hx : Keeps P x) (hf : ∀ a, Keeps P (f a)) :
    Keeps P (x >>= f) := by
  intro w hw
  have h₁ := hx w hw
  rw [bind_apply]
  cases hxw : x w with
  | ok a w₁ =>
    rw [hxw] at h₁
    exact hf a w₁ h₁
  | error e w₁ =>
    rw [hxw] at h₁
    exact h₁

/-- A bind fails in its first half, or in its second after a first half that kept `P`. -/
theorem KeepsOnFailure.bind {x : Act α} {f : α → Act β} (hx : Keeps P x)
    (hf : ∀ a, KeepsOnFailure P (f a)) : KeepsOnFailure P (x >>= f) := by
  intro w e w' hw h
  have h₁ := hx w hw
  rw [bind_apply] at h
  cases hxw : x w with
  | ok a w₁ =>
    rw [hxw] at h h₁
    exact hf a w₁ e w' h₁ h
  | error e₁ w₁ =>
    rw [hxw] at h h₁
    cases h
    exact h₁

theorem ReadsOnly.keeps {a : Act α} (h : ReadsOnly a) : Keeps P a := by
  intro w hw
  rwa [h w]

theorem ReadsOnly.bind {x : Act α} {f : α → Act β} (hx : ReadsOnly x)
    (hf : ∀ a, ReadsOnly (f a)) : ReadsOnly (x >>= f) := by
  intro w
  have h₁ := hx w
  rw [bind_apply]
  cases hxw : x w with
  | ok a w₁ =>
    rw [hxw] at h₁
    cases h₁
    exact hf a w₁
  | error e w₁ =>
    rw [hxw] at h₁
    exact h₁

theorem readsOnly_pure (a : α) : ReadsOnly (pure a : Act α) := fun _ => rfl

theorem readsOnly_throw (e : Error) : ReadsOnly (throw e : Act α) := fun _ => rfl

theorem readsOnly_io (r : Except IoFault α) : ReadsOnly (io r) := by
  intro w
  cases r <;> rfl

/-- A loop whose every turn keeps `P` keeps it. -/
theorem keeps_forIn {γ : Type} (l : List γ) (init : β) {body : γ → β → Act (ForInStep β)}
    (h : ∀ i ∈ l, ∀ b, Keeps P (body i b)) : Keeps P (forIn l init body) := by
  induction l generalizing init with
  | nil => exact (readsOnly_pure init).keeps
  | cons i l ih =>
    rw [List.forIn_cons]
    refine (h i List.mem_cons_self init).bind fun s => ?_
    cases s with
    | done b => exact (readsOnly_pure b).keeps
    | yield b => exact ih b (fun j hj => h j (List.mem_cons_of_mem i hj))

/-! ### Catching a failure -/

theorem attempt_apply (a : Act α) (w : World) :
    a.attempt w = match a w with
      | .ok x w₁ => .ok (.ok x) w₁
      | .error e w₁ => .ok (.error e) w₁ := by
  show EStateM.tryCatch (EStateM.map Except.ok a) _ w = _
  simp only [EStateM.tryCatch, EStateM.map]
  cases a w <;> rfl

theorem Keeps.attempt {a : Act α} (h : Keeps P a) : Keeps P a.attempt := by
  intro w hw
  have := h w hw
  rw [attempt_apply]
  cases haw : a w <;> rw [haw] at this <;> exact this

theorem ReadsOnly.attempt {a : Act α} (h : ReadsOnly a) : ReadsOnly a.attempt := by
  intro w
  have := h w
  rw [attempt_apply]
  cases haw : a w <;> rw [haw] at this <;> exact this

/-! ### Reading the world -/

theorem readsOnly_abs (p : String) : ReadsOnly (abs p) := fun w =>
  readsOnly_io _ w

theorem abs_apply {p : String} (hp : Located p) (w : World) : abs p w = .ok p w := by
  simp only [abs, bind_apply]
  rw [show (get : Act World) w = .ok w w from rfl]
  simp only
  rw [hp w.files w.env.cwd]
  rfl

theorem readsOnly_readBytes (p : String) : ReadsOnly (readBytes p) :=
  (readsOnly_abs p).bind fun _ => fun w => readsOnly_io _ w

theorem readsOnly_readText (p : String) : ReadsOnly (readText p) := by
  refine (readsOnly_readBytes p).bind fun b => ?_
  split
  · exact readsOnly_pure _
  · exact readsOnly_throw _

theorem now_apply (w : World) : now w = .ok (w.origin.addMs w.clock) w := rfl

theorem readsOnly_now : ReadsOnly now := fun _ => rfl

theorem pathExists_apply {p : String} (hp : Located p) (w : World) :
    pathExists p w = .ok (w.files.stat p).toOption.isSome w := by
  simp only [pathExists, bind_apply]
  rw [show (get : Act World) w = .ok w w from rfl]
  simp only
  rw [hp w.files w.env.cwd]
  rfl

theorem readsOnly_pathExists (p : String) : ReadsOnly (pathExists p) := fun _ => rfl

/-! ### Changing the files -/

theorem withFiles_apply (f : Files → Except IoFault Files) (w : World) :
    withFiles f w = match f w.files with
      | .ok fs => .ok () { w with files := fs }
      | .error e => .error (.io e) w := by
  simp only [withFiles, bind_apply]
  rw [show (get : Act World) w = .ok w w from rfl]
  dsimp only
  cases f w.files <;> rfl

theorem withFiles_apply_ok {f : Files → Except IoFault Files} {fs : Files}
    (h : f w.files = .ok fs) : withFiles f w = .ok () { w with files := fs } := by
  rw [withFiles_apply, h]

theorem keeps_withFiles {f : Files → Except IoFault Files}
    (h : ∀ w fs, P w → f w.files = .ok fs → P { w with files := fs }) : Keeps P (withFiles f) := by
  intro w hw
  rw [withFiles_apply]
  cases hf : f w.files with
  | ok fs => exact h w fs hw hf
  | error e => exact hw

/-- A failing change of the files leaves the world as it was. -/
theorem keepsOnFailure_withFiles (f : Files → Except IoFault Files) :
    KeepsOnFailure P (withFiles f) := by
  intro w e w' hw h
  rw [withFiles_apply] at h
  split at h
  · cases h
  · cases h
    exact hw

/-- Each file action on located paths is its file operation and nothing else. -/
theorem rename_eq {src dst : String} (hs : Located src) (hd : Located dst) :
    rename src dst = withFiles (·.rename src dst) := by
  funext w
  simp only [rename, bind_apply, abs_apply hs, abs_apply hd]

theorem copy_eq {src dst : String} (hs : Located src) (hd : Located dst) :
    copy src dst = withFiles (·.copy src dst) := by
  funext w
  simp only [copy, bind_apply, abs_apply hs, abs_apply hd]

theorem removeFile_eq {p : String} (hp : Located p) :
    removeFile p = withFiles (·.removeFile p) := by
  funext w
  simp only [removeFile, bind_apply, abs_apply hp]

theorem touch_eq {p : String} (hp : Located p) : touch p = withFiles (·.touch p) := by
  funext w
  simp only [touch, bind_apply, abs_apply hp]

theorem writeText_eq {p : String} (hp : Located p) (s : String) :
    writeText p s = withFiles (·.write p s.toUTF8) := by
  funext w
  simp only [writeText, writeBytes, bind_apply, abs_apply hp]

theorem mkdirAll_apply (p : String) (w : World) :
    mkdirAll p w = withFiles (·.mkdirChain w.env.cwd (Path.components p).reverse) w := rfl

/-! ### What a file action leaves alone -/

section Frame

variable {q : String} {u : Option Fs.Entry}

theorem keeps_get_withFiles {f : Files → Except IoFault Files}
    (h : ∀ fs fs', f fs = .ok fs' → fs'.get? q = fs.get? q) :
    Keeps (fun w => w.files.get? q = u) (withFiles f) :=
  keeps_withFiles fun w fs hw hf => (h w.files fs hf).trans hw

theorem keeps_get_rename {src dst : String} (hs : Located src) (hd : Located dst)
    (hne : src ≠ dst) (hs' : src ≠ "/") (hd' : dst ≠ "/") (hqs : q ≠ src) (hqd : q ≠ dst)
    (hus : ¬Under src q) (hud : ¬Under dst q) :
    Keeps (fun w => w.files.get? q = u) (rename src dst) := by
  rw [rename_eq hs hd]
  exact keeps_get_withFiles fun fs fs' h =>
    (Files.get?_rename h hne hs' hd').2.2 q hqs hqd hus hud

theorem keeps_get_removeFile {p : String} (hp : Located p) (hq : q ≠ p) (hu : ¬Under p q) :
    Keeps (fun w => w.files.get? q = u) (removeFile p) := by
  rw [removeFile_eq hp]
  exact keeps_get_withFiles fun fs fs' h => Files.get?_removeFile h hq hu

theorem keeps_get_copy {src dst : String} (hs : Located src) (hd : Located dst) (hq : q ≠ dst) :
    Keeps (fun w => w.files.get? q = u) (copy src dst) := by
  rw [copy_eq hs hd]
  exact keeps_get_withFiles fun fs fs' h => Files.get?_copy h hq

theorem keeps_get_writeText {p : String} (hp : Located p) (hq : q ≠ p) (s : String) :
    Keeps (fun w => w.files.get? q = u) (writeText p s) := by
  rw [writeText_eq hp]
  exact keeps_get_withFiles fun fs fs' h => Files.get?_write h hq

theorem keeps_get_touch {p : String} (hp : Located p) (hq : q ≠ p) :
    Keeps (fun w => w.files.get? q = u) (touch p) := by
  rw [touch_eq hp]
  exact keeps_get_withFiles fun fs fs' h => Files.get?_touch h hq

/-- Making the directories down plain names leaves every other path alone. -/
theorem keeps_get_mkdirAll {ks : List String} (hks : ∀ k ∈ ks, Path.Plain k)
    (hq : ∀ j ≤ ks.length, q ≠ Path.ofNames (ks.take j)) :
    Keeps (fun w => w.files.get? q = u) (mkdirAll (Path.ofNames ks)) := by
  intro w hw
  rw [mkdirAll_apply]
  refine keeps_get_withFiles (fun fs fs' h => Files.get?_mkdirChain hks ?_ h q hq) w hw
  rw [List.reverse_reverse, Path.components_ofNames hks]

end Frame

end AgentDeck.Act
