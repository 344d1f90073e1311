import Mathlib
import AgentDeck.Hook.Command

/-!
How a POSIX shell reads the hook command line.

The reader below follows the token recognition of the POSIX shell (XCU 2.3) on one line:
blanks part words, a `#` that starts a word starts a comment, a backslash quotes the next
character (a newline after it joins the lines), single quotes keep everything up to the next
single quote, and double quotes keep everything but `$`, a backquote and a backslash. Where the
line is more than literal words (an operator, a parameter or command expansion, an open quote)
it reads nothing. `simpleCommand` then takes the words as a command: it reads nothing when the
first word is an unquoted reserved word or an assignment (XCU 2.4, 2.9.1), or when a tilde
prefix or an unquoted pattern character leaves a word to expansion (XCU 2.6.1, 2.13).

A quoted word reads back as the text it quotes, whatever the text. A word left bare is read
back too, but the first word of a line is also where the shell looks for reserved words, and
quoting leaves the bare ones (`if`, `done`, ...) as they are. Main statement:
`hook_command_reads_back`.
-/

namespace AgentDeck.Shell

/-- A character of a word as the shell read it: `quoted` when quoting made it stand for itself. -/
structure Piece where
  char : Char
  quoted : Bool
  deriving DecidableEq, Repr

/-- Where the reader stands in the line. -/
inductive Mode where
  | between
  | word
  /-- After an unquoted backslash; `fresh` when no word had started. -/
  | escaped (fresh : Bool)
  | single
  | double
  | doubleEscaped
  | comment
  deriving DecidableEq, Repr

/-- The reader part way through a line: the word it is in and the words it has read. -/
structure Reader where
  mode : Mode := .between
  word : List Piece := []
  words : List (List Piece) := []
  deriving DecidableEq, Repr

/-- The blanks of the portable character set. -/
def isBlank (c : Char) : Bool := c = ' ' || c = '\t'

/-- Characters that, unquoted, end a simple command or start an operator. -/
def isOperatorChar (c : Char) : Bool := "|&;<>()\n".toList.contains c

/-- Characters that start a parameter, command or arithmetic expansion outside single quotes. -/
def startsExpansion (c : Char) : Bool := c = '$' || c = '\x60'

namespace Reader

/-- An unquoted character in a word, or the first character of one. -/
def unquoted (r : Reader) (fresh : Bool) (c : Char) : Option Reader :=
  if c = '\\' then some { r with mode := .escaped fresh }
  else if c = '\'' then some { r with mode := .single }
  else if c = '"' then some { r with mode := .double }
  else if isOperatorChar c || startsExpansion c then none
  else some { r with mode := .word, word := r.word ++ [⟨c, false⟩] }

/-- Read one character. -/
def step (r : Reader) (c : Char) : Option Reader :=
  match r.mode with
  | .between =>
    if isBlank c then some r
    else if c = '#' then some { r with mode := .comment }
    else r.unquoted true c
  | .word =>
    if isBlank c then some { mode := .between, word := [], words := r.words ++ [r.word] }
    else r.unquoted false c
  | .escaped fresh =>
    if c = '\n' then some { r with mode := if fresh then .between else .word }
    else some { r with mode := .word, word := r.word ++ [⟨c, true⟩] }
  | .single =>
    if c = '\'' then some { r with mode := .word }
    else some { r with word := r.word ++ [⟨c, true⟩] }
  | .double =>
    if c = '"' then some { r with mode := .word }
    else if c = '\\' then some { r with mode := .doubleEscaped }
    else if startsExpansion c then none
    else some { r with word := r.word ++ [⟨c, true⟩] }
  | .doubleEscaped =>
    -- inside double quotes a backslash quotes only `$`, a backquote, `"`, itself and newline
    if c = '\n' then some { r with mode := .double }
    else if "$\x60\"\\".toList.contains c then
      some { r with mode := .double, word := r.word ++ [⟨c, true⟩] }
    else some { r with mode := .double, word := r.word ++ [⟨'\\', true⟩, ⟨c, true⟩] }
  | .comment => some r

/-- Read the characters in order. -/
def run (r : Reader) : List Char → Option Reader
  | [] => some r
  | c :: cs => (r.step c).bind (·.run cs)

/-- The words of the line once it has all been read; nothing with a quote or an escape open. -/
def finish (r : Reader) : Option (List (List Piece)) :=
  match r.mode with
  | .between | .comment => some r.words
  | .word => some (r.words ++ [r.word])
  | _ => none

@[simp] theorem run_nil (r : Reader) : r.run [] = some r := rfl

@[simp] theorem run_cons (r : Reader) (c : Char) (cs : List Char) :
    r.run (c :: cs) = (r.step c).bind (·.run cs) := rfl

theorem run_append (r : Reader) (xs ys : List Char) :
    r.run (xs ++ ys) = (r.run xs).bind (·.run ys) := by
  induction xs generalizing r with
  | nil => rfl
  | cons c cs ih =>
    simp only [List.cons_append, run_cons]
    cases r.step c with
    | none => rfl
    | some r' => exact ih r'

end Reader

/-- The words of a line, quotes kept apart from what they quote. -/
def read (line : List Char) : Option (List (List Piece)) :=
  (({} : Reader).run line).bind Reader.finish

/-- The text a word stands for once its quotes are removed. -/
def literal (w : List Piece) : String := String.ofList (w.map (·.char))

/-- A tilde prefix or an unquoted pattern character: an expansion may change the word. -/
def expands (w : List Piece) : Bool :=
  w.head? == some ⟨'~', false⟩ || w.any fun p => !p.quoted && "*?[".toList.contains p.char

/-- The words a shell reads as its own, unquoted at the head of a command; the last four are
reserved by some shells. -/
def reservedWords : List String :=
  ["!", "\x7b", "\x7d", "case", "do", "done", "elif", "else", "esac", "fi", "for", "if", "in", "then",
    "until", "while", "[[", "]]", "function", "select"]

/-- An unquoted reserved word. -/
def isReserved (w : List Piece) : Bool :=
  w.all (fun p => !p.quoted) && reservedWords.contains (literal w)

/-- A name for a shell variable. -/
def isName : List Char → Bool
  | [] => false
  | c :: cs => (c.isAlpha || c = '_') && cs.all fun d => d.isAlphanum || d = '_'

/-- An assignment: a name written without quotes, then an unquoted `=`. -/
def isAssignment (w : List Piece) : Bool :=
  match w.span (·.char != '=') with
  | (name, eq :: _) => !eq.quoted && name.all (fun p => !p.quoted) && isName (name.map (·.char))
  | (_, []) => false

/-- The fields a line of words gives a command, when no expansion can change them. -/
def fields (line : String) : Option (List String) := do
  let words ← read line.toList
  if words.any expands then none else some (words.map literal)

/-- The arguments a shell runs the line with, when the line is one simple command whose words no
reserved word, assignment or expansion can change; `none` for any other line. -/
def simpleCommand (line : String) : Option (List String) := do
  let words ← read line.toList
  match words with
  | [] => none
  | first :: _ =>
    if isReserved first || isAssignment first || words.any expands then none
    else some (words.map literal)

/-! ### A quoted word read back -/

/-- What quoting a text leaves for the reader: the text itself, quoted throughout unless it went
bare. -/
def quotedPieces (s : List Char) : List Piece :=
  s.map fun c => ⟨c, !(!s.isEmpty && s.all Text.isPlainWordChar)⟩

/-- The characters the shell gives a meaning to somewhere in a word. -/
def specialChars : List Char :=
  ['\t', ' ', '\n', '|', '&', ';', '<', '>', '(', ')', '$', '\x60', '\\', '\'', '"', '#', '*', '?', '[',
    '~', '=']

theorem not_plain_of_special : ∀ c ∈ specialChars, Text.isPlainWordChar c = false := by
  simp [specialChars, Text.isPlainWordChar]

theorem ne_of_plain {c d : Char} (hc : Text.isPlainWordChar c = true) (hd : d ∈ specialChars) :
    c ≠ d := by
  rintro rfl
  rw [not_plain_of_special c hd] at hc
  cases hc

theorem step_plain {r : Reader} {c : Char} (hc : Text.isPlainWordChar c = true)
    (hr : r.mode = .between ∨ r.mode = .word) :
    r.step c = some { r with mode := .word, word := r.word ++ [⟨c, false⟩] } := by
  have hne := fun d (hd : d ∈ specialChars) => ne_of_plain hc hd
  simp only [specialChars, List.mem_cons, List.not_mem_nil, or_false, forall_eq_or_imp,
    forall_eq] at hne
  rcases hr with hr | hr <;>
    simp [Reader.step, Reader.unquoted, hr, isBlank, isOperatorChar, startsExpansion, hne]

theorem run_plain (ws : List (List Piece)) (w : List Piece) (s : List Char)
    (hs : s.all Text.isPlainWordChar) :
    Reader.run ⟨.word, w, ws⟩ s = some ⟨.word, w ++ s.map (⟨·, false⟩), ws⟩ := by
  induction s generalizing w with
  | nil => simp
  | cons c cs ih =>
    simp only [List.all_cons, Bool.and_eq_true] at hs
    simp [Reader.run_cons, step_plain (r := ⟨.word, w, ws⟩) hs.1 (.inr rfl), ih _ hs.2]

theorem run_quoteBody (ws : List (List Piece)) (w : List Piece) (s : List Char) :
    Reader.run ⟨.single, w, ws⟩ (Text.quoteBody s) = some ⟨.single, w ++ s.map (⟨·, true⟩), ws⟩ := by
  induction s generalizing w with
  | nil => simp [Text.quoteBody]
  | cons c cs ih =>
    by_cases hc : c = '\''
    · subst hc
      simp [Text.quoteBody, Text.quotedQuote, Reader.step, Reader.unquoted, isBlank, ih]
    · simp [Text.quoteBody, hc, Reader.step, ih]

theorem run_shellQuote (ws : List (List Piece)) (s : List Char) :
    Reader.run ⟨.between, [], ws⟩ (Text.shellQuote s) = some ⟨.word, quotedPieces s, ws⟩ := by
  unfold Text.shellQuote quotedPieces
  split
  · next hplain =>
    simp only [Bool.and_eq_true, Bool.not_eq_true', List.isEmpty_eq_false_iff] at hplain
    obtain ⟨hne, hall⟩ := hplain
    obtain ⟨c, cs, rfl⟩ := List.exists_cons_of_ne_nil hne
    simp only [List.all_cons, Bool.and_eq_true] at hall
    simp [step_plain (r := ⟨.between, [], ws⟩) hall.1 (.inl rfl), run_plain ws _ cs hall.2, hall.1,
      hall.2]
  · next hquoted =>
    simp only [Bool.not_eq_true] at hquoted
    simp [Reader.run_append, Reader.step, Reader.unquoted, isBlank, run_quoteBody, hquoted]

@[simp] theorem literal_quotedPieces (s : List Char) : literal (quotedPieces s) = String.ofList s := by
  simp [literal, quotedPieces, Function.comp_def]

theorem quotedPieces_eq (s : List Char) :
    quotedPieces s = s.map (⟨·, !(!s.isEmpty && s.all Text.isPlainWordChar)⟩) := rfl

theorem plain_inert {c : Char} (hc : Text.isPlainWordChar c = true) :
    c ≠ '~' ∧ c ≠ '*' ∧ c ≠ '?' ∧ c ≠ '[' := by
  have h := fun d (hd : d ∈ specialChars) => ne_of_plain hc hd
  simp only [specialChars, List.mem_cons, List.not_mem_nil, or_false, forall_eq_or_imp,
    forall_eq] at h
  simp [h]

theorem expands_quotedPieces (s : List Char) : expands (quotedPieces s) = false := by
  rw [quotedPieces_eq]
  unfold expands
  cases hp : (!s.isEmpty && s.all Text.isPlainWordChar)
  · -- quoted throughout: nothing is left to expand
    cases s <;> simp
  · -- bare: no character an expansion starts from is plain
    simp only [Bool.and_eq_true, Bool.not_eq_true', List.all_eq_true] at hp
    simp only [Bool.not_true, Bool.or_eq_false_iff, List.any_map, List.any_eq_false]
    refine ⟨?_, fun d hd => by simpa using (plain_inert (hp.2 d hd)).2⟩
    cases s with
    | nil => rfl
    | cons c cs => simp [(plain_inert (hp.2 c (by simp))).1]

theorem isAssignment_eq_false {w : List Piece} (h : ∀ p ∈ w, p.char = '=' → p.quoted = true) :
    isAssignment w = false := by
  unfold isAssignment
  rw [List.span_eq_takeWhile_dropWhile]
  split
  · next name eq rest heq =>
    -- `eq` is where the name stopped: a piece of `w` that is an `=`
    have hdrop : w.dropWhile (·.char != '=') = eq :: rest := (Prod.mk.inj heq).2
    have hmem : eq ∈ w := (List.dropWhile_suffix _).subset (by rw [hdrop]; exact List.mem_cons_self)
    have hchar : eq.char = '=' := by
      have := List.head_dropWhile_not (·.char != '=') (l := w) (by simp [hdrop])
      simpa [hdrop] using this
    simp [h eq hmem hchar]
  · rfl

theorem isAssignment_quotedPieces (s : List Char) : isAssignment (quotedPieces s) = false := by
  apply isAssignment_eq_false
  rw [quotedPieces_eq]
  intro p hp hchar
  obtain ⟨c, hc, rfl⟩ := List.mem_map.mp hp
  -- a bare text has no `=`, so the piece is quoted
  cases hplain : (!s.isEmpty && s.all Text.isPlainWordChar)
  · rfl
  · simp only [Bool.and_eq_true, Bool.not_eq_true', List.all_eq_true] at hplain
    exact absurd hchar (ne_of_plain (hplain.2 c hc) (by simp [specialChars]))

theorem reserved_head_ne_quote : ∀ w ∈ reservedWords, w.toList.head? ≠ some '\'' := by
  simp [reservedWords]

theorem isReserved_quotedPieces (s : List Char) :
    isReserved (quotedPieces s) = reservedWords.contains (String.ofList (Text.shellQuote s)) := by
  rw [quotedPieces_eq]
  unfold Text.shellQuote isReserved
  cases hp : (!s.isEmpty && s.all Text.isPlainWordChar)
  · -- quoted: the line shows a quote first, which no reserved word does
    have hq : String.ofList ('\'' :: (Text.quoteBody s ++ ['\''])) ∉ reservedWords := fun h => by
      simpa using reserved_head_ne_quote _ h
    cases s with
    | nil => decide
    | cons c cs => simpa using hq
  · simp [literal, Function.comp_def]

theorem run_shellQuote_blank (ws : List (List Piece)) (s rest : List Char) :
    Reader.run ⟨.between, [], ws⟩ (Text.shellQuote s ++ ' ' :: rest) =
      Reader.run ⟨.between, [], ws ++ [quotedPieces s]⟩ rest := by
  rw [Reader.run_append, run_shellQuote]
  rfl

theorem read_shellQuote (s : List Char) : read (Text.shellQuote s) = some [quotedPieces s] := by
  rw [read, show ({} : Reader) = ⟨.between, [], []⟩ from rfl, run_shellQuote]
  rfl

theorem fields_shellQuote (s : String) : fields s.shellQuote = some [s] := by
  simp [fields, String.shellQuote, read_shellQuote, expands_quotedPieces]

example : fields "'it'\\''s here'" = some ["it's here"] := by
  decide

/-- A nonempty text of plain characters goes bare. -/
theorem shellQuote_of_plain {s : List Char} (hs : s ≠ []) (hp : s.all Text.isPlainWordChar) :
    Text.shellQuote s = s := by
  simp [Text.shellQuote, hs, hp]

theorem read_hook_command (script kind events : String)
    (hk : Text.shellQuote kind.toList = kind.toList) :
    read (Hook.command script kind events).toList =
      some [quotedPieces script.toList, quotedPieces kind.toList, quotedPieces events.toList] := by
  have hline : (Hook.command script kind events).toList =
      Text.shellQuote script.toList ++ ' ' ::
        (Text.shellQuote kind.toList ++ ' ' :: Text.shellQuote events.toList) := by
    simp [Hook.command, String.shellQuote, hk]
  rw [read, hline, show ({} : Reader) = ⟨.between, [], []⟩ from rfl, run_shellQuote_blank,
    run_shellQuote_blank, run_shellQuote]
  rfl

theorem simpleCommand_hook_command (script kind events : String)
    (hk : Text.shellQuote kind.toList = kind.toList) :
    simpleCommand (Hook.command script kind events) =
      if script.shellQuote ∈ reservedWords then none else some [script, kind, events] := by
  rw [simpleCommand, read_hook_command script kind events hk]
  simp [isReserved_quotedPieces, isAssignment_quotedPieces, expands_quotedPieces,
    String.shellQuote]
  congr

theorem shellQuote_kind {kind : String} (hk : kind ∈ Hook.events.map Prod.snd) :
    Text.shellQuote kind.toList = kind.toList := by
  simp only [Hook.events, List.map_cons, List.map_nil, List.mem_cons, List.not_mem_nil,
    or_false] at hk
  rcases hk with rfl | rfl <;> decide

/-- **The hook command reads back.** A shell reads every quoted text back as the one field it
quotes, with nothing to expand; and it reads the command line of either hook as the script, the
kind and the event directory, unless the script path went bare as one of the shell's reserved
words, when the line is no simple command at all. -/
theorem hook_command_reads_back :
    (∀ s : String, fields s.shellQuote = some [s]) ∧
      ∀ script kind events : String, kind ∈ Hook.events.map Prod.snd →
        simpleCommand (Hook.command script kind events) =
          if script.shellQuote ∈ reservedWords then none else some [script, kind, events] :=
  ⟨fields_shellQuote, fun script kind events hk =>
    simpleCommand_hook_command script kind events (shellQuote_kind hk)⟩

/-- The hook that reports activity, for a script path with a blank in it. -/
theorem spaced_hook_reads_back :
    "active" ∈ Hook.events.map Prod.snd ∧
      simpleCommand (Hook.command "/opt/deck hand/hook.sh" "active" "/tmp/events") =
        some ["/opt/deck hand/hook.sh", "active", "/tmp/events"] := by
  have hk : "active" ∈ Hook.events.map Prod.snd := by decide
  refine ⟨hk, ?_⟩
  rw [hook_command_reads_back.2 _ _ _ hk]
  decide

/-- A script path that is a reserved word goes bare, and the line is no simple command. -/
theorem reserved_script_unread :
    simpleCommand (Hook.command "if" "active" "/tmp/ev") ≠ some ["if", "active", "/tmp/ev"] := by
  decide

end AgentDeck.Shell
