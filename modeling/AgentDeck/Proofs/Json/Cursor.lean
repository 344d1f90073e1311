import Mathlib
import AgentDeck.Json.Read

/-!
The reader's cursor as the list of octets it has still to read, and what each primitive
step of the reader does to that list.

A cursor is read through `Cursor.rest`, the octets from its position on; every step of the
reader either looks at the head of that list or moves the position on (`Cursor.advance`).
Text is seen as its UTF-8 octets (`octets`), so that the octets of a written document
split along its pieces.
-/

namespace AgentDeck.Json

/-- The UTF-8 octets of a text, character by character. -/
def octets (s : String) : List UInt8 := s.toList.flatMap String.utf8EncodeChar

@[simp] theorem octets_append (a b : String) : octets (a ++ b) = octets a ++ octets b := by
  simp [octets]

theorem octets_eq_data (s : String) : s.toUTF8.data.toList = octets s := by
  rw [String.toUTF8_eq_toByteArray, ← String.utf8Encode_toList]
  simp [List.utf8Encode, octets]

theorem octets_indent (d : Nat) : octets (indent d) = List.replicate (2 * d) 32 := by
  simp only [octets, indent, String.toList_ofList]
  induction 2 * d with
  | zero => rfl
  | succ n ih => rw [List.replicate_succ, List.flatMap_cons, ih, List.replicate_succ]; rfl

theorem toList_loop (bs : ByteArray) (i : Nat) (r : List UInt8) :
    ByteArray.toList.loop bs i r = r.reverse ++ bs.data.toList.drop i := by
  fun_induction ByteArray.toList.loop bs i r with
  | case1 i r hi ih =>
    have hi' : i < bs.data.toList.length := by simpa using hi
    rw [ih, List.drop_eq_getElem_cons hi']
    simp [ByteArray.get!, hi]
  | case2 i r hi =>
    have hnil : bs.data.toList.drop i = [] := List.drop_eq_nil_of_le (by simpa using hi)
    simp [hnil]

theorem byteArray_toList (bs : ByteArray) : bs.toList = bs.data.toList := by
  simp [ByteArray.toList, toList_loop]

/-- Octets that the reader skips between tokens. -/
def Blank (bs : List UInt8) : Prop := ∀ b ∈ bs, isSpace b = true

theorem Blank.nil : Blank [] := by simp [Blank]

theorem blank_replicate (n : Nat) : Blank (List.replicate n 32) := by
  intro b hb
  rw [List.eq_of_mem_replicate hb]
  rfl

theorem Blank.append {a b : List UInt8} (ha : Blank a) (hb : Blank b) : Blank (a ++ b) := by
  intro x hx
  rcases List.mem_append.1 hx with h | h
  · exact ha x h
  · exact hb x h

theorem Blank.cons {b : UInt8} {bs : List UInt8} (hb : isSpace b = true) (hbs : Blank bs) :
    Blank (b :: bs) := by
  intro x hx
  rcases List.mem_cons.1 hx with rfl | h
  · exact hb
  · exact hbs x h

/-- The octets do not start with a blank. -/
def NoLeadBlank (bs : List UInt8) : Prop := ∀ b ∈ bs.head?, isSpace b = false

namespace Cursor

/-- The octets from the cursor on. -/
def rest (c : Cursor) : List UInt8 := c.src.data.toList.drop c.pos

/-- The cursor `k` octets on. -/
def advance (c : Cursor) (k : Nat) : Cursor := { c with pos := c.pos + k }

variable (c : Cursor)

@[simp] theorem advance_room (k : Nat) : (c.advance k).room = c.room := rfl

@[simp] theorem advance_zero : c.advance 0 = c := rfl

@[simp] theorem advance_advance (a b : Nat) : (c.advance a).advance b = c.advance (a + b) := by
  simp [advance, Nat.add_assoc]

theorem rest_advance (k : Nat) : (c.advance k).rest = c.rest.drop k := by
  simp [rest, advance, List.drop_drop, Nat.add_comm]

@[simp] theorem rest_room (n : Nat) : ({ c with room := n } : Cursor).rest = c.rest := rfl

@[simp] theorem advance_with_room (n k : Nat) :
    ({ c with room := n } : Cursor).advance k = { c.advance k with room := n } := rfl

theorem rest_of_eq {q r : List UInt8} (h : c.rest = q ++ r) :
    (c.advance q.length).rest = r := by
  rw [rest_advance, h, List.drop_left]

theorem rest_of_eq_length {q r : List UInt8} {k : Nat} (h : c.rest = q ++ r)
    (hk : q.length = k) : (c.advance k).rest = r := by
  rw [← hk, rest_of_eq c h]

end Cursor

variable {α β : Type} {c c' : Cursor}

/-! ### Sequencing

For any reader that threads a state through steps that may fail, as the JSON reader and the
reader of instants do. -/

section Sequencing

variable {σ ε : Type} {s t : σ}

theorem bind_of_ok {x : StateT σ (Except ε) α} {f : α → StateT σ (Except ε) β} {a : α}
    (h : x s = .ok (a, t)) : (x >>= f) s = f a t := by
  show (x s >>= fun p => f p.1 p.2) = _
  rw [h]; rfl

end Sequencing

/-! ### Primitive steps -/

theorem peek_apply : peek c = .ok (c.rest.head?, c) := by
  show Except.ok (c.src[c.pos]?, c) = _
  simp only [Cursor.rest, List.head?_drop, Array.getElem?_toList]
  congr 2

theorem skip_apply : skip c = .ok ((), c.advance 1) := rfl

theorem next_of_cons {b : UInt8} {r : List UInt8} (h : c.rest = b :: r) :
    next c = .ok (some b, c.advance 1) := by
  have hp : peek c = .ok (some b, c) := by rw [peek_apply, h]; rfl
  unfold next
  rw [bind_of_ok hp]
  rfl

theorem skipBlanks_apply :
    skipBlanks c = .ok ((c.rest.dropWhile isSpace).head?,
      c.advance (c.rest.takeWhile isSpace).length) := by
  show peek (c.advance ((c.src.toList.drop c.pos).takeWhile isSpace).length) = _
  have hdrop : c.rest.drop (c.rest.takeWhile isSpace).length = c.rest.dropWhile isSpace := by
    nth_rewrite 2 [← List.takeWhile_append_dropWhile (p := isSpace) (l := c.rest)]
    exact List.drop_left
  rw [byteArray_toList, peek_apply, Cursor.rest_advance]
  exact congrArg (fun r => Except.ok (List.head? r, _)) hdrop

/-- Blanks, then octets that do not start with one: the blanks are skipped. -/
theorem skipBlanks_of {q r : List UInt8} (h : c.rest = q ++ r) (hq : Blank q)
    (hr : NoLeadBlank r) : skipBlanks c = .ok (r.head?, c.advance q.length) := by
  have hdrop : (q ++ r).dropWhile isSpace = r := by
    rw [List.dropWhile_append_of_pos hq]
    cases r with
    | nil => rfl
    | cons b r => simp [hr b rfl]
  have htake : (q ++ r).takeWhile isSpace = q := by
    rw [List.takeWhile_append_of_pos hq]
    cases r with
    | nil => simp
    | cons b r => simp [hr b rfl]
  rw [skipBlanks_apply, h, hdrop, htake]

theorem expectWord_of {w r : List UInt8} (h : c.rest = w ++ r) :
    expectWord w c = .ok ((), c.advance w.length) := by
  induction w generalizing c with
  | nil => rfl
  | cons b w ih =>
    have hn := next_of_cons (r := w ++ r) h
    have hw : (c.advance 1).rest = w ++ r := by
      rw [Cursor.rest_advance, h]; rfl
    unfold expectWord
    rw [bind_of_ok hn]
    dsimp only
    rw [if_pos rfl, ih hw, Cursor.advance_advance, List.length_cons, Nat.add_comm]

/-- An ASCII decimal digit. -/
def isDigitOctet (b : UInt8) : Bool := 48 ≤ b && b ≤ 57

theorem takeDigits_apply :
    takeDigits c = .ok ((c.rest.takeWhile isDigitOctet).map (fun b => b.toNat - 48),
      c.advance (c.rest.takeWhile isDigitOctet).length) := by
  show Except.ok (((c.src.toList.drop c.pos).takeWhile isDigitOctet).map (fun b => b.toNat - 48),
    c.advance ((c.src.toList.drop c.pos).takeWhile isDigitOctet).length) = _
  rw [byteArray_toList]
  rfl

theorem enterNesting_of (h : 1 < c.room) :
    enterNesting c = .ok ((), { c with room := c.room - 1 }) := by
  have hr : ¬c.room ≤ 1 := by omega
  simp only [enterNesting, bind, StateT.bind, get, getThe, MonadStateOf.get, StateT.get, pure,
    Except.pure, Except.bind, hr, if_false]
  rfl

theorem leaveNesting_apply : leaveNesting c = .ok ((), { c with room := c.room + 1 }) := rfl

end AgentDeck.Json
