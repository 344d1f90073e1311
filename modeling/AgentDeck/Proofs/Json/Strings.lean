import Mathlib
import AgentDeck.Proofs.Json.Cursor

/-!
Reading back a written string.

`quote` writes a string between double quotes; the quote, the backslash and the control
characters are escaped, and every other character stands as its own UTF-8 octets. The
reader takes the body octet by octet and escape by escape and collects the octets each one
stands for. Those are the UTF-8 octets of the string's characters, so it answers the string
that was written (`readString_quote`).
-/

namespace AgentDeck.Json

variable {c : Cursor} {r : List UInt8}

/-- The octets `quote` writes for characters, between its quotes. -/
def escaped (cs : List Char) : List UInt8 :=
  cs.flatMap fun ch => (escapeChar ch).flatMap String.utf8EncodeChar

@[simp] theorem escaped_nil : escaped [] = [] := rfl

@[simp] theorem escaped_cons (ch : Char) (cs : List Char) :
    escaped (ch :: cs) = (escapeChar ch).flatMap String.utf8EncodeChar ++ escaped cs := rfl

theorem octets_quote (s : String) : octets (quote s) = 34 :: escaped s.toList ++ [34] := by
  simp [octets, quote, escaped, List.flatMap_assoc]
  rfl

/-! ### One octet or escape at a time -/

/-- An octet that a string's body holds as itself. -/
def Literal (b : UInt8) : Prop := 0x20 ≤ b.toNat ∧ b.toNat ≠ 34 ∧ b.toNat ≠ 92

theorem stringBody_literal {b : UInt8} (h : c.rest = b :: r) (hb : Literal b) (f : Nat)
    (acc : Array UInt8) : stringBody (f + 1) acc c = stringBody f (acc.push b) (c.advance 1) := by
  obtain ⟨h20, h34, h92⟩ := hb
  conv_lhs => unfold stringBody
  rw [bind_of_ok (next_of_cons h)]
  refine congrFun ?_ _
  split
  · contradiction
  · rename_i heq; cases heq; exact absurd rfl h34
  · rename_i heq; cases heq; exact absurd rfl h92
  · rename_i heq
    cases heq
    rw [if_neg (by rw [UInt8.lt_iff_toNat_lt]; simp; omega)]

theorem stringBody_literals :
    ∀ (bs : List UInt8) (c : Cursor), (∀ b ∈ bs, Literal b) → c.rest = bs ++ r →
      ∀ (f : Nat) (acc : Array UInt8),
        stringBody (f + bs.length) acc c = stringBody f (acc ++ bs.toArray) (c.advance bs.length)
  | [], c, _, _, f, acc => by simp
  | b :: bs, c, hbs, h, f, acc => by
    have hstep := stringBody_literal (r := bs ++ r) h (hbs b List.mem_cons_self) (f + bs.length) acc
    have hrest : (c.advance 1).rest = bs ++ r := by rw [Cursor.rest_advance, h]; rfl
    have ih := stringBody_literals bs (c.advance 1) (fun x hx => hbs x (List.mem_cons_of_mem _ hx))
      hrest f (acc.push b)
    have harr : acc.push b ++ bs.toArray = acc ++ (b :: bs).toArray := by simp
    rw [List.length_cons, ← Nat.add_assoc, hstep, ih, Cursor.advance_advance, Nat.add_comm 1, harr]

theorem stringBody_short {x y : UInt8} (h : c.rest = 92 :: x :: r)
    (hxy : (x, y) ∈ [(34, 34), (92, 92), (98, 8), (102, 12), (110, 10), (114, 13), (116, 9)])
    (f : Nat) (acc : Array UInt8) :
    stringBody (f + 1) acc c = stringBody f (acc.push y) (c.advance 2) := by
  have h2 : (c.advance 1).rest = x :: r := by rw [Cursor.rest_advance, h]; rfl
  conv_lhs => unfold stringBody
  rw [bind_of_ok (next_of_cons h)]
  simp only
  rw [bind_of_ok (next_of_cons h2)]
  simp only [List.mem_cons, Prod.mk.injEq, List.not_mem_nil, or_false] at hxy
  rcases hxy with ⟨rfl, rfl⟩ | ⟨rfl, rfl⟩ | ⟨rfl, rfl⟩ | ⟨rfl, rfl⟩ | ⟨rfl, rfl⟩ | ⟨rfl, rfl⟩ |
    ⟨rfl, rfl⟩ <;> rfl

theorem hexQuad_of {a b d e : UInt8} {vs : List Nat} (h : c.rest = a :: b :: d :: e :: r)
    (hv : [a, b, d, e].mapM hexValue = some vs) :
    hexQuad c = .ok (vs.foldl (fun acc v => acc * 16 + v) 0, c.advance 4) := by
  have hlen : ¬c.pos + 4 > c.src.size := by
    have hl := congrArg List.length h
    simp [Cursor.rest] at hl
    omega
  have htake : (c.src.toList.drop c.pos).take 4 = [a, b, d, e] := by
    rw [byteArray_toList]
    show c.rest.take 4 = _
    rw [h]; rfl
  unfold hexQuad
  simp only [bind, StateT.bind, get, getThe, MonadStateOf.get, StateT.get, pure, Except.pure,
    Except.bind, hlen, if_false, htake, hv]
  rfl

theorem hexDigit_octet : ∀ k < 16, ∃ b, String.utf8EncodeChar (hexDigit k) = [b] ∧ hexValue b = some k
  | 0, _ | 1, _ | 2, _ | 3, _ | 4, _ | 5, _ | 6, _ | 7, _ | 8, _ | 9, _ | 10, _ | 11, _ | 12, _
  | 13, _ | 14, _ | 15, _ => ⟨_, rfl, rfl⟩
  | _ + 16, h => absurd h (by omega)

theorem encodePoint_toNat (ch : Char) : encodePoint ch.toNat = String.utf8EncodeChar ch := by
  have hs : octets (String.singleton ch) = String.utf8EncodeChar ch := by
    simp [octets, String.toList_singleton]
  rw [encodePoint, Char.ofNat_toNat, byteArray_toList, octets_eq_data, hs]

theorem stringBody_unicode {b₁ b₂ : UInt8} {k₁ k₂ : Nat} (h : c.rest = [92, 117, 48, 48, b₁, b₂] ++ r)
    (h₁ : hexValue b₁ = some k₁) (h₂ : hexValue b₂ = some k₂) (hk : k₁ * 16 + k₂ < 0xD800)
    (f : Nat) (acc : Array UInt8) :
    stringBody (f + 1) acc c =
      stringBody f (acc ++ (encodePoint (k₁ * 16 + k₂)).toArray) (c.advance 6) := by
  have hu : (c.advance 1).rest = 117 :: 48 :: 48 :: b₁ :: b₂ :: r := by
    rw [Cursor.rest_advance, h]; rfl
  have hq : (c.advance 2).rest = 48 :: 48 :: b₁ :: b₂ :: r := by
    rw [Cursor.rest_advance, h]; rfl
  have hv : [(48 : UInt8), 48, b₁, b₂].mapM hexValue = some [0, 0, k₁, k₂] := by
    simp [List.mapM_cons, h₁, h₂]
    rfl
  have hquad := hexQuad_of hq hv
  have hfold : [0, 0, k₁, k₂].foldl (fun acc v => acc * 16 + v) 0 = k₁ * 16 + k₂ := by simp
  have hesc : unicodeEscape (c.advance 2) = .ok (encodePoint (k₁ * 16 + k₂), c.advance 6) := by
    unfold unicodeEscape
    rw [bind_of_ok hquad, hfold, if_neg (by omega), if_pos (by omega)]
    rfl
  conv_lhs => unfold stringBody
  rw [bind_of_ok (next_of_cons h)]
  simp only
  rw [bind_of_ok (next_of_cons hu)]
  simp +decide only [↓reduceIte]
  rw [Cursor.advance_advance, bind_of_ok hesc]

/-! ### One character at a time -/

theorem utf8EncodeChar_high (ch : Char) (h : 0x80 ≤ ch.toNat) :
    ∀ b ∈ String.utf8EncodeChar ch, 0x80 ≤ b.toNat := by
  have hv : ch.val.toNat = ch.toNat := rfl
  unfold String.utf8EncodeChar
  dsimp only
  split_ifs with h1 h2 h3 <;> simp [UInt8.toNat_ofNat] <;> omega

theorem utf8EncodeChar_literal (ch : Char) (h34 : ch ≠ '"') (h92 : ch ≠ '\\')
    (h20 : 0x20 ≤ ch.toNat) : ∀ b ∈ String.utf8EncodeChar ch, Literal b := by
  by_cases hlow : ch.toNat < 0x80
  · have hne : ∀ d : Char, ch ≠ d → ch.toNat ≠ d.toNat := fun d hd he =>
      hd (by rw [← Char.ofNat_toNat ch, he, Char.ofNat_toNat])
    have h34' := hne '"' h34
    have h92' := hne '\\' h92
    simp only [Char.reduceToNat] at h34' h92'
    intro b hb
    have hv : ch.val.toNat = ch.toNat := rfl
    simp [String.utf8EncodeChar, hv, show ch.toNat ≤ 127 by omega] at hb
    subst hb
    simp only [Literal, UInt8.toNat_ofNat']
    omega
  · intro b hb
    have := utf8EncodeChar_high ch (by omega) b hb
    exact ⟨by omega, by omega, by omega⟩

theorem stringBody_char (ch : Char) (h : c.rest = (escapeChar ch).flatMap String.utf8EncodeChar ++ r)
    (acc : Array UInt8) :
    ∃ k ≤ ((escapeChar ch).flatMap String.utf8EncodeChar).length, ∀ f,
      stringBody (f + k) acc c = stringBody f (acc ++ (String.utf8EncodeChar ch).toArray)
        (c.advance ((escapeChar ch).flatMap String.utf8EncodeChar).length) := by
  -- the escapes of two octets differ only in the letter and the octet it stands for
  have short : ∀ (e : Char) (x y : UInt8), escapeChar ch = ['\\', e] →
      String.utf8EncodeChar e = [x] → String.utf8EncodeChar ch = [y] →
      (x, y) ∈ [(34, 34), (92, 92), (98, 8), (102, 12), (110, 10), (114, 13), (116, 9)] →
      ∃ k ≤ ((escapeChar ch).flatMap String.utf8EncodeChar).length, ∀ f,
        stringBody (f + k) acc c = stringBody f (acc ++ (String.utf8EncodeChar ch).toArray)
          (c.advance ((escapeChar ch).flatMap String.utf8EncodeChar).length) := by
    intro e x y he hx hy hxy
    have hc : c.rest = 92 :: x :: r := by rw [h, he]; simp [hx]; rfl
    refine ⟨1, by simp [he, hx], fun f => ?_⟩
    rw [stringBody_short hc hxy, he, hy]
    simp [hx]
    rfl
  have hch : ∀ n, ch.toNat = n → ch = Char.ofNat n := fun n hn => by rw [← hn, Char.ofNat_toNat]
  by_cases h1 : ch = '"'
  · subst h1; exact short '"' 34 34 rfl rfl rfl (by decide)
  by_cases h2 : ch = '\\'
  · subst h2; exact short '\\' 92 92 (by simp [escapeChar]) rfl rfl (by decide)
  by_cases h3 : ch.toNat = 8
  · obtain rfl := hch 8 h3; exact short 'b' 98 8 (by decide) rfl rfl (by decide)
  by_cases h4 : ch = '\t'
  · subst h4; exact short 't' 116 9 (by decide) rfl rfl (by decide)
  by_cases h5 : ch = '\n'
  · subst h5; exact short 'n' 110 10 (by decide) rfl rfl (by decide)
  by_cases h6 : ch.toNat = 12
  · obtain rfl := hch 12 h6; exact short 'f' 102 12 (by decide) rfl rfl (by decide)
  by_cases h7 : ch = '\r'
  · subst h7; exact short 'r' 114 13 (by decide) rfl rfl (by decide)
  by_cases h8 : ch.toNat < 0x20
  · -- a control character without a letter of its own is written `\u00XX`
    have hesc : escapeChar ch =
        ['\\', 'u', '0', '0', hexDigit (ch.toNat / 16), hexDigit (ch.toNat % 16)] := by
      simp [escapeChar, h1, h2, h3, h4, h5, h6, h7, h8]
    obtain ⟨b₁, hb₁, hv₁⟩ := hexDigit_octet (ch.toNat / 16) (by omega)
    obtain ⟨b₂, hb₂, hv₂⟩ := hexDigit_octet (ch.toNat % 16) (by omega)
    have hE : (escapeChar ch).flatMap String.utf8EncodeChar = [92, 117, 48, 48, b₁, b₂] := by
      rw [hesc]
      simp only [List.flatMap_cons, List.flatMap_nil, hb₁, hb₂]
      rfl
    have hk : ch.toNat / 16 * 16 + ch.toNat % 16 = ch.toNat := by omega
    refine ⟨1, by simp [hE], fun f => ?_⟩
    rw [stringBody_unicode (by rw [h, hE]) hv₁ hv₂ (by omega), hk, encodePoint_toNat, hE]
    rfl
  · -- every other character is written as its own octets
    have hesc : escapeChar ch = [ch] := by simp [escapeChar, h1, h2, h3, h4, h5, h6, h7, h8]
    have hlit := utf8EncodeChar_literal ch h1 h2 (by omega)
    have hc : c.rest = String.utf8EncodeChar ch ++ r := by rw [h, hesc]; simp
    refine ⟨(String.utf8EncodeChar ch).length, by simp [hesc], fun f => ?_⟩
    rw [stringBody_literals _ c hlit hc f acc, hesc]
    simp

theorem stringBody_escaped :
    ∀ (cs : List Char) (c : Cursor) (fuel : Nat) (acc : Array UInt8),
      c.rest = escaped cs ++ 34 :: r → (escaped cs).length < fuel →
      stringBody fuel acc c =
        .ok ((String.fromUTF8? ⟨acc ++ (cs.flatMap String.utf8EncodeChar).toArray⟩).getD "",
          c.advance ((escaped cs).length + 1))
  | [], c, fuel, acc, h, hf => by
    obtain ⟨f, rfl⟩ : ∃ f, fuel = f + 1 := ⟨fuel - 1, by simp at hf; omega⟩
    conv_lhs => unfold stringBody
    rw [bind_of_ok (next_of_cons h)]
    simp
    rfl
  | ch :: cs, c, fuel, acc, h, hf => by
    rw [escaped_cons, List.append_assoc] at h
    obtain ⟨k, hk, hstep⟩ := stringBody_char ch h acc
    have hrest := Cursor.rest_of_eq c h
    have hlen : (escaped (ch :: cs)).length =
        ((escapeChar ch).flatMap String.utf8EncodeChar).length + (escaped cs).length := by simp
    have ih := stringBody_escaped cs _ (fuel - k) (acc ++ (String.utf8EncodeChar ch).toArray)
      hrest (by omega)
    obtain ⟨f, rfl⟩ : ∃ f, fuel = f + k := ⟨fuel - k, by omega⟩
    rw [hstep, Nat.add_sub_cancel] at *
    rw [ih, Cursor.advance_advance, hlen, List.flatMap_cons]
    simp [Array.append_assoc, Nat.add_assoc]

/-- **A written string reads back as itself**, and the reader stands after its closing
quote. -/
theorem readString_quote (s : String) (h : c.rest = octets (quote s) ++ r) :
    readString c = .ok (s, c.advance (octets (quote s)).length) := by
  have hq := octets_quote s
  have hbody : (c.advance 1).rest = escaped s.toList ++ 34 :: r := by
    rw [Cursor.rest_advance, h, hq]; simp
  have hfuel : (escaped s.toList).length < (c.advance 1).src.size + 1 := by
    have hl := congrArg List.length h
    simp only [Cursor.rest, List.length_drop, Array.length_toList, ByteArray.size_data, hq,
      List.length_append, List.length_cons] at hl
    show _ < c.src.size + 1
    omega
  have hbytes : (⟨#[] ++ (s.toList.flatMap String.utf8EncodeChar).toArray⟩ : ByteArray) =
      s.toByteArray := by
    rw [← String.utf8Encode_toList]
    apply ByteArray.ext
    simp [List.utf8Encode, List.data_toByteArray]
  unfold readString
  rw [bind_of_ok skip_apply]
  show stringBody ((c.advance 1).src.size + 1) #[] (c.advance 1) = _
  rw [stringBody_escaped s.toList _ _ _ hbody hfuel, hbytes, hq]
  simp only [String.fromUTF8?, s.isValidUTF8, dite_true, Option.getD_some, Cursor.advance_advance,
    List.length_cons, List.length_append, List.length_nil]
  refine congrArg Except.ok (Prod.ext rfl (congrArg c.advance ?_))
  omega

end AgentDeck.Json
