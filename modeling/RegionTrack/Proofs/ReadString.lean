import RegionTrack.Proofs.ReaderSteps
import RegionTrack.Json.Write

/-!
# Reading quoted strings back

Every string reads back from its quoted form: `reads_readString_quote` says that the reader of
strings, started after the opening quote of `quote s`, gives `s` and stops after the closing
quote, whatever follows.

The writer escapes a quote, a backslash and the control characters, and writes every other
character as its UTF-8 bytes. The reader turns each escape back into the bytes of the character
it stands for, and keeps every other byte as it is; the proof follows one character at a time
(`reads_stringBytes_char`), by the four ways a character can be written: as itself, as a
two-letter escape, or as a `\u00XX` escape. None of the bytes of a character written as itself
is a quote, a backslash or a control byte, since a multi-byte UTF-8 sequence uses only bytes
from `0x80` on. At the closing quote the bytes read are the UTF-8 encoding of `s`, which decodes
to `s`.
-/

namespace RegionTrack.Json

/-- The bytes of a character in a quoted string. -/
def escapedBytes (ch : Char) : List UInt8 := (escapeChar ch).flatMap String.utf8EncodeChar

theorem textBytes_quote (s : String) :
    textBytes (quote s) = 34 :: (s.toList.flatMap escapedBytes ++ [34]) := by
  simp [quote, List.flatMap_assoc]
  rfl

/-- A character of code point `0x80` or more is written in bytes of `0x80` or more. -/
theorem utf8EncodeChar_high {ch : Char} (h : 128 ≤ ch.toNat) :
    ∀ b ∈ String.utf8EncodeChar ch, 128 ≤ b.toNat := by
  have hv : 127 < ch.val.toNat := h
  unfold String.utf8EncodeChar
  simp only [Nat.not_le.2 hv, if_false]
  split <;> try split
  all_goals
    simp only [List.mem_cons, List.not_mem_nil, or_false]
    rintro b (rfl | rfl | rfl | rfl) <;> simp [UInt8.toNat_ofNat] <;> omega

/-- The ways a character is written in a quoted string: a two-letter escape standing for one
byte, a `\u00XX` escape of a control character, or its own UTF-8 bytes, none of which is a
quote, a backslash or a control byte. Past the five characters with escapes of their own, the
escape depends on the code alone. -/
theorem escapedBytes_cases (ch : Char) :
    (∃ x b, escapedBytes ch = [92, x] ∧ String.utf8EncodeChar ch = [b] ∧
      ((x = 34 ∧ b = 34) ∨ (x = 92 ∧ b = 92) ∨ (x = 98 ∧ b = 8) ∨ (x = 102 ∧ b = 12) ∨
        (x = 110 ∧ b = 10) ∨ (x = 114 ∧ b = 13) ∨ (x = 116 ∧ b = 9))) ∨
    (ch.toNat < 32 ∧ ∃ x y, escapedBytes ch = [92, 117, 48, 48, x, y] ∧
      Reader.hexValue x = some (ch.toNat / 16) ∧ Reader.hexValue y = some (ch.toNat % 16)) ∨
    (escapedBytes ch = String.utf8EncodeChar ch ∧
      ∀ b ∈ String.utf8EncodeChar ch, b ≠ 34 ∧ b ≠ 92 ∧ ¬ b < 32) := by
  have hsmall : ∀ ch : Char, ch.toNat < 128 →
      String.utf8EncodeChar ch = [UInt8.ofNat ch.toNat] := fun ch h => by
    simp only [String.utf8EncodeChar]
    rw [if_pos (by simp only [Char.toNat] at h; omega)]
    rfl
  have hhex : ∀ k, k < 16 → String.utf8EncodeChar (hexDigit k) = [UInt8.ofNat (hexDigit k).toNat] ∧
      Reader.hexValue (UInt8.ofNat (hexDigit k).toNat) = some k := by decide
  by_cases h34 : ch = '"'
  · subst h34
    exact .inl ⟨34, 34, by decide, by decide, by decide⟩
  by_cases h92 : ch = '\\'
  · subst h92
    exact .inl ⟨92, 92, by decide, by decide, by decide⟩
  by_cases h10 : ch = '\n'
  · subst h10
    exact .inl ⟨110, 10, by decide, by decide, by decide⟩
  by_cases h13 : ch = '\r'
  · subst h13
    exact .inl ⟨114, 13, by decide, by decide, by decide⟩
  by_cases h9 : ch = '\t'
  · subst h9
    exact .inl ⟨116, 9, by decide, by decide, by decide⟩
  have hcode : escapeChar ch = if ch.toNat = 8 then ['\\', 'b'] else if ch.toNat = 12 then ['\\', 'f']
      else if ch.toNat < 32 then
        ['\\', 'u', '0', '0', hexDigit (ch.toNat / 16), hexDigit (ch.toNat % 16)]
      else [ch] := by
    unfold escapeChar
    split <;> simp_all
  by_cases h8 : ch.toNat = 8
  · have he : escapedBytes ch = [92, 98] := by rw [escapedBytes, hcode, if_pos h8]; decide
    exact .inl ⟨98, 8, he, by rw [hsmall ch (by omega), h8]; rfl, by decide⟩
  by_cases h12 : ch.toNat = 12
  · have he : escapedBytes ch = [92, 102] := by
      rw [escapedBytes, hcode, if_neg h8, if_pos h12]; decide
    exact .inl ⟨102, 12, he, by rw [hsmall ch (by omega), h12]; rfl, by decide⟩
  by_cases h32 : ch.toNat < 32
  · obtain ⟨hx, hvx⟩ := hhex (ch.toNat / 16) (by omega)
    obtain ⟨hy, hvy⟩ := hhex (ch.toNat % 16) (by omega)
    refine .inr (.inl ⟨h32, _, _, ?_, hvx, hvy⟩)
    rw [escapedBytes, hcode, if_neg h8, if_neg h12, if_pos h32]
    simp [hx, hy]
    rfl
  have he : escapedBytes ch = String.utf8EncodeChar ch := by
    rw [escapedBytes, hcode, if_neg h8, if_neg h12, if_neg h32]
    simp
  refine .inr (.inr ⟨he, ?_⟩)
  have hne : ∀ d : Char, ch ≠ d → ch.toNat ≠ d.toNat := fun d h e => h (Char.toNat_inj.1 e)
  have h34' := hne '"' h34
  have h92' := hne '\\' h92
  simp only [Char.reduceToNat] at h34' h92'
  by_cases h128 : ch.toNat < 128
  · rw [hsmall ch h128]
    simp only [List.mem_singleton, forall_eq]
    refine ⟨fun e => h34' ?_, fun e => h92' ?_, fun e => h32 ?_⟩
    · have := congrArg UInt8.toNat e
      simp only [UInt8.toNat_ofNat', UInt8.reduceToNat] at this
      omega
    · have := congrArg UInt8.toNat e
      simp only [UInt8.toNat_ofNat', UInt8.reduceToNat] at this
      omega
    · rw [UInt8.lt_iff_toNat_lt] at e
      simp only [UInt8.toNat_ofNat', UInt8.reduceToNat] at e
      omega
  · intro b hb
    have hhigh := utf8EncodeChar_high (by omega) b hb
    refine ⟨fun e => ?_, fun e => ?_, fun e => ?_⟩
    · subst e
      simp at hhigh
    · subst e
      simp at hhigh
    · rw [UInt8.lt_iff_toNat_lt] at e
      simp only [UInt8.reduceToNat] at e
      omega

namespace Reader

variable {c c' : Cursor} {r : List UInt8}

/-- Bytes that are no quote, backslash or control byte are kept as they are, one at a time. -/
theorem reads_stringBytes_plain {bs : List UInt8}
    (hbs : ∀ b ∈ bs, b ≠ 34 ∧ b ≠ 92 ∧ ¬ b < 32) (hc : c.Plain) (hrest : c.rest = bs ++ r)
    (acc : List UInt8) {f : Nat} (hf : bs.length ≤ f) {v : List UInt8}
    (hnext : Reads (stringBytes (bs.reverse ++ acc) (f - bs.length)) (c.advance bs.length) v c') :
    Reads (stringBytes acc f) c v c' := by
  induction bs generalizing acc f c with
  | nil => simpa using hnext
  | cons b bs ih =>
    simp only [List.mem_cons, forall_eq_or_imp] at hbs
    obtain ⟨⟨h34, h92, h32⟩, hbs⟩ := hbs
    obtain ⟨f, rfl⟩ : ∃ f', f = f' + 1 := ⟨f - 1, by simp at hf; omega⟩
    rw [stringBytes]
    refine (reads_next hc (hrest.trans (List.cons_append ..))).bind ?_
    simp only [h34, h92, h32, if_false]
    have hrest₁ : (c.advance 1).rest = bs ++ r := by simp [hrest]
    refine ih hbs (hc.advance 1) hrest₁ (b :: acc) (by simp at hf; omega) ?_
    simpa [Nat.add_comm] using hnext

/-- A two-letter escape, backslash and `x`, stands for the byte `b`. -/
theorem reads_stringBytes_escape {x b : UInt8} (hx : (x = 34 ∧ b = 34) ∨ (x = 92 ∧ b = 92) ∨
      (x = 98 ∧ b = 8) ∨ (x = 102 ∧ b = 12) ∨ (x = 110 ∧ b = 10) ∨ (x = 114 ∧ b = 13) ∨
      (x = 116 ∧ b = 9))
    (hc : c.Plain) (hrest : c.rest = 92 :: x :: r) (acc : List UInt8) (f : Nat) {v : List UInt8}
    (hnext : Reads (stringBytes (b :: acc) f) (c.advance 2) v c') :
    Reads (stringBytes acc (f + 1)) c v c' := by
  rw [stringBytes]
  refine (reads_next hc hrest).bind ?_
  simp only [show (92 : UInt8) ≠ 34 by decide, if_false, if_true]
  have hrest₁ : (c.advance 1).rest = x :: r := by simp [hrest]
  have hesc : Reads escape (c.advance 1) [b] (c.advance 2) := by
    unfold escape
    refine (reads_next (hc.advance 1) hrest₁).bind ?_
    rcases hx with ⟨rfl, rfl⟩ | ⟨rfl, rfl⟩ | ⟨rfl, rfl⟩ | ⟨rfl, rfl⟩ | ⟨rfl, rfl⟩ | ⟨rfl, rfl⟩ |
      ⟨rfl, rfl⟩ <;> (rw [Cursor.advance_advance]; rfl)
  exact hesc.bind (by simpa using hnext)

/-- A `\u00XX` escape of a control character stands for the UTF-8 bytes of the character. -/
theorem reads_stringBytes_unicode {x y : UInt8} {n : Nat} (hn : n < 32)
    (hx : hexValue x = some (n / 16)) (hy : hexValue y = some (n % 16)) (hc : c.Plain)
    (hrest : c.rest = 92 :: 117 :: 48 :: 48 :: x :: y :: r) (acc : List UInt8) (f : Nat)
    {v : List UInt8} (hnext : Reads (stringBytes ((utf8Bytes n).reverse ++ acc) f) (c.advance 6) v c') :
    Reads (stringBytes acc (f + 1)) c v c' := by
  have step : ∀ k b t, (c.advance k).rest = b :: t →
      Reads next (c.advance k) (some b) (c.advance (k + 1)) := fun k b t h => by
    simpa using reads_next (hc.advance k) h
  have hhex : Reads hexEscape (c.advance 2) n (c.advance 6) := by
    unfold hexEscape
    refine (step 2 48 (48 :: x :: y :: r) (by simp [hrest])).bind
      ((step 3 48 (x :: y :: r) (by simp [hrest])).bind
      ((step 4 x (y :: r) (by simp [hrest])).bind ((step 5 y r (by simp [hrest])).bind ?_)))
    have h48 : hexValue 48 = some 0 := by decide
    simp only [h48, hx, hy]
    have hval : ((0 * 16 + 0) * 16 + n / 16) * 16 + n % 16 = n := by omega
    rw [hval]
    exact Reads.pure n _
  have hesc : Reads escape (c.advance 1) (utf8Bytes n) (c.advance 6) := by
    unfold escape
    refine (step 1 117 (48 :: 48 :: x :: y :: r) (by simp [hrest])).bind ?_
    have h117 : ¬ (117 : UInt8) = 34 ∧ ¬ (117 : UInt8) = 92 ∧ ¬ (117 : UInt8) = 47 ∧
        ¬ (117 : UInt8) = 98 ∧ ¬ (117 : UInt8) = 102 ∧ ¬ (117 : UInt8) = 110 ∧
        ¬ (117 : UInt8) = 114 ∧ ¬ (117 : UInt8) = 116 := by decide
    simp only [h117, if_false, if_true]
    unfold unicodeEscape
    refine hhex.bind ?_
    have hlow : ¬ (0xDC00 ≤ n ∧ n ≤ 0xDFFF) := by omega
    have hplain : n < 0xD800 ∨ n > 0xDBFF := by omega
    simp only [hlow, hplain, if_false, if_true]
    exact Reads.pure _ _
  rw [stringBytes]
  refine (reads_next hc hrest).bind ?_
  simp only [show (92 : UInt8) ≠ 34 by decide, if_false, if_true]
  exact hesc.bind (by simpa using hnext)

/-- One character of a quoted string is read as its UTF-8 bytes, whichever way it is written.
An escape takes one step of fuel and a character written as itself one per byte, so the reading
goes on with at least the fuel the written bytes leave. -/
theorem reads_stringBytes_char (ch : Char) (hc : c.Plain) (hrest : c.rest = escapedBytes ch ++ r)
    (acc : List UInt8) {f : Nat} (hf : (escapedBytes ch).length ≤ f) {v : List UInt8}
    (hnext : ∀ f', f - (escapedBytes ch).length ≤ f' →
      Reads (stringBytes ((String.utf8EncodeChar ch).reverse ++ acc) f')
        (c.advance (escapedBytes ch).length) v c') :
    Reads (stringBytes acc f) c v c' := by
  rcases escapedBytes_cases ch with ⟨x, b, he, hb, hxb⟩ | ⟨h32, x, y, he, hx, hy⟩ | ⟨he, hbytes⟩
  · rw [he] at hrest hf hnext
    obtain ⟨f, rfl⟩ : ∃ f', f = f' + 1 := ⟨f - 1, by simp at hf; omega⟩
    refine reads_stringBytes_escape hxb hc hrest acc f ?_
    simpa [hb] using hnext f (by simp)
  · rw [he] at hrest hf hnext
    obtain ⟨f, rfl⟩ : ∃ f', f = f' + 1 := ⟨f - 1, by simp at hf; omega⟩
    refine reads_stringBytes_unicode h32 hx hy hc hrest acc f ?_
    have hutf : utf8Bytes ch.toNat = String.utf8EncodeChar ch := by
      rw [utf8Bytes, Char.ofNat_toNat, toUTF8_toList]
      simp [textBytes]
    rw [hutf]
    exact hnext f (by simp)
  · rw [he] at hrest hf hnext
    exact reads_stringBytes_plain hbytes hc hrest acc hf (hnext _ (Nat.le_refl _))

/-- The characters `cs` of a quoted string, up to its closing quote, are read as their UTF-8
bytes after what was read before. -/
theorem reads_stringBytes (cs : List Char) (hc : c.Plain)
    (hrest : c.rest = cs.flatMap escapedBytes ++ 34 :: r) (acc : List UInt8) {f : Nat}
    (hf : (cs.flatMap escapedBytes).length < f) :
    Reads (stringBytes acc f) c (acc.reverse ++ cs.flatMap String.utf8EncodeChar)
      (c.advance ((cs.flatMap escapedBytes).length + 1)) := by
  induction cs generalizing acc f c with
  | nil =>
    obtain ⟨f, rfl⟩ : ∃ f', f = f' + 1 := ⟨f - 1, by simp at hf; omega⟩
    simp only [List.flatMap_nil, List.nil_append] at hrest ⊢
    rw [stringBytes]
    refine (reads_next hc hrest).bind ?_
    simpa using Reads.pure acc.reverse (c.advance 1)
  | cons ch cs ih =>
    simp only [List.flatMap_cons, List.append_assoc, List.length_append] at hrest hf ⊢
    refine reads_stringBytes_char ch hc hrest acc (by omega) fun f' hf' => ?_
    have hrest₁ : (c.advance (escapedBytes ch).length).rest = cs.flatMap escapedBytes ++ 34 :: r := by
      simp [hrest]
    have := ih (hc.advance _) hrest₁ ((String.utf8EncodeChar ch).reverse ++ acc) (f := f') (by omega)
    simpa [Nat.add_assoc] using this

/-- The UTF-8 bytes of a text decode to the text. -/
theorem fromUTF8?_textBytes (s : String) : String.fromUTF8? ⟨(textBytes s).toArray⟩ = some s := by
  have hbytes : (⟨(textBytes s).toArray⟩ : ByteArray) = s.toByteArray := by
    rw [← toUTF8_toList, byteArray_toList, String.toUTF8_eq_toByteArray]
  rw [hbytes, String.fromUTF8?, dif_pos s.isValidUTF8]
  rfl

/-- **Strings read back.** After the opening quote of `quote s`, the string reader gives `s` and
stops after the closing quote, whatever follows it. -/
theorem reads_readString_quote (s : String) (hc : c.Plain)
    (hrest : c.rest = s.toList.flatMap escapedBytes ++ 34 :: r) :
    Reads readString c s (c.advance ((s.toList.flatMap escapedBytes).length + 1)) := by
  unfold readString
  refine reads_fuel.bind ((reads_stringBytes s.toList hc hrest [] ?_).bind ?_)
  · simp only [hrest, List.length_append, List.length_cons]
    omega
  · simp only [List.reverse_nil, List.nil_append]
    rw [show s.toList.flatMap String.utf8EncodeChar = textBytes s from rfl, fromUTF8?_textBytes]
    exact Reads.pure s _

end Reader

end RegionTrack.Json
