import RegionTrack.Proofs.ReadNumber
import RegionTrack.Proofs.ReadString
import RegionTrack.Proofs.ObjectKeys

/-!
# Reading pretty text back

The pretty text of a value reads back as the value (`Value.parse_render`), for every value the
text can carry: integers within the classes the reader produces, floats whose text reads back
(`FloatReadsBack`), objects with strictly increasing keys, and nesting within the reader's limit.

The float condition is the one assumption about decimal text that is not proved here: the
reader does not always find the float nearest to a decimal, so a float's shortest text need not
read back. It is asked of each float on its own, as a whole text; the locality of the number
reader (`Reader.readNumber_extends`) carries it into every place the float stands in a larger
text. For that, the text of a finite float is shown to consist of number characters and to start
with a digit or a minus (`digitText_render`), so that it neither begins nor ends with blanks.

The reading follows the printer's recursion: one lemma per kind of value says that the value
reader reads its text (`reads_readValue_pretty`), and the loops over elements and members read
what `prettyItems` and `prettyMembers` print after the first element or member. Fuel is never
short, since the reader is given more fuel than the text has bytes.

## Main definitions

* `Json.FloatReadsBack`: the text of a float reads back as the float.
* `Json.Value.Printable`: the values whose text reads back.
* `Json.Value.nesting`: how deep arrays and objects nest.

## Main statements

* `Json.Value.parse_render`: `Value.parse v.render = .ok v` for printable values nested less than
  128 deep.
-/

namespace RegionTrack.Json

/-! ## The text of a float -/

/-- A character that can stand in the text of a number. -/
def NumberChar (ch : Char) : Prop := ch.isDigit = true ∨ ch = '-' ∨ ch = '+' ∨ ch = '.' ∨ ch = 'e'

instance : DecidablePred NumberChar := fun _ => inferInstanceAs (Decidable (_ ∨ _))

/-- A text of number characters that starts with a digit. -/
structure DigitText (s : String) : Prop where
  chars : ∀ ch ∈ s.toList, NumberChar ch
  head : ∃ d ds, s.toList = d :: ds ∧ d.isDigit = true

theorem DigitText.append {s t : String} (hs : DigitText s) (ht : ∀ ch ∈ t.toList, NumberChar ch) :
    DigitText (s ++ t) := by
  obtain ⟨d, ds, hd, hdig⟩ := hs.head
  refine ⟨?_, d, ds ++ t.toList, by simp [String.toList_append, hd], hdig⟩
  intro ch hch
  rw [String.toList_append, List.mem_append] at hch
  exact hch.elim (hs.chars ch) (ht ch)

theorem digitText_toString (n : Nat) : DigitText (toString n) := by
  have hdig : ∀ ch ∈ (toString n).toList, ch.isDigit = true := fun ch h => by
    rw [Nat.toString_eq_repr, Nat.toList_repr] at h
    exact Nat.isDigit_of_mem_toDigits (by decide) (by decide) h
  refine ⟨fun ch h => .inl (hdig ch h), ?_⟩
  obtain ⟨d, ds, hds⟩ := List.exists_cons_of_ne_nil (Nat.toDigits_ne_nil (n := n) (b := 10))
  have hl : (toString n).toList = d :: ds := by rw [Nat.toString_eq_repr, Nat.toList_repr, hds]
  exact ⟨d, ds, hl, hdig d (by rw [hl]; simp)⟩

theorem numberChars_zeros (n : Nat) : ∀ ch ∈ (Decimal.zeros n).toList, NumberChar ch := by
  intro ch h
  simp only [Decimal.zeros, String.toList_ofList, List.mem_replicate] at h
  rw [h.2]
  exact .inl rfl

/-- The digits of a decimal, laid out by the JSON float format, are a text of number characters
starting with a digit. -/
theorem digitText_decimalText (d : Decimal.Dec) : DigitText (floatFormat.decimalText d) := by
  have hds := digitText_toString d.digits
  obtain ⟨d₀, ds, hd, hd₀⟩ := hds.head
  have hlit : ∀ s : String, s = ".0" ∨ s = "." ∨ s = "0." ∨ s = "e" ∨ s = "+" ∨ s = "-" ∨ s = "" →
      ∀ ch ∈ s.toList, NumberChar ch := by
    intro s hs
    rcases hs with rfl | rfl | rfl | rfl | rfl | rfl | rfl <;> simp [NumberChar]
  unfold Decimal.Format.decimalText
  dsimp only
  split
  · unfold Decimal.Format.positionalText
    dsimp only
    split
    · refine (hds.append (numberChars_zeros _)).append ?_
      exact hlit _ (by simp [floatFormat])
    · split
      · refine DigitText.append (DigitText.append ⟨?_, ?_⟩ (hlit _ (by simp))) ?_
        · intro ch hch
          simp only [String.toList_ofList] at hch
          exact hds.chars ch (List.mem_of_mem_take hch)
        · rename_i hkk
          obtain ⟨k, hk⟩ : ∃ k, (↑(toString d.digits).length + d.exp).toNat = k + 1 :=
            ⟨(↑(toString d.digits).length + d.exp).toNat - 1, by omega⟩
          exact ⟨d₀, ds.take k, by rw [String.toList_ofList, hk, hd, List.take_succ_cons], hd₀⟩
        · intro ch hch
          simp only [String.toList_ofList] at hch
          exact hds.chars ch (List.mem_of_mem_drop hch)
      · have h0 : DigitText "0." := ⟨hlit _ (by simp), '0', ['.'], by decide, by decide⟩
        exact (h0.append (numberChars_zeros _)).append hds.chars
  · unfold Decimal.Format.scientificText
    dsimp only
    refine DigitText.append (DigitText.append (DigitText.append ?mant (hlit _ (by simp))) ?_)
      (digitText_toString _).chars
    case mant =>
      rw [hd]
      cases ds with
      | nil => exact ⟨fun _ h => by simp at h; subst h; exact .inl hd₀, d₀, [], by simp, hd₀⟩
      | cons d₁ ds =>
        refine DigitText.append (DigitText.append ⟨?_, d₀, [], by simp, hd₀⟩ (hlit _ (by simp)))
          ?_
        · intro ch h
          simp at h
          subst h
          exact .inl hd₀
        · intro ch h
          simp only [String.toList_ofList] at h
          exact hds.chars ch (by rw [hd]; exact List.mem_cons_of_mem _ h)
    split
    · exact hlit _ (by simp)
    · split <;> exact hlit _ (by simp)

theorem isNaN_isInf_of_isFinite {x : Float} (h : x.isFinite = true) :
    x.isNaN = false ∧ x.isInf = false := by
  change x.toModel.unpack.isFinite = true at h
  show x.toModel.unpack.isNaN = false ∧ x.toModel.unpack.isInf = false
  generalize x.toModel.unpack = u at h ⊢
  cases u <;> simp_all [Float.Model.UnpackedFloat.isFinite, Float.Model.UnpackedFloat.isNaN,
    Float.Model.UnpackedFloat.isInf]

/-- The text of a finite float is a text of number characters starting with a digit, after a
minus for a negative float. -/
theorem digitText_render {x : Float} (hx : x.isFinite = true) :
    ∃ body, DigitText body ∧ (floatFormat.render x = body ∨ floatFormat.render x = "-" ++ body) := by
  obtain ⟨hnan, hinf⟩ := isNaN_isInf_of_isFinite hx
  unfold Decimal.Format.render
  simp only [hnan, hinf, Bool.false_eq_true, if_false]
  have hsign : ∀ body : String, DigitText body → ∃ b, DigitText b ∧
      ((if (x.toBits >>> 63 == 1) = true then "-" else "") ++ body = b ∨
        (if (x.toBits >>> 63 == 1) = true then "-" else "") ++ body = "-" ++ b) := by
    intro body hb
    refine ⟨body, hb, ?_⟩
    split
    · exact .inr rfl
    · exact .inl (by simp)
  split
  · exact hsign _ ⟨by simp [floatFormat, NumberChar], '0', ['.', '0'], by decide, by decide⟩
  · exact hsign _ (digitText_decimalText _)

/-! ## Bytes -/

namespace Reader

/-- A digit byte is not blank and is none of the other bytes a value or an item can start
with. -/
theorem digit_byte_ne {b : UInt8} (h : isDigit b = true) :
    isBlank b = false ∧ b ≠ 110 ∧ b ≠ 116 ∧ b ≠ 102 ∧ b ≠ 45 ∧ b ≠ 93 := by
  simp only [isDigit, Bool.and_eq_true, decide_eq_true_eq, UInt8.le_iff_toNat_le,
    UInt8.reduceToNat] at h
  simp only [isBlank, ne_eq, ← UInt8.toNat_inj, UInt8.reduceToNat, Bool.or_eq_false_iff,
    decide_eq_false_iff_not]
  omega

theorem stopsNumber_of_isBlank {b : UInt8} (h : isBlank b = true) : StopsNumber b := by
  simp only [isBlank, Bool.or_eq_true, decide_eq_true_eq, ← UInt8.toNat_inj,
    UInt8.reduceToNat] at h
  simp only [StopsNumber, isDigit, ne_eq, ← UInt8.toNat_inj, UInt8.reduceToNat,
    Bool.and_eq_false_iff, decide_eq_false_iff_not, UInt8.le_iff_toNat_le]
  omega

theorem head_not_blank {b : UInt8} {r : List UInt8} (h : isBlank b = false) :
    ∀ x ∈ (b :: r).head?, isBlank x = false := by
  simpa using h

/-- At a byte that is not blank, skipping blanks sees that byte and stays where it is. -/
theorem reads_skipBlanks_at {c : Cursor} {b : UInt8} {r : List UInt8} (hc : c.Plain)
    (hrest : c.rest = b :: r) (hb : isBlank b = false) : Reads skipBlanks c (some b) c := by
  simpa using reads_skipBlanks hc (l := []) (by simpa using hrest) (by simp) (head_not_blank hb)

end Reader

theorem numberChar_bytes {ch : Char} (h : NumberChar ch) :
    ∃ b, String.utf8EncodeChar ch = [b] ∧ Reader.isBlank b = false := by
  rcases h with h | rfl | rfl | rfl | rfl
  · obtain ⟨hbytes, hdigit, -⟩ := Reader.digit_byte h
    exact ⟨_, hbytes, (Reader.digit_byte_ne hdigit).1⟩
  all_goals exact ⟨_, rfl, rfl⟩

/-- The bytes of a text of number characters that starts with a digit: a digit byte, then bytes
none of which is blank. -/
theorem DigitText.bytes {s : String} (h : DigitText s) :
    ∃ b bs, textBytes s = b :: bs ∧ Reader.isDigit b = true ∧ ∀ y ∈ bs, Reader.isBlank y = false := by
  obtain ⟨d, ds, hd, hdig⟩ := h.head
  obtain ⟨hbytes, hdigit, -⟩ := Reader.digit_byte hdig
  refine ⟨_, ds.flatMap String.utf8EncodeChar, ?_, hdigit, ?_⟩
  · rw [textBytes, hd, List.flatMap_cons, hbytes]
    rfl
  · intro y hy
    obtain ⟨ch, hch, hy⟩ := List.mem_flatMap.1 hy
    obtain ⟨b, hb, hblank⟩ :=
      numberChar_bytes (h.chars ch (by rw [hd]; exact List.mem_cons_of_mem _ hch))
    rw [hb, List.mem_singleton] at hy
    exact hy ▸ hblank

/-- The bytes of the text of a finite float: a minus when `p` is false, a digit, and then bytes
none of which is blank. -/
theorem floatBytes {x : Float} (hx : x.isFinite = true) :
    ∃ (p : Bool) (b : UInt8) (bs : List UInt8),
      textBytes (floatFormat.render x) = (if p then [] else [45]) ++ b :: bs ∧
        Reader.isDigit b = true ∧ ∀ y ∈ bs, Reader.isBlank y = false := by
  obtain ⟨body, hbody, hrender⟩ := digitText_render hx
  obtain ⟨b, bs, hbs, hb, hblank⟩ := hbody.bytes
  rcases hrender with h | h
  · exact ⟨true, b, bs, by rw [h, hbs]; rfl, hb, hblank⟩
  · exact ⟨false, b, bs, by rw [h, textBytes_append, hbs]; rfl, hb, hblank⟩

/-- A negative integer is written as a minus and its absolute value. -/
theorem toString_of_neg {n : Int} (h : n < 0) : toString n = "-" ++ toString n.natAbs := by
  cases n with
  | ofNat m => exact absurd h (Int.not_lt.2 (Int.natCast_nonneg m))
  | negSucc m => rfl

theorem textBytes_indentText (n : Nat) : textBytes (indentText n) = List.replicate (2 * n) 32 := by
  simp [indentText, List.flatMap_replicate, show String.utf8EncodeChar ' ' = [32] from rfl]

/-- The bytes of a line break and an indent of `n` levels. -/
def lineBreak (n : Nat) : List UInt8 := 10 :: List.replicate (2 * n) 32

theorem length_lineBreak (n : Nat) : (lineBreak n).length = 2 * n + 1 := by
  simp [lineBreak]

/-- A line break and an indent are blank bytes. -/
theorem blank_lineBreak (n : Nat) : ∀ y ∈ lineBreak n, Reader.isBlank y = true := by
  intro y hy
  rcases List.mem_cons.1 hy with rfl | hy
  · rfl
  · rw [List.eq_of_mem_replicate hy]
    rfl

/-! ## Values whose text reads back -/

/-- The text of the float `x` reads back as `x`. -/
def FloatReadsBack (x : Float) : Prop :=
  Value.parse (floatFormat.render x) = .ok (.number (.float x))

/-- The numbers whose text reads back as themselves: integers of the classes the reader gives
them, and finite floats whose text reads back. -/
def Number.Printable : Number → Prop
  | .unsigned n => n ≤ Reader.maxUnsigned
  | .negative n => -(Nat.pow 2 63 : Int) ≤ n ∧ n < 0
  | .float x => x.isFinite = true ∧ FloatReadsBack x

mutual

/-- The values whose pretty text reads back as themselves: every number in them is printable and
every object has strictly increasing keys. -/
def Value.Printable : Value → Prop
  | .number n => n.Printable
  | .array items => Value.ItemsPrintable items
  | .object members => Object.Sorted members ∧ Value.MembersPrintable members
  | .null | .bool _ | .string _ => True

/-- Every item of a list is printable. -/
def Value.ItemsPrintable : List Value → Prop
  | [] => True
  | v :: vs => v.Printable ∧ Value.ItemsPrintable vs

/-- The value of every member is printable. -/
def Value.MembersPrintable : List (String × Value) → Prop
  | [] => True
  | (_, v) :: ms => v.Printable ∧ Value.MembersPrintable ms

end

mutual

/-- How deep arrays and objects nest in a value: none in a scalar, and a container one level
more than its deepest item. -/
def Value.nesting : Value → Nat
  | .array items => Value.itemsNesting items + 1
  | .object members => Value.membersNesting members + 1
  | .null | .bool _ | .number _ | .string _ => 0

/-- The deepest nesting among items. -/
def Value.itemsNesting : List Value → Nat
  | [] => 0
  | v :: vs => max v.nesting (Value.itemsNesting vs)

/-- The deepest nesting among the values of members. -/
def Value.membersNesting : List (String × Value) → Nat
  | [] => 0
  | (_, v) :: ms => max v.nesting (Value.membersNesting ms)

end

theorem Value.itemsPrintable_iff {vs : List Value} :
    Value.ItemsPrintable vs ↔ ∀ v ∈ vs, v.Printable := by
  induction vs with
  | nil => simp [Value.ItemsPrintable]
  | cons v vs ih => simp [Value.ItemsPrintable, ih]

theorem Value.membersPrintable_iff {ms : List (String × Value)} :
    Value.MembersPrintable ms ↔ ∀ m ∈ ms, m.2.Printable := by
  induction ms with
  | nil => simp [Value.MembersPrintable]
  | cons m ms ih =>
    obtain ⟨k, v⟩ := m
    simp [Value.MembersPrintable, ih]

/-- An object built from printable pairs is printable: building it sorts the keys. -/
theorem Value.printable_obj {pairs : List (String × Value)} (h : ∀ m ∈ pairs, m.2.Printable) :
    (Value.obj pairs).Printable :=
  ⟨Object.sorted_ofList pairs, Value.membersPrintable_iff.2 fun m hm => h m (Object.mem_ofList hm)⟩

theorem Value.itemsNesting_le {vs : List Value} {n : Nat} (h : ∀ v ∈ vs, v.nesting ≤ n) :
    Value.itemsNesting vs ≤ n := by
  induction vs with
  | nil => exact Nat.zero_le n
  | cons v vs ih =>
    exact Nat.max_le.2 ⟨h v List.mem_cons_self, ih fun w hw => h w (List.mem_cons_of_mem v hw)⟩

theorem Value.membersNesting_le {ms : List (String × Value)} {n : Nat}
    (h : ∀ m ∈ ms, m.2.nesting ≤ n) : Value.membersNesting ms ≤ n := by
  induction ms with
  | nil => exact Nat.zero_le n
  | cons m ms ih =>
    obtain ⟨k, v⟩ := m
    exact Nat.max_le.2 ⟨h (k, v) List.mem_cons_self, ih fun w hw => h w (List.mem_cons_of_mem _ hw)⟩

/-- An object built from pairs nests one level deeper than its deepest value. -/
theorem Value.nesting_obj_le {pairs : List (String × Value)} {n : Nat}
    (h : ∀ m ∈ pairs, m.2.nesting ≤ n) : (Value.obj pairs).nesting ≤ n + 1 :=
  Nat.succ_le_succ (Value.membersNesting_le fun m hm => h m (Object.mem_ofList hm))

/-- What `prettyItems` prints after an item: nothing after the last, otherwise a comma, a line
break and the items that follow. -/
def prettyItemsAfter (level : Nat) : List Value → String
  | [] => ""
  | v :: vs => ",\n" ++ prettyItems level (v :: vs)

/-- What `prettyMembers` prints after a member. -/
def prettyMembersAfter (level : Nat) : List (String × Value) → String
  | [] => ""
  | m :: ms => ",\n" ++ prettyMembers level (m :: ms)

theorem prettyItems_cons (level : Nat) (v : Value) (vs : List Value) :
    prettyItems level (v :: vs) = indentText level ++ v.pretty level ++ prettyItemsAfter level vs := by
  cases vs <;> rfl

theorem prettyMembers_cons (level : Nat) (k : String) (v : Value) (ms : List (String × Value)) :
    prettyMembers level ((k, v) :: ms) =
      indentText level ++ quote k ++ ": " ++ v.pretty level ++ prettyMembersAfter level ms := by
  cases ms <;> rfl

/-! ## Numbers -/

namespace Reader

variable {c c' : Cursor} {l r : List UInt8}

/-- The value reader on a number: after the blanks, a minus (`p` false) or a digit (`p` true)
sends it to the number reader, from the digit. -/
theorem reads_readValue_number_iff {p : Bool} {b : UInt8} (hb : isDigit b = true) (hc : c.Plain)
    (hbl : ∀ y ∈ l, isBlank y = true) {rest : List UInt8}
    (hrest : c.rest = l ++ ((if p then [] else [45]) ++ b :: rest)) {F : Nat} {v : Value} :
    Reads (readValue (F + 1)) c v c' ↔
      ∃ n, v = .number n ∧ Reads (readNumber p) (c.advance (l.length + if p then 0 else 1)) n c' := by
  obtain ⟨hblank, h110, h116, h102, h45, -⟩ := digit_byte_ne hb
  rw [readValue]
  cases p with
  | false =>
    have hskip := reads_skipBlanks hc (r := 45 :: b :: rest) hrest hbl (head_not_blank rfl)
    rw [Reads.bind_iff hskip]
    simp only [List.head?_cons]
    simp only [show (45 : UInt8) ≠ 110 by decide, show (45 : UInt8) ≠ 116 by decide,
      show (45 : UInt8) ≠ 102 by decide, if_false, if_true]
    rw [Reads.bind_iff (reads_eat (hc.advance _) (b := 45) (r := b :: rest) (by simp [hrest])),
      Reads.bind_pure_iff]
    simp only [Cursor.advance_advance, Bool.false_eq_true, if_false]
  | true =>
    have hskip := reads_skipBlanks hc (r := b :: rest) hrest hbl (head_not_blank hblank)
    rw [Reads.bind_iff hskip]
    simp only [List.head?_cons, h110, h116, h102, h45, hb, if_false, if_true]
    rw [Reads.bind_pure_iff]
    simp only [Nat.add_zero]

/-- Alone, the number reader reads the text of a float that reads back from its first digit to
its end: it consumes a prefix of the text, and a byte left over would not be blank and would be
refused as trailing. -/
theorem reads_readNumber_of_floatReadsBack {x : Float} (hback : FloatReadsBack x) {p : Bool} {b : UInt8}
    {bs : List UInt8} (htext : textBytes (floatFormat.render x) = (if p then [] else [45]) ++ b :: bs)
    (hb : isDigit b = true) (hbs : ∀ y ∈ bs, isBlank y = false) :
    ∃ a : Cursor, a.Plain ∧ a.rest = b :: bs ∧
      Reads (readNumber p) a (.float x) (a.advance (b :: bs).length) := by
  unfold FloatReadsBack Value.parse at hback
  rw [toUTF8_toList, run_eq_ok] at hback
  obtain ⟨c₂, hdoc⟩ := hback
  obtain ⟨v, c₁, hval, htrail⟩ := hdoc.bind_inv
  obtain ⟨f, c₀, hf, hval⟩ := hval.bind_inv
  obtain ⟨rfl, rfl⟩ := reads_fuel.det hf
  have hstart : (Cursor.start .text (textBytes (floatFormat.render x))).rest =
      [] ++ ((if p then [] else [45]) ++ b :: bs) := htext
  obtain ⟨n, rfl, hnum⟩ :=
    (reads_readValue_number_iff hb (Cursor.start_plain _) (by simp) hstart).1 hval
  simp only [List.length_nil, Nat.zero_add] at hnum
  generalize hα : (Cursor.start .text (textBytes (floatFormat.render x))).advance
    (if p then 0 else 1) = a at hnum
  have ha : a.Plain := hα ▸ (Cursor.start_plain _).advance _
  have harest : a.rest = b :: bs := by
    subst hα
    cases p <;> simp [Cursor.start, htext]
  obtain ⟨k, hk, rfl, -⟩ := readNumber_extends (show EndsNumber [] from stopsNumber_zero) p
    (P := fun _ => True)
    ⟨ha, ha, by simp⟩ trivial hnum
  rw [harest] at hk
  obtain ⟨o, c₃, hskip, hend⟩ := htrail.bind_inv
  have hall : ¬ k < (b :: bs).length := by
    intro hlt
    have hnb : isBlank (b :: bs)[k] = false := by
      rcases List.mem_cons.1 (List.getElem_mem hlt) with h | h
      · rw [h]; exact (digit_byte_ne hb).1
      · exact hbs _ h
    have hs := reads_skipBlanks (ha.advance k) (l := [])
      (r := (b :: bs)[k] :: (b :: bs).drop (k + 1))
      (by simp only [Cursor.advance_rest, harest, List.drop_eq_getElem_cons hlt, List.nil_append])
      (by simp) (head_not_blank hnb)
    obtain ⟨rfl, rfl⟩ := hs.det hskip
    exact not_reads_failPeek _ hend
  obtain rfl : k = (b :: bs).length := Nat.le_antisymm hk (Nat.not_lt.1 hall)
  have hs := reads_skipBlanks (ha.advance (b :: bs).length) (l := []) (r := [])
    (by simp [harest]) (by simp) (by simp)
  obtain ⟨rfl, rfl⟩ := hs.det hskip
  obtain ⟨hv, -⟩ := (Reads.pure _ _).det hend
  cases hv
  exact ⟨a, ha, harest, hnum⟩

/-- **Floats.** The value reader reads the text of a finite float that reads back, in any
context that ends a number. -/
theorem reads_readValue_float {x : Float} (hx : x.isFinite = true) (hback : FloatReadsBack x)
    (hc : c.Plain) (hbl : ∀ y ∈ l, isBlank y = true)
    (hrest : c.rest = l ++ (textBytes (floatFormat.render x) ++ r)) (hr : EndsNumber r) (F : Nat) :
    Reads (readValue (F + 1)) c (.number (.float x))
      (c.advance (l.length + (textBytes (floatFormat.render x)).length)) := by
  obtain ⟨p, b, bs, htext, hb, hbs⟩ := floatBytes hx
  obtain ⟨a, ha, harest, halone⟩ := reads_readNumber_of_floatReadsBack hback htext hb hbs
  have hrest' : c.rest = l ++ ((if p then [] else [45]) ++ b :: (bs ++ r)) := by
    rw [hrest, htext]
    simp
  have halong : Along r a (c.advance (l.length + if p then 0 else 1)) := by
    refine ⟨ha, hc.advance _, ?_⟩
    rw [harest, Cursor.advance_rest, hrest']
    cases p <;> simp
  obtain ⟨k, hkle, hk, hctx⟩ := readNumber_extends hr p (P := fun _ => True) halong trivial halone
  obtain rfl : k = (b :: bs).length := by
    have := congrArg (fun a => a.rest.length) hk
    simp only [Cursor.advance_rest, List.length_drop, harest] at this hkle
    omega
  have hv := (reads_readValue_number_iff hb hc hbl hrest' (F := F)).2 ⟨_, rfl, hctx⟩
  have hlen : l.length + (if p then 0 else 1) + (b :: bs).length =
      l.length + (textBytes (floatFormat.render x)).length := by
    rw [htext]
    cases p
    · simp
      omega
    · simp
  rwa [Cursor.advance_advance, hlen] at hv

/-- **Integers.** The value reader reads the digits of an integer below `2 ^ 64`. -/
theorem reads_readValue_unsigned {m : Nat} (hm : m ≤ maxUnsigned) (hc : c.Plain)
    (hbl : ∀ y ∈ l, isBlank y = true) (hrest : c.rest = l ++ (textBytes (toString m) ++ r))
    (hr : EndsNumber r) (F : Nat) :
    Reads (readValue (F + 1)) c (.number (.unsigned m))
      (c.advance (l.length + (textBytes (toString m)).length)) := by
  obtain ⟨b, bs, hbs, hb, -⟩ := (digitText_toString m).bytes
  have hrest' : c.rest = l ++ ((if true then [] else [45]) ++ b :: (bs ++ r)) := by
    rw [hrest, hbs]
    rfl
  refine (reads_readValue_number_iff hb hc hbl hrest').2 ⟨_, rfl, ?_⟩
  have hdigits : (c.advance l.length).rest = textBytes (toString m) ++ r := by simp [hrest]
  have hafter : ((c.advance l.length).advance (textBytes (toString m)).length).rest = r := by
    rw [Cursor.advance_rest, hdigits, List.drop_left]
  have htail := reads_numberTail_unsigned ((hc.advance l.length).advance _)
    (by rw [hafter]; exact hr) m
  simpa using reads_readNumber_digits true (hc.advance l.length) hm hr hdigits htail

/-- The value reader reads a minus and the digits of an integer in `[-2 ^ 63, 0)`. -/
theorem reads_readValue_negative {m : Int} (hlo : -(Nat.pow 2 63 : Int) ≤ m) (hneg : m < 0)
    (hc : c.Plain) (hbl : ∀ y ∈ l, isBlank y = true)
    (hrest : c.rest = l ++ (textBytes (toString m) ++ r)) (hr : EndsNumber r) (F : Nat) :
    Reads (readValue (F + 1)) c (.number (.negative m))
      (c.advance (l.length + (textBytes (toString m)).length)) := by
  obtain ⟨b, bs, hbs, hb, -⟩ := (digitText_toString m.natAbs).bytes
  have htext : textBytes (toString m) = [45] ++ textBytes (toString m.natAbs) := by
    rw [toString_of_neg hneg, textBytes_append]
    rfl
  have hrest' : c.rest = l ++ ((if false then [] else [45]) ++ b :: (bs ++ r)) := by
    rw [hrest, htext, hbs]
    rfl
  refine (reads_readValue_number_iff hb hc hbl hrest').2 ⟨_, rfl, ?_⟩
  simp only [Bool.false_eq_true, if_false]
  have hdigits : (c.advance (l.length + 1)).rest = textBytes (toString m.natAbs) ++ r := by
    rw [Cursor.advance_rest, hrest, htext, List.append_assoc, ← List.append_assoc l,
      List.drop_left' (by simp)]
  have hafter : ((c.advance (l.length + 1)).advance
      (textBytes (toString m.natAbs)).length).rest = r := by
    rw [Cursor.advance_rest, hdigits, List.drop_left]
  have hm : -(m.natAbs : Int) = m := by omega
  have htail := reads_numberTail_negative ((hc.advance _).advance _) (by rw [hafter]; exact hr)
    (n := m.natAbs) (by omega) (by omega)
  rw [hm] at htail
  have hbound : m.natAbs ≤ maxUnsigned :=
    Nat.le_trans (show m.natAbs ≤ Nat.pow 2 63 by omega) (by decide)
  have hread := reads_readNumber_digits false (hc.advance _) hbound hr hdigits htail
  have hlen : l.length + 1 + (textBytes (toString m.natAbs)).length =
      l.length + (textBytes (toString m)).length := by
    rw [htext, List.length_append]
    simp only [List.length_singleton]
    omega
  rwa [Cursor.advance_advance, hlen] at hread

/-! ## Separators -/

variable {b : UInt8} {s : List UInt8}

theorem reads_nextElement_close (hc : c.Plain) (hbl : ∀ y ∈ l, isBlank y = true)
    (hrest : c.rest = l ++ 93 :: r) (first : Bool) :
    Reads (nextElement first) c false (c.advance l.length) := by
  unfold nextElement
  refine (reads_skipBlanks hc hrest hbl (head_not_blank rfl)).bind ?_
  simp +decide only [List.head?_cons, ↓reduceIte]
  exact Reads.pure _ _

theorem reads_nextElement_first (hc : c.Plain) (hbl : ∀ y ∈ l, isBlank y = true)
    (hrest : c.rest = l ++ b :: s) (hb : isBlank b = false) (h93 : b ≠ 93) :
    Reads (nextElement true) c true (c.advance l.length) := by
  unfold nextElement
  refine (reads_skipBlanks hc hrest hbl (head_not_blank hb)).bind ?_
  simp only [List.head?_cons, h93, if_false, if_true]
  exact Reads.pure _ _

theorem reads_nextElement_comma (hc : c.Plain) (hbl : ∀ y ∈ l, isBlank y = true)
    (hrest : c.rest = 44 :: (l ++ b :: s)) (hb : isBlank b = false) (h93 : b ≠ 93) :
    Reads (nextElement false) c true (c.advance (1 + l.length)) := by
  unfold nextElement
  refine (reads_skipBlanks_at hc hrest rfl).bind ?_
  simp +decide only [↓reduceIte]
  refine (reads_eat hc hrest).bind ?_
  refine (reads_skipBlanks (hc.advance 1) (r := b :: s) (by simp [hrest]) hbl
    (head_not_blank hb)).bind ?_
  simp only [List.head?_cons, Cursor.advance_advance]
  exact Reads.pure _ _

theorem reads_closeArray (hc : c.Plain) (hrest : c.rest = 93 :: r) :
    Reads closeArray c () (c.advance 1) := by
  unfold closeArray
  exact (reads_skipBlanks_at hc hrest rfl).bind (reads_eat hc hrest)

theorem reads_closeObject (hc : c.Plain) (hrest : c.rest = 125 :: r) :
    Reads closeObject c () (c.advance 1) := by
  unfold closeObject
  exact (reads_skipBlanks_at hc hrest rfl).bind (reads_eat hc hrest)

theorem reads_expectColon (hc : c.Plain) (hrest : c.rest = 58 :: r) :
    Reads expectColon c () (c.advance 1) := by
  unfold expectColon
  exact (reads_skipBlanks_at hc hrest rfl).bind (reads_eat hc hrest)

theorem reads_keyAt (hc : c.Plain) {k : String} (hrest : c.rest = textBytes (quote k) ++ r) :
    Reads (keyAt (some 34)) c (some k) (c.advance (textBytes (quote k)).length) := by
  rw [textBytes_quote] at hrest ⊢
  have hstr := reads_readString_quote k (hc.advance 1) (r := r) (by simp [hrest])
  unfold keyAt
  refine (reads_eat hc hrest).bind (Reads.bind_pure_iff.2 ⟨k, rfl, ?_⟩)
  rw [Cursor.advance_advance] at hstr
  simpa [Nat.add_comm] using hstr

theorem reads_nextKey_first (hc : c.Plain) (hbl : ∀ y ∈ l, isBlank y = true) {k : String}
    (hrest : c.rest = l ++ (textBytes (quote k) ++ r)) :
    Reads (nextKey true) c (some k) (c.advance (l.length + (textBytes (quote k)).length)) := by
  have hq : textBytes (quote k) ++ r = 34 :: (k.toList.flatMap escapedBytes ++ 34 :: r) := by
    simp [textBytes_quote]
  unfold nextKey
  refine (reads_skipBlanks hc (hrest.trans (by rw [hq])) hbl (head_not_blank rfl)).bind ?_
  simp +decide only [List.head?_cons, ↓reduceIte]
  have hkey := reads_keyAt (hc.advance l.length) (k := k) (r := r) (by simp [hrest])
  rwa [Cursor.advance_advance] at hkey

theorem reads_nextKey_comma (hc : c.Plain) (hbl : ∀ y ∈ l, isBlank y = true) {k : String}
    (hrest : c.rest = 44 :: (l ++ (textBytes (quote k) ++ r))) :
    Reads (nextKey false) c (some k)
      (c.advance (1 + l.length + (textBytes (quote k)).length)) := by
  have hq : textBytes (quote k) ++ r = 34 :: (k.toList.flatMap escapedBytes ++ 34 :: r) := by
    simp [textBytes_quote]
  unfold nextKey
  refine (reads_skipBlanks_at hc hrest rfl).bind ?_
  simp +decide only [↓reduceIte]
  refine (reads_eat hc hrest).bind ?_
  refine (reads_skipBlanks (hc.advance 1) (r := 34 :: (k.toList.flatMap escapedBytes ++ 34 :: r))
    (by simp [hrest, hq]) hbl (head_not_blank rfl)).bind ?_
  have hkey := reads_keyAt ((hc.advance 1).advance l.length) (k := k) (r := r)
    (by rw [Cursor.advance_advance, Cursor.advance_rest, hrest, Nat.add_comm, List.drop_succ_cons,
      List.drop_left])
  simp only [List.head?_cons, Cursor.advance_advance] at hkey ⊢
  exact hkey

theorem reads_nextKey_close (hc : c.Plain) (hbl : ∀ y ∈ l, isBlank y = true)
    (hrest : c.rest = l ++ 125 :: r) (first : Bool) :
    Reads (nextKey first) c none (c.advance l.length) := by
  unfold nextKey
  refine (reads_skipBlanks hc hrest hbl (head_not_blank rfl)).bind ?_
  simp +decide only [List.head?_cons, ↓reduceIte]
  exact Reads.pure _ _

/-! ## Loops -/

theorem reads_readItems_close (hc : c.Plain) (hbl : ∀ y ∈ l, isBlank y = true)
    (hrest : c.rest = l ++ 93 :: r) (F : Nat) (first : Bool) (a : List Value) :
    Reads (readItems (F + 1) first a) c a.reverse (c.advance l.length) := by
  rw [readItems]
  refine (reads_nextElement_close hc hbl hrest first).bind ?_
  exact Reads.pure _ _

/-- One turn of the element loop: an element follows, and is read. -/
theorem reads_readItems_next {F : Nat} {first : Bool} {a res : List Value} {w : Value}
    {c₁ c₂ : Cursor} (hnext : Reads (nextElement first) c true c₁)
    (hw : Reads (readValue F) c₁ w c₂) (hloop : Reads (readItems F false (w :: a)) c₂ res c') :
    Reads (readItems (F + 1) first a) c res c' := by
  rw [readItems]
  exact hnext.bind (hw.bind hloop)

theorem reads_readMembers_close (hc : c.Plain) (hbl : ∀ y ∈ l, isBlank y = true)
    (hrest : c.rest = l ++ 125 :: r) (F : Nat) (first : Bool) (a : List (String × Value)) :
    Reads (readMembers (F + 1) first a) c a (c.advance l.length) := by
  rw [readMembers]
  exact (reads_nextKey_close hc hbl hrest first).bind (Reads.pure _ _)

/-- One turn of the member loop: a key, a colon and a value, inserted into the members read. -/
theorem reads_readMembers_next {F : Nat} {first : Bool} {a res : List (String × Value)}
    {k : String} {w : Value} {c₁ c₂ : Cursor} (hkey : Reads (nextKey first) c (some k) c₁)
    (hc₁ : c₁.Plain) (hcolon : c₁.rest = 58 :: r) (hw : Reads (readValue F) (c₁.advance 1) w c₂)
    (hloop : Reads (readMembers F false (Object.insert k w a)) c₂ res c') :
    Reads (readMembers (F + 1) first a) c res c' := by
  rw [readMembers]
  exact hkey.bind ((reads_expectColon hc₁ hcolon).bind (hw.bind hloop))

/-- A container: one level deeper, its opening byte, its contents, and its closing byte back at
the outer level. -/
theorem reads_bracket {α : Type} {inner : Reader α} {close : Reader Unit} {f : α → Value}
    {a : α} {n : Nat} (hdepth : 1 < c.depth) (hc : c.Plain) (hopen : c.rest = b :: s)
    (hinner : Reads inner (({ c with depth := c.depth - 1 } : Cursor).advance 1) a
      (({ c with depth := c.depth - 1 } : Cursor).advance (1 + n)))
    (hclose : Reads close (c.advance (1 + n)) () c') :
    Reads (do descend; eat; let a ← inner; ascend; close; pure (f a)) c (f a) c' := by
  refine (reads_descend hdepth).bind ((reads_eat (hc.depth_update (c.depth - 1)) hopen).bind
    (hinner.bind (reads_ascend.bind ?_)))
  rw [ascend_descend_advance hdepth]
  exact hclose.bind (Reads.pure _ _)

/-! ## The layout of containers -/

theorem textBytes_pretty_array (level : Nat) (w : Value) (ws : List Value) :
    textBytes (Value.pretty level (.array (w :: ws))) =
      91 :: (lineBreak (level + 1) ++ (textBytes (w.pretty (level + 1)) ++
        (textBytes (prettyItemsAfter (level + 1) ws) ++ (lineBreak level ++ [93])))) := by
  show textBytes ("[\n" ++ prettyItems (level + 1) (w :: ws) ++ "\n" ++ indentText level ++ "]") = _
  simp only [prettyItems_cons, textBytes_append, textBytes_indentText, List.append_assoc]
  rfl

theorem textBytes_prettyItemsAfter (level : Nat) (w : Value) (ws : List Value) :
    textBytes (prettyItemsAfter level (w :: ws)) =
      44 :: (lineBreak level ++ (textBytes (w.pretty level) ++
        textBytes (prettyItemsAfter level ws))) := by
  show textBytes (",\n" ++ prettyItems level (w :: ws)) = _
  simp only [prettyItems_cons, textBytes_append, textBytes_indentText, List.append_assoc]
  rfl

theorem textBytes_pretty_object (level : Nat) (k : String) (w : Value)
    (ms : List (String × Value)) :
    textBytes (Value.pretty level (.object ((k, w) :: ms))) =
      123 :: (lineBreak (level + 1) ++ (textBytes (quote k) ++
        58 :: 32 :: (textBytes (w.pretty (level + 1)) ++ (textBytes (prettyMembersAfter (level + 1) ms) ++
          (lineBreak level ++ [125]))))) := by
  show textBytes ("\x7b\n" ++ prettyMembers (level + 1) ((k, w) :: ms) ++ "\n" ++ indentText level ++
    "\x7d") = _
  simp only [prettyMembers_cons, textBytes_append, textBytes_indentText, List.append_assoc]
  rfl

theorem textBytes_prettyMembersAfter (level : Nat) (k : String) (w : Value)
    (ms : List (String × Value)) :
    textBytes (prettyMembersAfter level ((k, w) :: ms)) =
      44 :: (lineBreak level ++ (textBytes (quote k) ++
        58 :: 32 :: (textBytes (w.pretty level) ++ textBytes (prettyMembersAfter level ms)))) := by
  show textBytes (",\n" ++ prettyMembers level ((k, w) :: ms)) = _
  simp only [prettyMembers_cons, textBytes_append, textBytes_indentText, List.append_assoc]
  rfl

/-- After an item, what follows ends a number: a comma, a blank or the closing bracket. -/
theorem endsNumber_itemsAfter (level : Nat) (ws : List Value) (hbl : ∀ y ∈ l, isBlank y = true) :
    EndsNumber (textBytes (prettyItemsAfter level ws) ++ (l ++ 93 :: r)) := by
  cases ws with
  | cons w ws =>
    rw [textBytes_prettyItemsAfter]
    exact stopsNumber_comma
  | nil =>
    cases l with
    | nil => exact stopsNumber_closeBracket
    | cons y l => exact stopsNumber_of_isBlank (hbl y (List.mem_cons_self ..))

theorem endsNumber_membersAfter (level : Nat) (ms : List (String × Value))
    (hbl : ∀ y ∈ l, isBlank y = true) :
    EndsNumber (textBytes (prettyMembersAfter level ms) ++ (l ++ 125 :: r)) := by
  cases ms with
  | cons m ms =>
    obtain ⟨k, w⟩ := m
    rw [textBytes_prettyMembersAfter]
    exact stopsNumber_comma
  | nil =>
    cases l with
    | nil => exact stopsNumber_closeBrace
    | cons y l => exact stopsNumber_of_isBlank (hbl y (List.mem_cons_self ..))

/-! ## Reading a value's text

Each predicate says what a reader does on a text in every context the printer puts it in; the
lemmas after it prove it for one kind of value, or one turn of a loop. -/

/-- From a plain cursor over blanks, the text of `v` at `level` and bytes that end a number, with
more fuel than bytes left and more levels left than `v` nests, the value reader reads `v` and
consumes the blanks and the text. -/
def ReadsPretty (level : Nat) (v : Value) : Prop :=
  ∀ ⦃F : Nat⦄ ⦃c : Cursor⦄ ⦃l r : List UInt8⦄, c.Plain → (∀ y ∈ l, isBlank y = true) →
    c.rest = l ++ (textBytes (v.pretty level) ++ r) → EndsNumber r → v.nesting < c.depth →
    c.rest.length < F →
    Reads (readValue F) c v (c.advance (l.length + (textBytes (v.pretty level)).length))

/-- After the items `a` (in reverse), the element loop reads the items `vs` from what the
printer writes after an item, and stops in front of the closing bracket. -/
def ItemsReadPretty (level : Nat) (vs : List Value) : Prop :=
  ∀ ⦃F : Nat⦄ ⦃c : Cursor⦄ ⦃a : List Value⦄ ⦃l r : List UInt8⦄, c.Plain →
    (∀ y ∈ l, isBlank y = true) → c.rest = textBytes (prettyItemsAfter level vs) ++ (l ++ 93 :: r) →
    Value.itemsNesting vs < c.depth → c.rest.length < F →
    Reads (readItems F false a) c (a.reverse ++ vs)
      (c.advance ((textBytes (prettyItemsAfter level vs)).length + l.length))

/-- After the members `a`, whose keys are below those of `ms`, the member loop reads the
members `ms` from what the printer writes after a member, and stops in front of the closing
brace. -/
def MembersReadPretty (level : Nat) (ms : List (String × Value)) : Prop :=
  ∀ ⦃F : Nat⦄ ⦃c : Cursor⦄ ⦃a : List (String × Value)⦄ ⦃l r : List UInt8⦄, c.Plain →
    (∀ y ∈ l, isBlank y = true) →
    c.rest = textBytes (prettyMembersAfter level ms) ++ (l ++ 125 :: r) → Object.Sorted ms →
    (∀ x ∈ a.map Prod.fst, ∀ y ∈ ms.map Prod.fst, x < y) → Value.membersNesting ms < c.depth →
    c.rest.length < F →
    Reads (readMembers F false a) c (a ++ ms)
      (c.advance ((textBytes (prettyMembersAfter level ms)).length + l.length))

/-- A keyword after the byte that selected it: the byte is eaten and the letters after it are
expected. -/
theorem reads_keyword (hc : c.Plain) {w : List UInt8} (h : c.rest = b :: (w ++ r)) (v : Value) :
    Reads (do eat; expectWord w; pure v : Reader Value) c v (c.advance (w.length + 1)) := by
  refine (reads_eat hc h).bind ((reads_expectWord (hc.advance 1) (r := r) (by simp [h])).bind ?_)
  rw [Cursor.advance_advance, Nat.add_comm]
  exact Reads.pure _ _

theorem readsPretty_null (level : Nat) : ReadsPretty level .null := by
  intro F c l r hc hbl hrest _ _ hF
  obtain ⟨F, rfl⟩ : ∃ F', F = F' + 1 := ⟨F - 1, by omega⟩
  rw [show Value.pretty level .null = "null" from rfl,
    show textBytes "null" = 110 :: [117, 108, 108] from rfl] at hrest ⊢
  rw [readValue]
  refine (reads_skipBlanks hc hrest hbl (head_not_blank rfl)).bind ?_
  simp +decide only [List.cons_append, List.head?_cons, ↓reduceIte]
  have hk := reads_keyword (hc.advance l.length) (b := 110) (w := [117, 108, 108]) (r := r)
    (by simp [hrest]) .null
  rwa [Cursor.advance_advance] at hk

theorem readsPretty_bool (b : Bool) (level : Nat) : ReadsPretty level (.bool b) := by
  intro F c l r hc hbl hrest _ _ hF
  obtain ⟨F, rfl⟩ : ∃ F', F = F' + 1 := ⟨F - 1, by omega⟩
  rw [readValue]
  cases b with
  | true =>
    rw [show Value.pretty level (.bool true) = "true" from rfl,
      show textBytes "true" = 116 :: [114, 117, 101] from rfl] at hrest ⊢
    refine (reads_skipBlanks hc hrest hbl (head_not_blank rfl)).bind ?_
    simp +decide only [List.cons_append, List.head?_cons, ↓reduceIte]
    have hk := reads_keyword (hc.advance l.length) (b := 116) (w := [114, 117, 101]) (r := r)
      (by simp [hrest]) (.bool true)
    rwa [Cursor.advance_advance] at hk
  | false =>
    rw [show Value.pretty level (.bool false) = "false" from rfl,
      show textBytes "false" = 102 :: [97, 108, 115, 101] from rfl] at hrest ⊢
    refine (reads_skipBlanks hc hrest hbl (head_not_blank rfl)).bind ?_
    simp +decide only [List.cons_append, List.head?_cons, ↓reduceIte]
    have hk := reads_keyword (hc.advance l.length) (b := 102) (w := [97, 108, 115, 101]) (r := r)
      (by simp [hrest]) (.bool false)
    rwa [Cursor.advance_advance] at hk

theorem readsPretty_number {n : Number} (hn : n.Printable) (level : Nat) :
    ReadsPretty level (.number n) := by
  intro F c l r hc hbl hrest hr _ hF
  obtain ⟨F, rfl⟩ : ∃ F', F = F' + 1 := ⟨F - 1, by omega⟩
  cases n with
  | unsigned m => exact reads_readValue_unsigned hn hc hbl hrest hr F
  | negative m =>
    obtain ⟨hlo, hneg⟩ := hn
    exact reads_readValue_negative hlo hneg hc hbl hrest hr F
  | float x =>
    obtain ⟨hx, hback⟩ := hn
    have htext : Value.pretty level (.number (.float x)) = floatFormat.render x := by
      simp [Value.pretty, Number.text, hx]
    rw [htext] at hrest ⊢
    exact reads_readValue_float hx hback hc hbl hrest hr F

theorem readsPretty_string (s : String) (level : Nat) : ReadsPretty level (.string s) := by
  intro F c l r hc hbl hrest _ _ hF
  obtain ⟨F, rfl⟩ : ∃ F', F = F' + 1 := ⟨F - 1, by omega⟩
  rw [show Value.pretty level (.string s) = quote s from rfl, textBytes_quote] at hrest ⊢
  rw [readValue]
  refine (reads_skipBlanks hc hrest hbl (head_not_blank rfl)).bind ?_
  simp +decide only [List.cons_append, List.head?_cons, ↓reduceIte]
  have hd : (c.advance l.length).rest = 34 :: (s.toList.flatMap escapedBytes ++ 34 :: r) := by
    simp [hrest]
  have hstr := reads_readString_quote s ((hc.advance l.length).advance 1) (r := r)
    (by rw [Cursor.advance_rest, hd]; rfl)
  refine (reads_eat (hc.advance _) hd).bind (Reads.bind_pure_iff.2 ⟨s, rfl, ?_⟩)
  have hcur : ((c.advance l.length).advance 1).advance ((s.toList.flatMap escapedBytes).length + 1) =
      c.advance (l.length + (34 :: (s.toList.flatMap escapedBytes ++ [34])).length) := by
    simp only [Cursor.advance_advance, List.length_cons, List.length_append, List.length_nil]
    congr 1
    omega
  rwa [hcur] at hstr

/-! ## Containers -/

theorem rest_advance {x y : List UInt8} {n : Nat} (h : c.rest = x ++ y) (hn : x.length = n) :
    (c.advance n).rest = y := by
  rw [Cursor.advance_rest, h, List.drop_left' hn]

/-- The text of a value starts with a byte that is neither blank nor a closing bracket. -/
theorem textBytes_pretty_head (v : Value) (level : Nat) :
    ∃ b bs, textBytes (v.pretty level) = b :: bs ∧ isBlank b = false ∧ b ≠ 93 := by
  cases v with
  | null => exact ⟨110, [117, 108, 108], show textBytes "null" = _ from rfl, rfl, by decide⟩
  | bool b =>
    cases b with
    | true => exact ⟨116, [114, 117, 101], show textBytes "true" = _ from rfl, rfl, by decide⟩
    | false =>
      exact ⟨102, [97, 108, 115, 101], show textBytes "false" = _ from rfl, rfl, by decide⟩
  | string s => exact ⟨34, _, textBytes_quote s, rfl, by decide⟩
  | array items =>
    cases items with
    | nil => exact ⟨91, [93], show textBytes "[]" = _ from rfl, rfl, by decide⟩
    | cons w ws => exact ⟨91, _, textBytes_pretty_array level w ws, rfl, by decide⟩
  | object members =>
    cases members with
    | nil => exact ⟨123, [125], show textBytes "\x7b\x7d" = _ from rfl, rfl, by decide⟩
    | cons m ms =>
      obtain ⟨k, w⟩ := m
      exact ⟨123, _, textBytes_pretty_object level k w ms, rfl, by decide⟩
  | number n =>
    have hdigits : ∀ m : Nat, ∃ b bs, textBytes (toString m) = b :: bs ∧ isBlank b = false ∧
        b ≠ 93 := fun m => by
      obtain ⟨b, bs, hbs, hb, -⟩ := (digitText_toString m).bytes
      exact ⟨b, bs, hbs, (digit_byte_ne hb).1, (digit_byte_ne hb).2.2.2.2.2⟩
    cases n with
    | unsigned m => exact hdigits m
    | negative m =>
      cases m with
      | ofNat m => exact hdigits m
      | negSucc m =>
        refine ⟨45, textBytes (toString (m + 1)), ?_, rfl, by decide⟩
        show textBytes ("-" ++ toString (m + 1)) = _
        rw [textBytes_append]
        rfl
    | float x =>
      show ∃ b bs, textBytes (if x.isFinite then floatFormat.render x else "null") = b :: bs ∧ _
      by_cases hx : x.isFinite = true
      · rw [if_pos hx]
        obtain ⟨p, b, bs, htext, hb, -⟩ := floatBytes hx
        cases p with
        | true => exact ⟨b, bs, htext, (digit_byte_ne hb).1, (digit_byte_ne hb).2.2.2.2.2⟩
        | false => exact ⟨45, _, htext, rfl, by decide⟩
      · rw [if_neg hx]
        exact ⟨110, [117, 108, 108], rfl, rfl, by decide⟩

/-- An element: once the separator in front of it is read, its value and the items after it
follow. -/
theorem reads_readItems_item {F level : Nat} {first : Bool} {a : List Value} {w : Value}
    {ws : List Value} {c₁ : Cursor} (hw : ReadsPretty level w) (hws : ItemsReadPretty level ws)
    (hnext : Reads (nextElement first) c true c₁) (hc₁ : c₁.Plain)
    (hrest : c₁.rest = textBytes (w.pretty level) ++
      (textBytes (prettyItemsAfter level ws) ++ (l ++ 93 :: r)))
    (hbl : ∀ y ∈ l, isBlank y = true) (hd : Value.itemsNesting (w :: ws) < c₁.depth)
    (hF : c₁.rest.length < F) :
    Reads (readItems (F + 1) first a) c (a.reverse ++ w :: ws)
      (c₁.advance ((textBytes (w.pretty level)).length +
        (textBytes (prettyItemsAfter level ws)).length + l.length)) := by
  have hd' : w.nesting < c₁.depth ∧ Value.itemsNesting ws < c₁.depth := by
    simp only [Value.itemsNesting] at hd
    omega
  have hval := hw (F := F) hc₁ (l := []) (by simp) (by simpa using hrest) (endsNumber_itemsAfter level ws hbl)
    hd'.1 hF
  simp only [List.length_nil, Nat.zero_add] at hval
  have hloop := hws (F := F) (a := w :: a) (hc₁.advance (textBytes (w.pretty level)).length) hbl
    (rest_advance hrest rfl) hd'.2
    (by simp only [Cursor.advance_rest, List.length_drop]; omega)
  rw [List.reverse_cons, List.append_assoc, List.singleton_append, Cursor.advance_advance,
    ← Nat.add_assoc] at hloop
  exact reads_readItems_next hnext hval hloop

/-- A member: once its key is read, its colon, its value and the members after it follow. The
keys arrive in increasing order, so each member is appended. -/
theorem reads_readMembers_member {F level : Nat} {first : Bool} {a : List (String × Value)}
    {k : String} {w : Value} {ms : List (String × Value)} {c₁ : Cursor} (hw : ReadsPretty level w)
    (hms : MembersReadPretty level ms) (hkey : Reads (nextKey first) c (some k) c₁) (hc₁ : c₁.Plain)
    (hrest : c₁.rest = 58 :: 32 :: (textBytes (w.pretty level) ++
      (textBytes (prettyMembersAfter level ms) ++ (l ++ 125 :: r))))
    (hbl : ∀ y ∈ l, isBlank y = true) (hsorted : Object.Sorted ((k, w) :: ms))
    (hacc : ∀ x ∈ a.map Prod.fst, ∀ y ∈ ((k, w) :: ms).map Prod.fst, x < y)
    (hd : Value.membersNesting ((k, w) :: ms) < c₁.depth) (hF : c₁.rest.length < F) :
    Reads (readMembers (F + 1) first a) c (a ++ (k, w) :: ms)
      (c₁.advance (2 + (textBytes (w.pretty level)).length +
        (textBytes (prettyMembersAfter level ms)).length + l.length)) := by
  obtain ⟨hk, hms_sorted⟩ := Object.sorted_cons.1 hsorted
  have hd' : w.nesting < c₁.depth ∧ Value.membersNesting ms < c₁.depth := by
    simp only [Value.membersNesting] at hd
    omega
  have hins : Object.insert k w a = a ++ [(k, w)] :=
    Object.insert_of_lt fun x hx => hacc x hx k (List.mem_cons_self ..)
  have hacc' : ∀ x ∈ (a ++ [(k, w)]).map Prod.fst, ∀ y ∈ ms.map Prod.fst, x < y := by
    intro x hx y hy
    simp only [List.map_append, List.map_cons, List.map_nil, List.mem_append,
      List.mem_singleton] at hx
    rcases hx with hx | rfl
    · exact hacc x hx y (List.mem_cons_of_mem _ hy)
    · exact hk y hy
  have hrest₁ : (c₁.advance 1).rest = [32] ++ (textBytes (w.pretty level) ++
      (textBytes (prettyMembersAfter level ms) ++ (l ++ 125 :: r))) := by
    rw [Cursor.advance_rest, hrest]
    rfl
  have hrest₂ := rest_advance (rest_advance hrest₁ rfl) rfl
  rw [Cursor.advance_advance] at hrest₂
  have hval := hw (F := F) (c := c₁.advance 1) (l := [32]) (hc₁.advance 1) (by simp; rfl)
    hrest₁ (endsNumber_membersAfter level ms hbl) hd'.1
    (by simp only [Cursor.advance_rest, List.length_drop]; omega)
  have hloop := hms (F := F) (a := a ++ [(k, w)])
    ((hc₁.advance 1).advance ([32].length + (textBytes (w.pretty level)).length)) hbl
    hrest₂ hms_sorted hacc' hd'.2 (by simp only [Cursor.advance_rest, List.length_drop]; omega)
  rw [List.append_assoc, List.singleton_append, ← hins] at hloop
  have hcur : ((c₁.advance 1).advance (([32] : List UInt8).length + (textBytes (w.pretty level)).length)).advance
      ((textBytes (prettyMembersAfter level ms)).length + l.length) =
      c₁.advance (2 + (textBytes (w.pretty level)).length +
        (textBytes (prettyMembersAfter level ms)).length + l.length) := by
    simp only [Cursor.advance_advance, List.length_singleton]
    congr 1
    omega
  rw [hcur] at hloop
  exact reads_readMembers_next hkey hc₁ hrest hval hloop

theorem itemsReadPretty_nil (level : Nat) : ItemsReadPretty level [] := by
  intro F c a l r hc hbl hrest _ hF
  obtain ⟨F, rfl⟩ : ∃ F', F = F' + 1 := ⟨F - 1, by omega⟩
  have hnil : textBytes (prettyItemsAfter level []) = [] := rfl
  rw [hnil, List.nil_append] at hrest
  rw [hnil, List.append_nil, List.length_nil, Nat.zero_add]
  exact reads_readItems_close hc hbl hrest F false a

theorem itemsReadPretty_cons {level : Nat} {w : Value} {ws : List Value}
    (hw : ReadsPretty level w) (hws : ItemsReadPretty level ws) :
    ItemsReadPretty level (w :: ws) := by
  intro F c a l r hc hbl hrest hd hF
  obtain ⟨b, bs, hwb, hb, hb93⟩ := textBytes_pretty_head w level
  rw [textBytes_prettyItemsAfter] at hrest ⊢
  have hnext := reads_nextElement_comma hc (blank_lineBreak level) (b := b)
    (s := bs ++ (textBytes (prettyItemsAfter level ws) ++ (l ++ 93 :: r)))
    (by rw [hrest, hwb]; simp) hb hb93
  have hrest₁ := rest_advance (x := 44 :: lineBreak level) (n := 1 + (lineBreak level).length)
    (y := textBytes (w.pretty level) ++ (textBytes (prettyItemsAfter level ws) ++ (l ++ 93 :: r)))
    (hrest.trans (by simp)) (by simp; omega)
  obtain ⟨F, rfl⟩ : ∃ F', F = F' + 1 := ⟨F - 1, by omega⟩
  have h := reads_readItems_item (F := F) (a := a) hw hws hnext (hc.advance _) hrest₁ hbl
    (by simpa using hd) (by rw [hrest₁]; rw [hrest] at hF; simp at hF ⊢; omega)
  have hcur : (c.advance (1 + (lineBreak level).length)).advance
      ((textBytes (w.pretty level)).length + (textBytes (prettyItemsAfter level ws)).length +
        l.length) =
      c.advance ((44 :: (lineBreak level ++ (textBytes (w.pretty level) ++
        textBytes (prettyItemsAfter level ws)))).length + l.length) := by
    simp only [Cursor.advance_advance, List.length_cons, List.length_append]
    congr 1
    omega
  rwa [hcur] at h

theorem membersReadPretty_nil (level : Nat) : MembersReadPretty level [] := by
  intro F c a l r hc hbl hrest _ _ _ hF
  obtain ⟨F, rfl⟩ : ∃ F', F = F' + 1 := ⟨F - 1, by omega⟩
  have hnil : textBytes (prettyMembersAfter level []) = [] := rfl
  rw [hnil, List.nil_append] at hrest
  rw [hnil, List.append_nil, List.length_nil, Nat.zero_add]
  exact reads_readMembers_close hc hbl hrest F false a

theorem membersReadPretty_cons {level : Nat} {k : String} {w : Value} {ms : List (String × Value)}
    (hw : ReadsPretty level w) (hms : MembersReadPretty level ms) :
    MembersReadPretty level ((k, w) :: ms) := by
  intro F c a l r hc hbl hrest hsorted hacc hd hF
  rw [textBytes_prettyMembersAfter] at hrest ⊢
  have hkey := reads_nextKey_comma hc (blank_lineBreak level) (k := k)
    (r := 58 :: 32 :: (textBytes (w.pretty level) ++ (textBytes (prettyMembersAfter level ms) ++
      (l ++ 125 :: r)))) (by rw [hrest]; simp)
  have hrest₁ := rest_advance (x := 44 :: (lineBreak level ++ textBytes (quote k)))
    (n := 1 + (lineBreak level).length + (textBytes (quote k)).length)
    (y := 58 :: 32 :: (textBytes (w.pretty level) ++ (textBytes (prettyMembersAfter level ms) ++
      (l ++ 125 :: r))))
    (hrest.trans (by simp)) (by simp; omega)
  obtain ⟨F, rfl⟩ : ∃ F', F = F' + 1 := ⟨F - 1, by omega⟩
  have h := reads_readMembers_member (F := F) (a := a) hw hms hkey (hc.advance _) hrest₁ hbl
    hsorted hacc (by simpa using hd) (by rw [hrest₁]; rw [hrest] at hF; simp at hF ⊢; omega)
  have hcur : (c.advance (1 + (lineBreak level).length + (textBytes (quote k)).length)).advance
      (2 + (textBytes (w.pretty level)).length + (textBytes (prettyMembersAfter level ms)).length +
        l.length) =
      c.advance ((44 :: (lineBreak level ++ (textBytes (quote k) ++ 58 :: 32 ::
        (textBytes (w.pretty level) ++ textBytes (prettyMembersAfter level ms))))).length +
          l.length) := by
    simp only [Cursor.advance_advance, List.length_cons, List.length_append]
    exact congrArg c.advance (by omega)
  rwa [hcur] at h

theorem readsPretty_emptyArray (level : Nat) : ReadsPretty level (.array []) := by
  intro F c l r hc hbl hrest _ hd hF
  rw [show Value.pretty level (.array []) = "[]" from rfl,
    show textBytes "[]" = [91, 93] from rfl] at hrest ⊢
  simp only [List.cons_append, List.nil_append] at hrest
  obtain ⟨F, rfl⟩ : ∃ F', F = F' + 2 := ⟨F - 2, by rw [hrest] at hF; simp at hF; omega⟩
  have hdepth : 1 < (c.advance l.length).depth := by
    simp only [Value.nesting, Value.itemsNesting] at hd
    simpa using hd
  have hc₀ := hc.advance l.length
  have hrest₀ : (c.advance l.length).rest = 91 :: 93 :: r := rest_advance hrest rfl
  have hinner := reads_readItems_close ((hc₀.depth_update ((c.advance l.length).depth - 1)).advance 1)
    (l := []) (r := r) (by simp) (rest_advance (x := [91]) hrest₀ rfl) F true []
  have hclose := reads_closeArray (hc₀.advance (1 + 0)) (r := r) (rest_advance (x := [91]) hrest₀ rfl)
  rw [show ((c.advance l.length).advance (1 + 0)).advance 1 = c.advance (l.length + [91, 93].length)
    by simp] at hclose
  rw [readValue]
  refine (reads_skipBlanks hc hrest hbl (head_not_blank rfl)).bind ?_
  simp +decide only [List.head?_cons, ↓reduceIte]
  exact reads_bracket (f := Value.array) (a := []) (n := 0) hdepth hc₀ hrest₀ (by simpa using hinner)
    hclose

theorem readsPretty_emptyObject (level : Nat) : ReadsPretty level (.object []) := by
  intro F c l r hc hbl hrest _ hd hF
  rw [show Value.pretty level (.object []) = "\x7b\x7d" from rfl,
    show textBytes "\x7b\x7d" = [123, 125] from rfl] at hrest ⊢
  simp only [List.cons_append, List.nil_append] at hrest
  obtain ⟨F, rfl⟩ : ∃ F', F = F' + 2 := ⟨F - 2, by rw [hrest] at hF; simp at hF; omega⟩
  have hdepth : 1 < (c.advance l.length).depth := by
    simp only [Value.nesting, Value.membersNesting] at hd
    simpa using hd
  have hc₀ := hc.advance l.length
  have hrest₀ : (c.advance l.length).rest = 123 :: 125 :: r := rest_advance hrest rfl
  have hinner := reads_readMembers_close
    ((hc₀.depth_update ((c.advance l.length).depth - 1)).advance 1)
    (l := []) (r := r) (by simp) (rest_advance (x := [123]) hrest₀ rfl) F true []
  have hclose := reads_closeObject (hc₀.advance (1 + 0)) (r := r)
    (rest_advance (x := [123]) hrest₀ rfl)
  rw [show ((c.advance l.length).advance (1 + 0)).advance 1 =
    c.advance (l.length + [123, 125].length) by simp] at hclose
  rw [readValue]
  refine (reads_skipBlanks hc hrest hbl (head_not_blank rfl)).bind ?_
  simp +decide only [List.head?_cons, ↓reduceIte]
  exact reads_bracket (f := Value.object) (a := []) (n := 0) hdepth hc₀ hrest₀
    (by simpa using hinner) hclose

/-- The elements of a nonempty array, from after its opening bracket up to the blanks in front
of its closing one. -/
theorem reads_readItems_first {F level : Nat} {w : Value} {ws : List Value}
    (hw : ReadsPretty level w) (hws : ItemsReadPretty level ws) (hc : c.Plain)
    (hbl : ∀ y ∈ l, isBlank y = true)
    (hrest : c.rest = lineBreak level ++ (textBytes (w.pretty level) ++
      (textBytes (prettyItemsAfter level ws) ++ (l ++ 93 :: r))))
    (hd : Value.itemsNesting (w :: ws) < c.depth) (hF : c.rest.length < F + 1) :
    Reads (readItems (F + 1) true []) c (w :: ws)
      (c.advance ((lineBreak level).length + (textBytes (w.pretty level)).length +
        (textBytes (prettyItemsAfter level ws)).length + l.length)) := by
  obtain ⟨b, bs, hwb, hb, hb93⟩ := textBytes_pretty_head w level
  have hnext := reads_nextElement_first hc (blank_lineBreak level) (b := b)
    (s := bs ++ (textBytes (prettyItemsAfter level ws) ++ (l ++ 93 :: r)))
    (by rw [hrest, hwb]; rfl) hb hb93
  have hrest₁ := rest_advance hrest rfl
  have h := reads_readItems_item (F := F) (a := []) hw hws hnext (hc.advance _) hrest₁ hbl hd
    (by rw [hrest₁]; rw [hrest] at hF; simp [length_lineBreak] at hF ⊢; omega)
  rw [List.reverse_nil, List.nil_append, Cursor.advance_advance] at h
  rwa [← Nat.add_assoc, ← Nat.add_assoc] at h

/-- The members of a nonempty object, from after its opening brace up to the blanks in front of
its closing one. -/
theorem reads_readMembers_first {F level : Nat} {k : String} {w : Value}
    {ms : List (String × Value)} (hw : ReadsPretty level w) (hms : MembersReadPretty level ms)
    (hc : c.Plain) (hbl : ∀ y ∈ l, isBlank y = true)
    (hrest : c.rest = lineBreak level ++ (textBytes (quote k) ++ 58 :: 32 ::
      (textBytes (w.pretty level) ++ (textBytes (prettyMembersAfter level ms) ++ (l ++ 125 :: r)))))
    (hsorted : Object.Sorted ((k, w) :: ms)) (hd : Value.membersNesting ((k, w) :: ms) < c.depth)
    (hF : c.rest.length < F + 1) :
    Reads (readMembers (F + 1) true []) c ((k, w) :: ms)
      (c.advance ((lineBreak level).length + (textBytes (quote k)).length + 2 +
        (textBytes (w.pretty level)).length + (textBytes (prettyMembersAfter level ms)).length +
          l.length)) := by
  have hkey := reads_nextKey_first hc (blank_lineBreak level) (k := k)
    (r := 58 :: 32 :: (textBytes (w.pretty level) ++ (textBytes (prettyMembersAfter level ms) ++
      (l ++ 125 :: r)))) hrest
  have hrest₁ := rest_advance (x := lineBreak level ++ textBytes (quote k))
    (n := (lineBreak level).length + (textBytes (quote k)).length)
    (y := 58 :: 32 :: (textBytes (w.pretty level) ++ (textBytes (prettyMembersAfter level ms) ++
      (l ++ 125 :: r)))) (hrest.trans (by simp)) (by simp)
  have hfuel : (c.advance ((lineBreak level).length + (textBytes (quote k)).length)).rest.length < F := by
    rw [hrest₁]
    have := congrArg List.length hrest
    simp only [List.length_append, List.length_cons, length_lineBreak] at this ⊢
    omega
  have h := reads_readMembers_member (F := F) (a := []) hw hms hkey (hc.advance _) hrest₁ hbl
    hsorted (by simp) (by rw [Cursor.advance_depth]; exact hd) hfuel
  rw [List.nil_append, Cursor.advance_advance] at h
  have hcur : (lineBreak level).length + (textBytes (quote k)).length +
      (2 + (textBytes (w.pretty level)).length + (textBytes (prettyMembersAfter level ms)).length +
        l.length) =
      (lineBreak level).length + (textBytes (quote k)).length + 2 +
        (textBytes (w.pretty level)).length + (textBytes (prettyMembersAfter level ms)).length +
          l.length := by
    omega
  rw [hcur] at h
  exact h

theorem readsPretty_array {level : Nat} {w : Value} {ws : List Value}
    (hw : ReadsPretty (level + 1) w) (hws : ItemsReadPretty (level + 1) ws) :
    ReadsPretty level (.array (w :: ws)) := by
  intro F c l r hc hbl hrest _ hd hF
  rw [textBytes_pretty_array] at hrest ⊢
  have hrest' : c.rest = l ++ 91 :: (lineBreak (level + 1) ++ (textBytes (w.pretty (level + 1)) ++
      (textBytes (prettyItemsAfter (level + 1) ws) ++ (lineBreak level ++ 93 :: r)))) := by
    rw [hrest]
    simp
  have hlen := congrArg List.length hrest'
  simp only [List.length_append, List.length_cons] at hlen
  obtain ⟨F, rfl⟩ : ∃ F', F = F' + 2 := ⟨F - 2, by omega⟩
  have hnest : Value.itemsNesting (w :: ws) + 1 < c.depth := by simpa [Value.nesting] using hd
  have hc₀ := hc.advance l.length
  have hrest₀ := rest_advance hrest' rfl
  have hrest₁ : (({ c.advance l.length with depth := (c.advance l.length).depth - 1 } :
      Cursor).advance 1).rest = lineBreak (level + 1) ++ (textBytes (w.pretty (level + 1)) ++
        (textBytes (prettyItemsAfter (level + 1) ws) ++ (lineBreak level ++ 93 :: r))) :=
    rest_advance (x := [91]) hrest₀ rfl
  have hinner := reads_readItems_first (F := F) hw hws
    ((hc₀.depth_update ((c.advance l.length).depth - 1)).advance 1) (blank_lineBreak level)
    hrest₁ (by simp; omega) (by rw [hrest₁]; simp only [List.length_append, List.length_cons]; omega)
  rw [Cursor.advance_advance] at hinner
  have hclose := reads_closeArray (hc₀.advance (1 + ((lineBreak (level + 1)).length +
      (textBytes (w.pretty (level + 1))).length + (textBytes (prettyItemsAfter (level + 1) ws)).length +
        (lineBreak level).length))) (r := r)
    (rest_advance (x := 91 :: (lineBreak (level + 1) ++ (textBytes (w.pretty (level + 1)) ++
      (textBytes (prettyItemsAfter (level + 1) ws) ++ lineBreak level)))) (hrest₀.trans (by simp))
      (by simp only [List.length_cons, List.length_append]; omega))
  have hcur : ((c.advance l.length).advance (1 + ((lineBreak (level + 1)).length +
      (textBytes (w.pretty (level + 1))).length + (textBytes (prettyItemsAfter (level + 1) ws)).length +
        (lineBreak level).length))).advance 1 =
      c.advance (l.length + (91 :: (lineBreak (level + 1) ++ (textBytes (w.pretty (level + 1)) ++
        (textBytes (prettyItemsAfter (level + 1) ws) ++ (lineBreak level ++ [93]))))).length) := by
    simp only [Cursor.advance_advance, List.length_cons, List.length_append, List.length_nil]
    exact congrArg c.advance (by omega)
  rw [hcur] at hclose
  rw [readValue]
  refine (reads_skipBlanks hc hrest' hbl (head_not_blank rfl)).bind ?_
  simp +decide only [List.head?_cons, ↓reduceIte]
  exact reads_bracket (f := Value.array) (a := w :: ws) (by simp; omega) hc₀ hrest₀ hinner hclose

theorem readsPretty_object {level : Nat} {k : String} {w : Value} {ms : List (String × Value)}
    (hsorted : Object.Sorted ((k, w) :: ms)) (hw : ReadsPretty (level + 1) w)
    (hms : MembersReadPretty (level + 1) ms) : ReadsPretty level (.object ((k, w) :: ms)) := by
  intro F c l r hc hbl hrest _ hd hF
  rw [textBytes_pretty_object] at hrest ⊢
  have hrest' : c.rest = l ++ 123 :: (lineBreak (level + 1) ++ (textBytes (quote k) ++ 58 :: 32 ::
      (textBytes (w.pretty (level + 1)) ++ (textBytes (prettyMembersAfter (level + 1) ms) ++
        (lineBreak level ++ 125 :: r))))) := by
    rw [hrest]
    simp
  have hlen := congrArg List.length hrest'
  simp only [List.length_append, List.length_cons] at hlen
  obtain ⟨F, rfl⟩ : ∃ F', F = F' + 2 := ⟨F - 2, by omega⟩
  have hnest : Value.membersNesting ((k, w) :: ms) + 1 < c.depth := by
    simpa [Value.nesting] using hd
  have hc₀ := hc.advance l.length
  have hrest₀ := rest_advance hrest' rfl
  have hrest₁ : (({ c.advance l.length with depth := (c.advance l.length).depth - 1 } :
      Cursor).advance 1).rest = lineBreak (level + 1) ++ (textBytes (quote k) ++ 58 :: 32 ::
        (textBytes (w.pretty (level + 1)) ++ (textBytes (prettyMembersAfter (level + 1) ms) ++
          (lineBreak level ++ 125 :: r)))) :=
    rest_advance (x := [123]) hrest₀ rfl
  have hinner := reads_readMembers_first (F := F) hw hms
    ((hc₀.depth_update ((c.advance l.length).depth - 1)).advance 1) (blank_lineBreak level)
    hrest₁ hsorted (by simp; omega)
    (by rw [hrest₁]; simp only [List.length_append, List.length_cons]; omega)
  rw [Cursor.advance_advance] at hinner
  have hclose := reads_closeObject (hc₀.advance (1 + ((lineBreak (level + 1)).length +
      (textBytes (quote k)).length + 2 + (textBytes (w.pretty (level + 1))).length +
        (textBytes (prettyMembersAfter (level + 1) ms)).length + (lineBreak level).length))) (r := r)
    (rest_advance (x := 123 :: (lineBreak (level + 1) ++ (textBytes (quote k) ++ 58 :: 32 ::
      (textBytes (w.pretty (level + 1)) ++ (textBytes (prettyMembersAfter (level + 1) ms) ++
        lineBreak level))))) (hrest₀.trans (by simp))
      (by simp only [List.length_cons, List.length_append]; omega))
  have hcur : ((c.advance l.length).advance (1 + ((lineBreak (level + 1)).length +
      (textBytes (quote k)).length + 2 + (textBytes (w.pretty (level + 1))).length +
        (textBytes (prettyMembersAfter (level + 1) ms)).length +
          (lineBreak level).length))).advance 1 =
      c.advance (l.length + (123 :: (lineBreak (level + 1) ++ (textBytes (quote k) ++ 58 :: 32 ::
        (textBytes (w.pretty (level + 1)) ++ (textBytes (prettyMembersAfter (level + 1) ms) ++
          (lineBreak level ++ [125])))))).length) := by
    simp only [Cursor.advance_advance, List.length_cons, List.length_append, List.length_nil]
    exact congrArg c.advance (by omega)
  rw [hcur] at hclose
  rw [readValue]
  refine (reads_skipBlanks hc hrest' hbl (head_not_blank rfl)).bind ?_
  simp +decide only [List.head?_cons, ↓reduceIte]
  exact reads_bracket (f := Value.object) (a := (k, w) :: ms) (by simp; omega) hc₀ hrest₀ hinner
    hclose

/-! ## Every printable value -/

mutual

/-- The value reader reads the text of every printable value, by induction on the value together
with its item and member lists, as the printer recurses. -/
theorem readsPretty_of_printable : (v : Value) → v.Printable → ∀ level, ReadsPretty level v
  | .null, _, level => readsPretty_null level
  | .bool b, _, level => readsPretty_bool b level
  | .number _, hn, level => readsPretty_number hn level
  | .string s, _, level => readsPretty_string s level
  | .array [], _, level => readsPretty_emptyArray level
  | .array (w :: ws), hv, level => by
    obtain ⟨hw, hws⟩ : w.Printable ∧ Value.ItemsPrintable ws := hv
    exact readsPretty_array (readsPretty_of_printable w hw (level + 1))
      (itemsReadPretty_of_printable ws hws (level + 1))
  | .object [], _, level => readsPretty_emptyObject level
  | .object ((k, w) :: ms), hv, level => by
    obtain ⟨hsorted, hw, hms⟩ :
        Object.Sorted ((k, w) :: ms) ∧ w.Printable ∧ Value.MembersPrintable ms := hv
    exact readsPretty_object hsorted (readsPretty_of_printable w hw (level + 1))
      (membersReadPretty_of_printable ms hms (level + 1))

theorem itemsReadPretty_of_printable :
    (vs : List Value) → Value.ItemsPrintable vs → ∀ level, ItemsReadPretty level vs
  | [], _, level => itemsReadPretty_nil level
  | w :: ws, hv, level => by
    obtain ⟨hw, hws⟩ : w.Printable ∧ Value.ItemsPrintable ws := hv
    exact itemsReadPretty_cons (readsPretty_of_printable w hw level)
      (itemsReadPretty_of_printable ws hws level)

theorem membersReadPretty_of_printable :
    (ms : List (String × Value)) → Value.MembersPrintable ms → ∀ level, MembersReadPretty level ms
  | [], _, level => membersReadPretty_nil level
  | (_, w) :: ms, hv, level => by
    obtain ⟨hw, hms⟩ : w.Printable ∧ Value.MembersPrintable ms := hv
    exact membersReadPretty_cons (readsPretty_of_printable w hw level)
      (membersReadPretty_of_printable ms hms level)

end

end Reader

/-- **Pretty text reads back.** The pretty text of a value whose numbers are printable, whose
objects have strictly increasing keys and which nests less than 128 deep parses as the value. -/
theorem Value.parse_render {v : Value} (hv : v.Printable) (hd : v.nesting < 128) :
    Value.parse v.render = .ok v := by
  unfold Value.parse
  rw [toUTF8_toList, Reader.run_eq_ok]
  let start := Cursor.start .text (textBytes v.render)
  have hread := Reader.readsPretty_of_printable v hv 0
    (F := 2 * (start.rest.length + 1) + 1) (c := start) (l := []) (r := [])
    (Cursor.start_plain _) (by simp) (by simp [start, Cursor.start, Value.render])
    Reader.stopsNumber_zero hd (by omega)
  simp only [List.length_nil, Nat.zero_add] at hread
  have hend : (start.advance (textBytes (v.pretty 0)).length).rest = [] := by
    simp [start, Cursor.start, Value.render]
  have hskip := Reader.reads_skipBlanks ((Cursor.start_plain _).advance _) (l := []) (r := [])
    (by simpa using hend) (by simp) (by simp)
  exact ⟨_, (Reader.reads_fuel.bind hread).bind (hskip.bind (Reader.Reads.pure _ _))⟩

end RegionTrack.Json
