import RegionTrack.Json.Read

/-!
# Stepping the JSON reader over known text

The readers of `RegionTrack.Json` are state-and-error computations over a `Cursor`. What one of
them does on a given text is stated as `Reads r c a c'`: run from `c`, the reader `r` succeeds
with `a` and stops at `c'`. Successes compose along `bind` (`Reads.bind`), so the behaviour of a
reader on a text is assembled from what each of its steps does on its own part of the text, and
later proofs never open the monad again.

Everything here reads a complete text (`Mode.text`) with no byte pulled ahead, the way
`Value.parse` reads. Such cursors are `Cursor.Plain`, and consuming `n` bytes of one is
`Cursor.advance`, which moves the unread bytes and the offset together and keeps the rest.
Text enters as `textBytes`, the UTF-8 bytes of its characters in order.

## Main statements

* `Reader.Reads.bind`, `Reader.Reads.bind_inv`: success through a `bind`, both ways.
* `Reader.run_eq_ok`: a whole run succeeds exactly when the reader reads from the start.
* `Reader.reads_skipBlanks`: the blanks in front are skipped and the byte after them is looked at.
* `Reader.reads_expectWord`: the letters of a keyword are consumed.
-/

namespace RegionTrack.Json

/-- A cursor over a complete text with no byte pulled ahead, as `Value.parse` reads. -/
structure Cursor.Plain (c : Cursor) : Prop where
  text : c.mode = .text
  unpulled : c.pulled = false

/-- The cursor `n` bytes further into the text. -/
def Cursor.advance (c : Cursor) (n : Nat) : Cursor :=
  { c with rest := c.rest.drop n, offset := c.offset + n }

namespace Cursor

variable {c : Cursor} {m n : Nat}

@[simp] theorem advance_rest : (c.advance n).rest = c.rest.drop n := rfl
@[simp] theorem advance_offset : (c.advance n).offset = c.offset + n := rfl
@[simp] theorem advance_mode : (c.advance n).mode = c.mode := rfl
@[simp] theorem advance_pulled : (c.advance n).pulled = c.pulled := rfl
@[simp] theorem advance_depth : (c.advance n).depth = c.depth := rfl
@[simp] theorem advance_input : (c.advance n).input = c.input := rfl
@[simp] theorem advance_zero : c.advance 0 = c := rfl

@[simp] theorem advance_advance : (c.advance m).advance n = c.advance (m + n) := by
  simp only [advance, List.drop_drop, Nat.add_assoc]

theorem Plain.advance (h : c.Plain) (n : Nat) : (c.advance n).Plain := ⟨h.text, h.unpulled⟩

theorem Plain.depth_update (h : c.Plain) (d : Nat) : ({ c with depth := d } : Cursor).Plain :=
  ⟨h.text, h.unpulled⟩

theorem start_plain (input : List UInt8) : (Cursor.start .text input).Plain := ⟨rfl, rfl⟩

end Cursor

/-! ## The bytes of a text -/

/-- The UTF-8 bytes of a text, character by character. -/
def textBytes (s : String) : List UInt8 := s.toList.flatMap String.utf8EncodeChar

/-- `ByteArray.toList` lists the bytes of the array in order: its loop conses the bytes from an
index on onto a reversed accumulator. -/
theorem byteArray_toList (bs : ByteArray) : bs.toList = bs.data.toList := by
  obtain ⟨data⟩ := bs
  have loop : ∀ i acc, ByteArray.toList.loop ⟨data⟩ i acc = acc.reverse ++ data.toList.drop i := by
    intro i acc
    fun_induction ByteArray.toList.loop ⟨data⟩ i acc with
    | case1 i acc hi ih =>
      have hi' : i < data.toList.length := hi
      have hget : ByteArray.get! ⟨data⟩ i = data.toList[i] := by
        simp only [ByteArray.get!, Array.getElem_toList]
        exact getElem!_pos data i hi
      rw [ih, List.reverse_cons, List.append_assoc, List.singleton_append, hget,
        ← List.drop_eq_getElem_cons hi']
    | case2 i acc hi =>
      rw [List.drop_eq_nil_of_le (Nat.le_of_not_lt hi), List.append_nil]
  unfold ByteArray.toList
  simpa using loop 0 []

/-- The reader sees a text as its `textBytes`. -/
theorem toUTF8_toList (s : String) : s.toUTF8.toList = textBytes s := by
  rw [byteArray_toList, String.toUTF8_eq_toByteArray, ← String.utf8Encode_toList, List.utf8Encode,
    List.toList_data_toByteArray, textBytes]

@[simp] theorem textBytes_append (s t : String) : textBytes (s ++ t) = textBytes s ++ textBytes t := by
  simp [textBytes, String.toList_append]

@[simp] theorem textBytes_ofList (cs : List Char) :
    textBytes (String.ofList cs) = cs.flatMap String.utf8EncodeChar := by
  simp [textBytes, String.toList_ofList]

namespace Reader

/-! ## Reading as a relation -/

/-- Run from the cursor `c`, the reader `r` succeeds with `a` and leaves the cursor at `c'`. -/
def Reads {α : Type} (r : Reader α) (c : Cursor) (a : α) (c' : Cursor) : Prop :=
  (ExceptT.run r).run c = (.ok a, c')

section Reads

variable {α β : Type} {x : Reader α} {f : α → Reader β} {c c' c₁ c₂ : Cursor} {a : α} {b : β}

theorem Reads.pure (a : α) (c : Cursor) : Reads (Pure.pure a) c a c := rfl

theorem Reads.bind (hx : Reads x c a c₁) (hf : Reads (f a) c₁ b c₂) : Reads (x >>= f) c b c₂ := by
  unfold Reads at *
  simp only [ExceptT.run_bind, StateT.run_bind, hx]
  exact hf

/-- A success through a `bind` is a success of its first step and then of the rest. -/
theorem Reads.bind_inv (h : Reads (x >>= f) c b c₂) :
    ∃ a c₁, Reads x c a c₁ ∧ Reads (f a) c₁ b c₂ := by
  unfold Reads at *
  simp only [ExceptT.run_bind, StateT.run_bind] at h
  rcases hx : (ExceptT.run x).run c with ⟨_ | a, c₁⟩
  · rw [hx] at h
    cases h
  · rw [hx] at h
    exact ⟨a, c₁, rfl, h⟩

/-- Once the first step of a `bind` is known, the `bind` reads what the rest reads. -/
theorem Reads.bind_iff (hx : Reads x c a c₁) : Reads (x >>= f) c b c₂ ↔ Reads (f a) c₁ b c₂ := by
  constructor
  · intro h
    obtain ⟨a', c₁', hx', hf⟩ := h.bind_inv
    unfold Reads at hx hx'
    rw [hx] at hx'
    cases hx'
    exact hf
  · exact hx.bind

theorem Reads.map (g : α → β) (h : Reads x c a c') : Reads (g <$> x) c (g a) c' := by
  rw [map_eq_pure_bind]
  exact h.bind (Reads.pure _ _)

/-- A reader followed by a pure function of its result reads the images of what it reads. -/
theorem Reads.bind_pure_iff {g : α → β} :
    Reads (x >>= fun a => Pure.pure (g a)) c b c' ↔ ∃ a, b = g a ∧ Reads x c a c' := by
  constructor
  · intro h
    obtain ⟨a, c₁, hx, hp⟩ := h.bind_inv
    unfold Reads at hp
    cases hp
    exact ⟨a, rfl, hx⟩
  · rintro ⟨a, rfl, hx⟩
    exact hx.bind (Reads.pure _ _)

/-- A reader reads one thing from a cursor. -/
theorem Reads.det {a' : α} (h₁ : Reads x c a c₁) (h₂ : Reads x c a' c₂) : a = a' ∧ c₁ = c₂ := by
  unfold Reads at h₁ h₂
  rw [h₁] at h₂
  cases h₂
  exact ⟨rfl, rfl⟩

/-- A whole run succeeds exactly when the reader reads from the start of the input. -/
theorem run_eq_ok {r : Reader α} {m : Mode} {input : List UInt8} :
    Reader.run r m input = .ok a ↔ ∃ c', Reads r (Cursor.start m input) a c' := by
  unfold Reader.run Reads
  constructor
  · intro h
    exact ⟨_, Prod.ext h rfl⟩
  · rintro ⟨c', h⟩
    rw [h]

end Reads

/-! ## The primitives on a plain cursor -/

variable {c : Cursor} {b : UInt8} {r : List UInt8}

theorem reads_get : Reads get c c c := rfl

theorem reads_fuel : Reads fuel c (c.rest.length + 1) c := rfl

/-- The fuel read at a cursor is any amount at most one more than the bytes left, plus some. -/
theorem reads_fuel_of_le {k : Nat} (hk : k ≤ c.rest.length + 1) : ∃ F, Reads fuel c (F + k) c :=
  ⟨c.rest.length + 1 - k, by rw [Nat.sub_add_cancel hk]; exact reads_fuel⟩

theorem reads_peek (hc : c.Plain) : Reads peek c c.rest.head? c := by
  obtain ⟨mode, input, rest, offset, pulled, depth⟩ := c
  obtain ⟨hm, -⟩ := hc
  dsimp only at hm
  subst hm
  cases rest <;> rfl

theorem reads_peekOrNull (hc : c.Plain) : Reads peekOrNull c (c.rest.headD 0) c := by
  have hd : c.rest.head?.getD 0 = c.rest.headD 0 := by cases c.rest <;> rfl
  unfold peekOrNull
  rw [← hd]
  exact (reads_peek hc).bind (Reads.pure _ _)

theorem reads_eat (hc : c.Plain) (h : c.rest = b :: r) : Reads eat c () (c.advance 1) := by
  obtain ⟨mode, input, rest, offset, pulled, depth⟩ := c
  obtain ⟨-, hp⟩ := hc
  dsimp only at hp h
  subst hp h
  rfl

theorem reads_eat_end (h : c.rest = []) : Reads eat c () c := by
  obtain ⟨mode, input, rest, offset, pulled, depth⟩ := c
  dsimp only at h
  subst h
  rfl

/-- At the end of the text, `next` gives nothing and consumes nothing. -/
theorem reads_next_end (hc : c.Plain) (h : c.rest = []) : Reads next c none c := by
  have hpeek : Reads peek c none c := by simpa [h] using reads_peek hc
  exact hpeek.bind ((reads_eat_end h).bind (Reads.pure none c))

theorem reads_next (hc : c.Plain) (h : c.rest = b :: r) : Reads next c (some b) (c.advance 1) := by
  have hpeek : Reads peek c (some b) c := by simpa [h] using reads_peek hc
  exact hpeek.bind ((reads_eat hc h).bind (Reads.pure _ _))

theorem reads_set (c' : Cursor) : Reads (set c' : Reader PUnit) c () c' := rfl

theorem reads_descend (h : 1 < c.depth) : Reads descend c () { c with depth := c.depth - 1 } := by
  have hd : c.depth - 1 ≠ 0 := by omega
  unfold descend
  refine reads_get.bind ((reads_set _).bind ?_)
  rw [if_neg hd]
  exact Reads.pure () _

theorem reads_ascend : Reads ascend c () { c with depth := c.depth + 1 } := rfl

/-- Ascending after descending restores the depth, wherever the cursor moved in between. -/
theorem ascend_descend_advance (hdepth : 1 < c.depth) (n : Nat) :
    ({ ((({ c with depth := c.depth - 1 } : Cursor).advance n)) with
        depth := (({ c with depth := c.depth - 1 } : Cursor).advance n).depth + 1 } : Cursor) =
      c.advance n := by
  obtain ⟨mode, input, rest, offset, pulled, depth⟩ := c
  simp only [Cursor.advance, Cursor.mk.injEq, true_and]
  simp only at hdepth
  omega

/-! ## Blanks and keywords -/

/-- Blanks in front of a byte that is not one are counted exactly. -/
theorem blankCount_append {l : List UInt8} (hbl : ∀ x ∈ l, isBlank x = true)
    (hr : ∀ x ∈ r.head?, isBlank x = false) : blankCount (l ++ r) = l.length := by
  induction l with
  | nil =>
    cases r with
    | nil => rfl
    | cons x r => simp [blankCount, hr x rfl]
  | cons x l ih =>
    simp only [List.mem_cons, forall_eq_or_imp] at hbl
    simp [blankCount, hbl.1, ih hbl.2]

/-- The blanks in front are skipped and the byte after them is looked at. -/
theorem reads_skipBlanks (hc : c.Plain) {l : List UInt8} (h : c.rest = l ++ r)
    (hbl : ∀ x ∈ l, isBlank x = true) (hr : ∀ x ∈ r.head?, isBlank x = false) :
    Reads skipBlanks c r.head? (c.advance l.length) := by
  have hcount : blankCount c.rest = l.length := by rw [h]; exact blankCount_append hbl hr
  have hpeek : Reads peek (c.advance l.length) r.head? (c.advance l.length) := by
    simpa [h] using reads_peek (hc.advance l.length)
  unfold skipBlanks
  refine reads_get.bind ?_
  by_cases hz : l.length = 0
  · have hnil : l = [] := List.eq_nil_of_length_eq_zero hz
    subst hnil
    simp only [hcount, List.length_nil, Cursor.advance_zero, ne_eq, not_true_eq_false,
      if_false] at hpeek ⊢
    exact hpeek
  · simp only [hcount, ne_eq, hz, not_false_eq_true, if_true]
    have hcur : ({ c with rest := c.rest.drop l.length, offset := c.offset + l.length,
                          pulled := false } : Cursor) = c.advance l.length := by
      obtain ⟨mode, input, rest, offset, pulled, depth⟩ := c
      obtain ⟨-, hp⟩ := hc
      dsimp only at hp
      subst hp
      rfl
    have hset := reads_set (c := c) (c.advance l.length)
    rw [← hcur] at hset hpeek ⊢
    exact hset.bind hpeek

/-- The letters of a keyword are consumed. -/
theorem reads_expectWord (hc : c.Plain) {w : List UInt8} (h : c.rest = w ++ r) :
    Reads (expectWord w) c () (c.advance w.length) := by
  induction w generalizing c with
  | nil => exact Reads.pure () c
  | cons x ws ih =>
    have hnext := reads_next hc (h.trans (List.cons_append ..))
    have hrest : (c.advance 1).rest = ws ++ r := by simp [h]
    have htail := ih (hc.advance 1) hrest
    rw [Cursor.advance_advance, Nat.add_comm] at htail
    unfold expectWord
    exact hnext.bind (by simpa using htail)

end Reader

end RegionTrack.Json
