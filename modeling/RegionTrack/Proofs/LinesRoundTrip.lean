import RegionTrack.Proofs.RecordText
import RegionTrack.Proofs.MetadataRoundTrip

/-!
# Observations written as lines read back

Observations are written in the `lines` format one compact record and one newline each
(`writeLines`), and read back as a stream by a loop that reads one record at a time and stops at
the first that fails (`readLines`). This module shows that the two agree.

Every line holds exactly one newline, at its end. When every frame fits in 64 bits and every
number of every rectangle is finite and its text reads back (the one assumption about decimal
text, `Json.FloatReadsBack`), the lines read back as the observations, in order and bit for bit.
A number that is not finite is written `null`, which no number field reads: then the
observations before it read back and its record ends the data with a single error.

The record of one observation is read by the record shape as the compact object of its six
fields (`Json.Shape.reads_record_object`), in a complete text; the stream is then read as the
same bytes, since every reader of a record succeeds alike in both (`Json.Reader.ModeFree`).

## Main definitions

* `Observation.lineMembers`: the members of an observation's record, names and texts
* `Observation.lineFields`, `Observation.lineValues`: the fields of the record and their values

## Main results

* `Observation.reads_line`: a record reads back as its observation
* `Observation.not_reads_line`: a record with `null` for a number fails
* `readLines_writeLines`: the round trip of a list of observations
-/

namespace RegionTrack

namespace Rect

/-- The five numbers of a rectangle, in the order they are written. -/
def values (r : Rect) : List Float := [r.cx, r.cy, r.width, r.height, r.angle]

@[simp] theorem length_values (r : Rect) : r.values.length = 5 := rfl

end Rect

namespace Observation

open Json Reader Record

/-- The names of the number fields of a record, in the order they are written. -/
def floatNames : List String := ["cx", "cy", "width", "height", "angle"]

/-- The fields of a record of the `lines` format. -/
def lineFields : List Field :=
  [frameField "frame", floatField "cx", floatField "cy", floatField "width", floatField "height",
    floatField "angle" (some (.number (.float 0.0)))]

/-- The values of the fields of an observation's record. -/
def lineValues (o : Observation) : List Value :=
  .ofNat o.frame :: o.rect.values.map fun x => .number (.float x)

/-- The members of an observation's record: the name and the text of each field. -/
def lineMembers (o : Observation) : List (String × List UInt8) :=
  ("frame", textBytes (toString o.frame)) ::
    (floatNames.zip o.rect.values).map fun p => (p.1, textBytes (Number.float p.2).text)

/-- A record is its members in braces. -/
theorem textBytes_line (o : Observation) :
    textBytes o.line = 123 :: (membersText true (lineMembers o) ++ [125]) := by
  have hframe : textBytes "\x7b\"frame\":" = 123 :: memberKeyText true "frame" := by decide +kernel
  have hcx : textBytes ",\"cx\":" = memberKeyText false "cx" := by decide +kernel
  have hcy : textBytes ",\"cy\":" = memberKeyText false "cy" := by decide +kernel
  have hwidth : textBytes ",\"width\":" = memberKeyText false "width" := by decide +kernel
  have hheight : textBytes ",\"height\":" = memberKeyText false "height" := by decide +kernel
  have hangle : textBytes ",\"angle\":" = memberKeyText false "angle" := by decide +kernel
  have hclose : textBytes "\x7d" = [125] := by decide +kernel
  unfold line
  simp only [textBytes_append]
  rw [hframe, hcx, hcy, hwidth, hheight, hangle, hclose]
  simp only [lineMembers, floatNames, Rect.values, List.zip_cons_cons, List.zip_nil_left,
    List.map_cons, List.map_nil, membersText, List.append_assoc, List.cons_append, List.nil_append]

theorem readsText_frameField {name : String} {n : Nat} (h : n ≤ maxU64) :
    ReadsText (frameField name).shape (textBytes (toString n)) (.ofNat n) :=
  (readsText_unsigned h h).map _

theorem readsText_floatField {x : Float} (hx : x.isFinite = true) (hback : FloatReadsBack x) :
    ReadsText (Shape.float.map fun x => Value.number (.float x)) (textBytes (Number.float x).text)
      (.number (.float x)) := by
  rw [Number.text, if_pos hx]
  exact (readsText_float hx hback).map _

/-- The number fields of a record read floats. -/
theorem shape_lineField_succ {i : Nat} (hi : i + 1 < lineFields.length) :
    lineFields[i + 1].shape = Shape.float.map fun x => .number (.float x) := by
  have h5 : i < 5 := by
    simp only [lineFields, List.length_cons, List.length_nil] at hi
    omega
  interval_cases i <;> rfl

theorem names_lineMembers (o : Observation) : (lineMembers o).map Prod.fst = "frame" :: floatNames := by
  simp [lineMembers, floatNames, Rect.values]

theorem names_lineFields : lineFields.map (·.name) = "frame" :: floatNames := rfl

/-- The fields of a record have distinct names. -/
theorem nodup_lineNames : ("frame" :: floatNames).Nodup := by
  simp [floatNames]

theorem nodup_names_lineFields : (lineFields.map (·.name)).Nodup := by
  rw [names_lineFields]
  exact nodup_lineNames

theorem nodup_names_lineMembers (o : Observation) : ((lineMembers o).map Prod.fst).Nodup := by
  rw [names_lineMembers]
  exact nodup_lineNames

/-- Each field of a record is named by a member. -/
theorem name_mem_lineMembers (o : Observation) {f : Field} (hf : f ∈ lineFields) :
    f.name ∈ (lineMembers o).map Prod.fst := by
  rw [names_lineMembers, ← names_lineFields]
  exact List.mem_map_of_mem hf

@[simp] theorem length_lineMembers (o : Observation) : (lineMembers o).length = 6 := by
  simp [lineMembers, floatNames, Rect.values]

@[simp] theorem length_lineValues (o : Observation) : (lineValues o).length = 6 := by
  simp [lineValues]

@[simp] theorem length_lineFields : lineFields.length = 6 := rfl

/-- The member of a number of an observation's record: its name and its text. -/
theorem getElem_lineMembers_succ (o : Observation) {j : Nat} (hj : j < 5)
    (hm : j + 1 < (lineMembers o).length) :
    (lineMembers o)[j + 1] = (floatNames[j], textBytes (Number.float o.rect.values[j]).text) := by
  simp only [lineMembers, List.getElem_cons_succ, List.getElem_map, List.getElem_zip]
  rfl

theorem getElem_lineValues_succ (o : Observation) {j : Nat} (hj : j < 5)
    (hv : j + 1 < (lineValues o).length) :
    (lineValues o)[j + 1] = Value.number (.float o.rect.values[j]) := by
  simp only [lineValues, List.getElem_cons_succ, List.getElem_map]
  rfl

/-- Each member of an observation's record names its field. -/
theorem name_lineField (o : Observation) {i : Nat} (hi : i < (lineMembers o).length) :
    ∃ _ : i < lineFields.length, lineFields[i].name = (lineMembers o)[i].1 := by
  have h6 : i < 6 := length_lineMembers o ▸ hi
  interval_cases i <;> exact ⟨by decide, rfl⟩

/-- The field of each member of an observation's record reads the member's text as its value,
when the member is a 64-bit frame or a finite number that reads back. -/
theorem readsText_lineMember (o : Observation) (hframe : o.frame ≤ maxU64) {i : Nat}
    (hi : i < (lineMembers o).length)
    (hnum : ∀ j x, i = j + 1 → o.rect.values[j]? = some x → x.isFinite = true ∧ FloatReadsBack x) :
    ∃ f v, lineFields[i]? = some f ∧ (lineValues o)[i]? = some v ∧
      ReadsText f.shape (lineMembers o)[i].2 v := by
  have hf : i < lineFields.length := by simpa using hi
  have hv : i < (lineValues o).length := by simpa using hi
  refine ⟨_, _, List.getElem?_eq_getElem hf, List.getElem?_eq_getElem hv, ?_⟩
  cases i with
  | zero =>
    simp only [lineFields, lineMembers, lineValues, List.getElem_cons_zero]
    exact readsText_frameField hframe
  | succ j =>
    have hj : j < 5 := by simp at hi; omega
    obtain ⟨hx, hb⟩ := hnum j _ rfl (List.getElem?_eq_getElem (by simpa using hj))
    rw [shape_lineField_succ hf, getElem_lineMembers_succ o hj hi, getElem_lineValues_succ o hj hv]
    dsimp only
    exact readsText_floatField hx hb

/-- The members of an observation's record that read, for the record reader. -/
theorem readsText_lineMembers (o : Observation) (hframe : o.frame ≤ maxU64) {ms : List (String × List UInt8)}
    (hms : ∀ m ∈ ms, ∃ i, ∃ (hi : i < (lineMembers o).length), (lineMembers o)[i] = m ∧
      ∀ j x, i = j + 1 → o.rect.values[j]? = some x → x.isFinite = true ∧ FloatReadsBack x) :
    ∀ m ∈ ms, ∃ i, ∃ (_ : i < lineFields.length) (_ : i < (lineValues o).length),
      lineFields[i].name = m.1 ∧ ReadsTextBelow 0 lineFields[i].shape m.2 (lineValues o)[i] := by
  intro m hm
  obtain ⟨i, hi, rfl, hnum⟩ := hms m hm
  obtain ⟨hf, hname⟩ := name_lineField o hi
  obtain ⟨f, v, hfi, hvi, hread⟩ := readsText_lineMember o hframe hi hnum
  obtain ⟨hfield, rfl⟩ := List.getElem?_eq_some_iff.1 hfi
  obtain ⟨hv, rfl⟩ := List.getElem?_eq_some_iff.1 hvi
  exact ⟨i, hf, hv, hname, hread.below 0⟩

/-- **A record reads back as its observation**, in a text, when its frame fits in 64 bits and its
numbers are finite and read back. -/
theorem reads_line {c : Cursor} {r : List UInt8} {o : Observation} (hframe : o.frame ≤ maxU64)
    (hnum : ∀ x ∈ o.rect.values, x.isFinite = true ∧ FloatReadsBack x) (hc : c.Plain)
    (hdepth : 1 < c.depth) (hrest : c.rest = textBytes o.line ++ r) :
    Reads Observation.shape.read c o (c.advance (textBytes o.line).length) := by
  have hread := readsText_lineMembers o hframe fun m (hm : m ∈ lineMembers o) => by
    obtain ⟨i, hi, rfl⟩ := List.mem_iff_getElem.1 hm
    exact ⟨i, hi, rfl, fun _ x _ hx => hnum x (List.mem_of_getElem? hx)⟩
  have hrec := Shape.reads_record_object "BoxRecord" nodup_names_lineFields rfl hread
    (nodup_names_lineMembers o)
    (fun i hi _ hnot => absurd (name_mem_lineMembers o (List.getElem_mem hi)) hnot)
    hc hdepth (r := r) (by rw [hrest, textBytes_line]; simp)
  show Reads (_ <$> (Shape.record "BoxRecord" lineFields).read) c o _
  rw [textBytes_line, List.length_cons, List.length_append, List.length_singleton, Nat.add_assoc]
  exact hrec.map _

/-- A number that is not finite is written `null`. -/
theorem getElem_lineMembers_of_not_finite (o : Observation) {j : Nat} (hj : j < 5)
    (hm : j + 1 < (lineMembers o).length)
    (hnull : ∀ x, o.rect.values[j]? = some x → x.isFinite = false) :
    (lineMembers o)[j + 1] = (floatNames[j], textBytes "null") := by
  have hx : o.rect.values[j].isFinite = false := hnull _ (List.getElem?_eq_getElem _)
  rw [getElem_lineMembers_succ o hj hm, Number.text, if_neg (by simp [hx])]

/-- **A record with `null` for a number is not read**: the members before it read, and `null`
is read by no number field. -/
theorem not_reads_line {c c' : Cursor} {r : List UInt8} {o : Observation}
    (hframe : o.frame ≤ maxU64) {j : Nat} (hj : j < 5)
    (hbefore : ∀ i x, i < j → o.rect.values[i]? = some x → x.isFinite = true ∧ FloatReadsBack x)
    (hnull : ∀ x, o.rect.values[j]? = some x → x.isFinite = false) (hc : c.Plain)
    (hdepth : 1 < c.depth) (hrest : c.rest = textBytes o.line ++ r) (v : Observation) :
    ¬ Reads Observation.shape.read c v c' := by
  intro h
  have hlen : j + 1 < (lineMembers o).length := by simp; omega
  have hbad := getElem_lineMembers_of_not_finite o hj hlen hnull
  have hsplit : lineMembers o = (lineMembers o).take (j + 1) ++
      [(floatNames[j], textBytes "null")] ++ (lineMembers o).drop (j + 2) := by
    rw [← hbad, List.append_assoc, List.singleton_append, ← List.drop_eq_getElem_cons hlen,
      List.take_append_drop]
  have hrest' : c.rest = 123 :: (membersText true ((lineMembers o).take (j + 1) ++
      [(floatNames[j], textBytes "null")]) ++ (membersText false ((lineMembers o).drop (j + 2)) ++
        125 :: r)) := by
    rw [hrest, textBytes_line]
    have hne : ((lineMembers o).take (j + 1) ++ [(floatNames[j], textBytes "null")]).isEmpty =
        false := by
      cases (lineMembers o).take (j + 1) <;> rfl
    nth_rewrite 1 [hsplit]
    rw [membersText_append]
    simp [hne]
  have hread := readsText_lineMembers o hframe
    fun m (hm : m ∈ (lineMembers o).take (j + 1)) => by
    obtain ⟨i, hi, rfl⟩ := List.mem_iff_getElem.1 hm
    have hij : i < j + 1 := by simp at hi; omega
    exact ⟨i, by simp at hi; omega, List.getElem_take.symm,
      fun i' x hi' hx => hbefore i' x (by omega) hx⟩
  have hkeys : (((lineMembers o).take (j + 1)).map Prod.fst ++ [floatNames[j]]).Nodup := by
    have hall := nodup_names_lineMembers o
    rw [hsplit, List.map_append, List.map_append] at hall
    simpa using (List.nodup_append.1 hall).1
  obtain ⟨hf, hname⟩ := name_lineField o hlen
  obtain ⟨vals, -, hrec⟩ := Reads.map_inv (x := (Shape.record "BoxRecord" lineFields).read) h
  refine Shape.not_reads_record_object "BoxRecord" nodup_names_lineFields (by simp) hread hkeys hf
    (by rw [hname]; exact congrArg Prod.fst hbad) ?_ hc hdepth hrest' vals hrec
  intro d hd hdrest w d' hw
  rw [shape_lineField_succ] at hw
  obtain ⟨x, -, hx⟩ := Reads.map_inv hw
  exact not_reads_number_null hd (by rw [hdrest]; rfl) hx

/-- An observation whose record reads back: its frame fits in 64 bits, and its numbers are
finite and their texts read back. -/
structure ReadsBack (o : Observation) : Prop where
  frame : o.frame ≤ maxU64
  numbers : ∀ x ∈ o.rect.values, x.isFinite = true ∧ FloatReadsBack x

/-- A record of the `lines` format reads the same from a stream as from a text. -/
theorem modeFree_shape_read : ModeFree Observation.shape.read := by
  refine ModeFree.shape_map _ (modeFree_record_read _ fun f hf => ?_)
  simp only [List.mem_cons, List.not_mem_nil, or_false] at hf
  rcases hf with rfl | rfl | rfl | rfl | rfl | rfl <;> exact (modeFree_number_read _ _).shape_map _

end Observation

/-! ## Lines read as a stream -/

open Json Reader Observation

theorem writeLines_cons (o : Observation) (os : List Observation) :
    writeLines (o :: os) = o.line ++ "\n" ++ writeLines os := by
  simp [writeLines]

theorem textBytes_writeLines_cons (o : Observation) (os : List Observation) :
    textBytes (writeLines (o :: os)) = textBytes o.line ++ 10 :: textBytes (writeLines os) := by
  rw [writeLines_cons, textBytes_append, textBytes_append, show textBytes "\n" = [10] by decide +kernel]
  simp

/-- Every line takes a byte at least, its newline. -/
theorem length_le_textBytes_writeLines (os : List Observation) :
    os.length ≤ (textBytes (writeLines os)).length := by
  induction os with
  | nil => simp
  | cons o os ih =>
    rw [textBytes_writeLines_cons]
    simp only [List.length_append, List.length_cons]
    omega

/-- The newline after a record is a blank before the next. -/
theorem blank_newline : ∀ y ∈ ([10] : List UInt8), isBlank y = true := fun y hy => by
  rw [List.mem_singleton.1 hy]
  rfl

/-- In a stream, blanks are skipped up to the opening brace of a record. -/
theorem reads_skipBlanks_record {d : Cursor} {l : List UInt8} (hbl : ∀ y ∈ l, isBlank y = true)
    {o : Observation} {s : List UInt8} (hrest : d.rest = l ++ (textBytes o.line ++ s)) :
    ∃ d₁, Reads skipBlanks d (some 123) d₁ ∧ (d.toText.advance l.length).SamePlace d₁ := by
  rw [textBytes_line] at hrest
  exact modeFree_skipBlanks.of_toText
    (reads_skipBlanks (Cursor.toText_plain d) (r := 123 :: _) (by exact hrest) hbl
      (head_not_blank rfl))

/-- One turn of the loop over lines: blanks, a record that reads back, and the loop goes on from
the newline after it. The record is read as a text, and so as the stream at the same place. -/
theorem reads_readRecords_cons {o : Observation} (ho : o.ReadsBack) {d : Cursor}
    {l s : List UInt8} {F : Nat} {P : List (Except Error Observation) → Prop}
    (hbl : ∀ y ∈ l, isBlank y = true) (hrest : d.rest = l ++ (textBytes o.line ++ 10 :: s))
    (hdepth : 1 < d.depth)
    (hnext : ∀ d₂ : Cursor, d₂.rest = 10 :: s → 1 < d₂.depth →
      ∃ items d₃, P items ∧ Reads (readRecords F) d₂ items d₃) :
    ∃ items d', P items ∧ Reads (readRecords (F + 1)) d (.ok o :: items) d' := by
  obtain ⟨d₁, hskip, h₁⟩ := reads_skipBlanks_record hbl hrest
  have hline := reads_line (c := d₁.toText) (r := 10 :: s) ho.frame ho.numbers
    (Cursor.toText_plain d₁) (show 1 < d₁.depth by rw [← h₁.depth]; exact hdepth)
    (show d₁.rest = _ by rw [← h₁.rest]; simp [Cursor.toText, hrest])
  obtain ⟨d₂, hshape, h₂⟩ := modeFree_shape_read.of_toText hline
  obtain ⟨items, d₃, hP, hloop⟩ := hnext d₂
    (by
      rw [← h₂.rest, show (d₁.toText.advance _).rest = d₁.rest.drop _ from rfl, ← h₁.rest]
      simp [Cursor.toText, hrest])
    (by
      rw [← h₂.depth]
      show 1 < d₁.depth
      rw [← h₁.depth]
      exact hdepth)
  exact ⟨items, d₃, hP, by
    rw [readRecords]
    exact hskip.bind ((reads_catching_ok_iff.2 hshape).bind (hloop.bind (Reads.pure _ _)))⟩

/-- **The loop over lines.** From blanks before the lines of observations whose records read
back, the loop reads every record back as its observation, in order, and stops at the end. -/
theorem reads_readRecords_writeLines : ∀ (os : List Observation), (∀ o ∈ os, o.ReadsBack) →
    ∀ (d : Cursor) (l : List UInt8) (F : Nat), (∀ y ∈ l, isBlank y = true) →
      d.rest = l ++ textBytes (writeLines os) → 1 < d.depth → os.length < F →
      ∃ d', Reads (readRecords F) d (os.map .ok) d'
  | [], _, d, l, F, hbl, hrest, _, hF => by
    obtain ⟨F, rfl⟩ : ∃ F', F = F' + 1 := ⟨F - 1, by omega⟩
    obtain ⟨d₁, hskip, -⟩ := modeFree_skipBlanks.of_toText
      (reads_skipBlanks (Cursor.toText_plain d) (r := [])
        (by simpa [writeLines, textBytes, Cursor.toText] using hrest) hbl (by simp))
    exact ⟨d₁, by rw [readRecords]; exact hskip.bind (Reads.pure _ _)⟩
  | o :: os, hos, d, l, F, hbl, hrest, hdepth, hF => by
    obtain ⟨F, rfl⟩ : ∃ F', F = F' + 1 := ⟨F - 1, by simp at hF; omega⟩
    rw [textBytes_writeLines_cons] at hrest
    obtain ⟨items, d', rfl, hread⟩ := reads_readRecords_cons (P := (· = os.map .ok))
      (hos o List.mem_cons_self) hbl hrest hdepth fun d₂ hd₂ hdepth₂ => by
        obtain ⟨d₃, h⟩ := reads_readRecords_writeLines os
          (fun p hp => hos p (List.mem_cons_of_mem o hp)) d₂ [10] F
          blank_newline hd₂ hdepth₂ (by simp at hF; omega)
        exact ⟨_, d₃, rfl, h⟩
    exact ⟨d', hread⟩

/-- **The loop stops at a record that fails.** From blanks before the lines of observations
whose records read back and then the line of one whose record no text reads, the loop reads the
observations before it and ends with the error of that record, which fails as a text and so as
the stream at the same place. -/
theorem reads_readRecords_writeLines_failure {o : Observation}
    (hbad : ∀ (c c' : Cursor) (r : List UInt8) (v : Observation), c.Plain → 1 < c.depth →
      c.rest = textBytes o.line ++ r → ¬ Reads Observation.shape.read c v c')
    (post : List Observation) :
    ∀ (pre : List Observation), (∀ p ∈ pre, p.ReadsBack) → ∀ (d : Cursor) (l : List UInt8) (F : Nat),
      (∀ y ∈ l, isBlank y = true) → d.rest = l ++ textBytes (writeLines (pre ++ o :: post)) →
      1 < d.depth → pre.length < F → ∃ e d', Reads (readRecords F) d (pre.map .ok ++ [.error e]) d'
  | [], _, d, l, F, hbl, hrest, hdepth, hF => by
    obtain ⟨F, rfl⟩ : ∃ F', F = F' + 1 := ⟨F - 1, by omega⟩
    rw [List.nil_append, textBytes_writeLines_cons] at hrest
    obtain ⟨d₁, hskip, h₁⟩ := reads_skipBlanks_record hbl hrest
    have hfail : ∀ v d', ¬ Reads Observation.shape.read d₁ v d' :=
      modeFree_shape_read.not_reads (fun v c' => hbad d₁.toText c' (10 :: textBytes (writeLines post))
        v (Cursor.toText_plain d₁) (show 1 < d₁.depth by rw [← h₁.depth]; exact hdepth)
        (show d₁.rest = _ by rw [← h₁.rest]; simp [Cursor.toText, hrest]))
        (Cursor.samePlace_toText d₁)
    obtain ⟨e, d₂, hrun⟩ := exists_error_of_not_reads (r := Except.ok <$> Observation.shape.read)
      fun a d' h => by
        obtain ⟨v, -, hv⟩ := Reads.map_inv h
        exact hfail v d' hv
    exact ⟨e, d₂, by
      rw [readRecords]
      exact hskip.bind ((Reads.tryCatch_iff.2 (.inr ⟨e, d₂, hrun, Reads.pure _ _⟩)).bind
        (Reads.pure _ _))⟩
  | p :: pre, hpre, d, l, F, hbl, hrest, hdepth, hF => by
    obtain ⟨F, rfl⟩ : ∃ F', F = F' + 1 := ⟨F - 1, by simp at hF; omega⟩
    rw [List.cons_append, textBytes_writeLines_cons] at hrest
    obtain ⟨items, d', ⟨e, rfl⟩, hread⟩ :=
      reads_readRecords_cons (P := fun items => ∃ e, items = pre.map .ok ++ [.error e])
        (hpre p List.mem_cons_self) hbl hrest hdepth fun d₂ hd₂ hdepth₂ => by
          obtain ⟨e, d₃, h⟩ := reads_readRecords_writeLines_failure hbad post pre
            (fun q hq => hpre q (List.mem_cons_of_mem p hq)) d₂ [10] F
            blank_newline hd₂ hdepth₂ (by simp at hF; omega)
          exact ⟨_, d₃, ⟨e, rfl⟩, h⟩
    exact ⟨e, d', hread⟩

/-- Lines whose records read back are read back as their observations. -/
theorem readLines_writeLines_of_readsBack {os : List Observation} (hos : ∀ o ∈ os, o.ReadsBack) :
    readLines (writeLines os).toUTF8.toList = os.map .ok := by
  obtain ⟨d', h⟩ := reads_readRecords_writeLines os hos
    (Cursor.start .stream (textBytes (writeLines os))) [] _ (by simp) rfl (by simp [Cursor.start])
    (Nat.lt_succ_of_le (length_le_textBytes_writeLines os))
  unfold readLines
  rw [toUTF8_toList, run_eq_ok.2 ⟨d', h⟩, List.map_map]
  rfl

/-- Lines whose records read back, then one whose record no text reads, are read back as the
observations before it and then the error of its record. -/
theorem readLines_writeLines_of_failure {pre post : List Observation} {o : Observation}
    (hpre : ∀ p ∈ pre, p.ReadsBack)
    (hbad : ∀ (c c' : Cursor) (r : List UInt8) (v : Observation), c.Plain → 1 < c.depth →
      c.rest = textBytes o.line ++ r → ¬ Reads Observation.shape.read c v c') :
    ∃ e, readLines (writeLines (pre ++ o :: post)).toUTF8.toList =
      pre.map .ok ++ [.error (.badRecord e)] := by
  have hlen : pre.length < (textBytes (writeLines (pre ++ o :: post))).length + 1 := by
    have := length_le_textBytes_writeLines (pre ++ o :: post)
    simp only [List.length_append, List.length_cons] at this
    omega
  obtain ⟨e, d', h⟩ := reads_readRecords_writeLines_failure hbad post pre hpre
    (Cursor.start .stream (textBytes (writeLines (pre ++ o :: post)))) [] _ (by simp) rfl
    (by simp [Cursor.start])
    hlen
  refine ⟨e, ?_⟩
  unfold readLines
  rw [toUTF8_toList, run_eq_ok.2 ⟨d', h⟩, List.map_append, List.map_map]
  rfl

/-! ## Newlines -/

theorem not_numberChar_newline : ¬ NumberChar '\n' := by
  unfold NumberChar
  decide

theorem count_newline_toString (n : Nat) : (toString n).toList.count '\n' = 0 :=
  List.count_eq_zero.2 fun h => not_numberChar_newline ((digitText_toString n).chars _ h)

/-- The text of a number is number characters, or `null`. -/
theorem count_newline_text (x : Float) : (Number.float x).text.toList.count '\n' = 0 := by
  refine List.count_eq_zero.2 fun h => ?_
  rw [Number.text] at h
  split at h
  next hx =>
    obtain ⟨body, hbody, hr | hr⟩ := digitText_render hx
    · rw [hr] at h
      exact not_numberChar_newline (hbody.chars _ h)
    · rw [hr, String.toList_append, List.mem_append] at h
      rcases h with h | h
      · simp at h
      · exact not_numberChar_newline (hbody.chars _ h)
  next => simp at h

/-- A record holds no newline. -/
theorem count_newline_line (o : Observation) : o.line.toList.count '\n' = 0 := by
  unfold line
  simp only [String.toList_append, List.count_append, count_newline_toString, count_newline_text,
    Nat.add_zero]
  rfl

/-- Lines hold one newline each. -/
theorem count_newline_writeLines (os : List Observation) :
    (writeLines os).toList.count '\n' = os.length := by
  induction os with
  | nil => simp [writeLines]
  | cons o os ih =>
    rw [writeLines_cons, String.toList_append, String.toList_append, List.count_append,
      List.count_append, count_newline_line, ih]
    simp
    omega

/-! ## The round trip -/

/-- **Observations written as lines read back.** The lines hold one newline per observation.
When every frame fits in 64 bits and the text of every finite number reads back, the lines read
back as the observations, in order and bit for bit, if all their numbers are finite; and if an
observation with a number that is not finite follows observations whose numbers are all finite,
they read back as those observations and then a single error, that of its record, where the
number is written `null`: the first of its numbers that is not finite comes after numbers that
read back. -/
theorem readLines_writeLines (os : List Observation) (hframe : ∀ o ∈ os, o.frame ≤ maxU64)
    (hback : ∀ o ∈ os, ∀ x ∈ o.rect.values, x.isFinite = true → FloatReadsBack x) :
    (writeLines os).toList.count '\n' = os.length ∧
    ((∀ o ∈ os, ∀ x ∈ o.rect.values, x.isFinite = true) →
      readLines (writeLines os).toUTF8.toList = os.map .ok) ∧
    (∀ pre o post, os = pre ++ o :: post → (∀ p ∈ pre, ∀ x ∈ p.rect.values, x.isFinite = true) →
      (∃ x ∈ o.rect.values, x.isFinite = false) →
      ∃ e, readLines (writeLines os).toUTF8.toList = pre.map .ok ++ [.error (.badRecord e)]) := by
  have hreads : ∀ o ∈ os, (∀ x ∈ o.rect.values, x.isFinite = true) → o.ReadsBack :=
    fun o ho hfin => ⟨hframe o ho, fun x hx => ⟨hfin x hx, hback o ho x hx (hfin x hx)⟩⟩
  refine ⟨count_newline_writeLines os,
    fun hfin => readLines_writeLines_of_readsBack fun o ho => hreads o ho (hfin o ho), ?_⟩
  rintro pre o post rfl hpre ⟨x, hx, hnf⟩
  have ho : o ∈ pre ++ o :: post := by simp
  classical
  have hex : ∃ j : Nat, ∃ y : Float, o.rect.values[j]? = some y ∧ y.isFinite = false := by
    obtain ⟨j, hj, rfl⟩ := List.mem_iff_getElem.1 hx
    exact ⟨j, _, List.getElem?_eq_getElem hj, hnf⟩
  obtain ⟨y, hy, hyf⟩ := Nat.find_spec hex
  have hj : Nat.find hex < 5 := by
    simpa using (List.getElem?_eq_some_iff.1 hy).1
  have hbefore : ∀ i z, i < Nat.find hex → o.rect.values[i]? = some z →
      z.isFinite = true ∧ FloatReadsBack z := by
    intro i z hi hz
    have hfin : z.isFinite = true := by
      by_contra hnot
      exact Nat.find_min hex hi ⟨z, hz, by simpa using hnot⟩
    exact ⟨hfin, hback o ho z (List.mem_of_getElem? hz) hfin⟩
  have hnull : ∀ z, o.rect.values[Nat.find hex]? = some z → z.isFinite = false := by
    intro z hz
    rw [hy] at hz
    cases hz
    exact hyf
  exact readLines_writeLines_of_failure
    (fun p hp => hreads p (by simp [hp]) (hpre p hp))
    fun c c' r v hc hd hr => not_reads_line (hframe o ho) hj hbefore hnull hc hd hr v

/-- Two observations, the second at an earlier frame, are written as two lines and read back in
the order written; when the second has a number that is not finite, the first reads back and the
second ends the data with one error. -/
theorem readLines_writeLines_pair :
    let a : Observation := ⟨3, ⟨0.5, 0.5, 1.0, 1.0, 0.5⟩⟩
    let b : Observation := ⟨1, ⟨1.0, 1.0, 0.5, 0.5, 1.0⟩⟩
    let c : Observation := ⟨2, ⟨1.0, 0.0 / 0.0, 1.0, 1.0, 1.0⟩⟩
    (writeLines [a, b]).toList.count '\n' = 2 ∧
      readLines (writeLines [a, b]).toUTF8.toList = [.ok a, .ok b] ∧
      ∃ e, readLines (writeLines [a, c]).toUTF8.toList = [.ok a, .error (.badRecord e)] := by
  dsimp only
  have hhalf : Json.FloatReadsBack 0.5 := by
    have hread : Json.Value.parse "0.5" =
        .ok (.number (.float (Float.ofNat 5 / Json.Reader.powerOfTen 1))) := by
      rw [Json.Value.parse, show "0.5".toUTF8.toList = [48, 46, 53] by decide +kernel]
      rfl
    have hbits : Float.ofNat 5 / Json.Reader.powerOfTen 1 = 0.5 :=
      FloatBits.eq_of_toBits_eq (by decide +kernel)
    rw [Json.FloatReadsBack, show Json.floatFormat.render 0.5 = "0.5" by decide +kernel, hread,
      hbits]
  have hback : ∀ os : List Observation,
      (∀ o ∈ os, ∀ x ∈ o.rect.values, x.isFinite = true → x = 0.5 ∨ x = 1.0) →
      ∀ o ∈ os, ∀ x ∈ o.rect.values, x.isFinite = true → Json.FloatReadsBack x := by
    intro os hos o ho x hx hfin
    rcases hos o ho x hx hfin with rfl | rfl
    · exact hhalf
    · exact Json.floatReadsBack_one
  refine ⟨(readLines_writeLines _ (by decide) (hback _ ?_)).1,
    (readLines_writeLines _ (by decide) (hback _ ?_)).2.1 (by decide),
    (readLines_writeLines _ (by decide) (hback _ ?_)).2.2 [_] _ [] rfl (by decide)
      ⟨0.0 / 0.0, by simp [Rect.values], by decide⟩⟩
  all_goals simp +decide

end RegionTrack
