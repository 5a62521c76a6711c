import RegionTrack.Proofs.ReadModes
import RegionTrack.Proofs.ReadPretty
import RegionTrack.Proofs.ShapeValues

/-!
# Records read from their text

A record is read from text by the shape reader, which goes through the members of an object
once, giving each to the shape of the field it names. This module follows that reader over the
text of a compact object, `{"k₀":t₀,"k₁":t₁,…}`, in a complete text.

A field's part is stated once, for any shape: `Reader.ReadsText s t v` says that `s` reads the
text `t` as `v` wherever `t` stands before something that ends a number, consuming exactly `t`.
Floats whose text reads back, and integers within the bound, are read so
(`Reader.readsText_float`, `Reader.readsText_unsigned`). The member loop then reads the members
in any order, each recorded in its field's place (`Record.foundNamed` is the invariant), and the
record gives the values of its fields when every field has a member (`Reader.reads_record_object`).
A member whose field cannot read it makes the whole record fail
(`Reader.not_reads_record_object`); `null` is such a member for every number field.

Objects and arrays nest, and each level spends one of the levels of nesting a cursor allows, so
for a text that opens brackets the law is stated from cursors with levels to spare
(`Reader.ReadsTextBelow`): a record whose members read from `n` levels reads its object from
`n + 1` (`Shape.readsTextBelow_record`), and so does a sequence of the array of its elements
(`Reader.readsTextBelow_seq`). Fields without a member take their defaults.

## Main statements

* `Record.reads_readMembers_iff`: the member loop over members that read.
* `Shape.reads_record_object`: a record reads the compact object of its fields.
* `Shape.not_reads_record_object`: a member its field cannot read fails the record.
* `Reader.readsTextBelow_seq`: a sequence reads the compact array of its elements.
-/

namespace RegionTrack.Json

namespace Reader

variable {α : Type} {c c' : Cursor} {r s : List UInt8}

/-! ## Shapes that read a text -/

/-- The shape `s` reads the text `t` as `v` wherever `t` stands before something that ends a
number, and consumes exactly `t`. -/
def ReadsText (s : Shape α) (t : List UInt8) (v : α) : Prop :=
  ∀ ⦃c : Cursor⦄ ⦃r : List UInt8⦄, c.Plain → c.rest = t ++ r → EndsNumber r →
    Reads s.read c v (c.advance t.length)

theorem ReadsText.map {β : Type} {s : Shape α} {t : List UInt8} {v : α} (h : ReadsText s t v)
    (f : α → β) : ReadsText (s.map f) t (f v) :=
  fun _ _ hc hrest hr => (h hc hrest hr).map f

/-- The shape `s` reads the text `t` as `v` as `ReadsText` says, from every cursor with more than
`n` levels of nesting left: a text that opens brackets needs levels to spend. -/
def ReadsTextBelow (n : Nat) (s : Shape α) (t : List UInt8) (v : α) : Prop :=
  ∀ ⦃c : Cursor⦄ ⦃r : List UInt8⦄, c.Plain → n < c.depth → c.rest = t ++ r → EndsNumber r →
    Reads s.read c v (c.advance t.length)

theorem ReadsText.below {s : Shape α} {t : List UInt8} {v : α} (h : ReadsText s t v) (n : Nat) :
    ReadsTextBelow n s t v :=
  fun _ _ hc _ hrest hr => h hc hrest hr

theorem ReadsTextBelow.map_of_eq {β : Type} {n : Nat} {s : Shape α} {t : List UInt8} {v : α}
    {w : β} {f : α → β} (h : ReadsTextBelow n s t v) (hw : f v = w) :
    ReadsTextBelow n (s.map f) t w :=
  fun _ _ hc hd hrest hr => hw ▸ (h hc hd hrest hr).map f

/-- A number shape on a number: after the blanks, a minus (`p` false) or a digit (`p` true) sends
it to the number reader, whose number is then checked. -/
theorem reads_number_read_iff {expecting : String} {visit : Number → Except Mismatch α} {p : Bool}
    {b : UInt8} (hb : isDigit b = true) (hc : c.Plain)
    (hrest : c.rest = (if p then [] else [45]) ++ b :: s) {v : α} :
    Reads (Shape.number expecting visit).read c v c' ↔
      Reads (do let n ← readNumber p; Shape.number.liftExcept ((visit n).mapError Error.ofMismatch))
        (c.advance (if p then 0 else 1)) v c' := by
  obtain ⟨hblank, -, -, -, h45, -⟩ := digit_byte_ne hb
  show Reads (placing _) c v c' ↔ _
  rw [reads_placing_iff]
  cases p with
  | false =>
    have hskip := reads_skipBlanks hc (l := []) (r := 45 :: b :: s) (by simpa using hrest)
      (by simp) (head_not_blank rfl)
    rw [Reads.bind_iff hskip]
    simp only [List.head?_cons, List.length_nil, Cursor.advance_zero, if_true]
    rw [Reads.bind_iff (reads_eat hc (by simpa using hrest))]
    rfl
  | true =>
    have hskip := reads_skipBlanks hc (l := []) (r := b :: s) (by simpa using hrest)
      (by simp) (head_not_blank hblank)
    rw [Reads.bind_iff hskip]
    simp only [List.head?_cons, List.length_nil, Cursor.advance_zero, h45, hb, if_false, if_true]

/-- **Floats.** The float shape reads the text of a finite float that reads back. -/
theorem readsText_float {x : Float} (hx : x.isFinite = true) (hback : FloatReadsBack x) :
    ReadsText Shape.float (textBytes (floatFormat.render x)) x := by
  intro c r hc hrest hr
  obtain ⟨p, b, bs, htext, hb, -⟩ := floatBytes hx
  have hrest' : c.rest = [] ++ ((if p then [] else [45]) ++ b :: (bs ++ r)) := by
    rw [hrest, htext]
    simp
  have hval := reads_readValue_float hx hback hc (l := []) (by simp) (by simpa using hrest) hr 0
  obtain ⟨n, hn, hnum⟩ := (reads_readValue_number_iff hb hc (by simp) hrest').1 hval
  cases hn
  refine (reads_number_read_iff hb hc (by simpa using hrest')).2 ?_
  simp only [List.length_nil, Nat.zero_add] at hnum
  exact hnum.bind (Reads.pure x _)

/-- **Integers.** An unsigned shape reads the digits of an integer within its bound. -/
theorem readsText_unsigned {name : String} {bound n : Nat} (hn : n ≤ bound)
    (hmax : n ≤ maxUnsigned) : ReadsText (Shape.unsigned name bound) (textBytes (toString n)) n := by
  intro c r hc hrest hr
  obtain ⟨b, bs, hbs, hb, -⟩ := (digitText_toString n).bytes
  have hrest' : c.rest = [] ++ ((if true then [] else [45]) ++ b :: (bs ++ r)) := by
    rw [hrest, hbs]
    rfl
  have hval := reads_readValue_unsigned hmax hc (l := []) (by simp) (by simpa using hrest) hr 0
  obtain ⟨m, hm, hnum⟩ := (reads_readValue_number_iff hb hc (by simp) hrest').1 hval
  cases hm
  refine (reads_number_read_iff (p := true) (s := bs ++ r) hb hc (by simpa using hrest')).2 ?_
  simp only [if_true, Cursor.advance_zero, List.length_nil, Nat.zero_add] at hnum ⊢
  refine hnum.bind ?_
  simp only [if_pos hn]
  exact Reads.pure n _

/-- A number shape fails on `null`: it names the value it found and stops. -/
theorem not_reads_number_null {expecting : String} {visit : Number → Except Mismatch α}
    (hc : c.Plain) (hrest : c.rest = 110 :: s) {v : α} :
    ¬ Reads (Shape.number expecting visit).read c v c' := by
  show ¬ Reads (placing _) c v c'
  rw [reads_placing_iff]
  have hskip := reads_skipBlanks hc (l := []) (r := 110 :: s) (by simpa using hrest)
    (by simp) (head_not_blank rfl)
  rw [Reads.bind_iff hskip]
  simp +decide only [List.head?_cons, if_false]
  exact fails_wrongTypeHere _ _ _ _

end Reader

/-! ## The members of an object -/

namespace Record

open Reader

variable {c c' : Cursor} {r s : List UInt8} {fields : List Field} {vals : List Value}

/-- The part of a member before its value: a comma unless it is the first member, the quoted key
and a colon. -/
def memberKeyText (first : Bool) (k : String) : List UInt8 :=
  (if first then [] else [44]) ++ textBytes (quote k) ++ [58]

/-- The members of a compact object after its opening brace: keys and value texts. -/
def membersText : Bool → List (String × List UInt8) → List UInt8
  | _, [] => []
  | first, m :: ms => memberKeyText first m.1 ++ m.2 ++ membersText false ms

/-- A compact object: its members in braces. -/
def objectText (ms : List (String × List UInt8)) : List UInt8 :=
  123 :: (membersText true ms ++ [125])

theorem membersText_append (first : Bool) (ms ms' : List (String × List UInt8)) :
    membersText first (ms ++ ms') = membersText first ms ++ membersText (first && ms.isEmpty) ms' := by
  induction ms generalizing first with
  | nil => simp [membersText]
  | cons m ms ih => simp [membersText, ih]

/-- Every member takes a byte at least. -/
theorem length_le_membersText (first : Bool) (ms : List (String × List UInt8)) :
    ms.length ≤ (membersText first ms).length := by
  induction ms generalizing first with
  | nil => simp [membersText]
  | cons m ms ih =>
    have := ih false
    simp only [membersText, memberKeyText, List.length_append, List.length_cons]
    omega

/-- After a member's text comes a comma or what follows the members; either ends a number. -/
theorem endsNumber_membersText (hs : EndsNumber s) (ms : List (String × List UInt8)) :
    EndsNumber (membersText false ms ++ s) := by
  cases ms with
  | nil => exact hs
  | cons m ms => exact stopsNumber_comma

/-- After the members read so far comes a comma or a quote; either ends a number. -/
theorem endsNumber_memberKeyText (first : Bool) (k : String) (rest : List UInt8) :
    EndsNumber (memberKeyText first k ++ rest) := by
  cases first
  · exact stopsNumber_comma
  · simp only [memberKeyText, if_true, List.nil_append, textBytes_quote, List.cons_append]
    show StopsNumber 34
    unfold StopsNumber
    decide

/-- A member whose key names field `i`, not read yet: the loop reads the field's value after the
colon, records it, and goes on. -/
theorem reads_readMembers_key_iff {first : Bool} {found : List (Option Value)} {F : Nat}
    {k : String} {i : Nat} {f : Field} {res : List (Option Value)} (hc : c.Plain)
    (hrest : c.rest = memberKeyText first k ++ s) (hi : fieldIndex fields k = some i)
    (hf : fields[i]? = some f) (hnew : found[i]? = some none) :
    Reads (readMembers fields first found (F + 1)) c res c' ↔
      Reads (do let v ← f.shape.read; readMembers fields false (found.set i (some v)) F)
        (c.advance (memberKeyText first k).length) res c' := by
  have hkey : Reads (nextKey first) c (some k)
      (c.advance ((if first then [] else [44]) ++ textBytes (quote k)).length) := by
    cases first
    · have h := reads_nextKey_comma hc (l := []) (by simp) (k := k) (r := 58 :: s)
        (by simp [hrest, memberKeyText])
      simpa [Nat.add_comm] using h
    · have h := reads_nextKey_first hc (l := []) (by simp) (k := k) (r := 58 :: s)
        (by simp [hrest, memberKeyText])
      simpa using h
  have hcolon : Reads expectColon (c.advance ((if first then [] else [44]) ++ textBytes (quote k)).length)
      () (c.advance (memberKeyText first k).length) := by
    have h := reads_expectColon (hc.advance ((if first then [] else [44]) ++ textBytes (quote k)).length)
      (r := s) (by simp [hrest, memberKeyText])
    simpa [memberKeyText, Cursor.advance_advance, Nat.add_assoc] using h
  rw [readMembers, Reads.bind_iff hkey]
  simp only [hi, hf, hnew]
  rw [Reads.bind_iff hcolon]

/-- A member whose field reads its text: the loop goes on after the value, with the value
recorded. -/
theorem reads_readMembers_member_iff {n : Nat} {first : Bool} {found : List (Option Value)}
    {F : Nat} {m : String × List UInt8} {i : Nat} {f : Field} {v : Value}
    {res : List (Option Value)} (hc : c.Plain) (hdepth : n < c.depth)
    (hrest : c.rest = memberKeyText first m.1 ++ m.2 ++ s) (hs : EndsNumber s)
    (hi : fieldIndex fields m.1 = some i) (hf : fields[i]? = some f)
    (hnew : found[i]? = some none) (hv : ReadsTextBelow n f.shape m.2 v) :
    Reads (readMembers fields first found (F + 1)) c res c' ↔
      Reads (readMembers fields false (found.set i (some v)) F)
        (c.advance (memberKeyText first m.1 ++ m.2).length) res c' := by
  rw [reads_readMembers_key_iff hc (hrest.trans (List.append_assoc _ _ _)) hi hf hnew,
    Reads.bind_iff (hv (hc.advance _) hdepth (by simp [hrest]) hs), Cursor.advance_advance,
    List.length_append]

/-- The loop stops at the closing brace, with the places as they are. -/
theorem reads_readMembers_close (hc : c.Plain) (hrest : c.rest = 125 :: r) (first : Bool)
    (found : List (Option Value)) (F : Nat) :
    Reads (readMembers fields first found (F + 1)) c found c := by
  rw [readMembers]
  have hkey : Reads (nextKey first) c none c := by
    simpa using reads_nextKey_close hc (l := []) (by simp) (by simpa using hrest) first
  exact hkey.bind (Reads.pure _ _)

/-- **The member loop.** Members that each name a field not read before, whose shape reads the
member's text as the field's value, are read one after another, each value recorded in its
field's place. -/
theorem reads_readMembers_iff (hnames : (fields.map (·.name)).Nodup)
    (hlen : vals.length = fields.length) {n : Nat} {res : List (Option Value)} :
    ∀ (ms : List (String × List UInt8)) (names : List String) (first : Bool) (F : Nat) (c : Cursor),
      (∀ m ∈ ms, ∃ i, ∃ (hi : i < fields.length) (hv : i < vals.length),
        fields[i].name = m.1 ∧ ReadsTextBelow n fields[i].shape m.2 vals[i]) →
      (names ++ ms.map Prod.fst).Nodup → c.Plain → n < c.depth →
      c.rest = membersText first ms ++ s → EndsNumber s →
      (Reads (readMembers fields first (foundNamed fields vals names) (F + ms.length)) c res c' ↔
        Reads (readMembers fields (first && ms.isEmpty) (foundNamed fields vals (names ++ ms.map Prod.fst)) F)
          (c.advance (membersText first ms).length) res c')
  | [], names, first, F, c, _, _, _, _, _, _ => by simp [membersText]
  | m :: ms, names, first, F, c, hread, hnodup, hc, hdepth, hrest, hs => by
    obtain ⟨i, hi, hv, hname, hm⟩ := hread m List.mem_cons_self
    rw [List.map_cons, ← List.singleton_append, ← List.append_assoc] at hnodup
    have hnot : fields[i].name ∉ names := fun hmem =>
      (List.nodup_append.1 (List.nodup_append.1 hnodup).1).2.2 _ hmem _ (List.mem_singleton.2 hname) rfl
    rw [List.length_cons, ← Nat.add_assoc,
      reads_readMembers_member_iff hc hdepth
        (show c.rest = memberKeyText first m.1 ++ m.2 ++ (membersText false ms ++ s) by
          simp [hrest, membersText])
        (endsNumber_membersText hs ms)
        (hname ▸ fieldIndex_eq hnames hi) (List.getElem?_eq_getElem hi)
        (getElem?_foundNamed_of_not_mem hlen hi hnot) hm,
      set_foundNamed hnames hlen hi hv,
      reads_readMembers_iff hnames hlen ms (names ++ [fields[i].name]) false F
        (c.advance (memberKeyText first m.1 ++ m.2).length)
        (fun m' hm' => hread m' (List.mem_cons_of_mem m hm')) (by rwa [hname]) (hc.advance _)
        hdepth (by simp [hrest, membersText]) hs,
      Cursor.advance_advance]
    simp [membersText, hname, Nat.add_assoc]

end Record

/-! ## Records -/

namespace Shape

open Reader Record

variable {c c' : Cursor} {r s : List UInt8} {fields : List Field} {vals : List Value}

/-- **A record reads the compact object of its fields.** When the fields have distinct names,
every member names a different field whose shape reads the member's text as that field's value,
and every field without a member has its value as default, the record reads the object as the
values of its fields, in field order, whatever the order of the members. The members are read one
level down, so the object needs one level more than they do. -/
theorem reads_record_object (name : String) (hnames : (fields.map (·.name)).Nodup)
    (hlen : vals.length = fields.length) {n : Nat} {ms : List (String × List UInt8)}
    (hread : ∀ m ∈ ms, ∃ i, ∃ (hi : i < fields.length) (hv : i < vals.length),
      fields[i].name = m.1 ∧ ReadsTextBelow n fields[i].shape m.2 vals[i])
    (hkeys : (ms.map Prod.fst).Nodup)
    (hdefault : ∀ i (hi : i < fields.length) (hv : i < vals.length),
      fields[i].name ∉ ms.map Prod.fst → fields[i].default = some vals[i])
    (hc : c.Plain) (hdepth : n + 1 < c.depth)
    (hrest : c.rest = 123 :: (membersText true ms ++ 125 :: r)) :
    Reads (Shape.record name fields).read c vals (c.advance ((membersText true ms).length + 2)) := by
  show Reads (placing _) c vals _
  rw [reads_placing_iff, Reads.bind_iff (reads_skipBlanks_at hc hrest rfl)]
  simp +decide only [if_false, if_true]
  refine reads_bracketed_iff.2 ?_
  have hc₁ : ({ c with depth := c.depth - 1 } : Cursor).Plain := hc.depth_update _
  have hrest₁ : (({ c with depth := c.depth - 1 } : Cursor).advance 1).rest =
      membersText true ms ++ 125 :: r := by
    simp [hrest]
  obtain ⟨F, hfuel⟩ := reads_fuel_of_le (c := ({ c with depth := c.depth - 1 } : Cursor).advance 1)
    (k := 1 + ms.length) (by rw [hrest₁]; have := length_le_membersText true ms; simp; omega)
  rw [← Nat.add_assoc] at hfuel
  have hmembers := (reads_readMembers_iff hnames hlen ms [] true (F + 1) _ hread (by simpa)
    (hc₁.advance 1) (by simp only [Cursor.advance_depth]; omega) hrest₁ stopsNumber_closeBrace).2
    (reads_readMembers_close ((hc₁.advance 1).advance _) (r := r)
      (by rw [Cursor.advance_rest, hrest₁, List.drop_left]) _ _ F)
  rw [foundNamed_nil hlen, List.nil_append, Cursor.advance_advance] at hmembers
  have hclose := reads_closeObject (hc.advance (1 + (membersText true ms).length)) (r := r)
    (by rw [Cursor.advance_rest, hrest, Nat.add_comm, List.drop_succ_cons, List.drop_left])
  refine (reads_descend (by omega)).bind ((reads_eat hc₁ hrest).bind ?_)
  rw [bind_assoc, Reads.bind_iff hfuel, bind_assoc, Reads.bind_iff hmembers,
    complete_foundNamed hlen hdefault]
  refine (Reads.pure vals _).bind (reads_ascend.bind ?_)
  rw [ascend_descend_advance (by omega)]
  refine hclose.bind ?_
  rw [Cursor.advance_advance, show 1 + (membersText true ms).length + 1 =
    (membersText true ms).length + 2 by omega]
  exact Reads.pure _ _

/-- A record reads the compact object of its fields wherever the object stands, as
`reads_record_object` says. -/
theorem readsTextBelow_record (name : String) (hnames : (fields.map (·.name)).Nodup)
    (hlen : vals.length = fields.length) {n : Nat} {ms : List (String × List UInt8)}
    (hread : ∀ m ∈ ms, ∃ i, ∃ (hi : i < fields.length) (hv : i < vals.length),
      fields[i].name = m.1 ∧ ReadsTextBelow n fields[i].shape m.2 vals[i])
    (hkeys : (ms.map Prod.fst).Nodup)
    (hdefault : ∀ i (hi : i < fields.length) (hv : i < vals.length),
      fields[i].name ∉ ms.map Prod.fst → fields[i].default = some vals[i]) :
    ReadsTextBelow (n + 1) (Shape.record name fields) (objectText ms) vals := by
  intro c r hc hdepth hrest _
  have h := reads_record_object name hnames hlen hread hkeys hdefault hc hdepth (r := r)
    (by simp [hrest, objectText])
  have hlength : (objectText ms).length = (membersText true ms).length + 2 := by
    simp [objectText]
  rwa [hlength]
/-- **A member its field cannot read fails the record.** After members that read as in
`reads_record_object`, a member that names a field not read yet, whose shape reads nothing from
the member's text on, makes the whole object fail. -/
theorem not_reads_record_object (name : String) (hnames : (fields.map (·.name)).Nodup)
    (hlen : vals.length = fields.length) {n : Nat} {pre : List (String × List UInt8)} {k : String}
    {t : List UInt8} (hread : ∀ m ∈ pre, ∃ i, ∃ (hi : i < fields.length) (hv : i < vals.length),
      fields[i].name = m.1 ∧ ReadsTextBelow n fields[i].shape m.2 vals[i])
    (hkeys : (pre.map Prod.fst ++ [k]).Nodup) {i : Nat} (hi : i < fields.length)
    (hk : fields[i].name = k)
    (hfail : ∀ d : Cursor, d.Plain → d.rest = t ++ s → ∀ v d', ¬ Reads fields[i].shape.read d v d')
    (hc : c.Plain) (hdepth : n + 1 < c.depth)
    (hrest : c.rest = 123 :: (membersText true (pre ++ [(k, t)]) ++ s)) (v : List Value) :
    ¬ Reads (Shape.record name fields).read c v c' := by
  intro h
  change Reads (placing _) c v c' at h
  rw [reads_placing_iff, Reads.bind_iff (reads_skipBlanks_at hc hrest rfl)] at h
  simp +decide only [if_false, if_true] at h
  have hc₁ : ({ c with depth := c.depth - 1 } : Cursor).Plain := hc.depth_update _
  have hrest₁ : (({ c with depth := c.depth - 1 } : Cursor).advance 1).rest =
      membersText true pre ++ (memberKeyText (true && pre.isEmpty) k ++ (t ++ s)) := by
    simp [hrest, membersText_append, membersText]
  obtain ⟨F, hfuel⟩ := reads_fuel_of_le (c := ({ c with depth := c.depth - 1 } : Cursor).advance 1)
    (k := 1 + pre.length) (by
      have := length_le_membersText true (pre ++ [(k, t)])
      simp only [List.length_append, List.length_singleton] at this
      simp [hrest]; omega)
  rw [← Nat.add_assoc] at hfuel
  rw [reads_bracketed_iff, Reads.bind_iff (reads_descend (by omega)),
    Reads.bind_iff (reads_eat hc₁ hrest), bind_assoc, Reads.bind_iff hfuel, bind_assoc] at h
  obtain ⟨found, c₄, hmem, -⟩ := h.bind_inv
  have hnodup : ([] ++ pre.map Prod.fst).Nodup := (List.nodup_append.1 hkeys).1
  rw [← foundNamed_nil hlen, reads_readMembers_iff hnames hlen pre [] true (F + 1) _ hread hnodup
    (hc₁.advance 1) (by simp only [Cursor.advance_depth]; omega) hrest₁
    (endsNumber_memberKeyText _ _ _)] at hmem
  have hnot : fields[i].name ∉ [] ++ pre.map Prod.fst := fun hmem' =>
    (List.nodup_append.1 hkeys).2.2 _ (by simpa using hmem') _ (List.mem_singleton.2 hk) rfl
  rw [reads_readMembers_key_iff ((hc₁.advance 1).advance _) (s := t ++ s)
    (by rw [Cursor.advance_rest, hrest₁, List.drop_left]) (hk ▸ fieldIndex_eq hnames hi)
    (List.getElem?_eq_getElem hi) (getElem?_foundNamed_of_not_mem hlen hi hnot)] at hmem
  obtain ⟨w, c₅, hw, -⟩ := hmem.bind_inv
  exact hfail _ (((hc₁.advance 1).advance _).advance _)
    (by rw [Cursor.advance_rest, Cursor.advance_rest, hrest₁, List.drop_left, List.drop_left]) w c₅ hw

end Shape

/-! ## Arrays -/

namespace Reader

variable {α : Type} {c : Cursor} {r : List UInt8}

/-- The elements of a compact array after its opening bracket: their texts, separated by
commas. -/
def elementsText : Bool → List (List UInt8) → List UInt8
  | _, [] => []
  | first, t :: ts => (if first then [] else [44]) ++ t ++ elementsText false ts

/-- A compact array: its elements in brackets. -/
def arrayText (ts : List (List UInt8)) : List UInt8 := 91 :: (elementsText true ts ++ [93])

/-- After the elements read so far comes a comma or the closing bracket; either ends a number. -/
theorem endsNumber_elementsText (ts : List (List UInt8)) (rest : List UInt8) :
    EndsNumber (elementsText false ts ++ 93 :: rest) := by
  cases ts with
  | nil => exact stopsNumber_closeBracket
  | cons t ts => exact stopsNumber_comma

/-- Every element takes a byte at least. -/
theorem length_le_elementsText (first : Bool) (ts : List (List UInt8))
    (hstart : ∀ t ∈ ts, ∃ b u, t = b :: u ∧ isBlank b = false ∧ b ≠ 93) :
    ts.length ≤ (elementsText first ts).length := by
  induction ts generalizing first with
  | nil => simp [elementsText]
  | cons t ts ih =>
    obtain ⟨b, u, rfl, -⟩ := hstart _ List.mem_cons_self
    have := ih false fun t' ht' => hstart t' (List.mem_cons_of_mem _ ht')
    simp only [elementsText, List.length_append, List.length_cons]
    omega

/-- Another element follows: the first at its first byte, or one after a comma. -/
theorem reads_nextElement_item (hc : c.Plain) (first : Bool) {b : UInt8} {u : List UInt8}
    (hrest : c.rest = (if first then [] else [44]) ++ b :: u) (hb : isBlank b = false)
    (h93 : b ≠ 93) :
    Reads (nextElement first) c true (c.advance (if first then [] else [44] : List UInt8).length) := by
  cases first with
  | false => simpa using reads_nextElement_comma hc (l := []) (by simp) (by simpa using hrest) hb h93
  | true => simpa using reads_nextElement_first hc (l := []) (by simp) (by simpa using hrest) hb h93

/-- **The element loop.** Elements that each start with a byte that is neither blank nor a closing
bracket, and whose texts `s` reads, are read one after another up to the closing bracket, each
gathered after those read before. -/
theorem reads_readElements {s' : Shape α} {n : Nat} :
    ∀ (ts : List (List UInt8)) (vs : List α) (first : Bool) (acc : List α) (F : Nat) (c : Cursor),
      List.Forall₂ (ReadsTextBelow n s') ts vs →
      (∀ t ∈ ts, ∃ b u, t = b :: u ∧ isBlank b = false ∧ b ≠ 93) →
      c.Plain → n < c.depth → c.rest = elementsText first ts ++ 93 :: r →
      Reads (Shape.readElements s' first acc (F + ts.length + 1)) c (acc.reverse ++ vs)
        (c.advance (elementsText first ts).length)
  | [], vs, first, acc, F, c, hread, _, hc, _, hrest => by
    cases List.forall₂_nil_left_iff.1 hread
    rw [Shape.readElements]
    refine (reads_nextElement_close hc (l := []) (by simp) (by simpa [elementsText] using hrest)
      first).bind ?_
    simpa [elementsText] using Reads.pure acc.reverse c
  | t :: ts, vs, first, acc, F, c, hread, hstart, hc, hdepth, hrest => by
    obtain ⟨v, vs', hv, hrest', rfl⟩ := List.forall₂_cons_left_iff.1 hread
    obtain ⟨b, u, rfl, hb, h93⟩ := hstart _ List.mem_cons_self
    have hnext := reads_nextElement_item hc first (u := u ++ elementsText false ts ++ 93 :: r)
      (by simp [hrest, elementsText]) hb h93
    have hitem := hv (hc.advance (if first then [] else [44] : List UInt8).length) hdepth
      (r := elementsText false ts ++ 93 :: r)
      (by rw [Cursor.advance_rest, hrest, elementsText, List.append_assoc, List.append_assoc,
        List.drop_left]) (endsNumber_elementsText ts r)
    have htail := reads_readElements ts vs' false (v :: acc) F
      (c.advance ((if first then [] else [44]) ++ b :: u).length) hrest'
      (fun t' ht' => hstart t' (List.mem_cons_of_mem _ ht')) (hc.advance _) hdepth
      (by rw [Cursor.advance_rest, hrest, elementsText, List.append_assoc, List.drop_left])
    rw [List.length_cons, show F + (ts.length + 1) + 1 = F + ts.length + 1 + 1 by omega,
      Shape.readElements]
    refine hnext.bind ?_
    simp only [if_true]
    refine hitem.bind ?_
    have hend : (elementsText first ((b :: u) :: ts)).length =
        ((if first then [] else [44]) ++ b :: u).length + (elementsText false ts).length := by
      simp only [elementsText, List.length_append, List.length_cons]
    rw [List.reverse_cons, List.append_assoc, List.singleton_append] at htail
    rw [Cursor.advance_advance, ← List.length_append, hend, ← Cursor.advance_advance]
    exact htail

/-- **A sequence reads the compact array of its elements.** When every element starts with a
byte that is neither blank nor a closing bracket and `s` reads its text, the sequence reads the
array as the elements' data in order. The elements are read one level down. -/
theorem readsTextBelow_seq {s' : Shape α} {n : Nat} {ts : List (List UInt8)} {vs : List α}
    (hread : List.Forall₂ (ReadsTextBelow n s') ts vs)
    (hstart : ∀ t ∈ ts, ∃ b u, t = b :: u ∧ isBlank b = false ∧ b ≠ 93) :
    ReadsTextBelow (n + 1) (Shape.seq s') (arrayText ts) vs := by
  intro c r hc hdepth hrest _
  show Reads (placing _) c vs _
  rw [reads_placing_iff,
    Reads.bind_iff (reads_skipBlanks_at hc (by simpa [arrayText] using hrest) rfl)]
  simp +decide only [if_true]
  refine reads_bracketed_iff.2 ?_
  have hc₁ : ({ c with depth := c.depth - 1 } : Cursor).Plain := hc.depth_update _
  have hrest₁ : (({ c with depth := c.depth - 1 } : Cursor).advance 1).rest =
      elementsText true ts ++ 93 :: r := by
    simp [hrest, arrayText]
  obtain ⟨F, hfuel⟩ := reads_fuel_of_le (c := ({ c with depth := c.depth - 1 } : Cursor).advance 1)
    (k := ts.length + 1) (by rw [hrest₁]; have := length_le_elementsText true ts hstart; simp; omega)
  rw [← Nat.add_assoc] at hfuel
  have hitems := reads_readElements ts vs true [] F _ hread hstart (hc₁.advance 1)
    (by simp only [Cursor.advance_depth]; omega) hrest₁
  have hclose := reads_closeArray (hc.advance (1 + (elementsText true ts).length)) (r := r)
    (by rw [Cursor.advance_rest, hrest, arrayText, List.cons_append, Nat.add_comm,
      List.drop_succ_cons, List.append_assoc, List.drop_left]; rfl)
  refine (reads_descend (by omega)).bind ((reads_eat hc₁ (by simpa [arrayText] using hrest)).bind ?_)
  rw [bind_assoc, Reads.bind_iff hfuel]
  simp only [List.reverse_nil, List.nil_append, Cursor.advance_advance] at hitems
  refine hitems.bind (reads_ascend.bind ?_)
  rw [ascend_descend_advance (by omega)]
  refine hclose.bind ?_
  rw [Cursor.advance_advance]
  simpa [arrayText, Nat.add_comm, Nat.add_left_comm] using Reads.pure vs _

end Reader

end RegionTrack.Json
