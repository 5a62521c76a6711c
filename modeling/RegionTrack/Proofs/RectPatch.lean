import RegionTrack.Proofs.ShapeValues
import RegionTrack.Proofs.ReadPretty
import RegionTrack.Proofs.MetadataPatch
import RegionTrack.Rect

/-!
# Patching a rectangle

A patch is read as a record of five optional numbers and then applied field by field. This module
says what it does for every JSON value: it is refused as a whole, as invalid JSON, unless it is an
object whose members named for fields are numbers or null, or an array of exactly five numbers or
nulls; otherwise every field given a number takes it and every other field keeps its value.

The reading is the general record reader on records whose fields are all optional and have no
default. In the object form each field takes what its shape reads from the last member named for
it (`Json.Record.ofMembers_optional`): the reader passes over the members once, and after a prefix
of them every field holds the read of its last member in that prefix (`Json.Record.lastRead`).
In the array form the fields read the items in order, and the array must have one item per field
(`Json.Record.ofItems_eq_ok`, `Json.Record.ofItems_error`).

## Main definitions

* `Rect.fields`: the fields of a rectangle in the order of `Rect.fieldNames`
* `Rect.FieldEntry`, `Rect.IsPatch`: the values a patch accepts
* `Rect.Given`, `Rect.Patched`: what a patch does to each field

## Main results

* `Rect.patch_eq_ok_iff`: which values are patches
* `Rect.patch_object`, `Rect.patch_array`: what a patch does
* `Rect.patch_toJson`: patching with the JSON of a rectangle takes its finite fields
* `Rect.patch_replaces_given_fields`: the whole contract of patching
-/

namespace RegionTrack

theorem Except.ne_ok_of_error {ε α : Type} {x : Except ε α} {v : α} (h : ∃ e, x = .error e) :
    x ≠ .ok v := by
  obtain ⟨e, rfl⟩ := h
  intro h'
  cases h'

namespace Json

namespace Object

/-- In members with strictly increasing keys the last member with a key is the first, the keys
after it being above it. -/
theorem lookup_reverse {ms : List (String × Value)} (h : Sorted ms) (k : String) :
    ms.reverse.lookup k = ms.lookup k := by
  induction ms with
  | nil => rfl
  | cons m ms ih =>
    obtain ⟨k₁, w⟩ := m
    obtain ⟨hk₁, hms⟩ := sorted_cons.1 h
    rw [List.reverse_cons, List.lookup_append, ih hms, lookup_cons, lookup_cons]
    by_cases hk : k = k₁
    · subst hk
      have hnone : ms.lookup k = none := List.lookup_eq_none_iff.2 fun p hp =>
        bne_iff_ne.2 (String.ne_of_lt (hk₁ p.1 (List.mem_map_of_mem hp)))
      simp [hnone]
    · simp [hk]

end Object

namespace Record

variable {fields : List Field}

/-- What a field takes from a value its shape reads: the datum read (a refusal fails the whole
record, so its null is never kept). -/
def readOf (f : Field) (w : Value) : Value := (f.shape.ofValue w).toOption.getD .null

theorem readOf_of_ok {f : Field} {w v : Value} (h : f.shape.ofValue w = .ok v) :
    readOf f w = v := by
  rw [readOf, h]
  rfl

/-- A field's shape reads a value without refusing it. -/
def Reads (f : Field) (w : Value) : Prop := ∃ v, f.shape.ofValue w = .ok v

/-! ## The object form -/

/-- The places of the fields after the members `pre` were read: each field holds what its shape
reads from the last member named for it, and is missing when no member was. -/
def lastRead (fields : List Field) (pre : List (String × Value)) : List (Option Value) :=
  fields.map fun f => (pre.reverse.lookup f.name).map (readOf f)

theorem lastRead_nil : lastRead fields [] = fields.map fun _ => none := by
  simp [lastRead]

theorem lookup_reverse_append_singleton {pre : List (String × Value)} {k k' : String} {w : Value} :
    (pre ++ [(k, w)]).reverse.lookup k' = if k' = k then some w else pre.reverse.lookup k' := by
  rw [List.reverse_append, List.reverse_singleton, List.singleton_append, Object.lookup_cons]

theorem fieldIndex_eq_none_iff {k : String} :
    fieldIndex fields k = none ↔ ∀ f ∈ fields, f.name ≠ k := by
  simp [fieldIndex, List.findIdx?_eq_none_iff]

theorem fieldIndex_eq_some {k : String} {i : Nat} (h : fieldIndex fields k = some i) :
    ∃ hi : i < fields.length, fields[i].name = k := by
  obtain ⟨hi, hname, -⟩ := List.findIdx?_eq_some_iff_getElem.1 h
  exact ⟨hi, by simpa using hname⟩

/-- A member named for no field is passed over. -/
theorem foundMember_of_fieldIndex_none {found : List (Option Value)} {k : String} {w : Value}
    (h : fieldIndex fields k = none) : foundMember fields found (k, w) = .ok found := by
  simp only [foundMember, h]

/-- A member named for field `i` is read by that field's shape, which may refuse it. -/
theorem foundMember_of_fieldIndex_some {found : List (Option Value)} {k : String} {w : Value}
    {i : Nat} (h : fieldIndex fields k = some i) (hi : i < fields.length) :
    foundMember fields found (k, w) =
      (fields[i].shape.ofValue w >>= fun v => pure (found.set i (some v))) := by
  simp only [foundMember, h, List.getElem?_eq_getElem hi]

/-- **One member.** Reading a member whose field, if any, reads it records its read in the
field's place, so that every field still holds the read of its last member. -/
theorem foundMember_lastRead (hnames : (fields.map (·.name)).Nodup)
    {pre : List (String × Value)} {k : String} {w : Value}
    (hread : ∀ f ∈ fields, f.name = k → Reads f w) :
    foundMember fields (lastRead fields pre) (k, w) = .ok (lastRead fields (pre ++ [(k, w)])) := by
  cases hidx : fieldIndex fields k with
  | none =>
    have hno := fieldIndex_eq_none_iff.1 hidx
    rw [foundMember_of_fieldIndex_none hidx]
    congr 1
    refine List.map_congr_left fun f hf => ?_
    rw [lookup_reverse_append_singleton, if_neg (hno f hf)]
  | some i =>
    obtain ⟨hi, hname⟩ := fieldIndex_eq_some hidx
    obtain ⟨v, hv⟩ := hread fields[i] (List.getElem_mem hi) hname
    rw [foundMember_of_fieldIndex_some hidx hi, hv]
    show Except.ok ((lastRead fields pre).set i (some v)) = _
    congr 1
    apply List.ext_getElem (by simp [lastRead])
    intro j hj _
    have hjf : j < fields.length := by simpa [lastRead] using hj
    simp only [List.getElem_set, lastRead, List.getElem_map, lookup_reverse_append_singleton]
    by_cases hij : i = j
    · subst hij
      simp [hname, readOf_of_ok hv]
    · have hne : fields[j].name ≠ k := fun heq =>
        hij (eq_of_name_eq hnames hi hjf (hname.trans heq.symm))
      simp [hij, hne]

/-- **The members in order.** When every member named for a field is read by that field, the
pass over the members leaves each field with the read of its last member. -/
theorem foldlM_lastRead (hnames : (fields.map (·.name)).Nodup) {ms : List (String × Value)}
    (hread : ∀ m ∈ ms, ∀ f ∈ fields, f.name = m.1 → Reads f m.2) (pre : List (String × Value)) :
    ms.foldlM (foundMember fields) (lastRead fields pre) = .ok (lastRead fields (pre ++ ms)) := by
  induction ms generalizing pre with
  | nil => rw [List.append_nil]; rfl
  | cons m ms ih =>
    obtain ⟨k, w⟩ := m
    rw [List.foldlM_cons, foundMember_lastRead hnames (hread (k, w) List.mem_cons_self)]
    show ms.foldlM (foundMember fields) (lastRead fields (pre ++ [(k, w)])) = _
    rw [ih (fun m hm => hread m (List.mem_cons_of_mem _ hm)), List.append_assoc,
      List.singleton_append]

/-- A member that its field refuses fails the pass, whatever was found before it. -/
theorem foldlM_foundMember_error (hnames : (fields.map (·.name)).Nodup)
    {ms : List (String × Value)} (hbad : ∃ m ∈ ms, ∃ f ∈ fields, f.name = m.1 ∧ ¬ Reads f m.2)
    (found : List (Option Value)) : ∃ e, ms.foldlM (foundMember fields) found = .error e := by
  induction ms generalizing found with
  | nil => simp at hbad
  | cons m ms ih =>
    obtain ⟨k, w⟩ := m
    rw [List.foldlM_cons]
    cases hstep : foundMember fields found (k, w) with
    | error e => exact ⟨e, rfl⟩
    | ok found' =>
      obtain ⟨m', hm', f, hf, hname, hnot⟩ := hbad
      rcases List.mem_cons.1 hm' with rfl | hm'
      · obtain ⟨i, hi, rfl⟩ := List.getElem_of_mem hf
        have hidx : fieldIndex fields k = some i := by
          have h := fieldIndex_eq hnames hi
          rwa [hname] at h
        rw [foundMember_of_fieldIndex_some hidx hi] at hstep
        cases hv : fields[i].shape.ofValue w with
        | error e => rw [hv] at hstep; cases hstep
        | ok v => exact absurd ⟨v, hv⟩ hnot
      · exact ih ⟨m', hm', f, hf, hname, hnot⟩ found'

/-- Fields that are all optional without default complete a missing place with null. -/
theorem complete_optional (hopt : ∀ f ∈ fields, f.default = none ∧ f.optional = true)
    {found : List (Option Value)} (hlen : found.length = fields.length) :
    complete fields found = .ok (found.map fun o => o.getD .null) := by
  induction fields generalizing found with
  | nil =>
    cases found with
    | nil => rfl
    | cons _ _ => cases hlen
  | cons f fs ih =>
    cases found with
    | nil => cases hlen
    | cons o os =>
      have hrest := ih (fun g hg => hopt g (List.mem_cons_of_mem f hg)) (Nat.succ.inj hlen)
      obtain ⟨hdef, hoptional⟩ := hopt f List.mem_cons_self
      simp only [complete] at hrest ⊢
      rw [List.zip_cons_cons, List.mapM_cons, hrest]
      cases o with
      | some v => rfl
      | none => simp [hdef, hoptional]; rfl

/-- **The object form of an optional record.** When the fields have distinct names, are all
optional without default, and every member named for a field is read by it, each field takes
the read of the last member named for it, or null when there is none. -/
theorem ofMembers_optional (hnames : (fields.map (·.name)).Nodup)
    (hopt : ∀ f ∈ fields, f.default = none ∧ f.optional = true) {ms : List (String × Value)}
    (hread : ∀ m ∈ ms, ∀ f ∈ fields, f.name = m.1 → Reads f m.2) :
    ofMembers fields ms =
      .ok (fields.map fun f => ((ms.reverse.lookup f.name).map (readOf f)).getD .null) := by
  rw [ofMembers_eq, ← lastRead_nil, foldlM_lastRead hnames hread, List.nil_append]
  show complete fields (lastRead fields ms) = _
  rw [complete_optional hopt (by simp [lastRead]), lastRead, List.map_map]
  rfl

/-- The object form is refused when a member named for a field is refused by it. -/
theorem ofMembers_error (hnames : (fields.map (·.name)).Nodup) {ms : List (String × Value)}
    (hbad : ∃ m ∈ ms, ∃ f ∈ fields, f.name = m.1 ∧ ¬ Reads f m.2) :
    ∃ e, ofMembers fields ms = .error e := by
  obtain ⟨e, he⟩ := foldlM_foundMember_error hnames hbad (fields.map fun _ => none)
  refine ⟨e, ?_⟩
  rw [ofMembers_eq, he]
  rfl

/-! ## The array form -/

section Items

variable {g : Field × Nat → Except Error Value} {items : List Value}

/-- The items from place `n` on start with the item at `n`, followed by those from `n + 1` on. -/
theorem item_of_drop_eq_cons {n : Nat} {w : Value} {rest : List Value}
    (h : items.drop n = w :: rest) : items[n]? = some w ∧ items.drop (n + 1) = rest := by
  refine ⟨?_, ?_⟩
  · rw [← Nat.add_zero n, ← List.getElem?_drop, h]
    rfl
  · rw [← List.drop_drop, h]
    rfl

theorem item_of_drop_eq_nil {n : Nat} (h : items.drop n = []) : items[n]? = none := by
  rw [← Nat.add_zero n, ← List.getElem?_drop, h]
  rfl

/-- The items from place `n` on read field by field: each field reads its own item. -/
theorem mapM_zipIdx_ok (hg : ∀ f i w, items[i]? = some w → g (f, i) = f.shape.ofValue w)
    {fields : List Field} {n : Nat} (hread : List.Forall₂ Reads fields (items.drop n)) :
    (fields.zipIdx n).mapM g = .ok (List.zipWith readOf fields (items.drop n)) := by
  induction fields generalizing n with
  | nil =>
    rw [List.forall₂_nil_left_iff.1 hread]
    rfl
  | cons f fs ih =>
    cases hd : items.drop n with
    | nil => rw [hd] at hread; cases hread
    | cons w rest =>
      rw [hd] at hread
      obtain ⟨⟨v, hv⟩, hrest⟩ := List.forall₂_cons.1 hread
      obtain ⟨hw, hdrop⟩ := item_of_drop_eq_cons hd
      rw [List.zipIdx_cons, List.mapM_cons, hg f n w hw, hv, ← hdrop, ih (by rwa [hdrop]),
        List.zipWith_cons_cons, readOf_of_ok hv]
      rfl

/-- The items from place `n` on, no more than the fields, that some field does not read: the
reading fails, at a missing item or at a refused one. -/
theorem mapM_zipIdx_error (hg : ∀ f i w, items[i]? = some w → g (f, i) = f.shape.ofValue w)
    (hmissing : ∀ f i, items[i]? = none → f.default = none → ∃ e, g (f, i) = .error e)
    {fields : List Field} (hdef : ∀ f ∈ fields, f.default = none) {n : Nat}
    (hlen : items.length ≤ n + fields.length) (hnot : ¬ List.Forall₂ Reads fields (items.drop n)) :
    ∃ e, (fields.zipIdx n).mapM g = .error e := by
  induction fields generalizing n with
  | nil =>
    have hnil : items.drop n = [] := List.drop_eq_nil_of_le (by simpa using hlen)
    rw [hnil] at hnot
    exact absurd List.Forall₂.nil hnot
  | cons f fs ih =>
    rw [List.zipIdx_cons, List.mapM_cons]
    cases hd : items.drop n with
    | nil =>
      obtain ⟨e, he⟩ := hmissing f n (item_of_drop_eq_nil hd) (hdef f List.mem_cons_self)
      exact ⟨e, by rw [he]; rfl⟩
    | cons w rest =>
      obtain ⟨hw, hdrop⟩ := item_of_drop_eq_cons hd
      rw [hg f n w hw]
      cases hv : f.shape.ofValue w with
      | error e => exact ⟨e, rfl⟩
      | ok v =>
        have htail : ¬ List.Forall₂ Reads fs (items.drop (n + 1)) := fun h =>
          hnot (by rw [hd]; exact List.Forall₂.cons ⟨v, hv⟩ (hdrop ▸ h))
        obtain ⟨e, he⟩ := ih (fun g hg => hdef g (List.mem_cons_of_mem f hg))
          (by simp at hlen ⊢; omega) htail
        exact ⟨e, by rw [he]; rfl⟩

end Items

/-- **The array form of a record without defaults.** An array with one item per field, each
read by its field, gives the reads in field order. -/
theorem ofItems_eq_ok {name : String} {items : List Value}
    (hread : List.Forall₂ Reads fields items) :
    ofItems name fields items = .ok (List.zipWith readOf fields items) := by
  have hlen : items.length = fields.length := hread.length_eq.symm
  unfold ofItems
  rw [mapM_zipIdx_ok (n := 0) ?_ (by simpa using hread), List.drop_zero]
  · simp [hlen]
  · intro f i w hw
    simp only [hw]

/-- Any other array is refused when the fields have no defaults: an item is missing, an item is
refused, or there are items left over. -/
theorem ofItems_error {name : String} {items : List Value} (hdef : ∀ f ∈ fields, f.default = none)
    (hnot : ¬ List.Forall₂ Reads fields items) : ∃ e, ofItems name fields items = .error e := by
  unfold ofItems
  cases hmap : ((fields.zipIdx 0).mapM _ : Except Error (List Value)) with
  | error e => exact ⟨e, rfl⟩
  | ok vs =>
    by_cases hlen : items.length ≤ fields.length
    · refine absurd hmap (Except.ne_ok_of_error (mapM_zipIdx_error ?_ ?_ hdef
        (by simpa using hlen) (by simpa using hnot)))
      · intro f i w hw
        simp only [hw]
      · intro f i hw hd
        simp only [hw, hd]
        exact ⟨_, rfl⟩
    · exact ⟨_, by simp [Nat.lt_of_not_le hlen]; rfl⟩

end Record

end Json

namespace Rect

/-- The fields of a rectangle, in the order of `fieldNames`. -/
def fields (r : Rect) : List Float := [r.cx, r.cy, r.width, r.height, r.angle]

/-- A rectangle is determined by its fields, so what is said below of `r.fields` says all of `r`. -/
theorem eq_of_fields_eq {r r' : Rect} (h : r.fields = r'.fields) : r = r' := by
  cases r
  cases r'
  simp only [fields, List.cons.injEq, and_true] at h
  obtain ⟨rfl, rfl, rfl, rfl, rfl⟩ := h
  rfl

/-- A value that may stand for a field in a patch: null, which keeps the field, or a number, which
replaces it. -/
def FieldEntry (w : Json.Value) : Prop := w = .null ∨ ∃ n, w = .number n

/-- The values a patch accepts: an object whose members named for fields are all entries, or an
array of exactly five entries. -/
def IsPatch (v : Json.Value) : Prop :=
  (∃ ms, v = .object ms ∧ ∀ m ∈ ms, m.1 ∈ fieldNames → FieldEntry m.2) ∨
    (∃ items, v = .array items ∧ items.length = 5 ∧ ∀ w ∈ items, FieldEntry w)

/-- The field `new` is the field `old` patched by `entry`: the number, if the entry is a number,
and `old` otherwise. -/
def Given (entry : Json.Value) (old new : Float) : Prop :=
  (∃ n, entry = .number n ∧ new = n.toFloat) ∨ ((∀ n, entry ≠ .number n) ∧ new = old)

/-- The rectangle `r` is `c` patched field by field by `entries`, one per field in order. -/
def Patched (c r : Rect) (entries : List Json.Value) : Prop :=
  List.Forall₂ (fun p x => Given p.1 p.2 x) (entries.zip c.fields) r.fields

theorem given_null (old : Float) : Given .null old old :=
  .inr ⟨fun n h => (by cases h), rfl⟩

theorem fieldEntry_ofFloat (x : Float) : FieldEntry (.ofFloat x) := by
  unfold Json.Value.ofFloat
  split
  · exact .inr ⟨_, rfl⟩
  · exact .inl rfl

/-- A field patched by the JSON of a float takes the float when it is finite, which is written
as a number, and keeps its value otherwise, since null is written then. -/
theorem Given.ofFloat {x old new : Float} (h : Given (.ofFloat x) old new) :
    new = if x.isFinite then x else old := by
  unfold Json.Value.ofFloat at h
  split at h
  · rw [if_pos ‹_›]
    rcases h with ⟨n, hn, rfl⟩ | ⟨hn, -⟩
    · cases hn
      rfl
    · exact absurd rfl (hn _)
  · rw [if_neg ‹_›]
    rcases h with ⟨n, hn, -⟩ | ⟨-, rfl⟩
    · cases hn
    · rfl

/-! ## The shape of a patch -/

/-- An optional field without default, named `n` and read by `s`. -/
def optionalField (s : Json.Shape Json.Value) (n : String) : Json.Field :=
  { name := n, shape := s, optional := true }

/-- A patch is a record of the five fields, each optional and read by one shape, which reads
exactly the entries and patches a field as `Given` says. -/
theorem patchShape_eq : ∃ s : Json.Shape Json.Value,
    patchShape = .record "BBoxPatch" (fieldNames.map (optionalField s)) ∧
    (∀ w, (∃ v, s.ofValue w = .ok v) ↔ FieldEntry w) ∧
    (∀ w v old, s.ofValue w = .ok v → Given w old (patchField old v)) := by
  refine ⟨_, rfl, fun w => ?entry, fun w v old hv => ?given⟩
  case entry =>
    cases w with
    | null => exact iff_of_true ⟨_, rfl⟩ (.inl rfl)
    | number n => exact iff_of_true ⟨_, rfl⟩ (.inr ⟨n, rfl⟩)
    | bool b => exact iff_of_false (by rintro ⟨_, h⟩; cases h) (by simp [FieldEntry])
    | string s => exact iff_of_false (by rintro ⟨_, h⟩; cases h) (by simp [FieldEntry])
    | array items => exact iff_of_false (by rintro ⟨_, h⟩; cases h) (by simp [FieldEntry])
    | object ms => exact iff_of_false (by rintro ⟨_, h⟩; cases h) (by simp [FieldEntry])
  case given =>
    cases w with
    | null =>
      cases hv
      exact given_null old
    | number n =>
      cases hv
      exact .inl ⟨n, rfl, rfl⟩
    | _ => cases hv

theorem nodup_fieldNames : fieldNames.Nodup := by
  simp [fieldNames]

section Fields

variable {s : Json.Shape Json.Value}

theorem nodup_names_optionalFields : ((fieldNames.map (optionalField s)).map (·.name)).Nodup := by
  have hnames : (fieldNames.map (optionalField s)).map (·.name) = fieldNames := by
    simp [optionalField, Function.comp_def]
  rw [hnames]
  exact nodup_fieldNames

theorem optional_optionalFields :
    ∀ f ∈ fieldNames.map (optionalField s), f.default = none ∧ f.optional = true := by
  simp [optionalField]

theorem shape_of_mem_optionalFields {f : Json.Field} (hf : f ∈ fieldNames.map (optionalField s)) :
    f.shape = s := by
  obtain ⟨n, -, rfl⟩ := List.mem_map.1 hf
  rfl

variable (hentry : ∀ w, (∃ v, s.ofValue w = .ok v) ↔ FieldEntry w)
  (hgiven : ∀ w v old, s.ofValue w = .ok v → Given w old (patchField old v))
include hentry hgiven

/-- Patching a field by an entry its shape reads is `Given` by the entry. -/
theorem given_readOf {w : Json.Value} (hw : FieldEntry w) (name : String) (old : Float) :
    Given w old (patchField old (Json.Record.readOf (optionalField s name) w)) := by
  obtain ⟨v, hv⟩ := (hentry w).2 hw
  rw [Json.Record.readOf_of_ok hv]
  exact hgiven w v old hv

/-- A field with no entry keeps its value. -/
theorem given_lookup {o : Option Json.Value} (ho : ∀ w, o = some w → FieldEntry w) (name : String)
    (old : Float) :
    Given (o.getD .null) old
      (patchField old ((o.map (Json.Record.readOf (optionalField s name))).getD .null)) := by
  cases o with
  | none => exact given_null old
  | some w => exact given_readOf hentry hgiven (ho w rfl) name old

end Fields

theorem patch_of_ofValue {c : Rect} {v : Json.Value} {vals : List Json.Value}
    (h : patchShape.ofValue v = .ok vals) : c.patch v = .ok (c.applyPatch vals) := by
  rw [patch, h]

/-- A value the patch shape refuses is refused. -/
theorem patch_error_of_ofValue {c : Rect} {v : Json.Value}
    (h : ∃ e, patchShape.ofValue v = .error e) : ∃ e, c.patch v = .error e := by
  obtain ⟨e, he⟩ := h
  exact ⟨.badPatch e, by rw [patch, he]⟩

/-- A patch that is refused is refused as a box patch, which is invalid JSON. -/
theorem exists_badPatch {c : Rect} {v : Json.Value} {e : TrackError} (h : c.patch v = .error e) :
    e.kind = .invalidJson ∧ ∃ je, e = .badPatch je := by
  unfold patch at h
  split at h
  · cases h
  · cases h
    exact ⟨rfl, _, rfl⟩

/-! ## Objects -/

/-- **An object patch.** An object whose members named for fields are entries patches each
field by its last member, keeping the fields it has no member for; other members are ignored. -/
theorem patch_object (c : Rect) {ms : List (String × Json.Value)}
    (hms : ∀ m ∈ ms, m.1 ∈ fieldNames → FieldEntry m.2) :
    ∃ r, c.patch (.object ms) = .ok r ∧
      Patched c r (fieldNames.map fun k => (ms.reverse.lookup k).getD .null) := by
  obtain ⟨s, hshape, hentry, hgiven⟩ := patchShape_eq
  have hread : ∀ m ∈ ms, ∀ f ∈ fieldNames.map (optionalField s), f.name = m.1 →
      Json.Record.Reads f m.2 := by
    intro m hm f hf hname
    obtain ⟨n, hn, rfl⟩ := List.mem_map.1 hf
    refine (hentry m.2).2 (hms m hm ?_)
    rw [← hname]
    exact hn
  have hvals : patchShape.ofValue (.object ms) = .ok ((fieldNames.map (optionalField s)).map
      fun f => ((ms.reverse.lookup f.name).map (Json.Record.readOf f)).getD .null) := by
    rw [hshape]
    exact Json.Record.ofMembers_optional nodup_names_optionalFields optional_optionalFields hread
  refine ⟨_, patch_of_ofValue hvals, ?_⟩
  have hlook : ∀ k ∈ fieldNames, ∀ w, ms.reverse.lookup k = some w → FieldEntry w := by
    intro k hk w hw
    obtain ⟨l₁, l₂, hsplit, -⟩ := List.lookup_eq_some_iff.1 hw
    have hmem : (k, w) ∈ ms := List.mem_reverse.1 (by rw [hsplit]; simp)
    exact hms (k, w) hmem hk
  simp only [fieldNames, List.map_cons, List.map_nil, applyPatch, Patched, fields,
    List.zip_cons_cons, List.zip_nil_right, List.forall₂_cons, List.Forall₂.nil, and_true]
  refine ⟨?_, ?_, ?_, ?_, ?_⟩ <;>
    exact given_lookup hentry hgiven (hlook _ (by simp [fieldNames])) _ _

/-- An object is refused when a member named for a field is not an entry. -/
theorem patch_object_error (c : Rect) {ms : List (String × Json.Value)}
    (hbad : ∃ m ∈ ms, m.1 ∈ fieldNames ∧ ¬ FieldEntry m.2) :
    ∃ e, c.patch (.object ms) = .error e := by
  obtain ⟨s, hshape, hentry, -⟩ := patchShape_eq
  obtain ⟨m, hm, hk, hnot⟩ := hbad
  have hfield : ∃ m ∈ ms, ∃ f ∈ fieldNames.map (optionalField s), f.name = m.1 ∧
      ¬ Json.Record.Reads f m.2 :=
    ⟨m, hm, optionalField s m.1, List.mem_map_of_mem hk, rfl, fun hr => hnot ((hentry m.2).1 hr)⟩
  refine patch_error_of_ofValue ?_
  rw [hshape]
  exact Json.Record.ofMembers_error nodup_names_optionalFields hfield

/-! ## Arrays -/

theorem exists_five {items : List Json.Value} (hlen : items.length = 5) :
    ∃ w₀ w₁ w₂ w₃ w₄, items = [w₀, w₁, w₂, w₃, w₄] := by
  rcases items with _ | ⟨w₀, _ | ⟨w₁, _ | ⟨w₂, _ | ⟨w₃, _ | ⟨w₄, _ | ⟨w₅, rest⟩⟩⟩⟩⟩⟩ <;>
    simp at hlen
  exact ⟨w₀, w₁, w₂, w₃, w₄, rfl⟩

/-- **An array patch.** Five entries patch the five fields in order. -/
theorem patch_array (c : Rect) {items : List Json.Value} (hlen : items.length = 5)
    (hitems : ∀ w ∈ items, FieldEntry w) :
    ∃ r, c.patch (.array items) = .ok r ∧ Patched c r items := by
  obtain ⟨s, hshape, hentry, hgiven⟩ := patchShape_eq
  obtain ⟨w₀, w₁, w₂, w₃, w₄, rfl⟩ := exists_five hlen
  have hread : List.Forall₂ Json.Record.Reads (fieldNames.map (optionalField s))
      [w₀, w₁, w₂, w₃, w₄] := by
    simp only [fieldNames, List.map_cons, List.map_nil, List.forall₂_cons, List.Forall₂.nil,
      and_true]
    refine ⟨?_, ?_, ?_, ?_, ?_⟩ <;> exact (hentry _).2 (hitems _ (by simp))
  have hvals : patchShape.ofValue (.array [w₀, w₁, w₂, w₃, w₄]) =
      .ok (List.zipWith Json.Record.readOf (fieldNames.map (optionalField s))
        [w₀, w₁, w₂, w₃, w₄]) := by
    rw [hshape]
    exact Json.Record.ofItems_eq_ok hread
  refine ⟨_, patch_of_ofValue hvals, ?_⟩
  simp only [fieldNames, List.map_cons, List.map_nil, List.zipWith_cons_cons, List.zipWith_nil_left,
    applyPatch, Patched, fields, List.zip_cons_cons, List.zip_nil_right, List.forall₂_cons,
    List.Forall₂.nil, and_true]
  refine ⟨?_, ?_, ?_, ?_, ?_⟩ <;> exact given_readOf hentry hgiven (hitems _ (by simp)) _ _

/-- Items read by fields that all have the shape `s` are read by `s`. -/
theorem reads_of_forall₂ {s : Json.Shape Json.Value} {fs : List Json.Field}
    {items : List Json.Value} (hs : ∀ f ∈ fs, f.shape = s)
    (h : List.Forall₂ Json.Record.Reads fs items) :
    ∀ w ∈ items, ∃ v, s.ofValue w = .ok v := by
  induction h with
  | nil => simp
  | @cons f w fs items hfw _ ih =>
    intro x hx
    rcases List.mem_cons.1 hx with rfl | hx
    · rw [← hs f List.mem_cons_self]
      exact hfw
    · exact ih (fun g hg => hs g (List.mem_cons_of_mem f hg)) x hx

/-- Any array but one of five entries is refused. -/
theorem patch_array_error (c : Rect) {items : List Json.Value}
    (hbad : ¬ (items.length = 5 ∧ ∀ w ∈ items, FieldEntry w)) :
    ∃ e, c.patch (.array items) = .error e := by
  obtain ⟨s, hshape, hentry, -⟩ := patchShape_eq
  have hnot : ¬ List.Forall₂ Json.Record.Reads (fieldNames.map (optionalField s)) items := by
    intro h
    refine hbad ⟨?_, fun w hw => (hentry w).1 ?_⟩
    · rw [← h.length_eq]
      rfl
    · exact reads_of_forall₂ (fun f hf => shape_of_mem_optionalFields hf) h w hw
  refine patch_error_of_ofValue ?_
  rw [hshape]
  exact Json.Record.ofItems_error (fun f hf => (optional_optionalFields f hf).1) hnot

/-- A value that is neither an object nor an array is refused. -/
theorem patch_other (c : Rect) {v : Json.Value} (hobject : ∀ ms, v ≠ .object ms)
    (harray : ∀ items, v ≠ .array items) : ∃ e, c.patch v = .error e := by
  obtain ⟨s, hshape, -, -⟩ := patchShape_eq
  refine patch_error_of_ofValue ?_
  rw [hshape]
  cases v with
  | object ms => exact absurd rfl (hobject ms)
  | array items => exact absurd rfl (harray items)
  | _ => exact ⟨_, rfl⟩

/-- **Which values are patches.** A patch goes through exactly for an object whose members named
for fields are entries and for an array of five entries. -/
theorem patch_eq_ok_iff (c : Rect) (v : Json.Value) : (∃ r, c.patch v = .ok r) ↔ IsPatch v := by
  constructor
  · rintro ⟨r, hr⟩
    refine Classical.byContradiction fun hnot => ?_
    have hrefused : ∃ e, c.patch v = .error e := by
      cases v with
      | object ms =>
        refine patch_object_error c (Classical.byContradiction fun hno => hnot (.inl ⟨ms, rfl, ?_⟩))
        intro m hm hk
        exact Classical.byContradiction fun hne => hno ⟨m, hm, hk, hne⟩
      | array items =>
        exact patch_array_error c fun hok => hnot (.inr ⟨items, rfl, hok⟩)
      | _ => exact patch_other c (fun _ h => by cases h) (fun _ h => by cases h)
    obtain ⟨e, he⟩ := hrefused
    rw [hr] at he
    cases he
  · rintro (⟨ms, rfl, hms⟩ | ⟨items, rfl, hlen, hitems⟩)
    · obtain ⟨r, hr, -⟩ := patch_object c hms
      exact ⟨r, hr⟩
    · obtain ⟨r, hr, -⟩ := patch_array c hlen hitems
      exact ⟨r, hr⟩

/-! ## The JSON of a rectangle -/

/-- The members of the JSON of a rectangle, by name. -/
theorem toJson_eq (b : Rect) : b.toJson = .object (Json.Object.ofList [("cx", .ofFloat b.cx),
    ("cy", .ofFloat b.cy), ("width", .ofFloat b.width), ("height", .ofFloat b.height),
    ("angle", .ofFloat b.angle)]) := rfl

/-- **Patching with the JSON of a rectangle** takes its finite fields, written as numbers, and
keeps the others, written as null. -/
theorem patch_toJson (c b : Rect) :
    ∃ r, c.patch b.toJson = .ok r ∧
      r.fields = List.zipWith (fun x old => if x.isFinite then x else old) b.fields c.fields := by
  rw [toJson_eq]
  have hms : ∀ m ∈ Json.Object.ofList [("cx", .ofFloat b.cx), ("cy", .ofFloat b.cy),
      ("width", .ofFloat b.width), ("height", .ofFloat b.height), ("angle", .ofFloat b.angle)],
      m.1 ∈ fieldNames → FieldEntry m.2 := by
    intro m hm _
    have hpair := Json.Object.mem_ofList hm
    simp only [List.mem_cons, List.mem_nil_iff, or_false] at hpair
    rcases hpair with rfl | rfl | rfl | rfl | rfl <;> exact fieldEntry_ofFloat _
  obtain ⟨r, hr, hpatched⟩ := patch_object c hms
  refine ⟨r, hr, ?_⟩
  simp only [Json.Object.lookup_reverse (Json.Object.sorted_ofList _), Json.Object.lookup_ofList,
    fieldNames, List.map_cons, List.map_nil] at hpatched
  simp only [Patched, fields, List.zip_cons_cons, List.zip_nil_right, List.forall₂_cons] at hpatched
  obtain ⟨h₀, h₁, h₂, h₃, h₄, -⟩ := hpatched
  simp only [fields, List.zipWith_cons_cons, List.zipWith_nil_left]
  rw [← Given.ofFloat h₀, ← Given.ofFloat h₁, ← Given.ofFloat h₂, ← Given.ofFloat h₃,
    ← Given.ofFloat h₄]

/-! ## Text -/

theorem patchText_of_parse_ok {c : Rect} {text : String} {v : Json.Value}
    (h : Json.Value.parse text = .ok v) : c.patchText text = c.patch v := by
  rw [patchText, h]

theorem patchText_of_parse_error {c : Rect} {text : String} {e : Json.Error}
    (h : Json.Value.parse text = .error e) : c.patchText text = .error (.badPatch e) := by
  rw [patchText, h]

/-- The JSON of a float reads back from its text when the float's text does. -/
theorem printable_ofFloat {x : Float} (h : x.isFinite = true → Json.FloatReadsBack x) :
    (Json.Value.ofFloat x).Printable := by
  unfold Json.Value.ofFloat
  split
  · exact ⟨‹_›, h ‹_›⟩
  · trivial

/-- **The text form.** When the finite fields of `b` read back from their text, patching with
the text of the JSON of `b` patches with its JSON. -/
theorem patchText_render (c b : Rect)
    (hb : ∀ x ∈ b.fields, x.isFinite = true → Json.FloatReadsBack x) :
    c.patchText b.toJson.render = c.patch b.toJson := by
  have hmembers : ∀ m ∈ [("cx", Json.Value.ofFloat b.cx), ("cy", .ofFloat b.cy),
      ("width", .ofFloat b.width), ("height", .ofFloat b.height), ("angle", .ofFloat b.angle)],
      m.2.Printable ∧ m.2.nesting ≤ 0 := by
    intro m hm
    simp only [List.mem_cons, List.mem_nil_iff, or_false] at hm
    have hfield : ∃ x ∈ b.fields, m.2 = .ofFloat x := by
      rcases hm with rfl | rfl | rfl | rfl | rfl <;> exact ⟨_, by simp [fields], rfl⟩
    obtain ⟨x, hx, hm2⟩ := hfield
    rw [hm2]
    refine ⟨printable_ofFloat (hb x hx), ?_⟩
    unfold Json.Value.ofFloat
    split <;> exact Nat.le_refl 0
  have hprint : b.toJson.Printable := Json.Value.printable_obj fun m hm => (hmembers m hm).1
  have hnest : b.toJson.nesting < 128 :=
    Nat.lt_of_le_of_lt (Json.Value.nesting_obj_le fun m hm => (hmembers m hm).2) (by decide)
  exact patchText_of_parse_ok (Json.Value.parse_render hprint hnest)

/-! ## The contract -/

/-- An object patch that went through patched the fields by the members named for them. -/
theorem patched_of_patch_object {c r : Rect} {ms : List (String × Json.Value)}
    (hr : c.patch (.object ms) = .ok r) :
    Patched c r (fieldNames.map fun k => (ms.reverse.lookup k).getD .null) := by
  obtain ⟨ms', hms', hentries⟩ | ⟨items, hitems, -⟩ := (patch_eq_ok_iff c _).1 ⟨r, hr⟩
  · cases hms'
    obtain ⟨r', hr', hpatched⟩ := patch_object c hentries
    rw [hr] at hr'
    cases hr'
    exact hpatched
  · cases hitems

/-- An array patch that went through patched the fields by its items. -/
theorem patched_of_patch_array {c r : Rect} {items : List Json.Value}
    (hr : c.patch (.array items) = .ok r) : Patched c r items := by
  obtain ⟨ms, hms, -⟩ | ⟨items', hitems', hlen, hentries⟩ := (patch_eq_ok_iff c _).1 ⟨r, hr⟩
  · cases hms
  · cases hitems'
    obtain ⟨r', hr', hpatched⟩ := patch_array c hlen hentries
    rw [hr] at hr'
    cases hr'
    exact hpatched

/-- **Patching a rectangle.** A patch that is refused is refused whole, as invalid JSON, and no
rectangle comes out of it. A patch goes through exactly for an object whose members named for
fields are numbers or null, other members being ignored, and for an array of five numbers or
nulls. It then patches each field by its entry, the last member named for it or the item in its
place: a number replaces the field, and null or a missing member keeps it. Text is read first,
and text that is not JSON is refused as invalid JSON. Patching with the JSON of a rectangle `b`
takes every finite field of `b` and keeps the fields where `b` is not finite, written as null;
when the finite fields of `b` read back from their text, patching with the text of the JSON of
`b` does the same. -/
theorem patch_replaces_given_fields (c : Rect) :
    fieldNames = ["cx", "cy", "width", "height", "angle"] ∧
    (∀ v e, c.patch v = .error e → e.kind = .invalidJson ∧ ∃ je, e = .badPatch je) ∧
    (∀ v, (∃ r, c.patch v = .ok r) ↔ IsPatch v) ∧
    (∀ ms r, c.patch (.object ms) = .ok r →
      Patched c r (fieldNames.map fun k => (ms.reverse.lookup k).getD .null)) ∧
    (∀ items r, c.patch (.array items) = .ok r → Patched c r items) ∧
    (∀ text, (∀ e, Json.Value.parse text = .error e →
        c.patchText text = .error (.badPatch e) ∧ (TrackError.badPatch e).kind = .invalidJson) ∧
      ∀ v, Json.Value.parse text = .ok v → c.patchText text = c.patch v) ∧
    (∀ b : Rect, ∃ r, c.patch b.toJson = .ok r ∧
      r.fields = List.zipWith (fun x old => if x.isFinite then x else old) b.fields c.fields) ∧
    (∀ b : Rect, (∀ x ∈ b.fields, x.isFinite = true → Json.FloatReadsBack x) →
      c.patchText b.toJson.render = c.patch b.toJson) := by
  refine ⟨rfl, fun v e h => exists_badPatch h, patch_eq_ok_iff c,
    fun ms r hr => patched_of_patch_object hr, fun items r hr => patched_of_patch_array hr,
    fun text => ⟨fun e h => ⟨patchText_of_parse_error h, rfl⟩, fun v h => patchText_of_parse_ok h⟩,
    patch_toJson c, patchText_render c⟩

end Rect

end RegionTrack
