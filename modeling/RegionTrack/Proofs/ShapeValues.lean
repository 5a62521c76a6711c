import RegionTrack.Json.Shape

/-!
# Shapes read the values written for them

Each shape reads back the value that stands for a datum of its type: a finite float as a float
number, a natural within the bound as an unsigned number, and a sequence item by item. A record
reads an object whose members are its fields whatever order the members come in: each field
takes the value its shape reads from its own member (`Json.Record.ofMembers_eq_ok`).

The record reader goes through the members once, keeping for each field the value read so far;
the invariant of that pass (`Json.Record.foundAfter`) is that a field whose member was passed
holds its value and every other field is still missing.

## Main statements

* `Json.Shape.seq_ofValue_map`: a sequence of written items reads back item by item.
* `Json.Record.ofMembers_eq_ok`: a record reads the object of its fields.
-/

namespace RegionTrack.Json

namespace Shape

variable {α β : Type}

@[simp] theorem map_ofValue (f : α → β) (s : Shape α) (v : Value) :
    (s.map f).ofValue v = f <$> s.ofValue v := rfl

theorem float_ofValue_ofFloat {x : Float} (hx : x.isFinite = true) :
    float.ofValue (.ofFloat x) = .ok x := by
  rw [Value.ofFloat, if_pos hx]
  rfl

theorem unsigned_ofValue_ofNat {name : String} {bound n : Nat} (h : n ≤ bound) :
    (unsigned name bound).ofValue (.ofNat n) = .ok n := by
  show Except.mapError Error.ofMismatch (if n ≤ bound then .ok n else _) = _
  rw [if_pos h]
  rfl

/-- A sequence of written items reads back item by item. -/
theorem seq_ofValue_map {s : Shape α} {f : α → Value} {xs : List α}
    (h : ∀ x ∈ xs, s.ofValue (f x) = .ok x) : (seq s).ofValue (.array (xs.map f)) = .ok xs := by
  show (xs.map f).mapM s.ofValue = .ok xs
  induction xs with
  | nil => rfl
  | cons x xs ih =>
    rw [List.map_cons, List.mapM_cons, h x List.mem_cons_self,
      ih fun y hy => h y (List.mem_cons_of_mem x hy)]
    rfl

theorem enumeration_ofValue_string {name v : String} {variants : List String} :
    (enumeration name variants).ofValue (.string v) = variantNamed variants v := rfl

theorem variantNamed_of_mem {variants : List String} {v : String} (h : v ∈ variants) :
    variantNamed variants v = .ok v := by
  simp [variantNamed, h]

end Shape

namespace Record

variable {fields : List Field} {vals : List Value}

/-- One member in the record reader: a member named for a field is read by that field's shape
and recorded in the field's place; any other member is passed over. -/
def foundMember (fields : List Field) (found : List (Option Value)) (kv : String × Value) :
    Except Error (List (Option Value)) :=
  match fieldIndex fields kv.1 with
  | none => .ok found
  | some i =>
    match fields[i]? with
    | none => .ok found
    | some f => do return found.set i (some (← f.shape.ofValue kv.2))

theorem ofMembers_eq (fields : List Field) (members : List (String × Value)) :
    ofMembers fields members =
      members.foldlM (foundMember fields) (fields.map fun _ => none) >>= complete fields := rfl

/-- Completing a record every field of which was found gives the values found. -/
theorem complete_map_some (h : vals.length = fields.length) :
    complete fields (vals.map some) = .ok vals := by
  induction fields generalizing vals with
  | nil => cases vals with
    | nil => rfl
    | cons _ _ => cases h
  | cons f fs ih =>
    cases vals with
    | nil => cases h
    | cons v vs =>
      have ih := ih (Nat.succ.inj h)
      simp only [complete] at ih ⊢
      rw [List.map_cons, List.zip_cons_cons, List.mapM_cons, ih]
      rfl

/-- Distinct names tell the fields apart. -/
theorem eq_of_name_eq (hnames : (fields.map (·.name)).Nodup) {i j : Nat} (hi : i < fields.length)
    (hj : j < fields.length) (h : fields[i].name = fields[j].name) : i = j := by
  have hpair := List.pairwise_iff_getElem.1 hnames
  rcases Nat.lt_trichotomy i j with hij | hij | hij
  · exact (hpair i j (by simpa) (by simpa) hij (by simpa using h)).elim
  · exact hij
  · exact (hpair j i (by simpa) (by simpa) hij (by simpa using h.symm)).elim

/-- With distinct names, the field named as field `i` is found at place `i`. -/
theorem fieldIndex_eq (hnames : (fields.map (·.name)).Nodup) {i : Nat}
    (hi : i < fields.length) : fieldIndex fields fields[i].name = some i := by
  refine List.findIdx?_eq_some_iff_getElem.2 ⟨hi, by simp, fun j hji hj => ?_⟩
  have := eq_of_name_eq (i := j) (j := i) hnames (by omega) hi (by simpa using hj)
  omega

/-- The places of a record's fields once the members named `names` were read: a field whose
name is among them holds its value, and the others are missing. -/
def foundNamed (fields : List Field) (vals : List Value) (names : List String) :
    List (Option Value) :=
  (fields.zip vals).map fun fv => if fv.1.name ∈ names then some fv.2 else none

/-- The places of a record's fields after the members `pre` were read. -/
def foundAfter (fields : List Field) (vals : List Value) (pre : List (String × Value)) :
    List (Option Value) :=
  (fields.zip vals).map fun fv => if fv.1.name ∈ pre.map Prod.fst then some fv.2 else none

theorem foundAfter_eq_foundNamed (pre : List (String × Value)) :
    foundAfter fields vals pre = foundNamed fields vals (pre.map Prod.fst) := rfl

theorem length_foundNamed (h : vals.length = fields.length) (names : List String) :
    (foundNamed fields vals names).length = fields.length := by
  simp [foundNamed, h]

/-- Before any member every field is missing. -/
theorem foundNamed_nil (h : vals.length = fields.length) :
    foundNamed fields vals [] = fields.map fun _ => none := by
  apply List.ext_getElem (by simp [length_foundNamed h])
  intro j _ _
  simp [foundNamed]

/-- Once every field's member was read, every field holds its value. -/
theorem foundNamed_of_forall_mem (h : vals.length = fields.length) {names : List String}
    (hall : ∀ f ∈ fields, f.name ∈ names) : foundNamed fields vals names = vals.map some := by
  apply List.ext_getElem (by simp [length_foundNamed h, h])
  intro j hj _
  have hjf : j < fields.length := by simpa [length_foundNamed h] using hj
  simp [foundNamed, hall fields[j] (List.getElem_mem hjf)]

/-- Completing a record whose fields without a member take their defaults as values gives the
values. -/
theorem complete_foundNamed (h : vals.length = fields.length) {names : List String}
    (hdefault : ∀ i (hi : i < fields.length) (hv : i < vals.length),
      fields[i].name ∉ names → fields[i].default = some vals[i]) :
    complete fields (foundNamed fields vals names) = .ok vals := by
  induction fields generalizing vals with
  | nil =>
    cases vals with
    | nil => rfl
    | cons _ _ => cases h
  | cons f fs ih =>
    cases vals with
    | nil => cases h
    | cons v vs =>
      have ih := ih (Nat.succ.inj h) fun i hi hv hnot => hdefault (i + 1) (by simpa using hi)
        (by simpa using hv) hnot
      simp only [complete, foundNamed] at ih ⊢
      rw [List.zip_cons_cons, List.map_cons, List.zip_cons_cons, List.mapM_cons, ih]
      by_cases hf : f.name ∈ names
      · simp only [if_pos hf]
        rfl
      · have hd : f.default = some v := hdefault 0 (by simp) (by simp) hf
        simp only [if_neg hf, hd]
        rfl

/-- A field whose member was not read is missing. -/
theorem getElem?_foundNamed_of_not_mem (h : vals.length = fields.length) {names : List String}
    {i : Nat} (hi : i < fields.length) (hnot : fields[i].name ∉ names) :
    (foundNamed fields vals names)[i]? = some none := by
  rw [List.getElem?_eq_getElem (by rw [length_foundNamed h]; exact hi)]
  simp [foundNamed, hnot]

/-- Reading the member of field `i` records the field's value in its place. -/
theorem set_foundNamed (hnames : (fields.map (·.name)).Nodup) (hlen : vals.length = fields.length)
    {names : List String} {i : Nat} (hi : i < fields.length) (hv : i < vals.length) :
    (foundNamed fields vals names).set i (some vals[i]) =
      foundNamed fields vals (names ++ [fields[i].name]) := by
  apply List.ext_getElem (by simp [length_foundNamed hlen])
  intro j hj _
  have hjf : j < fields.length := by simpa [length_foundNamed hlen] using hj
  have hjv : j < vals.length := by omega
  simp only [List.getElem_set, foundNamed, List.getElem_map, List.getElem_zip, List.mem_append,
    List.mem_singleton]
  by_cases hij : i = j
  · subst hij
    simp
  · have hne : fields[j].name ≠ fields[i].name := fun heq =>
      hij (eq_of_name_eq hnames hi hjf heq.symm)
    simp only [if_neg hij, or_iff_left hne]

/-- Reading the member of field `i` records the field's value. -/
theorem foundMember_field (hnames : (fields.map (·.name)).Nodup)
    (hlen : vals.length = fields.length) {pre : List (String × Value)} {w : Value} {i : Nat}
    (hi : i < fields.length) (hv : i < vals.length)
    (hread : fields[i].shape.ofValue w = .ok vals[i]) :
    foundMember fields (foundAfter fields vals pre) (fields[i].name, w) =
      .ok (foundAfter fields vals (pre ++ [(fields[i].name, w)])) := by
  simp only [foundMember, fieldIndex_eq hnames hi, List.getElem?_eq_getElem hi, hread]
  show Except.ok ((foundAfter fields vals pre).set i (some vals[i])) = _
  rw [foundAfter_eq_foundNamed, set_foundNamed hnames hlen hi hv, foundAfter_eq_foundNamed,
    List.map_append]
  rfl

/-- Members each named for a field, whose shape reads the field's value from them, are recorded
one after another. -/
theorem foldlM_foundMember (hnames : (fields.map (·.name)).Nodup)
    (hlen : vals.length = fields.length) {members : List (String × Value)}
    (hread : ∀ m ∈ members, ∃ i, ∃ (hi : i < fields.length) (hv : i < vals.length),
      fields[i].name = m.1 ∧ fields[i].shape.ofValue m.2 = .ok vals[i])
    (pre : List (String × Value)) :
    members.foldlM (foundMember fields) (foundAfter fields vals pre) =
      .ok (foundAfter fields vals (pre ++ members)) := by
  induction members generalizing pre with
  | nil => rw [List.append_nil]; rfl
  | cons m ms ih =>
    obtain ⟨i, hi, hv, hname, hm⟩ := hread m List.mem_cons_self
    obtain ⟨k, w⟩ := m
    dsimp only at hname hm
    subst hname
    rw [List.foldlM_cons, foundMember_field hnames hlen hi hv hm]
    show ms.foldlM (foundMember fields) (foundAfter fields vals (pre ++ [(fields[i].name, w)])) = _
    rw [ih (fun m' hm' => hread m' (List.mem_cons_of_mem _ hm')), List.append_assoc,
      List.singleton_append]

/-- **A record reads the object of its fields.** When the fields have distinct names, every
member of the object is named for a field whose shape reads the field's value from it, and every
field has a member, the record's values are those, in field order, whatever the order of the
members. -/
theorem ofMembers_eq_ok (vals : List Value) (hnames : (fields.map (·.name)).Nodup)
    (hlen : vals.length = fields.length) {members : List (String × Value)}
    (hread : ∀ m ∈ members, ∃ i, ∃ (hi : i < fields.length) (hv : i < vals.length),
      fields[i].name = m.1 ∧ fields[i].shape.ofValue m.2 = .ok vals[i])
    (hall : ∀ f ∈ fields, f.name ∈ members.map Prod.fst) :
    ofMembers fields members = .ok vals := by
  have hstart : fields.map (fun _ => none) = foundAfter fields vals [] :=
    (foundNamed_nil hlen).symm
  have hend : foundAfter fields vals members = vals.map some :=
    foundNamed_of_forall_mem hlen hall
  rw [ofMembers_eq, hstart, foldlM_foundMember hnames hlen hread, List.nil_append, hend]
  exact complete_map_some hlen

end Record

end RegionTrack.Json
