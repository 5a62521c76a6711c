import RegionTrack.Proofs.ReadPretty
import RegionTrack.Proofs.ShapeValues
import RegionTrack.Proofs.MetadataPatch
import RegionTrack.Proofs.QueryTime
import RegionTrack.Proofs.CurveMap

/-!
# Metadata round trip

The metadata a track writes is read back whole. Applied to any track `u`, the metadata of `t`
gives `u` the identity, visibility, rate, time scale and keyframes of `t`, takes `t`'s data path
when `t` has one, and keeps `u`'s samples and curve defaults (`Track.patch_toJson`); applied to
`t` itself it changes nothing (`Track.adopt_self`). Of `t` this needs the ranges its data is read
in, rate terms of 32 bits and frames of 64 bits, and finite keyframe values, since JSON has no
number for the others (`Track.Writable`).

Applying the metadata member by member is a run of steps: each member of `t` sets one part of
the track (`Track.takeMember`), whatever the track it is applied to, and the run is their fold
(`Track.applyMembers_metadata`).

The text form goes through the pretty printer and the reader: when the time scale and the
keyframe values of `t` read back from their text (`Track.FloatsReadBack`), the text of the
metadata reads back as the metadata (`Track.patchText_render`).

## Main definitions

* `Track.Writable`: the tracks whose metadata reads back
* `Track.FloatsReadBack`: the tracks whose floats read back from their text
* `Track.takeMember`, `Track.adopt`: one member of a track's metadata taken, and all of them

## Main statements

* `Track.metadata_round_trip`: the metadata of a track, as a value and as text, applied to any
  track and to the track itself.
-/

namespace RegionTrack

/-! ## Curves given ordered keyframes -/

/-- A key above every key of a list goes at its end. -/
theorem Keyed.insert_eq_append {α : Type} {key : α → Nat} {x : α} {xs : List α}
    (h : ∀ y ∈ xs, key y < key x) : Keyed.insert key x xs = xs ++ [x] := by
  induction xs with
  | nil => rfl
  | cons y ys ih =>
    have hy := h y List.mem_cons_self
    rw [Keyed.insert, if_neg (Nat.lt_asymm hy), if_neg (Nat.ne_of_gt hy),
      ih fun z hz => h z (List.mem_cons_of_mem y hz)]
    rfl

namespace Curve

theorem ext {c d : Curve} (hd : c.default = d.default) (hk : c.keys = d.keys) : c = d := by
  cases c
  cases d
  simp only at hd hk
  subst hd hk
  rfl

/-- Keyframes added in increasing frame order, all above those of the curve, are appended. -/
theorem keys_foldl_add {c : Curve} {ks : List Keyframe} (h : Keyed.Sorted (·.frame) (c.keys ++ ks)) :
    (ks.foldl add c).keys = c.keys ++ ks := by
  induction ks generalizing c with
  | nil => simp
  | cons k ks ih =>
    obtain ⟨-, -, habove⟩ := List.pairwise_append.1 h
    have hadd : (c.add k).keys = c.keys ++ [k] :=
      Keyed.insert_eq_append fun y hy => habove y hy k List.mem_cons_self
    rw [List.foldl_cons, ih (by rwa [hadd, List.append_assoc, List.singleton_append]), hadd,
      List.append_assoc, List.singleton_append]

/-- A curve given keyframes in increasing frame order lists exactly those. -/
theorem keys_setKeys {c : Curve} {ks : List Keyframe} (h : Keyed.Sorted (·.frame) ks) :
    (c.setKeys ks).keys = ks :=
  keys_foldl_add (c := c.clear) h

/-- A curve given its own keyframes is unchanged. -/
theorem setKeys_keys (c : Curve) : c.setKeys c.keys = c :=
  ext (default_setKeys c c.keys) (keys_setKeys c.sorted)

end Curve

namespace Adjustments

theorem setCurve_curve (adj : Adjustments) (ch : Channel) : adj.setCurve ch (adj.curve ch) = adj := by
  cases ch <;> rfl

end Adjustments

/-! ## Reading keyframes and rates -/

theorem Easing.name_mem_names (e : Easing) : e.name ∈ Easing.names := by
  cases e <;> decide

theorem Easing.ofName?_name (e : Easing) : Easing.ofName? e.name = some e := by
  cases e <;> rfl

@[simp] theorem Observation.frameField_name (n : String) : (Observation.frameField n).name = n :=
  rfl

@[simp] theorem Observation.floatField_name (n : String) (d : Option Json.Value) :
    (Observation.floatField n d).name = n := rfl

theorem Observation.frameField_ofValue {name : String} {n : Nat} (h : n ≤ maxU64) :
    (Observation.frameField name).shape.ofValue (.ofNat n) = .ok (.ofNat n) := by
  rw [Observation.frameField, Json.Shape.map_ofValue, Json.Shape.unsigned_ofValue_ofNat h]
  rfl

theorem Observation.floatField_ofValue {name : String} {d : Option Json.Value} {x : Float}
    (h : x.isFinite = true) :
    (Observation.floatField name d).shape.ofValue (.ofFloat x) = .ok (.number (.float x)) := by
  rw [Observation.floatField, Json.Shape.map_ofValue, Json.Shape.float_ofValue_ofFloat h]
  rfl

theorem rateTermField_ofValue {name : String} {n : Nat} (h : n ≤ maxU32) :
    (rateTermField name).shape.ofValue (.ofNat n) = .ok (.ofNat n) := by
  show (fun x => _) <$> (some <$> (Json.Shape.unsigned "u32" maxU32).ofValue (.ofNat n)) = _
  rw [Json.Shape.unsigned_ofValue_ofNat h]
  rfl

/-- A keyframe on a 64-bit frame with a finite value reads back from its object. -/
theorem Keyframe.shape_ofValue_toJson {k : Keyframe} (hf : k.frame ≤ maxU64)
    (hv : k.value.isFinite = true) : Keyframe.shape.ofValue k.toJson = .ok k := by
  show (fun x => _) <$> Json.Record.ofMembers _ (Json.Object.ofList _) = _
  rw [Json.Record.ofMembers_eq_ok [.ofNat k.frame, .number (.float k.value), .string k.easing.name]
    ?names rfl ?read ?all]
  case names => decide
  case all =>
    intro f hf
    apply Json.Object.mem_keys_ofList
    simp only [List.mem_cons, List.mem_nil_iff, or_false] at hf
    rcases hf with rfl | rfl | rfl <;> simp
  case read =>
    intro m hm
    have hm := Json.Object.mem_ofList hm
    simp only [List.mem_cons, List.mem_nil_iff, or_false] at hm
    rcases hm with rfl | rfl | rfl
    · exact ⟨0, by simp, by simp, rfl, Observation.frameField_ofValue hf⟩
    · exact ⟨1, by simp, by simp, rfl, Observation.floatField_ofValue hv⟩
    · exact ⟨2, by simp, by simp, rfl, by
        simp [Json.Shape.enumeration_ofValue_string,
          Json.Shape.variantNamed_of_mem (Easing.name_mem_names _)]⟩
  show Except.ok _ = _
  simp [Observation.natOf, Observation.floatOf, Json.Number.toFloat, Json.Value.ofNat,
    Easing.ofName?_name]

/-- Both terms of a 32-bit rate read back from its object. -/
theorem ratePatchShape_ofValue {num den : Nat} (hn : num ≤ maxU32) (hd : den ≤ maxU32) :
    ratePatchShape.ofValue (.obj [("num", .ofNat num), ("den", .ofNat den)]) =
      .ok (some num, some den) := by
  show (fun x => _) <$> Json.Record.ofMembers _ (Json.Object.ofList _) = _
  rw [Json.Record.ofMembers_eq_ok [.ofNat num, .ofNat den] ?names rfl ?read ?all]
  case names => decide
  case all =>
    intro f hf
    apply Json.Object.mem_keys_ofList
    simp only [List.mem_cons, List.mem_nil_iff, or_false] at hf
    rcases hf with rfl | rfl <;> simp [rateTermField]
  case read =>
    intro m hm
    rcases List.mem_pair.1 (Json.Object.mem_ofList hm) with rfl | rfl
    · exact ⟨0, by simp, by simp, rfl, rateTermField_ofValue hn⟩
    · exact ⟨1, by simp, by simp, rfl, rateTermField_ofValue hd⟩
  rfl

/-! ## The members of a track's metadata -/

namespace Track

/-- What the metadata of `t` holds under the member `key`. -/
def memberJson (t : Track) : MetadataKey → Json.Value
  | .boxId => .string t.id
  | .baseFps => .obj [("num", .ofNat t.rate.num), ("den", .ofNat t.rate.den)]
  | .timeScale => .ofFloat t.scale.value
  | .visible => .bool t.visible
  | .dataPath =>
    match t.dataPath with
    | some p => .string p
    | none => .null
  | .curve ch => .array ((t.adjustments.curve ch).keys.map Keyframe.toJson)

/-- The members of the metadata of `t`. -/
def metadataMembers (t : Track) : List (String × Json.Value) :=
  Json.Object.ofList (MetadataKey.all.map fun key => (key.name, t.memberJson key))

/-- The metadata of `t` is the object of its members. -/
theorem toJson_eq_obj (t : Track) :
    t.toJson = .obj (MetadataKey.all.map fun key => (key.name, t.memberJson key)) := rfl

theorem lookup_metadataMembers (t : Track) (key : MetadataKey) :
    t.metadataMembers.lookup key.name = some (t.memberJson key) := by
  rw [metadataMembers, Json.Object.lookup_ofList]
  cases key with
  | curve ch => cases ch <;> rfl
  | _ => rfl

/-- Only a missing data path is written null. -/
theorem memberJson_eq_null {t : Track} {key : MetadataKey} (h : t.memberJson key = .null) :
    key = .dataPath ∧ t.dataPath = none := by
  cases key with
  | dataPath =>
    cases hp : t.dataPath with
    | none => exact ⟨rfl, rfl⟩
    | some p => simp [memberJson, hp] at h
  | timeScale => simp [memberJson, Json.Value.ofFloat, t.scale.valid.1] at h
  | _ => simp [memberJson, Json.Value.obj] at h

theorem valueIn_metadataMembers {t : Track} {key : MetadataKey} (h : t.memberJson key ≠ .null) :
    key.valueIn t.metadataMembers = some (t.memberJson key) := by
  rw [MetadataKey.valueIn, lookup_metadataMembers]
  generalize t.memberJson key = w at h ⊢
  cases w <;> first | rfl | exact absurd rfl h

/-! ## Taking the members one after another -/

/-- The tracks whose metadata reads back: the terms of the rate fit in 32 bits and the keyframes
sit on frames that fit in 64 bits, the ranges they are read in, and the keyframe values are
finite, since JSON has no number for the others. -/
structure Writable (t : Track) : Prop where
  num_le : t.rate.num ≤ maxU32
  den_le : t.rate.den ≤ maxU32
  frame_le : ∀ ch, ∀ k ∈ (t.adjustments.curve ch).keys, k.frame ≤ maxU64
  finite : ∀ ch, ∀ k ∈ (t.adjustments.curve ch).keys, k.value.isFinite = true

/-- The track `u` after taking the member `key` of the metadata of `t`: the part of `t` the member
holds, a missing data path leaving `u`'s, and a curve's keyframes without its default. -/
def takeMember (u t : Track) : MetadataKey → Track
  | .boxId => { u with id := t.id }
  | .baseFps => { u with rate := t.rate }
  | .timeScale => { u with scale := t.scale }
  | .visible => { u with visible := t.visible }
  | .dataPath => { u with dataPath := t.dataPath.or u.dataPath }
  | .curve ch =>
    { u with adjustments :=
        u.adjustments.setCurve ch ((u.adjustments.curve ch).setKeys (t.adjustments.curve ch).keys) }

variable {t : Track}

/-- A member of the metadata of a writable track that is not null is taken whole; its rate passes
the check it was built by. -/
theorem memberEffect_memberJson (ht : t.Writable) (u : Track) {key : MetadataKey}
    (hkey : t.memberJson key ≠ .null) :
    MemberEffect u key (t.memberJson key) (u.takeMember t key) := by
  cases key with
  | boxId => exact .boxId rfl
  | baseFps =>
    exact .baseFps (ratePatchShape_ofValue ht.num_le ht.den_le) (FrameRate.make_self t.rate)
  | timeScale =>
    exact .timeScale (Json.Shape.float_ofValue_ofFloat t.scale.valid.1) (TimeScale.make_self t.scale)
  | visible => exact .visible rfl
  | dataPath =>
    cases hp : t.dataPath with
    | none => exact absurd (by simp [memberJson, hp]) hkey
    | some p =>
      simp only [memberJson, takeMember, hp]
      exact .dataPath rfl
  | curve ch =>
    exact .curve (Json.Shape.seq_ofValue_map fun k hk =>
      Keyframe.shape_ofValue_toJson (ht.frame_le ch k hk) (ht.finite ch k hk))

/-- **One step.** Applying the next member of the metadata of `t` takes it; a member written
null, a missing data path, is passed over and taking it changes nothing. -/
theorem applyMembers_cons_metadata (ht : t.Writable) (u : Track) (key : MetadataKey)
    (rest : List MetadataKey) :
    u.applyMembers t.metadataMembers (key :: rest) =
      (u.takeMember t key).applyMembers t.metadataMembers rest := by
  by_cases hnull : t.memberJson key = .null
  · obtain ⟨rfl, hp⟩ := memberJson_eq_null hnull
    rw [applyMembers_cons, MetadataKey.valueIn, lookup_metadataMembers, hnull]
    show _ = ({ u with dataPath := t.dataPath.or u.dataPath }).applyMembers _ rest
    rw [hp]
    rfl
  · rw [applyMembers_cons, valueIn_metadataMembers hnull]
    dsimp only
    rw [applyMember_eq_ok_iff.2 (memberEffect_memberJson ht u hnull)]

/-- **The run.** Applying members of the metadata of `t` in order takes them one after another,
and none is refused. -/
theorem applyMembers_metadata (ht : t.Writable) (u : Track) (keys : List MetadataKey) :
    u.applyMembers t.metadataMembers keys =
      (keys.foldl (fun u key => u.takeMember t key) u, .ok ()) := by
  induction keys generalizing u with
  | nil => rfl
  | cons key rest ih => rw [applyMembers_cons_metadata ht, ih, List.foldl_cons]

/-- The track `u` after taking every member of the metadata of `t`, in order. -/
def adopt (u t : Track) : Track := MetadataKey.all.foldl (fun u key => u.takeMember t key) u

/-- **The metadata of a writable track, applied.** Every member is taken, none refused. -/
theorem patch_toJson (ht : t.Writable) (u : Track) : u.patch t.toJson = (u.adopt t, .ok ()) :=
  applyMembers_metadata ht u MetadataKey.all

section Adopt

variable (u t : Track)

@[simp] theorem adopt_id : (u.adopt t).id = t.id := by
  simp [adopt, MetadataKey.all, Channel.all, takeMember]

@[simp] theorem adopt_visible : (u.adopt t).visible = t.visible := by
  simp [adopt, MetadataKey.all, Channel.all, takeMember]

@[simp] theorem adopt_rate : (u.adopt t).rate = t.rate := by
  simp [adopt, MetadataKey.all, Channel.all, takeMember]

@[simp] theorem adopt_scale : (u.adopt t).scale = t.scale := by
  simp [adopt, MetadataKey.all, Channel.all, takeMember]

@[simp] theorem adopt_dataPath : (u.adopt t).dataPath = t.dataPath.or u.dataPath := by
  simp [adopt, MetadataKey.all, Channel.all, takeMember]

@[simp] theorem adopt_samples : (u.adopt t).samples = u.samples := by
  simp [adopt, MetadataKey.all, Channel.all, takeMember]

theorem adopt_curve (ch : Channel) :
    (u.adopt t).adjustments.curve ch =
      (u.adjustments.curve ch).setKeys (t.adjustments.curve ch).keys := by
  cases ch <;> simp [adopt, MetadataKey.all, Channel.all, takeMember, Adjustments.curve, Adjustments.setCurve]

/-- Each curve takes the keyframes of `t` as they are: they are in frame order already. -/
@[simp] theorem keys_adopt_curve (ch : Channel) :
    ((u.adopt t).adjustments.curve ch).keys = (t.adjustments.curve ch).keys := by
  rw [adopt_curve, Curve.keys_setKeys (t.adjustments.curve ch).sorted]

/-- Each curve keeps its default, which the metadata does not hold. -/
@[simp] theorem default_adopt_curve (ch : Channel) :
    ((u.adopt t).adjustments.curve ch).default = (u.adjustments.curve ch).default := by
  rw [adopt_curve, Curve.default_setKeys]

end Adopt

theorem takeMember_self (t : Track) (key : MetadataKey) : t.takeMember t key = t := by
  cases key with
  | dataPath =>
    show { t with dataPath := t.dataPath.or t.dataPath } = t
    rw [Option.or_self]
  | curve ch =>
    simp only [takeMember, Curve.setKeys_keys, Adjustments.setCurve_curve]
  | _ => rfl

/-- A track takes its own metadata without change. -/
theorem adopt_self (t : Track) : t.adopt t = t := by
  unfold adopt
  generalize MetadataKey.all = keys
  induction keys with
  | nil => rfl
  | cons key rest ih => rw [List.foldl_cons, takeMember_self, ih]

/-! ## The text form -/

/-- The floats of a track's metadata read back from their text: the time scale and the keyframe
values. -/
def FloatsReadBack (t : Track) : Prop :=
  Json.FloatReadsBack t.scale.value ∧
    ∀ ch, ∀ k ∈ (t.adjustments.curve ch).keys, Json.FloatReadsBack k.value

theorem printable_keyframe {k : Keyframe} (hf : k.frame ≤ maxU64) (hv : k.value.isFinite = true)
    (hr : Json.FloatReadsBack k.value) : k.toJson.Printable := by
  refine Json.Value.printable_obj fun m hm => ?_
  simp only [List.mem_cons, List.mem_nil_iff, or_false] at hm
  rcases hm with rfl | rfl | rfl
  · exact hf
  · show (Json.Value.ofFloat k.value).Printable
    rw [Json.Value.ofFloat, if_pos hv]
    exact ⟨hv, hr⟩
  · trivial

theorem printable_memberJson (ht : t.Writable) (hr : t.FloatsReadBack) (key : MetadataKey) :
    (t.memberJson key).Printable := by
  cases key with
  | boxId | visible => trivial
  | baseFps =>
    refine Json.Value.printable_obj fun m hm => ?_
    have h32 : maxU32 ≤ Json.Reader.maxUnsigned := by decide
    rcases List.mem_pair.1 hm with rfl | rfl
    · exact Nat.le_trans ht.num_le h32
    · exact Nat.le_trans ht.den_le h32
  | timeScale =>
    show (Json.Value.ofFloat t.scale.value).Printable
    rw [Json.Value.ofFloat, if_pos t.scale.valid.1]
    exact ⟨t.scale.valid.1, hr.1⟩
  | dataPath =>
    show (match t.dataPath with
      | some p => Json.Value.string p
      | none => .null).Printable
    cases t.dataPath <;> trivial
  | curve ch =>
    refine Json.Value.itemsPrintable_iff.2 fun v hv => ?_
    obtain ⟨k, hk, rfl⟩ := List.mem_map.1 hv
    exact printable_keyframe (ht.frame_le ch k hk) (ht.finite ch k hk) (hr.2 ch k hk)

theorem printable_toJson (ht : t.Writable) (hr : t.FloatsReadBack) : t.toJson.Printable := by
  rw [toJson_eq_obj]
  refine Json.Value.printable_obj fun m hm => ?_
  obtain ⟨key, -, rfl⟩ := List.mem_map.1 hm
  exact printable_memberJson ht hr key

/-- A keyframe's object holds numbers and a string only. -/
theorem nesting_keyframe_le (k : Keyframe) : k.toJson.nesting ≤ 1 := by
  refine Json.Value.nesting_obj_le fun m hm => ?_
  simp only [List.mem_cons, List.mem_nil_iff, or_false] at hm
  rcases hm with rfl | rfl | rfl
  · exact Nat.le_refl 0
  · simp only [Json.Value.ofFloat]
    split <;> exact Nat.le_refl 0
  · exact Nat.le_refl 0

theorem nesting_memberJson_le (t : Track) (key : MetadataKey) : (t.memberJson key).nesting ≤ 2 := by
  cases key with
  | baseFps =>
    refine Nat.le_trans (Json.Value.nesting_obj_le fun m hm => ?_) (Nat.le_succ 1)
    rcases List.mem_pair.1 hm with rfl | rfl <;> exact Nat.le_refl 0
  | curve ch =>
    refine Nat.succ_le_succ (Json.Value.itemsNesting_le fun v hv => ?_)
    obtain ⟨k, -, rfl⟩ := List.mem_map.1 hv
    exact nesting_keyframe_le k
  | timeScale =>
    show (Json.Value.ofFloat t.scale.value).nesting ≤ 2
    simp only [Json.Value.ofFloat]
    split <;> exact Nat.zero_le 2
  | dataPath =>
    show (match t.dataPath with
      | some p => Json.Value.string p
      | none => .null).nesting ≤ 2
    cases t.dataPath <;> exact Nat.zero_le 2
  | boxId | visible => exact Nat.zero_le 2

/-- The metadata nests three levels deep: the object, a curve's array, a keyframe's object. -/
theorem nesting_toJson_le (t : Track) : t.toJson.nesting ≤ 3 := by
  rw [toJson_eq_obj]
  refine Json.Value.nesting_obj_le fun m hm => ?_
  obtain ⟨key, -, rfl⟩ := List.mem_map.1 hm
  exact nesting_memberJson_le t key

/-- **The text form.** When the floats of a writable track read back from their text, applying
the text of its metadata applies its metadata. -/
theorem patchText_render (ht : t.Writable) (hr : t.FloatsReadBack) (u : Track) :
    u.patchText t.render = u.patch t.toJson := by
  have hnest : t.toJson.nesting < 128 := Nat.lt_of_le_of_lt (nesting_toJson_le t) (by decide)
  rw [patchText, render, Json.Value.parse_render (printable_toJson ht hr) hnest]

/-- A track that took the metadata of `t` writes the metadata of `t` when it had `t`'s data path. -/
theorem toJson_adopt {u : Track} (h : u.dataPath = t.dataPath) : (u.adopt t).toJson = t.toJson := by
  simp only [toJson, adopt_id, adopt_rate, adopt_scale, adopt_visible, adopt_dataPath, h,
    Option.or_self, keys_adopt_curve]

/-! ## The round trip -/

/-- **Metadata round trip.** For a writable track `t` and any track `u`: applying the metadata
of `t` to `u` succeeds and gives `u` the identity, visibility, rate, time scale and the keyframes
of every curve of `t`; `u` takes `t`'s data path when `t` has one and keeps its own otherwise, and
keeps its samples and the defaults of its curves. Applied to `t` itself the metadata changes
nothing. When the floats of `t` read back from their text, applying the text of the metadata of
`t` does the same, and a track whose data path was `t`'s then writes the text of `t`. -/
theorem metadata_round_trip (t u : Track) (ht : t.Writable) :
    let r := u.patch t.toJson
    r.2 = .ok () ∧ r.1.id = t.id ∧ r.1.visible = t.visible ∧ r.1.rate = t.rate ∧
      r.1.scale = t.scale ∧
      (∀ ch, (r.1.adjustments.curve ch).keys = (t.adjustments.curve ch).keys ∧
        (r.1.adjustments.curve ch).default = (u.adjustments.curve ch).default) ∧
      r.1.dataPath = t.dataPath.or u.dataPath ∧ r.1.samples = u.samples ∧
      t.patch t.toJson = (t, .ok ()) ∧
      (t.FloatsReadBack → u.patchText t.render = r ∧
        (u.dataPath = t.dataPath → (u.patchText t.render).1.render = t.render)) := by
  intro r
  have hr : r = (u.adopt t, .ok ()) := patch_toJson ht u
  refine ⟨by rw [hr], by rw [hr, adopt_id], by rw [hr, adopt_visible], by rw [hr, adopt_rate],
    by rw [hr, adopt_scale], fun ch => ?curves, by rw [hr, adopt_dataPath],
    by rw [hr, adopt_samples], ?self, fun hfloats => ?text⟩
  case curves => rw [hr, keys_adopt_curve, default_adopt_curve]; exact ⟨rfl, rfl⟩
  case self => rw [patch_toJson ht, adopt_self]
  case text =>
    have htext := patchText_render ht hfloats u
    refine ⟨htext, fun hpath => ?_⟩
    rw [htext, patch_toJson ht, render, render, toJson_adopt hpath]

end Track

/-- The text of `1.0` reads back. -/
theorem Json.floatReadsBack_one : Json.FloatReadsBack 1.0 := by
  have hread : Json.Value.parse "1.0" =
      .ok (.number (.float (Float.ofNat 10 / Json.Reader.powerOfTen 1))) := by
    rw [Json.Value.parse, show "1.0".toUTF8.toList = [49, 46, 48] by decide +kernel]
    rfl
  have hbits : Float.ofNat 10 / Json.Reader.powerOfTen 1 = 1.0 :=
    FloatBits.eq_of_toBits_eq (by decide +kernel)
  rw [Json.FloatReadsBack, show Json.floatFormat.render 1.0 = "1.0" by decide +kernel, hread, hbits]

/-- The round trip of a track with a fractional rate, a data path and a keyframe, into a track
with the same data path. -/
theorem Track.metadata_round_trip_clip :
    let t : Track :=
      { id := "car", visible := false, rate := { num := 30000, den := 1001 },
        dataPath := some "clip.json",
        adjustments := { Adjustments.initial with scaleX := (Curve.empty 1.0).add ⟨12, 1.0, .linear⟩ } }
    let u : Track := { id := "old", dataPath := some "clip.json" }
    t.Writable ∧ t.FloatsReadBack ∧ (u.patch t.toJson).2 = .ok () ∧
      u.patchText t.render = u.patch t.toJson ∧ (u.patchText t.render).1.render = t.render := by
  intro t u
  have hkeys : ∀ ch, ∀ k ∈ (t.adjustments.curve ch).keys, k = ⟨12, 1.0, .linear⟩ := by
    intro ch k hk
    cases ch
    case scaleX => simpa [t, Adjustments.curve, Curve.add, Curve.empty, Keyed.insert] using hk
    all_goals simp [t, Adjustments.curve, Adjustments.initial, Curve.empty] at hk
  have ht : t.Writable :=
    ⟨by decide, by decide, fun ch k hk => by rw [hkeys ch k hk]; decide,
      fun ch k hk => by rw [hkeys ch k hk]; decide⟩
  have hfloats : t.FloatsReadBack :=
    ⟨Json.floatReadsBack_one, fun ch k hk => by rw [hkeys ch k hk]; exact Json.floatReadsBack_one⟩
  obtain ⟨hok, -, -, -, -, -, -, -, -, htext⟩ := Track.metadata_round_trip t u ht
  exact ⟨ht, hfloats, hok, (htext hfloats).1, (htext hfloats).2 rfl⟩

end RegionTrack
