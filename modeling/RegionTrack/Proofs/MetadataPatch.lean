import RegionTrack.Track.Metadata

/-!
# Applying metadata to a track

Metadata is a JSON object, applied member by member. This module says what one member does
and what a whole object does.

One member is decoded whole by its shape (`MemberEffect`): the identity and the data path are
strings, `base_fps` is an object of optional 32-bit terms merged with the current rate,
`time_scale` is a number, `visible` a boolean, and a curve member is an array of keyframes that
replaces the curve's keyframes at once. The rate and the scale then go through the same checks
as when they are set directly. A member is refused (`MemberRefusal`) when its value has the
wrong shape, which is invalid JSON naming the member, or when the merged rate has a zero term or
the scale is not finite and positive, which is an invalid state.

A whole object applies the known members that are present and not null, in the fixed order of
`MetadataKey.all`, and stops at the first refusal: the track it gives is the one with the
members before the refused one applied (`AppliedAll`), and the refused member has no effect.

## Main definitions

* `MetadataKey.applicable`: the members an object applies, in order
* `MemberEffect`, `MemberRefusal`: what one member does, or why it is refused
* `AppliedAll`: a run of members, each applied to the track the previous one gave

## Main results

* `Track.applyMember_eq_ok_iff`, `Track.applyMember_eq_error_iff`: one member
* `Track.applyMembers_spec`: members in order, up to the first refusal
* `Track.patch_applies_members_in_order`: the whole contract of applying metadata
-/

namespace RegionTrack

namespace MetadataKey

/-- The value of the member `key` among `members`, unless it is absent or null. -/
def valueIn (members : List (String × Json.Value)) (key : MetadataKey) : Option Json.Value :=
  match members.lookup key.name with
  | none | some .null => none
  | some v => some v

/-- The members an object applies, among the keys `keys`, in their order: each key whose member
is present and not null, with its value. Other members are not looked at. -/
def applicable (members : List (String × Json.Value)) (keys : List MetadataKey) :
    List (MetadataKey × Json.Value) :=
  keys.filterMap fun key => (key.valueIn members).map ((key, ·))

theorem applicable_cons (members : List (String × Json.Value)) (key : MetadataKey)
    (rest : List MetadataKey) :
    applicable members (key :: rest) =
      match key.valueIn members with
      | none => applicable members rest
      | some v => (key, v) :: applicable members rest := by
  simp only [applicable, List.filterMap_cons]
  cases key.valueIn members <;> rfl

theorem names_all : all.map name = ["box_id", "base_fps", "time_scale", "visible", "data_path",
    "delta_x", "delta_y", "scale_x", "scale_y", "rotation"] := rfl

end MetadataKey

/-- The refusal of a member whose value has the wrong shape. -/
def memberError (key : MetadataKey) (e : Json.Error) : TrackError :=
  .badMetadata (.badMember key.name e)

/-- What applying a member with value `w` to the track `t` gives: the value decoded whole by the
member's shape, then set, the rate and the scale through their checks. -/
inductive MemberEffect (t : Track) : MetadataKey → Json.Value → Track → Prop
  | boxId {w : Json.Value} {s : String} (h : (Json.Shape.string "a string").ofValue w = .ok s) :
    MemberEffect t .boxId w { t with id := s }
  | baseFps {w : Json.Value} {num den : Option Nat} {r : FrameRate}
    (h : ratePatchShape.ofValue w = .ok (num, den))
    (hr : FrameRate.make (num.getD t.rate.num) (den.getD t.rate.den) = .ok r) :
    MemberEffect t .baseFps w { t with rate := r }
  | timeScale {w : Json.Value} {x : Float} {s : TimeScale} (h : Json.Shape.float.ofValue w = .ok x)
    (hs : TimeScale.make x = .ok s) : MemberEffect t .timeScale w { t with scale := s }
  | visible {w : Json.Value} {b : Bool} (h : Json.Shape.bool.ofValue w = .ok b) :
    MemberEffect t .visible w { t with visible := b }
  | dataPath {w : Json.Value} {p : String} (h : (Json.Shape.string "path string").ofValue w = .ok p) :
    MemberEffect t .dataPath w { t with dataPath := some p }
  | curve {ch : Channel} {w : Json.Value} {ks : List Keyframe}
    (h : (Json.Shape.seq Keyframe.shape).ofValue w = .ok ks) :
    MemberEffect t (.curve ch) w
      { t with adjustments := t.adjustments.setCurve ch ((t.adjustments.curve ch).setKeys ks) }

/-- Why a member with value `w` is refused on the track `t`: its shape refuses the value, or
the rate it merges has a zero term (the denominator is checked first), or the scale it reads is
not finite and positive. -/
inductive MemberRefusal (t : Track) : MetadataKey → Json.Value → TrackError → Prop
  | boxId {w : Json.Value} {e : Json.Error} (h : (Json.Shape.string "a string").ofValue w = .error e) :
    MemberRefusal t .boxId w (memberError .boxId e)
  | baseFpsShape {w : Json.Value} {e : Json.Error} (h : ratePatchShape.ofValue w = .error e) :
    MemberRefusal t .baseFps w (memberError .baseFps e)
  | zeroDenominator {w : Json.Value} {num den : Option Nat}
    (h : ratePatchShape.ofValue w = .ok (num, den)) (hd : den.getD t.rate.den = 0) :
    MemberRefusal t .baseFps w .zeroDenominator
  | zeroNumerator {w : Json.Value} {num den : Option Nat}
    (h : ratePatchShape.ofValue w = .ok (num, den)) (hd : den.getD t.rate.den ≠ 0)
    (hn : num.getD t.rate.num = 0) : MemberRefusal t .baseFps w .zeroNumerator
  | timeScaleShape {w : Json.Value} {e : Json.Error} (h : Json.Shape.float.ofValue w = .error e) :
    MemberRefusal t .timeScale w (memberError .timeScale e)
  | timeScaleRange {w : Json.Value} {x : Float} (h : Json.Shape.float.ofValue w = .ok x)
    (hx : ¬ TimeScale.Valid x) : MemberRefusal t .timeScale w (.badTimeScale x)
  | visible {w : Json.Value} {e : Json.Error} (h : Json.Shape.bool.ofValue w = .error e) :
    MemberRefusal t .visible w (memberError .visible e)
  | dataPath {w : Json.Value} {e : Json.Error}
    (h : (Json.Shape.string "path string").ofValue w = .error e) :
    MemberRefusal t .dataPath w (memberError .dataPath e)
  | curve {ch : Channel} {w : Json.Value} {e : Json.Error}
    (h : (Json.Shape.seq Keyframe.shape).ofValue w = .error e) :
    MemberRefusal t (.curve ch) w (memberError (.curve ch) e)

/-- Members applied one after another, each to the track the previous one gave. -/
inductive AppliedAll : Track → List (MetadataKey × Json.Value) → Track → Prop
  | nil (t : Track) : AppliedAll t [] t
  | cons {t t₁ t₂ : Track} {key : MetadataKey} {w : Json.Value}
    {rest : List (MetadataKey × Json.Value)} (h : MemberEffect t key w t₁)
    (hrest : AppliedAll t₁ rest t₂) : AppliedAll t ((key, w) :: rest) t₂

/-- What applying the members `kvs` in order to `t` may give: every member applied, or the members
before the first refused one applied and that member's refusal, the refused member having no
effect. -/
inductive PatchOutcome (t : Track) :
    List (MetadataKey × Json.Value) → Track × Except TrackError Unit → Prop
  | applied {kvs : List (MetadataKey × Json.Value)} {t' : Track} (h : AppliedAll t kvs t') :
    PatchOutcome t kvs (t', .ok ())
  | refused {pre post : List (MetadataKey × Json.Value)} {t' : Track} {key : MetadataKey}
    {w : Json.Value} {e : TrackError} (h : AppliedAll t pre t') (hr : MemberRefusal t' key w e) :
    PatchOutcome t (pre ++ (key, w) :: post) (t', .error e)

/-! ## Steps of `Except` -/

namespace Except

variable {ε α β : Type} {m : Except ε α} {f : α → Except ε β}

theorem bind_eq_ok {b : β} : m >>= f = .ok b ↔ ∃ a, m = .ok a ∧ f a = .ok b := by
  cases m <;> simp [bind, Except.bind]

theorem bind_eq_error {e : ε} :
    m >>= f = .error e ↔ m = .error e ∨ ∃ a, m = .ok a ∧ f a = .error e := by
  cases m <;> simp [bind, Except.bind]

theorem pure_eq_ok {a b : α} : (pure a : Except ε α) = .ok b ↔ a = b := by
  simp [pure, Except.pure]

theorem pure_ne_error {a : α} {e : ε} : (pure a : Except ε α) ≠ .error e := by
  simp [pure, Except.pure]

end Except

/-! ## Checks -/

theorem FrameRate.make_eq_error_iff {num den : Nat} {e : TrackError} :
    FrameRate.make num den = .error e ↔
      (den = 0 ∧ e = .zeroDenominator) ∨ (den ≠ 0 ∧ num = 0 ∧ e = .zeroNumerator) := by
  unfold FrameRate.make
  by_cases hd : den = 0
  · simp [hd, eq_comm]
  · by_cases hn : num = 0
    · simp [hd, hn, eq_comm]
    · simp [hd, hn]

theorem TimeScale.make_eq_error_iff {x : Float} {e : TrackError} :
    TimeScale.make x = .error e ↔ ¬ TimeScale.Valid x ∧ e = .badTimeScale x := by
  unfold TimeScale.make
  by_cases hx : TimeScale.Valid x
  · simp [hx]
  · simp [hx, eq_comm]

namespace MemberRefusal

variable {t : Track} {key : MetadataKey} {w : Json.Value} {e : TrackError}

/-- A refusal is invalid JSON whose text names the member, or an invalid state of the rate or of
the time scale. -/
theorem kind_cases (h : MemberRefusal t key w e) :
    (e.kind = .invalidJson ∧ ∃ je : Json.Error, e.detail = key.name ++ ": " ++ je.message) ∨
      (e.kind = .invalidState ∧ (key = .baseFps ∨ key = .timeScale)) := by
  cases h with
  | zeroDenominator | zeroNumerator => exact .inr ⟨rfl, .inl rfl⟩
  | timeScaleRange => exact .inr ⟨rfl, .inr rfl⟩
  | boxId | baseFpsShape | timeScaleShape | visible | dataPath | curve =>
    exact .inl ⟨rfl, _, rfl⟩

end MemberRefusal

/-- A member applied in front of a run. -/
theorem PatchOutcome.cons {t t₁ : Track} {key : MetadataKey} {w : Json.Value}
    {kvs : List (MetadataKey × Json.Value)} {r : Track × Except TrackError Unit}
    (h : MemberEffect t key w t₁) (ho : PatchOutcome t₁ kvs r) :
    PatchOutcome t ((key, w) :: kvs) r := by
  cases ho with
  | applied ha => exact .applied (.cons h ha)
  | @refused pre post t' k w' e ha hr =>
    exact @PatchOutcome.refused t ((key, w) :: pre) post t' k w' e (.cons h ha) hr

namespace Track

variable {t t' : Track} {key : MetadataKey} {w : Json.Value} {e : TrackError}

theorem setRate_eq_ok_iff {num den : Nat} :
    t.setRate num den = .ok t' ↔ ∃ r, FrameRate.make num den = .ok r ∧ { t with rate := r } = t' := by
  simp only [setRate, Except.bind_eq_ok, Except.pure_eq_ok]

theorem setRate_eq_error_iff {num den : Nat} :
    t.setRate num den = .error e ↔ FrameRate.make num den = .error e := by
  simp [setRate, Except.bind_eq_error, pure, Except.pure]

theorem setScale_eq_ok_iff {x : Float} :
    t.setScale x = .ok t' ↔ ∃ s, TimeScale.make x = .ok s ∧ { t with scale := s } = t' := by
  simp only [setScale, Except.bind_eq_ok, Except.pure_eq_ok]

theorem setScale_eq_error_iff {x : Float} :
    t.setScale x = .error e ↔ TimeScale.make x = .error e := by
  simp [setScale, Except.bind_eq_error, pure, Except.pure]

/-! ## One member -/

theorem readMember_eq_ok {α : Type} {s : Json.Shape α} {x : α} :
    readMember key s w = .ok x ↔ s.ofValue w = .ok x := by
  cases h : s.ofValue w <;> simp [readMember, h]

theorem readMember_eq_error {α : Type} {s : Json.Shape α} :
    readMember key s w = .error e ↔ ∃ je, s.ofValue w = .error je ∧ e = memberError key je := by
  cases h : s.ofValue w <;> simp [readMember, h, memberError, eq_comm]

/-- A member that is not refused sets what its value decodes to. -/
theorem applyMember_eq_ok_iff : t.applyMember key w = .ok t' ↔ MemberEffect t key w t' := by
  constructor
  · intro h
    cases key with
    | boxId =>
      obtain ⟨s, hs, hset⟩ := Except.bind_eq_ok.1 h
      cases Except.pure_eq_ok.1 hset
      exact .boxId (readMember_eq_ok.1 hs)
    | baseFps =>
      obtain ⟨⟨num, den⟩, hs, hset⟩ := Except.bind_eq_ok.1 h
      obtain ⟨r, hr, rfl⟩ := setRate_eq_ok_iff.1 hset
      exact .baseFps (readMember_eq_ok.1 hs) hr
    | timeScale =>
      obtain ⟨x, hs, hset⟩ := Except.bind_eq_ok.1 h
      obtain ⟨sc, hx, rfl⟩ := setScale_eq_ok_iff.1 hset
      exact .timeScale (readMember_eq_ok.1 hs) hx
    | visible =>
      obtain ⟨b, hs, hset⟩ := Except.bind_eq_ok.1 h
      cases Except.pure_eq_ok.1 hset
      exact .visible (readMember_eq_ok.1 hs)
    | dataPath =>
      obtain ⟨p, hs, hset⟩ := Except.bind_eq_ok.1 h
      cases Except.pure_eq_ok.1 hset
      exact .dataPath (readMember_eq_ok.1 hs)
    | curve ch =>
      obtain ⟨ks, hs, hset⟩ := Except.bind_eq_ok.1 h
      cases Except.pure_eq_ok.1 hset
      exact .curve (readMember_eq_ok.1 hs)
  · intro h
    cases h with
    | boxId hs | visible hs | dataPath hs | curve hs =>
      exact Except.bind_eq_ok.2 ⟨_, readMember_eq_ok.2 hs, rfl⟩
    | baseFps hs hr => exact Except.bind_eq_ok.2 ⟨_, readMember_eq_ok.2 hs, setRate_eq_ok_iff.2 ⟨_, hr, rfl⟩⟩
    | timeScale hs hx =>
      exact Except.bind_eq_ok.2 ⟨_, readMember_eq_ok.2 hs, setScale_eq_ok_iff.2 ⟨_, hx, rfl⟩⟩

/-- A member is refused exactly for the reasons `MemberRefusal` gives. -/
theorem applyMember_eq_error_iff : t.applyMember key w = .error e ↔ MemberRefusal t key w e := by
  constructor
  · intro h
    cases key with
    | boxId =>
      rcases Except.bind_eq_error.1 h with hs | ⟨_, -, hset⟩
      · obtain ⟨je, hje, rfl⟩ := readMember_eq_error.1 hs
        exact .boxId hje
      · exact absurd hset Except.pure_ne_error
    | baseFps =>
      rcases Except.bind_eq_error.1 h with hs | ⟨⟨num, den⟩, hs, hset⟩
      · obtain ⟨je, hje, rfl⟩ := readMember_eq_error.1 hs
        exact .baseFpsShape hje
      · have hs := readMember_eq_ok.1 hs
        rcases FrameRate.make_eq_error_iff.1 (setRate_eq_error_iff.1 hset) with
          ⟨hd, rfl⟩ | ⟨hd, hn, rfl⟩
        · exact .zeroDenominator hs hd
        · exact .zeroNumerator hs hd hn
    | timeScale =>
      rcases Except.bind_eq_error.1 h with hs | ⟨x, hs, hset⟩
      · obtain ⟨je, hje, rfl⟩ := readMember_eq_error.1 hs
        exact .timeScaleShape hje
      · obtain ⟨hx, rfl⟩ := TimeScale.make_eq_error_iff.1 (setScale_eq_error_iff.1 hset)
        exact .timeScaleRange (readMember_eq_ok.1 hs) hx
    | visible =>
      rcases Except.bind_eq_error.1 h with hs | ⟨_, -, hset⟩
      · obtain ⟨je, hje, rfl⟩ := readMember_eq_error.1 hs
        exact .visible hje
      · exact absurd hset Except.pure_ne_error
    | dataPath =>
      rcases Except.bind_eq_error.1 h with hs | ⟨_, -, hset⟩
      · obtain ⟨je, hje, rfl⟩ := readMember_eq_error.1 hs
        exact .dataPath hje
      · exact absurd hset Except.pure_ne_error
    | curve ch =>
      rcases Except.bind_eq_error.1 h with hs | ⟨_, -, hset⟩
      · obtain ⟨je, hje, rfl⟩ := readMember_eq_error.1 hs
        exact .curve hje
      · exact absurd hset Except.pure_ne_error
  · intro h
    cases h with
    | boxId hs | baseFpsShape hs | timeScaleShape hs | visible hs | dataPath hs | curve hs =>
      exact Except.bind_eq_error.2 (.inl (readMember_eq_error.2 ⟨_, hs, rfl⟩))
    | zeroDenominator hs hd =>
      exact Except.bind_eq_error.2 (.inr ⟨_, readMember_eq_ok.2 hs,
        setRate_eq_error_iff.2 (FrameRate.make_eq_error_iff.2 (.inl ⟨hd, rfl⟩))⟩)
    | zeroNumerator hs hd hn =>
      exact Except.bind_eq_error.2 (.inr ⟨_, readMember_eq_ok.2 hs,
        setRate_eq_error_iff.2 (FrameRate.make_eq_error_iff.2 (.inr ⟨hd, hn, rfl⟩))⟩)
    | timeScaleRange hs hx =>
      exact Except.bind_eq_error.2 (.inr ⟨_, readMember_eq_ok.2 hs,
        setScale_eq_error_iff.2 (TimeScale.make_eq_error_iff.2 ⟨hx, rfl⟩)⟩)

/-! ## Members in order -/

theorem applyMembers_cons (members : List (String × Json.Value)) (rest : List MetadataKey) :
    t.applyMembers members (key :: rest) =
      match key.valueIn members with
      | none => t.applyMembers members rest
      | some v =>
        match t.applyMember key v with
        | .ok t' => t'.applyMembers members rest
        | .error e => (t, .error e) := by
  rw [applyMembers, MetadataKey.valueIn]
  cases members.lookup key.name with
  | none => rfl
  | some v => cases v <;> rfl

/-- **Members in order.** The members of `keys` that are present and not null are applied in
order until one is refused, with nothing after it looked at; the result is what `PatchOutcome`
allows. -/
theorem applyMembers_spec (t : Track) (members : List (String × Json.Value))
    (keys : List MetadataKey) :
    PatchOutcome t (MetadataKey.applicable members keys) (t.applyMembers members keys) := by
  induction keys generalizing t with
  | nil => exact .applied (.nil t)
  | cons key rest ih =>
    rw [applyMembers_cons, MetadataKey.applicable_cons]
    cases hv : key.valueIn members with
    | none => exact ih t
    | some v =>
      dsimp only
      cases hm : t.applyMember key v with
      | ok t₁ => exact (ih t₁).cons (applyMember_eq_ok_iff.1 hm)
      | error e =>
        exact @PatchOutcome.refused t [] (MetadataKey.applicable members rest) t key v e
          (.nil t) (applyMember_eq_error_iff.1 hm)

/-- **Applying metadata.** A value that is not an object is refused whole, as invalid JSON, and
changes nothing. An object applies its members `box_id`, `base_fps`, `time_scale`, `visible`,
`data_path`, `delta_x`, `delta_y`, `scale_x`, `scale_y`, `rotation` that are present and not
null, in that order, and no other member: each is decoded whole and then set, and the first one
refused stops the update with its refusal, the track keeping the members before it and nothing
of it. A value of the wrong shape is refused as invalid JSON naming the member; a zero term of
the merged rate or a time scale that is not finite and positive, as an invalid state. -/
theorem patch_applies_members_in_order (t : Track) (v : Json.Value) :
    MetadataKey.all.map MetadataKey.name = ["box_id", "base_fps", "time_scale", "visible",
      "data_path", "delta_x", "delta_y", "scale_x", "scale_y", "rotation"] ∧
    ((∀ members, v ≠ .object members) →
      t.patch v = (t, .error (.badMetadata .notAnObject)) ∧
        (TrackError.badMetadata .notAnObject).kind = .invalidJson) ∧
    (∀ members, v = .object members →
      PatchOutcome t (MetadataKey.applicable members MetadataKey.all) (t.patch v)) ∧
    (∀ (t' : Track) (key : MetadataKey) (w : Json.Value) (e : TrackError),
      MemberRefusal t' key w e →
        (e.kind = .invalidJson ∧ ∃ je : Json.Error, e.detail = key.name ++ ": " ++ je.message) ∨
          (e.kind = .invalidState ∧ (key = .baseFps ∨ key = .timeScale))) := by
  refine ⟨MetadataKey.names_all, fun hv => ?notObject, fun members hv => ?object,
    fun _ _ _ _ h => h.kind_cases⟩
  case notObject =>
    cases v with
    | object members => exact absurd rfl (hv members)
    | null | bool _ | number _ | string _ | array _ => exact ⟨rfl, rfl⟩
  case object =>
    subst hv
    exact applyMembers_spec t members MetadataKey.all

/-- A refused time scale after an identity: the identity stays, the scale does not. -/
example :
    let r := ({} : Track).patch (.object [("box_id", .string "car"),
      ("time_scale", .number (.float (-2.0)))])
    r.1.id = "car" ∧ (r.1.scale.value == 1.0) = true ∧
      (match r.2 with
        | .error e => e.kind
        | .ok () => .other) = .invalidState := by
  decide

end Track

end RegionTrack
