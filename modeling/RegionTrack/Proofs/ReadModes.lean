import RegionTrack.Json.Shape
import RegionTrack.Proofs.ReadNumber

/-!
# Reading a stream as a text

Tracker data in the `lines` format is read as a stream (`Mode.stream`): the reader pulls each
byte it looks at, and an error stands after every byte pulled. A complete text (`Mode.text`) is
read by the same readers; only the place where an error stands differs. This module shows that
the difference reaches no success: a reader of this library that succeeds from one cursor
succeeds from any cursor at the same place of the same input and at the same depth, with the
same result and again at the same place, whatever the modes and whether a byte was pulled
(`Reader.ModeFree`). What is known of reading a text then holds of reading a stream of the
same bytes.

The property is built up from the primitives (looking at a byte, consuming it, skipping blanks,
the fuel and the depth), through `bind` and the other combinators, to every reader that a field
of a record uses: numbers, strings, keys and separators, skipped and read values, optional data,
sequences and records, and to a whole document.

## Main definitions

* `Cursor.SamePlace`: cursors at the same place of the same input, at the same depth.
* `Reader.Follows`: one reader succeeds wherever another does, at the same place.
* `Reader.ModeFree`: a reader whose successes do not depend on the mode or on a pulled byte.
-/

namespace RegionTrack.Json

/-- Cursors at the same place of the same input and at the same depth; they may differ in their
mode and in whether the next byte was pulled. -/
structure Cursor.SamePlace (c d : Cursor) : Prop where
  input : c.input = d.input
  rest : c.rest = d.rest
  offset : c.offset = d.offset
  depth : c.depth = d.depth

namespace Cursor

variable {c d e : Cursor}

theorem SamePlace.refl (c : Cursor) : c.SamePlace c := ⟨rfl, rfl, rfl, rfl⟩

theorem SamePlace.symm (h : c.SamePlace d) : d.SamePlace c :=
  ⟨h.input.symm, h.rest.symm, h.offset.symm, h.depth.symm⟩

theorem SamePlace.trans (h : c.SamePlace d) (h' : d.SamePlace e) : c.SamePlace e :=
  ⟨h.input.trans h'.input, h.rest.trans h'.rest, h.offset.trans h'.offset,
    h.depth.trans h'.depth⟩

/-- The cursor at the same place, reading a complete text. -/
def toText (d : Cursor) : Cursor := { d with mode := .text, pulled := false }

theorem toText_plain (d : Cursor) : d.toText.Plain := ⟨rfl, rfl⟩

theorem samePlace_toText (d : Cursor) : d.toText.SamePlace d := ⟨rfl, rfl, rfl, rfl⟩

theorem SamePlace.advance (h : c.SamePlace d) (n : Nat) : (c.advance n).SamePlace (d.advance n) :=
  ⟨h.input, by simp [h.rest], by simp [h.offset], h.depth⟩

end Cursor

namespace Reader

variable {α β : Type}

/-- From any cursor at the same place as one from which `r` succeeds, `r'` succeeds with the
same result and stops at the same place as `r`. -/
def Follows (r r' : Reader α) : Prop :=
  ∀ ⦃c a c' d⦄, Reads r c a c' → c.SamePlace d → ∃ d', Reads r' d a d' ∧ c'.SamePlace d'

/-- A reader whose successes depend on neither the mode nor a pulled byte: it follows itself. -/
def ModeFree (r : Reader α) : Prop := Follows r r

/-- A reader that succeeds from no cursor. -/
def Fails (r : Reader α) : Prop := ∀ c a c', ¬ Reads r c a c'

/-- What a mode-free reader reads from the text at a cursor's place, it reads from the cursor. -/
theorem ModeFree.of_toText {r : Reader α} (h : ModeFree r) {d c' : Cursor} {a : α}
    (hr : Reads r d.toText a c') : ∃ d', Reads r d a d' ∧ c'.SamePlace d' :=
  h hr (Cursor.samePlace_toText d)

/-- A reader that does not succeed from a cursor stops there with an error. -/
theorem exists_error_of_not_reads {r : Reader α} {c : Cursor} (h : ∀ a c', ¬ Reads r c a c') :
    ∃ e c', (ExceptT.run r).run c = (.error e, c') := by
  rcases hr : (ExceptT.run r).run c with ⟨_ | a, c'⟩
  · exact ⟨_, c', rfl⟩
  · exact absurd hr (h a c')

/-- A mode-free reader that fails from one cursor fails from every cursor at the same place. -/
theorem ModeFree.not_reads {r : Reader α} (h : ModeFree r) {c d : Cursor}
    (hfail : ∀ a c', ¬ Reads r c a c') (hd : c.SamePlace d) : ∀ a d', ¬ Reads r d a d' := by
  intro a d' hr
  obtain ⟨c', hc, -⟩ := h hr hd.symm
  exact hfail a c' hc

/-! ## Combinators -/

/-- How a handled reader runs: as the reader, unless it fails; then as the handler of its error
from where the reader stopped. -/
theorem run_tryCatch {α : Type} (x : Reader α) (h : Error → Reader α) (c : Cursor) :
    (ExceptT.run (tryCatch x h)).run c = (match (ExceptT.run x).run c with
      | (.ok a, c₁) => (.ok a, c₁)
      | (.error e, c₁) => (ExceptT.run (h e)).run c₁) := by
  show (ExceptT.tryCatch x h).run.run c = _
  simp only [ExceptT.tryCatch, ExceptT.run_mk, StateT.run_bind]
  rcases hx : StateT.run x c with ⟨_ | a, c₁⟩
  all_goals
    change StateT.run x c = _ at hx
    rw [show ExceptT.run x = x from rfl, hx]
    rfl

theorem Reads.tryCatch_iff {α : Type} {x : Reader α} {h : Error → Reader α} {c c' : Cursor}
    {a : α} : Reads (tryCatch x h) c a c' ↔
      Reads x c a c' ∨ ∃ e c₁, (ExceptT.run x).run c = (.error e, c₁) ∧ Reads (h e) c₁ a c' := by
  unfold Reads
  rw [run_tryCatch]
  rcases (ExceptT.run x).run c with ⟨_ | a', c₁⟩
  case error e =>
    refine ⟨fun h => .inr ⟨e, c₁, rfl, h⟩, fun h => h.elim (fun h => by cases h) ?_⟩
    rintro ⟨e', c₁', he, h⟩
    cases he
    exact h
  case ok =>
    refine ⟨.inl, fun h => h.elim id ?_⟩
    rintro ⟨e, c₁', he, -⟩
    cases he

theorem Reads.map_inv {α β : Type} {g : α → β} {x : Reader α} {c c' : Cursor} {b : β}
    (h : Reads (g <$> x) c b c') : ∃ a, b = g a ∧ Reads x c a c' := by
  rw [map_eq_pure_bind] at h
  exact Reads.bind_pure_iff.1 h

/-- Placing an error does not change a success. -/
theorem reads_placing_iff {α : Type} {x : Reader α} {c c' : Cursor} {a : α} :
    Reads (placing x) c a c' ↔ Reads x c a c' := by
  unfold placing
  rw [Reads.tryCatch_iff]
  refine ⟨fun h => h.elim id fun hcatch => ?_, .inl⟩
  obtain ⟨e, c₁, -, hthrow⟩ := hcatch
  obtain ⟨_, _, _, h⟩ := hthrow.bind_inv
  cases h

/-- A reader whose errors are caught as values reads `.ok a` exactly where the reader reads
`a`. -/
theorem reads_catching_ok_iff {α : Type} {x : Reader α} {c c' : Cursor} {a : α} :
    Reads (tryCatch (Except.ok <$> x) fun e => pure (Except.error e)) c (.ok a) c' ↔
      Reads x c a c' := by
  rw [Reads.tryCatch_iff, map_eq_pure_bind, Reads.bind_pure_iff]
  constructor
  · rintro (⟨a', ha, h⟩ | ⟨e, c₁, -, h⟩)
    · cases ha
      exact h
    · cases h
  · exact fun h => .inl ⟨a, rfl, h⟩

section Combinators

variable {x x' : Reader α} {f f' : α → Reader β}

theorem Follows.bind (hx : Follows x x') (hf : ∀ a, Follows (f a) (f' a)) :
    Follows (x >>= f) (x' >>= f') := by
  intro c b c₂ d h hd
  obtain ⟨a, c₁, h₁, h₂⟩ := h.bind_inv
  obtain ⟨d₁, h₁', hd₁⟩ := hx h₁ hd
  obtain ⟨d₂, h₂', hd₂⟩ := hf a h₂ hd₁
  exact ⟨d₂, h₁'.bind h₂', hd₂⟩

theorem ModeFree.bind (hx : ModeFree x) (hf : ∀ a, ModeFree (f a)) : ModeFree (x >>= f) :=
  Follows.bind hx hf

theorem modeFree_pure (a : α) : ModeFree (pure a : Reader α) := by
  intro c a' c' d h hd
  obtain ⟨rfl, rfl⟩ := (Reads.pure a c).det h
  exact ⟨d, Reads.pure a d, hd⟩

theorem ModeFree.map (g : α → β) (hx : ModeFree x) : ModeFree (g <$> x) := by
  rw [map_eq_pure_bind]
  exact hx.bind fun a => modeFree_pure (g a)

/-- A reader that never succeeds is followed by every reader. -/
theorem Follows.of_fails (h : Fails x) : Follows x x' :=
  fun c a c' _ hr _ => absurd hr (h c a c')

theorem fails_throw (e : Error) : Fails (throw e : Reader α) :=
  fun _ _ _ h => by cases h

theorem Fails.bind (h : ∀ a, Fails (f a)) : Fails (x >>= f) :=
  fun _ _ _ hr => by
    obtain ⟨a, c₁, -, hf⟩ := hr.bind_inv
    exact h a c₁ _ _ hf

theorem Fails.ite {p : Prop} [Decidable p] {y : Reader α} (hx : Fails x) (hy : Fails y) :
    Fails (if p then x else y) := by
  split
  · exact hx
  · exact hy

theorem modeFree_throw (e : Error) : ModeFree (throw e : Reader α) :=
  Follows.of_fails (fails_throw e)

/-- A reader that reads the cursor follows one that reads the cursor at the same place. -/
theorem Follows.get {k k' : Cursor → Reader α}
    (h : ∀ c d, c.SamePlace d → Follows (k c) (k' d)) : Follows (get >>= k) (get >>= k') := by
  intro c a c' d hr hd
  obtain ⟨d', hk, hd'⟩ := h c d hd ((Reads.bind_iff reads_get).1 hr) hd
  exact ⟨d', reads_get.bind hk, hd'⟩

theorem follows_set {c₀ d₀ : Cursor} (h : c₀.SamePlace d₀) :
    Follows (set c₀ : Reader PUnit) (set d₀) := by
  intro c a c' d hr _
  obtain ⟨-, rfl⟩ := (reads_set c₀).det hr
  exact ⟨d₀, reads_set d₀, h⟩

theorem ModeFree.ite {p : Prop} [Decidable p] {y : Reader α} (hx : ModeFree x) (hy : ModeFree y) :
    ModeFree (if p then x else y) := by
  split
  · exact hx
  · exact hy

/-- Readers with the same successes from every cursor. -/
theorem ModeFree.congr {y : Reader α} (hx : ModeFree x)
    (h : ∀ c a c', Reads y c a c' ↔ Reads x c a c') : ModeFree y := by
  intro c a c' d hy hd
  obtain ⟨d', hx', hd'⟩ := hx ((h c a c').1 hy) hd
  exact ⟨d', (h d a d').2 hx', hd'⟩

theorem modeFree_fail (e : Malformed) : ModeFree (fail e : Reader α) :=
  Follows.of_fails fun _ _ _ => not_reads_fail e

theorem modeFree_failPeek (e : Malformed) : ModeFree (failPeek e : Reader α) :=
  Follows.of_fails fun _ _ _ => not_reads_failPeek e

theorem modeFree_mismatch (m : Mismatch) : ModeFree (mismatch m : Reader α) :=
  modeFree_throw _

end Combinators

/-! ## The primitives -/

section Primitives

/-- A reader that succeeds from every cursor, with a result and at a place that depend only on
the place it starts from, is mode-free. -/
theorem modeFree_of_reads {r : Reader α} (res : Cursor → α) (place : Cursor → Cursor)
    (hres : ∀ c d, c.SamePlace d → res c = res d)
    (hplace : ∀ c d, c.SamePlace d → (place c).SamePlace (place d))
    (h : ∀ c, ∃ c₁, Reads r c (res c) c₁ ∧ c₁.SamePlace (place c)) : ModeFree r := by
  intro c a c' d hr hd
  obtain ⟨c₁, hc₁, hc₁p⟩ := h c
  obtain ⟨rfl, rfl⟩ := hc₁.det hr
  obtain ⟨d₁, hd₁, hd₁p⟩ := h d
  rw [hres c d hd]
  exact ⟨d₁, hd₁, hc₁p.trans ((hplace c d hd).trans hd₁p.symm)⟩

/-- Looking at the next byte gives it, and at most marks it pulled. -/
theorem reads_peek_samePlace (c : Cursor) :
    ∃ c₁, Reads peek c c.rest.head? c₁ ∧ c₁.SamePlace c := by
  obtain ⟨mode, input, rest, offset, pulled, depth⟩ := c
  cases rest with
  | nil => exact ⟨_, rfl, .refl _⟩
  | cons b r => cases mode <;> exact ⟨_, rfl, ⟨rfl, rfl, rfl, rfl⟩⟩

theorem modeFree_peek : ModeFree peek :=
  modeFree_of_reads (fun c => c.rest.head?) id (fun _ _ h => by rw [h.rest]) (fun _ _ h => h)
    reads_peek_samePlace

/-- Consuming a byte moves past it, if there is one. -/
theorem reads_eat_samePlace (c : Cursor) :
    ∃ c₁, Reads eat c () c₁ ∧ c₁.SamePlace (c.advance (min 1 c.rest.length)) := by
  obtain ⟨mode, input, rest, offset, pulled, depth⟩ := c
  cases rest with
  | nil => exact ⟨_, rfl, .refl _⟩
  | cons b r => exact ⟨_, rfl, ⟨rfl, rfl, rfl, rfl⟩⟩

theorem modeFree_eat : ModeFree eat :=
  modeFree_of_reads (fun _ => ()) (fun c => c.advance (min 1 c.rest.length)) (fun _ _ _ => rfl)
    (fun _ _ h => by rw [h.rest]; exact h.advance _) reads_eat_samePlace

theorem modeFree_next : ModeFree next :=
  modeFree_peek.bind fun b => modeFree_eat.bind fun _ => modeFree_pure b

theorem modeFree_peekOrNull : ModeFree peekOrNull :=
  modeFree_peek.bind fun _ => modeFree_pure _

theorem modeFree_nextOrNull : ModeFree nextOrNull :=
  modeFree_next.bind fun _ => modeFree_pure _

theorem modeFree_fuel : ModeFree fuel :=
  modeFree_of_reads (fun c => c.rest.length + 1) id (fun _ _ h => by rw [h.rest]) (fun _ _ h => h)
    fun c => ⟨c, reads_fuel, .refl c⟩

theorem modeFree_ascend : ModeFree ascend :=
  modeFree_of_reads (fun _ => ()) (fun c => { c with depth := c.depth + 1 }) (fun _ _ _ => rfl)
    (fun _ _ h => ⟨h.input, h.rest, h.offset, by simp [h.depth]⟩)
    fun c => ⟨_, reads_ascend, .refl _⟩

/-- Skipping blanks moves past them and looks at the byte after them. -/
theorem reads_skipBlanks_samePlace (c : Cursor) :
    ∃ c₁, Reads skipBlanks c (c.rest.drop (blankCount c.rest)).head? c₁ ∧
      c₁.SamePlace (c.advance (blankCount c.rest)) := by
  unfold skipBlanks
  by_cases hz : blankCount c.rest = 0
  · obtain ⟨c₁, hpeek, hc₁⟩ := reads_peek_samePlace c
    refine ⟨c₁, reads_get.bind ?_, by rw [hz]; exact hc₁⟩
    simp only [hz, ne_eq, not_true_eq_false, if_false, List.drop_zero]
    exact hpeek
  · obtain ⟨c₁, hpeek, hc₁⟩ := reads_peek_samePlace
      { c with rest := c.rest.drop (blankCount c.rest), offset := c.offset + blankCount c.rest,
               pulled := false }
    refine ⟨c₁, reads_get.bind ?_, hc₁.trans ⟨rfl, rfl, rfl, rfl⟩⟩
    simp only [ne_eq, hz, not_false_eq_true, if_true]
    exact (reads_set _).bind hpeek

theorem modeFree_skipBlanks : ModeFree skipBlanks :=
  modeFree_of_reads (fun c => (c.rest.drop (blankCount c.rest)).head?)
    (fun c => c.advance (blankCount c.rest)) (fun _ _ h => by rw [h.rest])
    (fun _ _ h => by rw [h.rest]; exact h.advance _) reads_skipBlanks_samePlace

theorem modeFree_descend : ModeFree descend := by
  unfold descend
  refine Follows.get fun c d h => Follows.bind (follows_set ?_) fun _ => ?_
  · exact ⟨h.input, h.rest, h.offset, by simp [h.depth]⟩
  · rw [h.depth]
    exact ModeFree.ite (modeFree_failPeek _) (modeFree_pure _)

theorem modeFree_expectWord : ∀ w, ModeFree (expectWord w)
  | [] => modeFree_pure ()
  | w :: ws => by
    rw [expectWord]
    refine modeFree_next.bind fun b => ?_
    split
    · exact modeFree_fail _
    · exact ModeFree.ite (modeFree_expectWord ws) (modeFree_fail _)

end Primitives

/-! ## Numbers -/

section Numbers

theorem modeFree_floatOfParts (p : Bool) (s : Nat) (e : Int) : ModeFree (floatOfParts p s e) := by
  unfold floatOfParts
  split
  · exact modeFree_pure _
  · exact modeFree_fail _

theorem modeFree_skipDigits : ∀ fuel, ModeFree (skipDigits fuel)
  | 0 => modeFree_pure ()
  | fuel + 1 => by
    rw [skipDigits]
    exact modeFree_peekOrNull.bind fun _ =>
      ModeFree.ite (modeFree_eat.bind fun _ => modeFree_skipDigits fuel) (modeFree_pure ())

theorem modeFree_exponentOverflow (p z pe : Bool) : ModeFree (exponentOverflow p z pe) := by
  unfold exponentOverflow
  exact ModeFree.ite (modeFree_fail _)
    (modeFree_fuel.bind fun f => (modeFree_skipDigits f).bind fun _ => modeFree_pure _)

theorem modeFree_exponentDigits (p : Bool) (s : Nat) (st : Int) (pe : Bool) :
    ∀ exp fuel, ModeFree (exponentDigits p s st pe exp fuel)
  | _, 0 => modeFree_fail _
  | exp, fuel + 1 => by
    rw [exponentDigits]
    refine modeFree_peekOrNull.bind fun b =>
      ModeFree.ite (modeFree_eat.bind fun _ => ?_) (modeFree_floatOfParts _ _ _)
    exact ModeFree.ite (modeFree_exponentOverflow _ _ _) (modeFree_exponentDigits p s st pe _ fuel)

theorem modeFree_readExponent (p : Bool) (s : Nat) (st : Int) : ModeFree (readExponent p s st) := by
  unfold readExponent
  refine modeFree_eat.bind fun _ => modeFree_peekOrNull.bind fun b => ?_
  extract_lets jp
  have hjp : ∀ pe, ModeFree (jp pe) := by
    intro pe
    refine modeFree_next.bind fun d => ?_
    split
    · exact modeFree_fail _
    · exact ModeFree.ite (modeFree_fuel.bind fun _ => modeFree_exponentDigits _ _ _ _ _ _)
        (modeFree_fail _)
  exact ModeFree.ite (modeFree_eat.bind fun _ => (modeFree_pure _).bind hjp)
    (ModeFree.ite (modeFree_eat.bind fun _ => (modeFree_pure _).bind hjp)
      ((modeFree_pure _).bind hjp))

theorem modeFree_fractionOverflow (p : Bool) (s : Nat) (e : Int) :
    ModeFree (fractionOverflow p s e) := by
  unfold fractionOverflow
  exact modeFree_fuel.bind fun f => (modeFree_skipDigits f).bind fun _ =>
    modeFree_peekOrNull.bind fun _ =>
      ModeFree.ite (modeFree_readExponent _ _ _) (modeFree_floatOfParts _ _ _)

theorem modeFree_fractionDigits (p : Bool) (st : Int) :
    ∀ s places fuel, ModeFree (fractionDigits p s st places fuel)
  | _, _, 0 => modeFree_fail _
  | s, places, fuel + 1 => by
    rw [fractionDigits]
    refine modeFree_peekOrNull.bind fun b => ModeFree.ite ?_ (ModeFree.ite ?_ ?_)
    · exact ModeFree.ite (modeFree_fractionOverflow _ _ _)
        (modeFree_eat.bind fun _ => modeFree_fractionDigits p st _ _ fuel)
    · refine modeFree_peek.bind fun o => ?_
      split
      · exact modeFree_failPeek _
      · exact modeFree_failPeek _
    · exact ModeFree.ite (modeFree_readExponent _ _ _) (modeFree_floatOfParts _ _ _)

theorem modeFree_readFraction (p : Bool) (s : Nat) (st : Int) : ModeFree (readFraction p s st) := by
  unfold readFraction
  exact modeFree_eat.bind fun _ => modeFree_fuel.bind fun _ => modeFree_fractionDigits _ _ _ _ _

theorem modeFree_longDigits (p : Bool) (s : Nat) : ∀ e fuel, ModeFree (longDigits p s e fuel)
  | _, 0 => modeFree_fail _
  | e, fuel + 1 => by
    rw [longDigits]
    exact modeFree_peekOrNull.bind fun _ =>
      ModeFree.ite (modeFree_eat.bind fun _ => modeFree_longDigits p s _ fuel)
        (ModeFree.ite (modeFree_readFraction _ _ _)
          (ModeFree.ite (modeFree_readExponent _ _ _) (modeFree_floatOfParts _ _ _)))

theorem modeFree_numberTail (p : Bool) (s : Nat) : ModeFree (numberTail p s) := by
  unfold numberTail
  exact modeFree_peekOrNull.bind fun _ =>
    ModeFree.ite ((modeFree_readFraction _ _ _).bind fun _ => modeFree_pure _)
      (ModeFree.ite ((modeFree_readExponent _ _ _).bind fun _ => modeFree_pure _)
        (ModeFree.ite (modeFree_pure _) (ModeFree.ite (modeFree_pure _) (modeFree_pure _))))

theorem modeFree_integerDigits (p : Bool) : ∀ s fuel, ModeFree (integerDigits p s fuel)
  | _, 0 => modeFree_fail _
  | s, fuel + 1 => by
    rw [integerDigits]
    exact modeFree_peekOrNull.bind fun _ =>
      ModeFree.ite
        (ModeFree.ite (modeFree_fuel.bind fun _ => (modeFree_longDigits _ _ _ _).bind fun _ =>
            modeFree_pure _)
          (modeFree_eat.bind fun _ => modeFree_integerDigits p _ fuel))
        (modeFree_numberTail _ _)

theorem modeFree_readNumber (p : Bool) : ModeFree (readNumber p) := by
  unfold readNumber
  refine modeFree_next.bind fun o => ?_
  split
  · exact modeFree_fail _
  · exact ModeFree.ite
      (modeFree_peekOrNull.bind fun _ => ModeFree.ite (modeFree_failPeek _) (modeFree_numberTail _ _))
      (ModeFree.ite (modeFree_fuel.bind fun _ => modeFree_integerDigits _ _ _) (modeFree_fail _))

theorem modeFree_skipExponent : ModeFree skipExponent := by
  unfold skipExponent
  refine modeFree_eat.bind fun _ => modeFree_peekOrNull.bind fun _ => ?_
  extract_lets jp
  have hjp : ∀ u, ModeFree (jp u) := fun _ => modeFree_nextOrNull.bind fun _ =>
    ModeFree.ite (modeFree_fuel.bind fun _ => modeFree_skipDigits _) (modeFree_fail _)
  exact ModeFree.ite (modeFree_eat.bind hjp) (hjp ())

/-- Skipping a number does the same in both modes: the digits after the point are checked to be
there by comparing offsets, which the two modes keep alike. -/
theorem modeFree_skipNumber : ModeFree skipNumber := by
  unfold skipNumber
  refine modeFree_nextOrNull.bind fun b => ?_
  extract_lets jp
  have hjp : ∀ u, ModeFree (jp u) := by
    intro u
    refine modeFree_peekOrNull.bind fun c =>
      ModeFree.ite ?_ (ModeFree.ite modeFree_skipExponent (modeFree_pure _))
    refine modeFree_eat.bind fun _ => Follows.get fun c₀ d₀ h₀ => Follows.bind modeFree_fuel fun f =>
      Follows.bind (modeFree_skipDigits f) fun _ => Follows.get fun c₁ d₁ h₁ => ?_
    rw [h₀.offset, h₁.offset]
    exact ModeFree.ite (modeFree_failPeek _) (modeFree_peekOrNull.bind fun _ =>
      modeFree_peekOrNull.bind fun _ => ModeFree.ite modeFree_skipExponent (modeFree_pure _))
  exact ModeFree.ite
    (modeFree_peekOrNull.bind fun _ => ModeFree.ite ((modeFree_failPeek _).bind hjp) (hjp ()))
    (ModeFree.ite (modeFree_fuel.bind fun _ => (modeFree_skipDigits _).bind hjp)
      ((modeFree_fail _).bind hjp))

end Numbers

/-! ## Strings, keys and separators -/

section Strings

theorem modeFree_hexEscape : ModeFree hexEscape := by
  unfold hexEscape
  iterate 4
    refine modeFree_next.bind fun _ => ?_
    split <;> try with_reducible exact modeFree_fail _
  split
  · exact modeFree_pure _
  · exact modeFree_fail _

theorem modeFree_surrogateMark (b : UInt8) : ModeFree (surrogateMark b) := by
  unfold surrogateMark
  refine modeFree_peek.bind fun _ => ?_
  split
  · exact modeFree_fail _
  · exact modeFree_eat.bind fun _ => ModeFree.ite (modeFree_fail _) (modeFree_pure _)

theorem modeFree_unicodeEscape : ModeFree unicodeEscape := by
  unfold unicodeEscape
  exact modeFree_hexEscape.bind fun _ => ModeFree.ite (modeFree_fail _)
    (ModeFree.ite (modeFree_pure _) ((modeFree_surrogateMark _).bind fun _ =>
      (modeFree_surrogateMark _).bind fun _ => modeFree_hexEscape.bind fun _ =>
        ModeFree.ite (modeFree_fail _) (modeFree_pure _)))

theorem modeFree_escape : ModeFree escape := by
  unfold escape
  refine modeFree_next.bind fun _ => ?_
  split
  · exact modeFree_fail _
  · repeat' refine ModeFree.ite ?_ ?_
    all_goals first
      | with_reducible exact modeFree_pure _
      | with_reducible exact modeFree_unicodeEscape
      | with_reducible exact modeFree_fail _

theorem modeFree_stringBytes : ∀ acc fuel, ModeFree (stringBytes acc fuel)
  | _, 0 => modeFree_fail _
  | acc, fuel + 1 => by
    rw [stringBytes]
    refine modeFree_next.bind fun _ => ?_
    split
    · exact modeFree_fail _
    · exact ModeFree.ite (modeFree_pure _)
        (ModeFree.ite (modeFree_escape.bind fun _ => modeFree_stringBytes _ fuel)
          (ModeFree.ite (modeFree_fail _) (modeFree_stringBytes _ fuel)))

theorem modeFree_readString : ModeFree readString := by
  unfold readString
  refine modeFree_fuel.bind fun f => (modeFree_stringBytes [] f).bind fun _ => ?_
  split
  · exact modeFree_pure _
  · exact modeFree_fail _

theorem modeFree_skipEscape : ModeFree skipEscape := by
  unfold skipEscape
  refine modeFree_next.bind fun _ => ?_
  split
  · exact modeFree_fail _
  · exact ModeFree.ite (modeFree_hexEscape.map _) (ModeFree.ite (modeFree_pure _) (modeFree_fail _))

theorem modeFree_skipString : ∀ fuel, ModeFree (skipString fuel)
  | 0 => modeFree_fail _
  | fuel + 1 => by
    rw [skipString]
    refine modeFree_peek.bind fun _ => ?_
    split
    · exact modeFree_fail _
    · exact ModeFree.ite modeFree_eat
        (ModeFree.ite (modeFree_eat.bind fun _ => modeFree_skipEscape.bind fun _ =>
            modeFree_skipString fuel)
          (ModeFree.ite (modeFree_fail _) (modeFree_eat.bind fun _ => modeFree_skipString fuel)))

theorem modeFree_nextElement (first : Bool) : ModeFree (nextElement first) := by
  unfold nextElement
  refine modeFree_skipBlanks.bind fun _ => ?_
  split
  · exact modeFree_failPeek _
  · refine ModeFree.ite (modeFree_pure _) (ModeFree.ite (modeFree_pure _)
      (ModeFree.ite (modeFree_eat.bind fun _ => modeFree_skipBlanks.bind fun _ => ?_)
        (modeFree_failPeek _)))
    split <;> first
      | with_reducible exact modeFree_pure _
      | with_reducible exact modeFree_failPeek _

theorem modeFree_keyAt (o : Option UInt8) : ModeFree (keyAt o) := by
  unfold keyAt
  split
  · exact modeFree_eat.bind fun _ => modeFree_readString.bind fun _ => modeFree_pure _
  all_goals exact modeFree_failPeek _

theorem modeFree_nextKey (first : Bool) : ModeFree (nextKey first) := by
  unfold nextKey
  refine modeFree_skipBlanks.bind fun _ => ?_
  split
  · exact modeFree_failPeek _
  · exact ModeFree.ite (modeFree_pure _)
      (ModeFree.ite (modeFree_eat.bind fun _ => modeFree_skipBlanks.bind modeFree_keyAt)
        (ModeFree.ite (modeFree_keyAt _) (modeFree_failPeek _)))

theorem modeFree_expectColon : ModeFree expectColon := by
  unfold expectColon
  refine modeFree_skipBlanks.bind fun _ => ?_
  split
  · exact modeFree_eat
  all_goals exact modeFree_failPeek _

theorem modeFree_closeArray : ModeFree closeArray := by
  unfold closeArray
  refine modeFree_skipBlanks.bind fun _ => ?_
  split
  · exact modeFree_eat
  · refine modeFree_eat.bind fun _ => modeFree_skipBlanks.bind fun _ => ?_
    split <;> exact modeFree_failPeek _
  all_goals exact modeFree_failPeek _

theorem modeFree_closeObject : ModeFree closeObject := by
  unfold closeObject
  refine modeFree_skipBlanks.bind fun _ => ?_
  split
  · exact modeFree_eat
  all_goals exact modeFree_failPeek _

end Strings

/-! ## Skipped values -/

section Skip

/-- The three loops of `skipValue`, by induction on their shared fuel. -/
theorem modeFree_skipValue_loops : ∀ fuel,
    (∀ stack enc, ModeFree (skipValue.skipFrom stack enc fuel)) ∧
    (∀ stack acceptComma frame, ModeFree (skipValue.afterValue stack acceptComma frame fuel)) ∧
    (∀ stack frame, ModeFree (skipValue.memberKey stack frame fuel))
  | 0 => ⟨fun _ _ => modeFree_fail _, fun _ _ _ => modeFree_fail _, fun _ _ => modeFree_fail _⟩
  | fuel + 1 => by
    obtain ⟨ihFrom, ihAfter, ihKey⟩ := modeFree_skipValue_loops fuel
    refine ⟨fun stack enc => ?_, fun stack acceptComma frame => ?_, fun stack frame => ?_⟩
    · unfold skipValue.skipFrom
      refine modeFree_skipBlanks.bind fun peeked => ?_
      extract_lets jp
      have hjp : ∀ opened, ModeFree (jp opened) := by
        intro opened
        simp only [jp]
        split
        · exact modeFree_pure _
        · exact ihAfter _ _ _
      split
      · exact (modeFree_failPeek _).bind hjp
      · refine ModeFree.ite ?_ (ModeFree.ite ?_ (ModeFree.ite ?_ (ModeFree.ite ?_
          (ModeFree.ite ?_ (ModeFree.ite ?_ (ModeFree.ite ?_ ?_))))))
        iterate 3
          exact modeFree_eat.bind fun _ => (modeFree_expectWord _).bind fun _ =>
            (modeFree_pure _).bind hjp
        · exact modeFree_eat.bind fun _ => modeFree_skipNumber.bind fun _ =>
            (modeFree_pure _).bind hjp
        · exact modeFree_skipNumber.bind fun _ => (modeFree_pure _).bind hjp
        · exact modeFree_eat.bind fun _ => modeFree_fuel.bind fun _ =>
            (modeFree_skipString _).bind fun _ => (modeFree_pure _).bind hjp
        · exact modeFree_eat.bind fun _ => (modeFree_pure _).bind hjp
        · exact (modeFree_failPeek _).bind hjp
    · unfold skipValue.afterValue
      refine modeFree_skipBlanks.bind fun _ => ?_
      split
      · exact modeFree_failPeek _
      · refine ModeFree.ite (modeFree_eat.bind fun _ => ihKey _ _)
          (ModeFree.ite (modeFree_eat.bind fun _ => ?_)
            (ModeFree.ite (modeFree_failPeek _) (ihKey _ _)))
        split
        · exact modeFree_pure _
        · exact ihAfter _ _ _
    · rw [skipValue.memberKey]
      refine ModeFree.ite (modeFree_skipBlanks.bind fun _ => ?_) (ihFrom _ _)
      extract_lets jp
      have hjp : ∀ u, ModeFree (jp u) := fun _ =>
        modeFree_fuel.bind fun _ => (modeFree_skipString _).bind fun _ =>
          modeFree_skipBlanks.bind fun _ => by
            split
            · exact modeFree_eat.bind fun _ => ihFrom _ _
            all_goals exact (modeFree_failPeek _).bind fun _ => ihFrom _ _
      split
      · exact modeFree_eat.bind hjp
      all_goals exact (modeFree_failPeek _).bind hjp

theorem modeFree_skipValue : ModeFree skipValue := by
  unfold skipValue
  exact modeFree_fuel.bind fun _ => (modeFree_skipValue_loops _).1 _ _

end Skip

/-! ## Values -/

section Values

/-- The three loops of the value reader, by induction on their shared fuel. -/
theorem modeFree_readValue_loops : ∀ fuel,
    ModeFree (readValue fuel) ∧ (∀ first acc, ModeFree (readItems fuel first acc)) ∧
      (∀ first acc, ModeFree (readMembers fuel first acc))
  | 0 => ⟨by rw [readValue]; exact modeFree_fail _, fun _ _ => by rw [readItems]; exact modeFree_fail _,
      fun _ _ => by rw [readMembers]; exact modeFree_fail _⟩
  | fuel + 1 => by
    obtain ⟨ihValue, ihItems, ihMembers⟩ := modeFree_readValue_loops fuel
    refine ⟨?_, fun first acc => ?_, fun first acc => ?_⟩
    · rw [readValue]
      refine modeFree_skipBlanks.bind fun _ => ?_
      split
      · exact modeFree_failPeek _
      · refine ModeFree.ite ?_ (ModeFree.ite ?_ (ModeFree.ite ?_ (ModeFree.ite ?_
          (ModeFree.ite ?_ (ModeFree.ite ?_ (ModeFree.ite ?_ (ModeFree.ite ?_ ?_)))))))
        iterate 3
          exact modeFree_eat.bind fun _ => (modeFree_expectWord _).bind fun _ => modeFree_pure _
        · exact modeFree_eat.bind fun _ => (modeFree_readNumber _).bind fun _ => modeFree_pure _
        · exact (modeFree_readNumber _).bind fun _ => modeFree_pure _
        · exact modeFree_eat.bind fun _ => modeFree_readString.bind fun _ => modeFree_pure _
        · exact modeFree_descend.bind fun _ => modeFree_eat.bind fun _ => (ihItems _ _).bind fun _ =>
            modeFree_ascend.bind fun _ => modeFree_closeArray.bind fun _ => modeFree_pure _
        · exact modeFree_descend.bind fun _ => modeFree_eat.bind fun _ =>
            (ihMembers _ _).bind fun _ => modeFree_ascend.bind fun _ =>
              modeFree_closeObject.bind fun _ => modeFree_pure _
        · exact modeFree_failPeek _
    · rw [readItems]
      exact (modeFree_nextElement _).bind fun _ => ModeFree.ite
        (ihValue.bind fun _ => ihItems _ _) (modeFree_pure _)
    · rw [readMembers]
      refine (modeFree_nextKey _).bind fun _ => ?_
      split
      · exact modeFree_pure _
      · exact modeFree_expectColon.bind fun _ => ihValue.bind fun _ => ihMembers _ _

theorem modeFree_value : ModeFree value :=
  modeFree_fuel.bind fun _ => (modeFree_readValue_loops _).1

end Values

/-! ## Shapes -/

section Shapes

variable {α : Type}

theorem ModeFree.placing {x : Reader α} (h : ModeFree x) : ModeFree (placing x) :=
  h.congr fun _ _ _ => reads_placing_iff

/-- Naming a value of the wrong kind always ends in its error: every branch throws the error that
names what was found. -/
theorem fails_wrongTypeHere (expecting : String) : Fails (Shape.wrongTypeHere expecting : Reader α) := by
  unfold Shape.wrongTypeHere
  dsimp only
  repeat' first
    | with_reducible refine Fails.ite ?_ ?_
    | with_reducible refine Fails.bind fun _ => ?_
  all_goals exact fails_throw _

theorem modeFree_wrongTypeHere (expecting : String) :
    ModeFree (Shape.wrongTypeHere expecting : Reader α) :=
  Follows.of_fails (fails_wrongTypeHere expecting)

theorem modeFree_liftExcept (e : Except Error α) : ModeFree (Shape.number.liftExcept e) := by
  cases e
  · exact modeFree_throw _
  · exact modeFree_pure _

theorem modeFree_number_read (expecting : String) (visit : Number → Except Mismatch α) :
    ModeFree (Shape.number expecting visit).read := by
  refine ModeFree.placing (modeFree_skipBlanks.bind fun _ => ?_)
  split
  · exact modeFree_failPeek _
  · exact ModeFree.ite
      (modeFree_eat.bind fun _ => (modeFree_readNumber _).bind fun _ => modeFree_liftExcept _)
      (ModeFree.ite ((modeFree_readNumber _).bind fun _ => modeFree_liftExcept _)
        (modeFree_wrongTypeHere _))

theorem ModeFree.shape_map {β : Type} {s : Shape α} (f : α → β) (h : ModeFree s.read) :
    ModeFree (s.map f).read :=
  h.map f

/-- Brackets succeed as their parts in sequence: a fault caught inside them is thrown again. -/
theorem reads_bracketed_iff {inner : Reader α} {close : Reader Unit} {c c' : Cursor} {a : α} :
    Reads (Shape.bracketed inner close) c a c' ↔
      Reads (do descend; eat; let x ← inner; ascend; close; pure x) c a c' := by
  unfold Shape.bracketed
  constructor
  · intro h
    obtain ⟨_, c₁, hd, h⟩ := h.bind_inv
    obtain ⟨_, c₂, he, h⟩ := h.bind_inv
    obtain ⟨r, c₃, hr, h⟩ := h.bind_inv
    obtain ⟨_, c₄, ha, h⟩ := h.bind_inv
    obtain ⟨closed, c₅, hcl, h⟩ := h.bind_inv
    rcases r with e | x
    · cases h
    rcases closed with e | ⟨⟩
    · cases h
    obtain ⟨rfl, rfl⟩ := (Reads.pure x c₅).det h
    exact hd.bind (he.bind ((reads_catching_ok_iff.1 hr).bind
      (ha.bind ((reads_catching_ok_iff.1 hcl).bind (Reads.pure _ _)))))
  · intro h
    obtain ⟨_, c₁, hd, h⟩ := h.bind_inv
    obtain ⟨_, c₂, he, h⟩ := h.bind_inv
    obtain ⟨x, c₃, hx, h⟩ := h.bind_inv
    obtain ⟨_, c₄, ha, h⟩ := h.bind_inv
    obtain ⟨_, c₅, hcl, h⟩ := h.bind_inv
    obtain ⟨rfl, rfl⟩ := (Reads.pure x c₅).det h
    exact hd.bind (he.bind ((reads_catching_ok_iff.2 hx).bind
      (ha.bind ((reads_catching_ok_iff.2 hcl).bind (Reads.pure _ _)))))

theorem ModeFree.bracketed {inner : Reader α} {close : Reader Unit} (hin : ModeFree inner)
    (hcl : ModeFree close) : ModeFree (Shape.bracketed inner close) :=
  ModeFree.congr (modeFree_descend.bind fun _ => modeFree_eat.bind fun _ => hin.bind fun _ =>
    modeFree_ascend.bind fun _ => hcl.bind fun _ => modeFree_pure _) fun _ _ _ => reads_bracketed_iff

theorem modeFree_any_read : ModeFree Shape.any.read :=
  modeFree_value

theorem ModeFree.option_read {α : Type} {s : Shape α} (h : ModeFree s.read) :
    ModeFree (Shape.option s).read := by
  refine modeFree_skipBlanks.bind fun b => ?_
  split
  · exact modeFree_eat.bind fun _ => (modeFree_expectWord _).bind fun _ => modeFree_pure _
  · exact h.map _

theorem ModeFree.readElements {α : Type} {s : Shape α} (h : ModeFree s.read) :
    ∀ first acc fuel, ModeFree (Shape.readElements s first acc fuel)
  | _, _, 0 => by rw [Shape.readElements]; exact modeFree_fail _
  | first, acc, fuel + 1 => by
    rw [Shape.readElements]
    exact (modeFree_nextElement _).bind fun _ => ModeFree.ite
      (h.bind fun _ => ModeFree.readElements h _ _ fuel) (modeFree_pure _)

/-- A sequence reads the same from every cursor at the same place, when its elements do. -/
theorem ModeFree.seq_read {α : Type} {s : Shape α} (h : ModeFree s.read) :
    ModeFree (Shape.seq s).read := by
  refine ModeFree.placing (modeFree_skipBlanks.bind fun _ => ?_)
  split
  · exact modeFree_failPeek _
  · exact ModeFree.ite ((modeFree_fuel.bind fun _ => h.readElements _ _ _).bracketed
      modeFree_closeArray) (modeFree_wrongTypeHere _)

section Records

variable {fields : List Field}

theorem modeFree_readMembers (hf : ∀ f ∈ fields, ModeFree f.shape.read) :
    ∀ first found fuel, ModeFree (Record.readMembers fields first found fuel)
  | _, _, 0 => modeFree_fail _
  | first, found, fuel + 1 => by
    rw [Record.readMembers]
    refine (modeFree_nextKey first).bind fun _ => ?_
    split
    · exact modeFree_pure _
    · split
      · exact modeFree_expectColon.bind fun _ => modeFree_skipValue.bind fun _ =>
          modeFree_readMembers hf _ _ fuel
      · split
        next f hfield _ =>
          exact modeFree_expectColon.bind fun _ => (hf f (List.mem_of_getElem? hfield)).bind fun _ =>
            modeFree_readMembers hf _ _ fuel
        · exact modeFree_mismatch _
        · exact modeFree_readMembers hf _ _ fuel

theorem modeFree_readItems (name : String) :
    ∀ fs, (∀ f ∈ fs, ModeFree f.shape.read) → ∀ i, ModeFree (Record.readItems name fields fs i)
  | [], _, _ => modeFree_pure _
  | f :: fs, hfs, i => by
    rw [Record.readItems]
    refine (modeFree_nextElement _).bind fun _ => ?_
    extract_lets jp
    have hjp : ∀ v, ModeFree (jp v) := fun _ =>
      (modeFree_readItems name fs (fun g hg => hfs g (List.mem_cons_of_mem f hg)) _).bind fun _ =>
        modeFree_pure _
    refine ModeFree.ite ((hfs f List.mem_cons_self).bind hjp) ?_
    split
    · exact (modeFree_pure _).bind hjp
    · exact (modeFree_mismatch _).bind hjp

/-- A record reads the same from every cursor at the same place, when its fields do. -/
theorem modeFree_record_read (name : String) (hf : ∀ f ∈ fields, ModeFree f.shape.read) :
    ModeFree (Shape.record name fields).read := by
  refine ModeFree.placing (modeFree_skipBlanks.bind fun _ => ?_)
  split
  · exact modeFree_failPeek _
  · refine ModeFree.ite ((modeFree_readItems name fields hf 0).bracketed modeFree_closeArray)
      (ModeFree.ite (ModeFree.bracketed (modeFree_fuel.bind fun _ =>
        (modeFree_readMembers hf _ _ _).bind fun _ => ?_) modeFree_closeObject)
        (modeFree_wrongTypeHere _))
    split
    · exact modeFree_pure _
    · exact modeFree_throw _

end Records

end Shapes

/-- A whole document reads the same from every cursor at the same place, when its value does. -/
theorem ModeFree.document {α : Type} {x : Reader α} (h : ModeFree x) : ModeFree (document x) := by
  refine h.bind fun _ => modeFree_skipBlanks.bind fun _ => ?_
  split
  · exact modeFree_failPeek _
  · exact modeFree_pure _

end Reader

end RegionTrack.Json
