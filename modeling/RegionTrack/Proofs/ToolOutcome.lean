import RegionTrack.Cli.Run

/-!
# What the tool prints, and when it succeeds

The tool builds a track from its options and prints one command's output on it. This module
says, for every command line and every content of the files it reads, what comes out: the run
ends with status 0 exactly when the command line is read, every setup step that is asked for
succeeds, and the command has an output; stdout is then that output, pretty-printed, and a
newline. Otherwise stdout is empty. Help and the version are the answers that stop before any
command, and are left out.

The setup is stated as a relation on tracks (`Cli.Builds`), one step after the other from the
empty track: the metadata file's text applied, the rate set, the time scale set, and the data
file loaded, each step only when its option is given (`Cli.IfGiven`). Each stage of
`Cli.buildTrack` has its lemma, and the whole build is their composition
(`Cli.buildTrack_run_eq_ok_iff`).

## Main definitions

* `Cli.IfGiven`: a setup step that runs only when its option is given
* `Cli.Builds`: the track that the options and the files describe

## Main results

* `Cli.buildTrack_run_eq_ok_iff`: the build succeeds exactly with the track the steps describe
* `Cli.run_status_and_stdout`: the status and stdout of every run that is not help or the version
-/

namespace RegionTrack.Cli

/-! ## The setup, step by step -/

/-- A setup step that runs only when its option is given: without the option the track is
kept, with the value `a` the step `step a` must lead from the track to the next. -/
def IfGiven {α : Type} (step : α → Track → Track → Prop) (o : Option α) (t t' : Track) : Prop :=
  (o = none ∧ t' = t) ∨ ∃ a, o = some a ∧ step a t t'

/-- The track that the options describe, when the files read as `files` says: from the empty
track, the metadata file's text applied, then the rate set, the time scale set, and the data
file loaded in its format, each step when its option is given. -/
def Builds (files : String → FileRead) (inv : Invocation) (t : Track) : Prop :=
  ∃ t₁, IfGiven (fun p _ t' => ∃ text, (files p).text? = .ok text ∧
      Track.patchText {} text = (t', .ok ())) inv.metadata {} t₁ ∧
    ∃ t₂, IfGiven (fun r t t' => t.setRate r.num r.den = .ok t') inv.fps t₁ t₂ ∧
    ∃ t₃, IfGiven (fun x t t' => t.setScale x = .ok t') inv.timeScale t₂ t₃ ∧
    IfGiven (fun p t t' => ∃ n, t.load p (files p) inv.format = (t', .ok n)) inv.data t₃ t

section

variable {α β : Type} (files : String → FileRead)

theorem run_bind_eq_ok {x : ExceptT Fault Id α} {f : α → ExceptT Fault Id β} {b : β} :
    (x >>= f).run = .ok b ↔ ∃ a, x.run = .ok a ∧ (f a).run = .ok b := by
  rw [ExceptT.run_bind]
  cases hx : x.run with
  | error e =>
    show (Except.error e : Except Fault β) = .ok b ↔ _
    exact ⟨fun h => (by cases h), fun ⟨_, ha, _⟩ => (by cases ha)⟩
  | ok a =>
    show (f a).run = .ok b ↔ _
    exact ⟨fun h => ⟨a, rfl, h⟩, fun ⟨_, ha, h⟩ => (by cases ha; exact h)⟩

/-- Reading a file inside the build, with the lift the stages take for a general monad, here
read at `Id`. -/
theorem run_liftM_bind {r : FileRead} {f : FileRead → ExceptT Fault Id β} :
    (@liftM Id (ExceptT Fault Id) (@instMonadLiftTOfMonadLift Id Id (ExceptT Fault Id)
      ExceptT.instMonadLift (instMonadLiftT Id)) FileRead r >>= f).run = (f r).run := rfl

theorem run_pure_eq_ok {a b : α} : (pure a : ExceptT Fault Id α).run = .ok b ↔ a = b := by
  show (Except.ok a : Except Fault α) = .ok b ↔ _
  simp

theorem optionally_run_eq_ok_iff {o : Option α} {t t' : Track}
    {step : α → ExceptT Fault Id Track} :
    (optionally o t step).run = .ok t' ↔
      (o = none ∧ t' = t) ∨ ∃ a, o = some a ∧ (step a).run = .ok t' := by
  cases o with
  | none =>
    rw [optionally, run_pure_eq_ok]
    simp [eq_comm]
  | some a => simp [optionally]

theorem setupStep_run_eq_ok_iff {x : Except TrackError Track} {t : Track} :
    (setupStep (m := Id) x).run = .ok t ↔ x = .ok t := by
  cases x with
  | error e =>
    rw [setupStep]
    simp
  | ok t₀ =>
    rw [setupStep, run_pure_eq_ok]
    simp

/-- Reading the metadata succeeds exactly when the file's text reads and applies to the empty
track. -/
theorem metadataTrack_run_eq_ok_iff {p : String} {t : Track} :
    (metadataTrack (m := Id) files p).run = .ok t ↔
      ∃ text, (files p).text? = .ok text ∧ Track.patchText {} text = (t, .ok ()) := by
  rw [metadataTrack, run_liftM_bind]
  cases hr : (files p).text? with
  | error why =>
    simp
  | ok text =>
    simp only
    rcases hpt : Track.patchText {} text with ⟨t₁, _ | _⟩
    · simp [hpt]
    · simp only [run_pure_eq_ok]
      simp [hpt]

/-- Loading the data succeeds exactly when the track loads the file's content. -/
theorem loadTrack_run_eq_ok_iff {fmt : DataFormat} {t t' : Track} {p : String} :
    (loadTrack (m := Id) files fmt t p).run = .ok t' ↔
      ∃ n, t.load p (files p) fmt = (t', .ok n) := by
  rw [loadTrack, run_liftM_bind]
  rcases t.load p (files p) fmt with ⟨t₁, _ | n⟩
  · simp
  · simp only [run_pure_eq_ok]
    simp

/-- **The build follows the steps.** Building the track succeeds exactly with the track that
the steps describe, in their order. -/
theorem buildTrack_run_eq_ok_iff {inv : Invocation} {t : Track} :
    (buildTrack (m := Id) files inv).run = .ok t ↔ Builds files inv t := by
  simp only [buildTrack, run_bind_eq_ok, optionally_run_eq_ok_iff, metadataTrack_run_eq_ok_iff,
    setupStep_run_eq_ok_iff, loadTrack_run_eq_ok_iff, Builds, IfGiven]

/-- The steps describe at most one track. -/
theorem Builds.unique {inv : Invocation} {t t' : Track} (h : Builds files inv t)
    (h' : Builds files inv t') : t = t' := by
  rw [← buildTrack_run_eq_ok_iff] at h h'
  rw [h] at h'
  cases h'
  rfl

end

/-! ## The outcome of a run -/

section

variable (files : String → FileRead) {args : List String}

theorem finish_status_eq_zero_iff {r : Except Fault Json.Value} :
    (finish r).status = 0 ↔ ∃ v, r = .ok v := by
  cases r with
  | error f => simp [finish]
  | ok v => simp [finish]

theorem finish_stdout_of_ok {v : Json.Value} : (finish (.ok v)).stdout = v.render ++ "\n" := rfl

theorem finish_stdout_of_status_ne_zero {r : Except Fault Json.Value} (h : (finish r).status ≠ 0) :
    (finish r).stdout = "" := by
  cases r with
  | error f => rfl
  | ok v => exact absurd rfl h

/-- A refused command line ends the run with status 2 and prints on stderr only. -/
theorem run_of_refused {stop : Stop} (hp : parseArgs args = .error stop)
    (hhelp : ∀ text, stop ≠ .help text) (hversion : stop ≠ .version) :
    (Id.run (run (m := Id) files args)).status = 2 ∧
      (Id.run (run (m := Id) files args)).stdout = "" := by
  have ho : Id.run (run (m := Id) files args) = stop.outcome := by
    simp only [run, hp]
    rfl
  rw [ho]
  cases stop with
  | help text => exact absurd rfl (hhelp text)
  | version => exact absurd rfl hversion
  | bare text => exact ⟨rfl, rfl⟩
  | failure f => exact ⟨rfl, rfl⟩

/-- A command line that reads runs its command on the track that is built, if one is. -/
theorem run_of_parse_ok {inv : Invocation} (hp : parseArgs args = .ok inv) :
    Id.run (run (m := Id) files args) =
      finish (Except.bind (buildTrack (m := Id) files inv).run inv.command.output) := by
  simp only [run, hp]
  cases (buildTrack (m := Id) files inv).run <;> rfl

/-- The command's output on the built track, as the run computes it. -/
theorem bind_buildTrack_eq_ok_iff {inv : Invocation} {v : Json.Value} :
    Except.bind (buildTrack (m := Id) files inv).run inv.command.output = .ok v ↔
      ∃ t, Builds files inv t ∧ inv.command.output t = .ok v := by
  cases hb : (buildTrack (m := Id) files inv).run with
  | error f =>
    refine ⟨fun h => (by cases h), fun ⟨t, ht, _⟩ => ?_⟩
    rw [← buildTrack_run_eq_ok_iff, hb] at ht
    cases ht
  | ok t =>
    have ht : Builds files inv t := (buildTrack_run_eq_ok_iff files).1 hb
    exact ⟨fun h => ⟨t, ht, h⟩, fun ⟨t', ht', h⟩ => (Builds.unique files ht ht') ▸ h⟩

/-- Of the commands only `range` can fail: when its span would end before it starts. -/
theorem Command.exists_output_iff (t : Track) (c : Command) :
    (∃ v, c.output t = .ok v) ↔ ∀ a b p, c = .range a b p → a ≤ b := by
  cases c with
  | box f => simp [Command.output]
  | props f => simp [Command.output]
  | range a b p =>
    by_cases h : a ≤ b
    · simp [Command.output, FrameSpan.make, h]
    · simp [Command.output, FrameSpan.make, h]
  | metadata => simp [Command.output]

/-- **What a run prints.** For every command line but help and the version, and every content
of the files read: the run ends with status 0 exactly when the command line reads, the track is
built step by step as its options say, and a range asked for does not end before it starts;
stdout is then the command's output, pretty-printed, and a newline. A run that ends otherwise
prints nothing on stdout. -/
theorem run_status_and_stdout (hhelp : ∀ text, parseArgs args ≠ .error (.help text))
    (hversion : parseArgs args ≠ .error .version) :
    let o := Id.run (run (m := Id) files args)
    (o.status = 0 ↔ ∃ inv t, parseArgs args = .ok inv ∧ Builds files inv t ∧
      ∀ a b p, inv.command = .range a b p → a ≤ b) ∧
    (∀ inv t v, parseArgs args = .ok inv → Builds files inv t → inv.command.output t = .ok v →
      o.stdout = v.render ++ "\n") ∧
    (o.status ≠ 0 → o.stdout = "") := by
  intro o
  rcases hp : parseArgs args with stop | inv
  case error =>
    obtain ⟨hs, ho⟩ := run_of_refused files hp (fun text h => hhelp text (h ▸ hp))
      (fun h => hversion (h ▸ hp))
    refine ⟨?_, fun _ _ _ h => (by cases h), fun _ => ho⟩
    simp only [show o.status = 2 from hs]
    exact ⟨fun h => (by cases h), fun ⟨_, _, h, _⟩ => (by cases h)⟩
  case ok =>
    have ho : o = finish (Except.bind (buildTrack (m := Id) files inv).run inv.command.output) :=
      run_of_parse_ok files hp
    refine ⟨?_, fun inv' t v hinv ht hv => ?_, fun h => ?_⟩
    · rw [ho, finish_status_eq_zero_iff]
      constructor
      · rintro ⟨v, hv⟩
        obtain ⟨t, ht, hout⟩ := (bind_buildTrack_eq_ok_iff files).1 hv
        exact ⟨inv, t, rfl, ht, (Command.exists_output_iff t _).1 ⟨v, hout⟩⟩
      · rintro ⟨inv', t, hinv, ht, hspan⟩
        cases hinv
        obtain ⟨v, hout⟩ := (Command.exists_output_iff t _).2 hspan
        exact ⟨v, (bind_buildTrack_eq_ok_iff files).2 ⟨t, ht, hout⟩⟩
    · cases hinv
      rw [ho, (bind_buildTrack_eq_ok_iff files).2 ⟨t, ht, hv⟩, finish_stdout_of_ok]
    · rw [ho] at h ⊢
      exact finish_stdout_of_status_ne_zero h

/-- `meta` alone, every file empty: the command line reads, and the run is as stated. -/
theorem run_status_and_stdout_meta :
    (∀ text, parseArgs ["meta"] ≠ .error (.help text)) ∧ parseArgs ["meta"] ≠ .error .version ∧
    let o := Id.run (run (m := Id) (fun _ => FileRead.content []) ["meta"])
    (o.status = 0 ↔ ∃ inv t, parseArgs ["meta"] = .ok inv ∧
      Builds (fun _ => FileRead.content []) inv t ∧ ∀ a b p, inv.command = .range a b p → a ≤ b) ∧
    (∀ inv t v, parseArgs ["meta"] = .ok inv → Builds (fun _ => FileRead.content []) inv t →
      inv.command.output t = .ok v → o.stdout = v.render ++ "\n") ∧
    (o.status ≠ 0 → o.stdout = "") := by
  obtain ⟨inv, hinv⟩ : ∃ inv, parseArgs ["meta"] = .ok inv := ⟨_, rfl⟩
  have hhelp : ∀ text, parseArgs ["meta"] ≠ .error (.help text) := fun text h => by
    rw [hinv] at h
    cases h
  have hversion : parseArgs ["meta"] ≠ .error .version := fun h => by
    rw [hinv] at h
    cases h
  exact ⟨hhelp, hversion, run_status_and_stdout _ hhelp hversion⟩

end

end RegionTrack.Cli
