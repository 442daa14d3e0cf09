import Mathlib
import Quilt.Command.Arguments
import Quilt.Proofs.Checks

namespace Quilt.Command

/-- The values that arguments give for an option: what stands behind its equals sign, or else the
next argument. -/
def valuesOf (name : String) : List String → List String
  | [] => []
  | arg :: rest =>
    match Argument.ofString arg with
    | .long given value =>
      (if given = name then (value.or rest.head?).toList else []) ++ valuesOf name rest
    | _ => valuesOf name rest

/-- What becomes of a setting by the values that it is given: none leaves it, and one that can be
read sets it. -/
inductive Settles {α : Type} (read : String → Option α) :
    Option α → List String → Option α → Prop
  | kept {old : Option α} : Settles read old [] old
  | given {value : String} {a : α} (h : read value = some a) : Settles read none [value] (some a)

theorem Settles.append {α : Type} {read : String → Option α} {a b c : Option α}
    {values more : List String} (h : Settles read a values b) (h' : Settles read b more c) :
    Settles read a (values ++ more) c := by
  cases h with
  | kept => exact h'
  | given hread =>
    cases h'
    exact .given hread

theorem settles_of_settle {α : Type} {read : String → Option α} {old new : Option α}
    {value : String} (h : settle old (read value) = .ok new) : Settles read old [value] new := by
  unfold settle at h
  split at h
  next hread =>
    cases h
    exact .given hread
  next => cases h

variable {s s' : Settings} {r r' : Reading} {action : Action} {arg : String} {args : List String}

theorem eq_of_ofString_word {value : String} (h : Argument.ofString arg = .word value) :
    value = arg := by
  unfold Argument.ofString at h
  split at h <;> cases h
  rfl

theorem settles_give {o : ValueOption} {value : String} (h : s.give o value = .ok s') :
    Settles readFrames s.frames (if o = .frames then [value] else []) s'.frames := by
  cases o with
  | frames =>
    obtain ⟨frames, hframes, hs⟩ := bind_eq_ok.1 h
    cases hs
    exact settles_of_settle hframes
  | _ =>
    obtain ⟨_, -, hs⟩ := bind_eq_ok.1 h
    cases hs
    exact .kept

theorem frames_turnOn {switch : Switch} (h : s.turnOn switch = .ok s') : s'.frames = s.frames := by
  cases switch with
  | saveRequest =>
    rw [Settings.turnOn] at h
    split_ifs at h
    cases h
    rfl
  | verbose =>
    rw [Settings.turnOn] at h
    split_ifs at h
    cases h
    rfl
  | help => cases h
  | version => cases h

theorem frames_turnOnAll {switches : List Switch} {letters : List Char}
    (h : s.turnOnAll switches letters = .ok s') : s'.frames = s.frames := by
  unfold Settings.turnOnAll at h
  induction letters generalizing s with
  | nil =>
    cases h
    rfl
  | cons letter letters ih =>
    rw [List.foldlM_cons] at h
    obtain ⟨mid, hstep, hrest⟩ := bind_eq_ok.1 h
    rw [ih hrest]
    split at hstep
    · exact frames_turnOn hstep
    · cases hstep

theorem name_eq_frames_iff {o : ValueOption} : o.name = "frames" ↔ o = .frames := by
  cases o <;> decide

theorem Switch.name_ne_frames (switch : Switch) : switch.name ≠ "frames" := by
  cases switch <;> decide

namespace Reading

/-- The values for the number of frames that are still to come. -/
def valuesFrom (r : Reading) (args : List String) : List String :=
  (if r.pending = some .frames then args.head?.toList else []) ++ valuesOf "frames" args

theorem valuesFrom_nil (r : Reading) : r.valuesFrom [] = [] := by
  simp [valuesFrom, valuesOf]

/-- What a step settles: the values that the argument brings, or that it was waited for with. -/
def SettlesStep (r : Reading) (arg : String) (r' : Reading) : Prop :=
  ∃ values, Settles readFrames r.settings.frames values r'.settings.frames ∧
    ∀ rest, r.valuesFrom (arg :: rest) = values ++ r'.valuesFrom rest

theorem settlesStep_long {settings : Settings} {name : String} {value : Option String}
    (harg : Argument.ofString arg = .long name value)
    (h : step action ⟨settings, none, false⟩ arg = .ok r') :
    SettlesStep ⟨settings, none, false⟩ arg r' := by
  rw [step, harg, if_neg Bool.false_ne_true] at h
  dsimp only at h
  cases ho : action.valueOptions.find? (·.name == name) with
  | some o =>
    obtain rfl : o.name = name := by simpa using List.find?_some ho
    rw [ho] at h
    cases value with
    | some value =>
      obtain ⟨given, hgive, hr⟩ := bind_eq_ok.1 h
      cases hr
      refine ⟨_, settles_give hgive, fun rest => ?_⟩
      simp [valuesFrom, valuesOf, harg, name_eq_frames_iff]
    | none =>
      cases h
      refine ⟨[], .kept, fun rest => ?_⟩
      simp [valuesFrom, valuesOf, harg, name_eq_frames_iff]
  | none =>
    rw [ho] at h
    cases hswitch : action.switches.find? (·.name == name) with
    | none =>
      rw [hswitch] at h
      cases value <;> cases h
    | some switch =>
      obtain rfl : switch.name = name := by simpa using List.find?_some hswitch
      rw [hswitch] at h
      cases value with
      | some value => cases h
      | none =>
        obtain ⟨turned, hturn, hr⟩ := bind_eq_ok.1 h
        cases hr
        refine ⟨[], frames_turnOn hturn ▸ .kept, fun rest => ?_⟩
        simp [valuesFrom, valuesOf, harg, switch.name_ne_frames]

theorem settlesStep_of_step (h : r.step action arg = .ok r') : r.SettlesStep arg r' := by
  obtain ⟨settings, pending, _ | _⟩ := r
  · cases pending with
    | some o =>
      -- An option waits, and only a word can be its value.
      cases harg : Argument.ofString arg with
      | word value =>
        obtain rfl := eq_of_ofString_word harg
        rw [step, harg] at h
        obtain ⟨given, hgive, hr⟩ := bind_eq_ok.1 h
        cases hr
        refine ⟨_, settles_give hgive, fun rest => ?_⟩
        simp [valuesFrom, valuesOf, harg]
      | _ =>
        rw [step, harg] at h
        cases h
    | none =>
      cases harg : Argument.ofString arg with
      | word value =>
        rw [step, harg] at h
        cases h
      | ending =>
        rw [step, harg] at h
        cases h
        refine ⟨[], .kept, fun rest => ?_⟩
        simp [valuesFrom, valuesOf, harg]
      | letters cluster =>
        rw [step, harg] at h
        obtain ⟨turned, hturn, hr⟩ := bind_eq_ok.1 h
        cases hr
        refine ⟨[], frames_turnOnAll hturn ▸ .kept, fun rest => ?_⟩
        simp [valuesFrom, valuesOf, harg]
      | long name value => exact settlesStep_long harg h
  · cases h

/-- Arguments that are read to the end settle the number of frames by the values that they give. -/
theorem settles_foldlM (h : args.foldlM (step action) r = .ok r') :
    Settles readFrames r.settings.frames (r.valuesFrom args) r'.settings.frames := by
  induction args generalizing r with
  | nil =>
    cases h
    rw [valuesFrom_nil]
    exact .kept
  | cons arg args ih =>
    rw [List.foldlM_cons] at h
    obtain ⟨mid, hstep, hrest⟩ := bind_eq_ok.1 h
    obtain ⟨values, hvalues, hfrom⟩ := settlesStep_of_step hstep
    rw [hfrom]
    exact hvalues.append (ih hrest)

end Reading

variable {invocation : Invocation} {opts : QuiltOptions} {outDir : String} {verbose : Bool}

theorem exists_settings_of_ofActionArgs (h : ofActionArgs verbose action args = .ok invocation) :
    ∃ settings : Settings, settings.command action = .ok invocation.command ∧
      Settles readFrames none (valuesOf "frames" args) settings.frames := by
  obtain ⟨r, hread, hfinish⟩ := bind_eq_ok.1 h
  obtain ⟨settings, hsettings, hcommand⟩ := bind_eq_ok.1 hfinish
  obtain ⟨command, hsettled, hinvocation⟩ := bind_eq_ok.1 hcommand
  cases hinvocation
  rw [Reading.finish] at hsettings
  split_ifs at hsettings
  cases hsettings
  exact ⟨r.settings, hsettled, Reading.settles_foldlM hread⟩

theorem exists_settings_of_ofArgs (h : ofArgs s args = .ok invocation) :
    ∃ action, ∃ settings : Settings, settings.command action = .ok invocation.command ∧
      Settles readFrames none (valuesOf "frames" args) settings.frames := by
  -- The induction passes over the switches up to the name of the command.
  induction args generalizing s with
  | nil => cases h
  | cons arg args ih =>
    rw [ofArgs] at h
    cases harg : Argument.ofString arg with
    | word value =>
      rw [harg] at h
      dsimp only at h
      split at h
      next action _ =>
        obtain ⟨settings, hcommand, hsettles⟩ := exists_settings_of_ofActionArgs h
        exact ⟨action, settings, hcommand, by simpa [valuesOf, harg] using hsettles⟩
      next => cases h
    | ending =>
      rw [harg] at h
      cases h
    | letters cluster =>
      rw [harg] at h
      obtain ⟨turned, -, hrest⟩ := bind_eq_ok.1 h
      obtain ⟨action, settings, hcommand, hsettles⟩ := ih hrest
      exact ⟨action, settings, hcommand, by simpa [valuesOf, harg] using hsettles⟩
    | long name value =>
      rw [harg] at h
      dsimp only at h
      split at h
      next switch hswitch =>
        obtain rfl : switch.name = name := by simpa using List.find?_some hswitch
        obtain ⟨turned, -, hrest⟩ := bind_eq_ok.1 h
        obtain ⟨action, settings, hcommand, hsettles⟩ := ih hrest
        exact ⟨action, settings, hcommand,
          by simpa [valuesOf, harg, switch.name_ne_frames] using hsettles⟩
      next => cases h

theorem frames_of_command {settings : Settings} {command : Command}
    (h : settings.command action = .ok command) :
    (∀ opts outDir frames, command = .animate opts outDir frames → frames = settings.frames) ∧
      ∀ opts outDir frames seed saveRequest,
        command = .drift opts outDir frames seed saveRequest →
          frames = settings.frames.getD Request.defaultFrames := by
  obtain ⟨given, -, h⟩ := bind_eq_ok.1 h
  cases action with
  | render =>
    obtain ⟨out, -, h⟩ := bind_eq_ok.1 h
    cases h
    exact ⟨nofun, nofun⟩
  | composite =>
    obtain ⟨base, -, h⟩ := bind_eq_ok.1 h
    obtain ⟨out, -, h⟩ := bind_eq_ok.1 h
    cases h
    exact ⟨nofun, nofun⟩
  | animate =>
    obtain ⟨outDir, -, h⟩ := bind_eq_ok.1 h
    cases h
    refine ⟨?_, nofun⟩
    rintro _ _ _ ⟨⟩
    rfl
  | drift =>
    obtain ⟨outDir, -, h⟩ := bind_eq_ok.1 h
    cases h
    refine ⟨nofun, ?_⟩
    rintro _ _ _ _ _ ⟨⟩
    rfl

theorem settles_of_animate {frames : Option ℕ}
    (h : ofArgs s args = .ok ⟨.animate opts outDir frames, verbose⟩) :
    Settles readFrames none (valuesOf "frames" args) frames := by
  obtain ⟨action, settings, hcommand, hsettles⟩ := exists_settings_of_ofArgs h
  rw [(frames_of_command hcommand).1 opts outDir frames rfl]
  exact hsettles

theorem exists_settles_of_drift {frames : ℕ} {seed : UInt64} {saveRequest : Bool}
    (h : ofArgs s args = .ok ⟨.drift opts outDir frames seed saveRequest, verbose⟩) :
    ∃ given, Settles readFrames none (valuesOf "frames" args) given ∧
      frames = given.getD Request.defaultFrames := by
  obtain ⟨action, settings, hcommand, hsettles⟩ := exists_settings_of_ofArgs h
  exact ⟨settings.frames, hsettles,
    (frames_of_command hcommand).2 opts outDir frames seed saveRequest rfl⟩

end Quilt.Command
