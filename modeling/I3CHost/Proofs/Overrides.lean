import I3CHost.CommandLine.Exit
import Mathlib

/-!
# Options in place of variables

Three options replace the value of a variable. The variables are read before the options are put in
place, and reading is where an overridden text can still show: any text is a path, but a base or a
size has to be a number. So a run does not depend on an overridden variable as long as its text can
be read, and a text that cannot be read ends the run although nothing would have used it.

Environments are compared by what they answer for each name, not by how they are written down. One
line of the log tells the settings, and it tells them before the options are put in place. So what
is compared are exits under a filter that hides this line, as the usual filter does.
-/
namespace I3CHost.CommandLine

/-- Every variable but one has the same text in both environments, or is set in neither. -/
def AgreeBut (name : String) (env env' : Environment) : Prop :=
  ∀ other, other ≠ name → env.lookup other = env'.lookup other

/-- An option that replaces the value of a variable. -/
inductive Override where
  | device
  | base
  | size
deriving DecidableEq, Repr

namespace Override

/-- The variable whose value is replaced. -/
def name : Override → String
  | device => Settings.pathVariable
  | base => Settings.baseVariable
  | size => Settings.sizeVariable

def IsGiven (a : Amendments) : Override → Prop
  | device => a.devicePath.isSome
  | base => a.baseAddress.isSome
  | size => a.windowSize.isSome

/-- What is wrong with the text of the variable, if anything. -/
def read (env : Environment) : Override → Except Fault Unit
  | device => .ok ()
  | base => (Settings.numberOr Settings.standard.baseAddress (env.lookup Settings.baseVariable)).map
      fun _ => ()
  | size => (Settings.numberOr Settings.standard.windowSize (env.lookup Settings.sizeVariable)).map
      fun _ => ()

end Override

variable {o : Override} {env env' : Environment} {args : List String} {i : Invocation}

/-- To set one variable, or to change it, is to differ in that one. -/
theorem agreeBut_cons (name text : String) (env : Environment) :
    AgreeBut name ((name, text) :: env) env := by
  intro other hother
  rw [List.lookup_cons, beq_eq_false_iff_ne.mpr hother]

/-! ## What a run asks of the environment -/

theorem Appearance.isRaised_congr {name : String} (h : env.lookup name = env'.lookup name) :
    isRaised env name = isRaised env' name := by
  simp only [isRaised, h]

/-- The looks of a text hang on other variables than the three. -/
theorem Appearance.ofVariables_of_agree (h : AgreeBut o.name env env') :
    ofVariables env = ofVariables env' := by
  have hforce : forceVariable ≠ o.name := by cases o <;> decide
  have hplain : plainVariable ≠ o.name := by cases o <;> decide
  simp only [ofVariables, isRaised_congr (h _ hforce), isRaised_congr (h _ hplain)]

theorem exists_of_map_eq_ok {α : Type} {x : Except Fault α} (h : x.map (fun _ => ()) = .ok ()) :
    ∃ a, x = .ok a := by
  cases x with
  | ok a => exact ⟨a, rfl⟩
  | error e => cases h

theorem eq_error_of_map {α : Type} {x : Except Fault α} {e : Fault}
    (h : x.map (fun _ => ()) = .error e) : x = .error e := by
  cases x with
  | ok a => cases h
  | error e' =>
      cases h
      rfl

namespace Invocation

/-- The settings of an invocation by what the three variables hold. -/
theorem settings_eq (i : Invocation) (env : Environment) :
    i.settings env =
      (Settings.numberOr Settings.standard.baseAddress (env.lookup Settings.baseVariable)).bind
        fun base =>
          (Settings.numberOr Settings.standard.windowSize (env.lookup Settings.sizeVariable)).bind
            fun size => .ok ({ Settings.standard with
              devicePath := (env.lookup Settings.pathVariable).getD Settings.standard.devicePath
              baseAddress := base, windowSize := size }.amend i.amendments) := by
  simp only [settings_eq_bind, Settings.ofVariables, Settings.overlay, bind, pure, Except.pure]
  cases Settings.numberOr Settings.standard.baseAddress (env.lookup Settings.baseVariable) with
  | error e => rfl
  | ok base =>
      cases Settings.numberOr Settings.standard.windowSize (env.lookup Settings.sizeVariable) with
      | error e => rfl
      | ok size => rfl

/-- The option hides the one value in which the variables differ. -/
theorem settings_of_given (hgiven : o.IsGiven i.amendments) (h : AgreeBut o.name env env')
    (hread : o.read env = .ok ()) (hread' : o.read env' = .ok ()) :
    i.settings env = i.settings env' := by
  rw [settings_eq, settings_eq]
  cases o with
  | device =>
      obtain ⟨path, hv⟩ := Option.isSome_iff_exists.mp hgiven
      have hbase := h Settings.baseVariable (by decide)
      have hsize := h Settings.sizeVariable (by decide)
      simp only [hbase, hsize, Settings.amend, hv, Option.getD_some]
  | base =>
      obtain ⟨address, hv⟩ := Option.isSome_iff_exists.mp hgiven
      have hpath := h Settings.pathVariable (by decide)
      have hsize := h Settings.sizeVariable (by decide)
      obtain ⟨n, hn⟩ := exists_of_map_eq_ok hread
      obtain ⟨n', hn'⟩ := exists_of_map_eq_ok hread'
      simp only [hpath, hsize, hn, hn', Except.bind, Settings.amend, hv, Option.getD_some]
  | size =>
      obtain ⟨length, hv⟩ := Option.isSome_iff_exists.mp hgiven
      have hpath := h Settings.pathVariable (by decide)
      have hbase := h Settings.baseVariable (by decide)
      obtain ⟨n, hn⟩ := exists_of_map_eq_ok hread
      obtain ⟨n', hn'⟩ := exists_of_map_eq_ok hread'
      simp only [hpath, hbase, hn, hn', Except.bind, Settings.amend, hv, Option.getD_some]

/-- The first unreadable variable is the fault of the settings, whatever the options say. -/
theorem settings_of_unreadable {e : Fault} (h : o.read env = .error e)
    (hfirst : o = .size → Override.base.read env = .ok ()) : i.settings env = .error e := by
  rw [settings_eq]
  cases o with
  | device => cases h
  | base =>
      rw [eq_error_of_map h]
      rfl
  | size =>
      obtain ⟨n, hn⟩ := exists_of_map_eq_ok (hfirst rfl)
      rw [hn, eq_error_of_map h]
      rfl

end Invocation

/-! ## Exits under a filter -/

theorem Exit.under_between (shows : Event → Bool) (before after : List Event) (e : Exit) :
    (e.between before after).under shows =
      (e.under shows).between (before.filter fun x => x.line?.isSome || shows x)
        (after.filter fun x => x.line?.isSome || shows x) := by
  simp only [under, between, List.filter_append]

/-- The usual filter hides the line that tells the settings. -/
example (s : Settings) : Event.isShown .warn (.settings s) = false := rfl

namespace Invocation

/-- To gather settings is to tell them, and of settings that cannot be read nothing is told. -/
theorem gathered_eq (i : Invocation) (env : Environment) :
    (∃ e, i.gathered env = ⟨.error e, []⟩) ∨
      ∃ s, i.gathered env = ⟨.ok (s.amend i.amendments), [.settings s]⟩ := by
  unfold gathered Settings.gather
  cases Settings.ofVariables env with
  | error e => exact .inl ⟨e, rfl⟩
  | ok s => exact .inr ⟨s, rfl⟩

theorem events_gathered (i : Invocation) (env : Environment) {shows : Event → Bool}
    (hshows : ∀ s, shows (.settings s) = false) :
    (i.gathered env).events.filter (fun x => x.line?.isSome || shows x) = [] := by
  rcases i.gathered_eq env with ⟨e, h⟩ | ⟨s, h⟩
  · rw [h]
    rfl
  · simp [h, Event.line?, hshows]

theorem events_gathered_of_error {e : Fault} (h : i.settings env = .error e) :
    (i.gathered env).events = [] := by
  rcases i.gathered_eq env with ⟨e', h'⟩ | ⟨s, h'⟩
  · rw [h']
  · rw [settings, h'] at h
    cases h

end Invocation

/-- A run asks the environment for its settings and for the looks of a text. -/
theorem run_congr (w : Wording) (tree : DeviceTree) (h : AgreeBut o.name env env')
    (hsettings : ∀ i, Invocation.ofArguments args = .ok i → i.settings env = i.settings env')
    {shows : Event → Bool} (hshows : ∀ s, shows (.settings s) = false) :
    (run w args env tree).under shows = (run w args env' tree).under shows := by
  simp only [run]
  cases hargs : Invocation.ofArguments args with
  | error stop =>
      have hlooks := Appearance.ofVariables_of_agree h
      cases stop <;> simp only [Stop.exit, hlooks]
  | ok i =>
      simp only [Invocation.exit, hsettings i hargs, Exit.under_between,
        Invocation.events_gathered i _ hshows]

/-- A run whose settings cannot be read does nothing but say so. -/
theorem run_of_unreadable (w : Wording) (tree : DeviceTree) {e : Fault}
    (hargs : Invocation.ofArguments args = .ok i) (h : i.settings env = .error e) :
    run w args env tree = .ofFault .ofFault tree e := by
  simp only [run, hargs, Invocation.exit, h, Invocation.events_gathered_of_error h, Exit.between,
    List.nil_append, List.append_nil]

/-- What is wrong with the text of a variable is no panic. -/
theorem Override.ofFault_of_read {e : Fault} (h : o.read env = .error e) (tree : DeviceTree) :
    Exit.ofFault .ofFault tree e = ⟨1, [], (Failure.ofFault e).text, tree⟩ := by
  have hnumber {old : Address} {text : Option String}
      (h : (Settings.numberOr old text).map (fun _ => ()) = .error e) :
      ∃ why, e = .invalidSettings why := by
    cases text with
    | none => cases h
    | some t =>
        have hfault := eq_error_of_map h
        rw [Settings.numberOr, Settings.number] at hfault
        split at hfault <;> cases hfault
        exact ⟨_, rfl⟩
  obtain ⟨why, rfl⟩ : ∃ why, e = .invalidSettings why := by
    cases o with
    | device => cases h
    | base => exact hnumber h
    | size => exact hnumber h
  rfl

/-- An option makes the text of its variable irrelevant: a command line that is not understood, or
that gives the option, runs alike whatever readable text the variable has, up to the line of the log
that tells the settings. A text that cannot be read is reported instead, and nothing else happens;
of two such texts the base is the one. -/
theorem run_overridden (w : Wording) (o : Override) (args : List String)
    (hgiven : ∀ i, Invocation.ofArguments args = .ok i → o.IsGiven i.amendments)
    (tree : DeviceTree) (env env' : Environment) (h : AgreeBut o.name env env') :
    (o.read env = .ok () → o.read env' = .ok () →
        ∀ shows : Event → Bool, (∀ s, shows (.settings s) = false) →
          (run w args env tree).under shows = (run w args env' tree).under shows) ∧
      (∀ e, o = .size → Override.base.read env = .error e →
        run w args env tree = run w args env' tree) ∧
      ∀ i e, Invocation.ofArguments args = .ok i → o.read env = .error e →
        (o = .size → Override.base.read env = .ok ()) →
        run w args env tree = ⟨1, [], (Failure.ofFault e).text, tree⟩ := by
  refine ⟨fun hread hread' shows hshows => ?_, ?_, fun i e hargs hread hfirst => ?_⟩
  · refine run_congr w tree h (fun i hargs => ?_) hshows
    exact Invocation.settings_of_given (hgiven i hargs) h hread hread'
  · rintro e rfl hread
    have hlookup := h Settings.baseVariable (by decide)
    have hread' : Override.base.read env' = .error e := by
      rw [Override.read, ← hlookup]
      exact hread
    cases hargs : Invocation.ofArguments args with
    | error stop =>
        have hlooks := Appearance.ofVariables_of_agree h
        simp only [run, hargs]
        cases stop <;> simp only [Stop.exit, hlooks]
    | ok i =>
        rw [run_of_unreadable w tree hargs (Invocation.settings_of_unreadable hread nofun),
          run_of_unreadable w tree hargs (Invocation.settings_of_unreadable hread' nofun)]
  · rw [run_of_unreadable w tree hargs (Invocation.settings_of_unreadable hread hfirst)]
    exact Override.ofFault_of_read hread tree

/-- A base that could not be mapped and no base at all are the same under the option. -/
theorem run_overridden_misaligned :
    let args := ["--software", "--base", "0x10", "read", "HC_CONTROL"]
    let run := run .brief args
    (run [("I3C_BASE_ADDR", "2")] .host).under (Event.isShown .warn) =
        (run [] .host).under (Event.isShown .warn) ∧
      (run [] .host).stdout = "Backend: Software (model)\nHC_CONTROL @ 0x004 = 0x00000040\n" ∧
      run [("I3C_BASE_ADDR", "x")] .host =
        ⟨1, [], "Error: Invalid configuration: 'x' is not a number: invalid digit found in string\n",
          .host⟩ := by
  intro args run
  let i : Invocation := ⟨true, ⟨none, some 0x10, none, none, none⟩, .read "HC_CONTROL"⟩
  have hi : Invocation.ofArguments args = .ok i := by cbv
  have hgiven : ∀ j, Invocation.ofArguments args = .ok j → Override.base.IsGiven j.amendments := by
    intro j hj
    obtain rfl : i = j := Except.ok.inj (hi.symm.trans hj)
    exact rfl
  have hmisaligned :=
    (run_overridden .brief .base args hgiven .host _ _ (agreeBut_cons _ "2" [])).1
  have hunreadable :=
    (run_overridden .brief .base args hgiven .host _ _ (agreeBut_cons _ "x" [])).2.2
  refine ⟨hmisaligned (by decide +kernel) (by decide +kernel) _ fun s => rfl, ?_, ?_⟩
  · decide +kernel
  · have hread : Override.base.read [("I3C_BASE_ADDR", "x")] =
        .error (.invalidSettings (.notANumber "x" .badDigit)) := by decide +kernel
    exact hunreadable i _ hi hread nofun

/-- A base that is no number ends a run over a model, where the option gives another base and not
even that base is used. One that is a number is told in the log. -/
theorem overridden_text_ends_run :
    let args := ["--software", "--base", "0", "discover"]
    let env : Environment := [("I3C_BASE_ADDR", "x")]
    let run := run .brief args
    (∃ i, Invocation.ofArguments args = .ok i ∧ Override.base.IsGiven i.amendments) ∧
      AgreeBut Override.base.name env [] ∧ (run env .host).code = 1 ∧ (run [] .host).code = 0 ∧
      (run [("I3C_BASE_ADDR", "4")] .host).output ≠ (run [] .host).output := by
  intro args env run
  have hi : Invocation.ofArguments args =
      .ok ⟨true, ⟨none, some 0, none, none, none⟩, .discover⟩ := by cbv
  refine ⟨⟨_, hi, rfl⟩, agreeBut_cons _ "x" [], ?_, ?_, ?_⟩
  · decide +kernel
  · decide +kernel
  · decide +kernel

end I3CHost.CommandLine
