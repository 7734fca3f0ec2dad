import I3CHost.CommandLine.Appearance
import I3CHost.CommandLine.Invocation
import I3CHost.CommandLine.Printout
import I3CHost.Target

/-!
# Running a command line

A command line with its variables and the device files it sees gives an exit: a code, what was
written, and the device files afterwards. Codes are 0 for success, 1 for a failed command, 2 for a
command line that is not understood and 101 for a panic. The backend is announced as soon as a
window is open, before the settings are checked against it, and a window that was opened is closed
whatever the command comes to. The mapped device is the default; the model is used on request only,
and it does not outlive the command.

The log goes to standard output, between the lines of the printout. Which of its lines are shown is
decided by a filter that the user sets; an exit holds all of them, and `Exit.under` is what a filter
leaves. The words of the argument parser are its own (`Wording`). The time stamps of the log are
left out, and so is what a panic writes besides its message.
-/
namespace I3CHost.CommandLine

structure Exit where
  code : UInt8
  /-- Standard output: printed lines, and every line of the log. -/
  output : List Event
  stderr : String
  tree : DeviceTree

namespace Exit

/-- Standard output with the log turned off. -/
def stdout (e : Exit) : String :=
  String.join ((e.output.filterMap Event.line?).map fun line => line ++ "\n")

/-- The exit under a filter of the log. A printed line is no part of the log. -/
def under (shows : Event → Bool) (e : Exit) : Exit :=
  { e with output := e.output.filter fun x => x.line?.isSome || shows x }

/-- An exit with something written before it and something after. -/
def between (before after : List Event) (e : Exit) : Exit :=
  { e with output := before ++ e.output ++ after }

/-- What is left of work that came to its end, and perhaps shows a failure. -/
def ofFailure (tree : DeviceTree) : Option Failure → Exit
  | none => ⟨0, [], "", tree⟩
  | some f => ⟨1, [], f.text, tree⟩

/-- What is left of work that a fault ended. -/
def ofFault (describe : Fault → Failure) (tree : DeviceTree) : Fault → Exit
  | .panic why => ⟨101, [], why.message ++ "\n", tree⟩
  | e => ofFailure tree (some (describe e))

variable (before after : List Event) (tree : DeviceTree) (describe : Fault → Failure) (e : Exit)

@[simp] theorem code_between : (e.between before after).code = e.code := rfl
@[simp] theorem stderr_between : (e.between before after).stderr = e.stderr := rfl
@[simp] theorem tree_between : (e.between before after).tree = e.tree := rfl

@[simp] theorem tree_ofFailure (f : Option Failure) : (ofFailure tree f).tree = tree := by
  cases f <;> rfl

@[simp] theorem tree_ofFault (f : Fault) : (ofFault describe tree f).tree = tree := by
  cases f <;> rfl

theorem code_ofFault (f : Fault) : (ofFault describe tree f).code ≠ 0 := by
  cases f <;> exact of_decide_eq_true rfl

end Exit

/-- The name of the program. -/
def programName : String := "i3c"

def programVersion : String := "0.1.0"

/-- What the argument parser has to say. -/
structure Wording where
  help : String
  usage : Appearance → UsageFault → String

/-- The words without the help and without the summary of the usage. -/
def Wording.brief : Wording := ⟨"", fun a f => a.render f.notice⟩

namespace Stop

/-- How a command line without a command ends. -/
def exit (w : Wording) (env : Environment) (tree : DeviceTree) : Stop → Exit
  | fault f => ⟨2, [], w.usage (.ofVariables env) f, tree⟩
  | help => ⟨0, [.printed w.help], "", tree⟩
  | version => ⟨0, [.printed (programName ++ " " ++ programVersion)], "", tree⟩
  | nothing => ⟨2, [], w.help, tree⟩

end Stop

namespace Invocation

/-- The settings of an invocation under variables, as they are gathered. -/
def gathered (i : Invocation) (env : Environment) : Logged Settings :=
  Settings.gather env i.amendments

def settings (i : Invocation) (env : Environment) : Except Fault Settings := (i.gathered env).result

theorem settings_eq_bind (i : Invocation) (env : Environment) : i.settings env = do
    let s ← Settings.ofVariables env
    return s.amend i.amendments := by
  unfold settings gathered Settings.gather
  cases Settings.ofVariables env <;> rfl

/-- What is opened. -/
def selection (i : Invocation) : Selection := if i.software then .software else .mmap

/-- Make a controller over an open window and run the command. -/
def work (i : Invocation) (tree : DeviceTree) (s : Settings) (target : Target) : Exit :=
  match Controller.ofSettings target.size s with
  | .error e => .ofFault .ofFault tree e
  | .ok c =>
    match i.command.program c with
    | .error f => .ofFailure tree (some f)
    | .ok p =>
      let o := p.run Target.responder (target, tree)
      let e :=
        match o.result with
        | .error e => Exit.ofFault .ofFault o.state.2 e
        | .ok failure => .ofFailure o.state.2 failure
      e.between o.events []

/-- Announce an open window, work with it and close it. -/
def onTarget (i : Invocation) (tree : DeviceTree) (s : Settings) (target : Target) : Exit :=
  (i.work tree s target).between [.printed s!"Backend: {target.label}"] target.closing

/-- Gather the settings, open the window, run the command. -/
def exit (i : Invocation) (env : Environment) (tree : DeviceTree) : Exit :=
  let e :=
    match i.settings env with
    | .error e => Exit.ofFault .ofFault tree e
    | .ok s =>
      let opened := Target.select tree s i.selection
      let e :=
        match opened.result with
        | .error e => Exit.ofFault (.during s!"opening {s.devicePath}") tree e
        | .ok target => i.onTarget tree s target
      e.between opened.events []
  e.between (i.gathered env).events []

end Invocation

/-- Run a command line. -/
def run (w : Wording) (arguments : List String) (env : Environment) (tree : DeviceTree) : Exit :=
  match Invocation.ofArguments arguments with
  | .error stop => stop.exit w env tree
  | .ok i => i.exit env tree

end I3CHost.CommandLine
