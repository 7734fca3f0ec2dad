import I3CHost.CommandLine.Exit

/-!
# The program

Reads the variables and the device file, runs the command line over them, writes the device file
back if the command changed it, and prints, with the log turned off. Everything else is decided by
`CommandLine.run`.
-/
namespace I3CHost

/-- The variables that are set. -/
def setVariables : IO Environment := do
  let names := [Settings.pathVariable, Settings.baseVariable, Settings.sizeVariable,
    CommandLine.Appearance.forceVariable, CommandLine.Appearance.plainVariable]
  return (← names.mapM fun name => do
    return (← IO.getEnv name).map fun text => (name, text)).filterMap id

/-- The host's tree with what stands at one path put into it. Special devices that the tree knows
are left alone, since reading one may never end. -/
def hostTree (path : String) : IO DeviceTree := do
  if DeviceTree.host.hasPath path then return .host
  try
    let bytes ← IO.FS.readBinFile path
    return DeviceTree.host.putAt path (.regular bytes.data)
  catch
    | .inappropriateType .. => return DeviceTree.host.putAt path .directory
    | _ => return .host

/-- The device file that a command line is about. -/
def deviceOf (arguments : List String) (env : Environment) : Option String :=
  match CommandLine.Invocation.ofArguments arguments with
  | .error _ => none
  | .ok i => (i.settings env).toOption.map Settings.devicePath

end I3CHost

open I3CHost in
def main (arguments : List String) : IO UInt32 := do
  let env ← setVariables
  let device := deviceOf arguments env
  let before ← match device with
    | some path => hostTree path
    | none => pure DeviceTree.host
  let e := CommandLine.run .brief arguments env before
  if let some path := device then
    if e.tree.bytesAt path != before.bytesAt path then
      IO.FS.writeBinFile path ⟨e.tree.bytesAt path⟩
  (← IO.getStdout).putStr e.stdout
  (← IO.getStderr).putStr e.stderr
  return e.code.toUInt32
