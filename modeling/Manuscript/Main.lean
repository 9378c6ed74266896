import Manuscript.CommandLine.Plan
/-!
# The program

Reads what a command needs, carries out its plan, and says how it ended.
-/

namespace Manuscript.CommandLine

def systemError (exception : IO.Error) : SystemError :=
  match exception with
  | .noFileOrDirectory .. => .notFound
  | .alreadyExists .. => .alreadyExists
  | .inappropriateType _ 21 _ => .isDirectory
  | .inappropriateType _ 20 _ => .notDirectory
  | .permissionDenied _ code _ => .other "Permission denied" code.toNat
  | other => .other (toString other) 5

def attempted {α : Type} (action : IO α) : IO (Except SystemError α) := do
  try
    return .ok (← action)
  catch exception =>
    return .error (systemError exception)

def Write.execute (w : Write) : IO (Except Failure Unit) := do
  match w.content with
  | .error error => return .error (.error error)
  | .ok content =>
    match ← attempted (IO.FS.writeBinFile w.path ⟨content.toArray⟩) with
    | .ok () => return .ok ()
    | .error error => return .error (.system error)

def Plan.execute (plan : Plan) : IO Outcome := do
  let made ←
    match plan.directory with
    | some directory => attempted (IO.FS.createDirAll directory)
    | none => pure (.ok ())
  match made with
  | .error _ => return plan.conclude made []
  | .ok () => return plan.conclude made (← plan.writes.mapM Write.execute)

partial def drain (stream : IO.FS.Stream) (before : ByteArray) : IO ByteArray := do
  let more ← stream.read 65536
  if more.isEmpty then return before else drain stream (before ++ more)

def Command.readsInput : Command → Bool
  | .convert inputs .. => inputs.contains standardInput
  | .inspect input .. | .info input _ => input == standardInput
  | .usage | .extract .. | .config _ | .version => false

def Command.gather (command : Command) : IO Source := do
  let files ← command.files.mapM fun (path : String) => do
    let content ← attempted (IO.FS.readBinFile path)
    return (path, content.map fun bytes => bytes.data.toList)
  let input ←
    if command.readsInput then drain (← IO.getStdin) ByteArray.empty
    else pure ByteArray.empty
  return ⟨fun path => (files.lookup path).getD (.error .notFound), input.data.toList⟩

end Manuscript.CommandLine

open Manuscript CommandLine in
def main (words : List String) : IO UInt32 := do
  let outcome ←
    match Command.ofArguments (← IO.getEnv "MDOCX_CONFIG") words with
    | .error stop => pure stop.outcome
    | .ok command => (command.plan (← command.gather)).execute
  IO.print outcome.output
  IO.eprint outcome.complaint
  return UInt32.ofNat outcome.status
