import LeaseLock.Arguments
import LeaseLock.Server

/-
  LeaseLock: the lock server as a program.
  It reads the command line and serves one connection, whose bytes come over standard input and go
  out over standard output; whoever listens at the address of the settings hands its connections
  on.  It looks for lapsed leases before it handles what has come.
-/

namespace LeaseLock

/-- How the program is called. -/
def usage : String :=
  "Usage: lease-lock [OPTIONS]\n\nOptions:\n" ++
    String.join (Setting.all.map fun which => s!"  --{which.name} <VALUE>\n") ++
    "  -h, --help\n"

/-- Why a command line is refused. -/
def Arguments.Refusal.message : Arguments.Refusal → String
  | badValue which text => s!"invalid value '{text}' for --{which.name}"
  | noValue which => s!"a value is required for --{which.name}"
  | repeated which => s!"--{which.name} cannot be used multiple times"
  | unknown text => s!"unexpected argument '{text}'"
  | helpWithValue => "unexpected value for --help"
  | help => usage

/-- Write what comes out of the server. -/
def writeOutputs (output : IO.FS.Stream) (outputs : List Server.Output) : IO Unit := do
  for o in outputs do
    if let .frame _ payload := o then
      output.write ⟨(Net.frame payload).toArray⟩
  output.flush

/-- Serve a connection until it ends; `origin` is the reading of the clock at the start. -/
partial def serveConnection (input output : IO.FS.Stream) (origin endpoint : Nat)
    (s : Server) : IO Unit := do
  let chunk ← input.read 65536
  let s := s.advanceTo ((← IO.monoNanosNow) - origin)
  let s := if chunk.isEmpty then s.hangUp endpoint else s.push endpoint chunk.toList
  let (outputs, s) := s.settle
  writeOutputs output outputs
  if s.inflows.contains endpoint then
    serveConnection input output origin endpoint s

end LeaseLock

open LeaseLock in
/-- Serve a connection with the settings of the command line. -/
def main (arguments : List String) : IO UInt32 := do
  match Settings.ofArguments arguments with
  | .error .help =>
    IO.print usage
    return 0
  | .error refusal =>
    IO.eprintln s!"error: {refusal.message}"
    return 2
  | .ok settings =>
    let (endpoint, server) := (Server.start settings.coordinator).connect
    serveConnection (← IO.getStdin) (← IO.getStdout) (← IO.monoNanosNow) endpoint server
    return 0
