import AccountWatch.Program.Basic

/-! The command line. The connection is the standard input: every line is a text frame, and its end is the
end of the connection. Requests go to the standard error output, since no socket takes them. -/
open AccountWatch

namespace AccountWatch.Main

def usage : String := "Usage: nanowatch [OPTIONS]"

def withoutBreak (line : String) : String :=
  String.ofList (line.toList.reverse.dropWhile fun c => c = '\n' || c = '\r').reverse

def present (before after : Program) : IO Unit := do
  for payload in after.service.payloads.drop before.service.sent.length do
    IO.eprintln payload
  for line in after.output.drop before.output.length do
    IO.println line

def session (p : Program) : IO Unit := do
  let input ← IO.getStdin
  let mut p := p
  let connected := p.feed [.opened]
  present p connected
  p := connected
  while !p.ended do
    let line ← input.getLine
    let next := p.feed [if line.isEmpty then .closed none else .frame (withoutBreak line)]
    present p next
    p := next

def environment : IO (String → Option String) := do
  let mut found : List (String × String) := []
  for setting in Program.Setting.all do
    if let some value ← IO.getEnv setting.environmentName then
      found := (setting.environmentName, value) :: found
  let environment := found
  return fun name => environment.lookup name

end AccountWatch.Main

def main (args : List String) : IO UInt32 := do
  match Program.Invocation.read args (← Main.environment) with
  | .version => IO.println Program.version; return 0
  | .help => IO.println Main.usage; return 0
  | .rejected => IO.eprintln Main.usage; return 2
  | .run options =>
      match Program.start options with
      | .error report => IO.eprintln report; return 1
      | .ok p => Main.session p; return 0
