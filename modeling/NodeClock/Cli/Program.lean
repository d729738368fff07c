import NodeClock.Cli.Arguments
import NodeClock.Cli.LogFilter
import NodeClock.Client
import NodeClock.Reading

/-!
# The program

What the program does for an invocation. How calls are made and where lines go is left to the
services it is given.

* `Services`: calls, output, log and messages on usage.
* `retry`: further attempts to set a clock.
* `Invocation.perform`: an invocation carried out, with its exit status.
* `perform`: the same for a command line.
-/

namespace NodeClock.Cli

/-- A line of the log. -/
structure LogLine where
  severity : Severity
  message : String
  fields : List (String × String)

/-- `INFO target: message key=value`. -/
def LogLine.render (l : LogLine) : String :=
  let fields := l.fields.map fun (key, value) => s!" {key}={value}"
  l.severity.name ++ " " ++ LogFilter.ownTarget ++ ": " ++ l.message ++ String.join fields

/-- The names of the fields, of which the message is one. -/
def LogLine.fieldNames (l : LogLine) : List String := "message" :: l.fields.map (·.1)

/-- What the program needs from outside. -/
structure Services (m : Type → Type) where
  set : Client → Target → m Outcome
  read : Client → Target → m (Except CallError Reading)
  print : String → m Unit
  log : String → m Unit
  complain : String → m Unit

/-- At most `left` further attempts, of which the next is attempt `next`, for as long as another
one may end otherwise. The result is the outcome of the last attempt. -/
def retry {m : Type → Type} [Monad m] (attempt : m Outcome) (note : Nat → Outcome → m Unit) :
    (left next : Nat) → Outcome → m Outcome
  | 0, _, last => pure last
  | left + 1, next, last =>
    if last.isRetryable then do
      note next last
      retry attempt note left (next + 1) (← attempt)
    else pure last

/-- The target at a node. A port of its own counts more than the one in the host's text. -/
def Node.target (n : Node) : Except CallError Target :=
  let target := do
    let t ← Target.make n.host n.path
    match n.port with
    | some port => t.withPort port
    | none => return t
  target.mapError .invalidTarget

/-- The name and version of the program. -/
def programName : String := "rtc-sync"
def programVersion : String := "0.1.0"

/-- The help on a topic. -/
def Topic.lines (t : Topic) : List String :=
  let usage := match t with
    | .program => "<COMMAND>"
    | .set => "set [OPTIONS] <HOST>"
    | .read => "read [OPTIONS] <HOST>"
    | .help => "help [COMMAND]..."
  [t.about, "", "Usage: " ++ programName ++ " " ++ usage]

namespace Invocation

variable {m : Type → Type} [Monad m]

/-- Sets a clock, in several attempts if need be. -/
def performSet (s : Services m) (log : LogLine → m Unit) (client : Client) (target : Target)
    (attempts : Nat) : m UInt8 := do
  let shown := ("target", target.render)
  log
    { severity := .info, message := "setting node clock",
      fields := [shown, ("method", client.method.name), ("timeout", client.timeout.render)] }
  let note (attempt : Nat) (last : Outcome) : m Unit := log
    { severity := .warn, message := "retrying",
      fields := [shown, ("attempt", Decimal.render attempt), ("outcome", last.message)] }
  let last ← retry (s.set client target) note (attempts - 1) 2 (← s.set client target)
  s.print last.message
  return last.exitStatus

/-- Reads a clock. -/
def performRead (s : Services m) (log : LogLine → m Unit) (client : Client) (target : Target) :
    m UInt8 := do
  log
    { severity := .info, message := "reading node clock", fields := [("target", target.render)] }
  match ← s.read client target with
  | .ok reading =>
    s.print reading.message
    return 0
  | .error e =>
    s.print ("clock not read: " ++ e.message)
    return e.exitStatus

/-- Carries out an invocation. A target that cannot be used is told before anything is logged. -/
def perform (s : Services m) (filter : LogFilter) : Invocation → m UInt8
  | .set node method format clock attempts =>
    match node.target with
    | .error e => do
      s.print ("clock not set: " ++ e.message)
      return badUsageStatus
    | .ok target =>
      performSet s log { timeout := node.timeout, method, format, clock } target attempts
  | .read node =>
    match node.target with
    | .error e => do
      s.print ("clock not read: " ++ e.message)
      return badUsageStatus
    | .ok target => performRead s log { timeout := node.timeout } target
  | .help t => do
    t.lines.forM s.print
    return 0
  | .version => do
    s.print (programName ++ " " ++ programVersion)
    return 0
  | .nothing => do
    Topic.program.lines.forM s.complain
    return badUsageStatus
where
  log (l : LogLine) : m Unit :=
    if filter.admits LogFilter.ownTarget l.fieldNames l.severity then s.log l.render else pure ()

/-- Whether there is a call to make, which needs a log. -/
def isCall : Invocation → Bool
  | .set .. | .read _ => true
  | .help _ | .version | .nothing => false

end Invocation

/-- The exit status of a program that breaks off because it has no log filter. -/
def brokenStatus : UInt8 := 101

/-- Carries out a command line, or tells why it cannot be used. Only a call needs the filter. -/
def perform {m : Type → Type} [Monad m] (s : Services m) (filter? : Option LogFilter)
    (env : Environment) (args : List String) : m UInt8 :=
  match Invocation.ofArguments env args with
  | .ok i =>
    match filter? with
    | some filter => i.perform s filter
    | none => if i.isCall then return brokenStatus else i.perform s []
  | .error e => do
    (e.lines ++ ["", "For more information, try '--help'."]).forM s.complain
    return badUsageStatus

end NodeClock.Cli
