import NodeClock.Cli.Options

/-!
# Command lines

A command line names a command and then, in any order, its options and the host. What it leaves
out may stand in the environment. The value of an option is judged when it is known to be
complete: at the next option or host, or at the end.

* `Invocation`: what the program is asked to do.
* `Invocation.ofArguments`: the invocation of a command line.
-/

namespace NodeClock.Cli

/-- The commands. -/
inductive Command where
  | set | read
  deriving DecidableEq, Repr

/-- What help is given on. -/
inductive Topic where
  | program | set | read | help
  deriving DecidableEq, Repr

/-- What a topic is about, in one line. -/
def Topic.about : Topic → String
  | program => "Set the real-time clock of CoAP sensor nodes"
  | set => "Write the current time to the node's clock resource"
  | read => "Read the node's clock and report its offset from the local clock"
  | help => "Print this message or the help of the given subcommand(s)"

/-- The node to talk to, and for how long at most. -/
structure Node where
  host : String
  port : Option UInt16
  path : String
  timeout : Span

/-- What the program is asked to do. -/
inductive Invocation where
  | set (node : Node) (method : SetMethod) (format : WireFormat) (clock : ClockSource)
      (attempts : Nat)
  | read (node : Node)
  | help (t : Topic)
  | version
  | nothing

/-- Why the options of a command are not read to their end. -/
inductive Stop where
  | failed (e : UsageError)
  | helpWanted

/-- What has been read of the arguments: the options, and the last of them if its value is
missing or has not been judged yet. -/
structure Reader where
  options : Options := {}
  pending : Option (Param × Option String) := none

namespace Reader

/-- Nothing is left to be judged. -/
def settle (r : Reader) : Except Stop Reader :=
  match r.pending with
  | none => .ok r
  | some (p, none) => .error (.failed (.valueMissing p))
  | some (p, some value) =>
    match r.options.put p value with
    | .error e => .error (.failed e)
    | .ok options => .ok { options }

/-- An argument that is neither an option nor the value of one. -/
def putHost (r : Reader) (arg : String) : Except Stop Reader :=
  match r.options.host with
  -- a value that waits to be judged is forgotten here
  | some _ => .error (.failed (.unexpectedArgument arg))
  | none => do
    let r ← r.settle
    return { r with options := { r.options with host := some arg } }

/-- An option `--name` or `--name=value`. -/
def putLong (c : Command) (r : Reader) (name : String) (value? : Option String) :
    Except Stop Reader := do
  let flagTakesNone : Except Stop Unit := match value? with
    | some value => .error (.failed (.unexpectedValue value ("--" ++ name)))
    | none => .ok ()
  match Param.all.find? fun p => p.name == name && (c == .set || !p.onlySets) with
  | some p =>
    let r ← r.settle
    match value? with
    | none => return { r with pending := some (p, none) }
    | some value => settle { r with pending := some (p, some value) }
  | none =>
    if name = "help" then
      flagTakesNone
      let _ ← r.settle
      throw .helpWanted
    else if name = "utc" ∧ c = .set then
      flagTakesNone
      let r ← r.settle
      if r.options.utc then throw (.failed (.repeated "--utc"))
      return { r with options := { r.options with utc := true } }
    else throw (.failed (.unexpectedArgument ("--" ++ name)))

/-- Letters behind one hyphen. There is only one such option, which asks for help. -/
def putShort (r : Reader) (letter : Char) : Except Stop Reader := do
  if letter = 'h' then
    let _ ← r.settle
    throw .helpWanted
  else throw (.failed (.unexpectedArgument (String.ofList ['-', letter])))

/-- An argument that may be an option. -/
def put (c : Command) (r : Reader) (arg : String) : Except Stop Reader :=
  match arg.toList with
  | '-' :: '-' :: rest =>
    match Text.cut '=' rest with
    | some (name, value) => r.putLong c (String.ofList name) (some (String.ofList value))
    | none => r.putLong c (String.ofList rest) none
  | '-' :: letter :: _ => r.putShort letter
  | _ =>
    match r.pending with
    | some (p, none) => .ok { r with pending := some (p, some arg) }
    | _ => r.putHost arg

/-- All arguments in order. Behind `--` there are no options any more. -/
def putAll (c : Command) (r : Reader) : List String → Except Stop Reader
  | [] => r.settle
  | "--" :: rest => do (← rest.foldlM putHost r).settle
  | arg :: rest => do putAll c (← r.put c arg) rest

end Reader

/-- The variables of the environment that stand in for arguments. -/
structure Environment where
  host : Option String := none
  port : Option String := none
  path : Option String := none
  timeout : Option String := none

/-- The options with the values of the environment for those that are missing. -/
def Options.orElse (o : Options) (env : Environment) : Except UsageError Options := do
  let o := { o with host := o.host <|> env.host }
  let o ← fill o .port env.port
  let o ← fill o .path env.path
  fill o .timeout env.timeout
where
  fill (o : Options) (p : Param) (value? : Option String) : Except UsageError Options :=
    match value? with
    | some value => if o.has p then .ok o else o.put p value
    | none => .ok o

namespace Invocation

/-- The timeout of a call that is not given one. -/
def defaultTimeout : Span := .ofMillis 10000

/-- The invocation of a command with its options. -/
def ofOptions (c : Command) (o : Options) : Except UsageError Invocation :=
  match o.host with
  | none => .error .hostMissing
  | some host =>
    let node : Node :=
      { host, port := o.port, path := o.path.getD Target.defaultPath,
        timeout := o.timeout.getD defaultTimeout }
    match c with
    | .read => .ok (.read node)
    | .set =>
      .ok (.set node (o.method.getD .put) (o.format.getD .query)
        (if o.utc then .utc else .localZone) (o.attempts.getD 1))

/-- The invocation of a command with its arguments. -/
def readCommand (c : Command) (env : Environment) (args : List String) :
    Except UsageError Invocation :=
  match Reader.putAll c {} args with
  | .error .helpWanted =>
    .ok (.help (match c with
      | .set => .set
      | .read => .read))
  | .error (.failed e) => .error e
  | .ok r =>
    match r.options.orElse env with
    | .error e => .error e
    | .ok o => ofOptions c o

/-- The topic that the arguments of `help` name. -/
def readTopic : List String → Except UsageError Topic
  | [] => .ok .program
  | name :: rest =>
    match topics.lookup name, rest with
    | some t, [] => .ok t
    | some _, other :: _ => .error (.unknownCommand other)
    | none, _ => .error (.unknownCommand name)
where
  topics : List (String × Topic) := [("set", .set), ("read", .read), ("help", .help)]

/-- An option that stands before any command. -/
def readLong (name : String) (value? : Option String) : Except UsageError Invocation :=
  match value?, name with
  | none, "help" => .ok (.help .program)
  | none, "version" => .ok .version
  | some value, "help" | some value, "version" => .error (.unexpectedValue value ("--" ++ name))
  | _, _ => .error (.unexpectedArgument ("--" ++ name))

/-- The invocation of a command line. -/
def ofArguments (env : Environment) : List String → Except UsageError Invocation
  | [] | ["--"] => .ok .nothing
  | "set" :: args => readCommand .set env args
  | "read" :: args => readCommand .read env args
  | "help" :: args => (readTopic args).map .help
  | "--" :: name :: _ =>
    .error (if name ∈ ["set", "read", "help"] then .unexpectedArgument name
      else .unknownCommand name)
  | arg :: _ =>
    match arg.toList with
    | '-' :: '-' :: rest =>
      match Text.cut '=' rest with
      | some (name, value) => readLong (String.ofList name) (some (String.ofList value))
      | none => readLong (String.ofList rest) none
    | '-' :: 'h' :: _ => .ok (.help .program)
    | '-' :: 'V' :: _ => .ok .version
    | '-' :: letter :: _ => .error (.unexpectedArgument (String.ofList ['-', letter]))
    | _ => .error (.unknownCommand arg)

end Invocation

end NodeClock.Cli
