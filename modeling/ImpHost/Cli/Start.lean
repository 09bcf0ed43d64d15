import ImpHost.Cli.Help
import ImpHost.Cli.Job
import ImpHost.Manifest.File
import ImpHost.Program.Printer

/-!
What a command line comes to. `start` reads a command line in an environment; the answer is output,
a job to drive, or a server to run.
-/

namespace ImpHost.Cli

/-- What a command line finds around it. -/
structure Environment where
  /-- The value of a variable, which is empty for one that is not set. -/
  lookup : String → String
  files : Files
  /-- The standard input. -/
  input : Text

namespace Environment

/-- The value of a variable; `preset` if that is empty. -/
def lookupOr (env : Environment) (name preset : String) : String :=
  let v := env.lookup name
  if v = "" then preset else v

/-- The standard input, as far as it is read: a byte beyond the size of a program. -/
def source (env : Environment) : Text :=
  ⟨env.input.bytes.extract 0 (maxSourceSize + 1)⟩

end Environment

/-! ## Values of flags -/

/-- The value of a text flag; that of a variable if it is empty. -/
def textOr (given : Given) (flag : String) (otherwise : String) : String :=
  let v := given.text flag
  if v = "" then otherwise else v

/-- The level of log lines. -/
def logLevelOf (env : Environment) (given : Given) : Except Problem LogLevel :=
  let name := textOr given "log-level" (env.lookupOr "LOG_LEVEL" "info")
  match LogLevel.ofName? name with
  | some level => .ok level
  | none =>
    .error (.plain ("invalid log level " ++ Text.quoteString name ++ ": not a valid logrus Level: "
      ++ Text.quoteString name))

/-- The step budget. -/
def budgetOf (env : Environment) (given : Given) : Except Problem Int :=
  match given.int? "max-steps" with
  | some n => .ok n
  | none =>
    let v := env.lookup "IMP_MAX_STEPS"
    if v = "" then .ok Engine.defaultBudget
    else
      (readDecimal v).mapError fun why =>
        .plain ("invalid IMP_MAX_STEPS " ++ Text.quoteString v ++ ": strconv.Atoi: parsing "
          ++ Text.quoteString v ++ ": " ++ why.text)

/-- A text whose line breaks are single characters. -/
def plainLines : List Char → List Char
  | '\r' :: '\n' :: cs => '\n' :: plainLines cs
  | c :: cs => c :: plainLines cs
  | [] => []

/-- The bindings of a command line. A single empty one is none. -/
def bindingTexts (given : Given) : List String :=
  match given.texts "set" with
  | [""] => []
  | texts => texts.map fun t => String.ofList (plainLines t.toList)

/-- Whether a text is one variable of the language. -/
def isVariable (name : String) : Bool :=
  match Token.lex name.toList with
  | .ok [t] => t.kind = .var
  | _ => false

/-- The variable and the value of a binding, as in `name=value`. -/
def readBinding (binding : String) : Except Problem (String × Value) := do
  let what := "invalid --set " ++ Text.quoteString binding
  let cs := binding.toList
  let name := String.ofList (trimSpace (cs.takeWhile (· != '=')))
  match cs.dropWhile (· != '=') with
  | [] => .error (.plain (what ++ ": expected name=value"))
  | _ :: value =>
    if name = "" then .error (.plain (what ++ ": expected name=value"))
    else if !isVariable name then
      .error (.plain (what ++ ": " ++ Text.quoteString name ++ " is not a variable name"))
    else
      let v ← (Value.ofYaml (String.ofList value)).mapError (Problem.whileDoing what)
      return (name, v)

/-- Binds the variables of a command line. -/
def bindAll (m : Memory) (bindings : List String) : Except Problem Memory :=
  bindings.foldlM (fun m binding => do
    let (x, v) ← readBinding binding
    return m.set x v) m

/-! ## Programs -/

/-- The path that stands for the standard input. -/
def inputPath : String := "-"

/-- The program at a path. -/
def programAt (env : Environment) (path : String) : Except Problem Manifest :=
  if path = inputPath then (Manifest.ofText "stdin" env.source).mapError SourceError.problem
  else (Manifest.load env.files path).mapError Manifest.LoadError.problem

/-- The source at a path, which need not be a program unless it is in a manifest. -/
def sourceAt (env : Environment) (path : String) : Except Problem Text :=
  if path = inputPath then
    if Manifest.isManifest env.source then
      ((Manifest.ofYaml env.source).map Manifest.source).mapError ManifestError.problem
    else .ok env.source
  else if Manifest.isSourceFile path then
    (env.files.read path).mapError fun why =>
      (Manifest.LoadError.unreadable path why).problem
  else ((Manifest.load env.files path).map Manifest.source).mapError Manifest.LoadError.problem

/-! ## Serving -/

/-- How the server is to run. -/
structure Settings where
  address : String
  rpcAddress : String
  project : String
  location : String
  /-- The directory of programs to deploy; empty for none. -/
  programs : String
  /-- The file of the database; empty for none. -/
  data : String
  budget : Int

/-- Why the file of a database cannot be opened. -/
def dataFault? (files : Files) (path : String) : Option String :=
  let unopened (why : FileError) := some ("open " ++ path ++ ": " ++ why.text)
  match files path with
  | .ok .directory => unopened .isDirectory
  | .ok (.file contents) => if contents.isEmpty then none else some "invalid database"
  | .error .missing =>
    match Path.parent? path with
    | none => none
    | some outer =>
      match files outer with
      | .error why => unopened why
      | .ok _ => if path.endsWith "/" then unopened .isDirectory else none
  | .error why => unopened why

/-- The settings that a command line gives. -/
def settingsOf (env : Environment) (given : Given) : Except Problem Settings := do
  let socket (flag key preset : String) : String :=
    match given.int? flag with
    | none | some 0 => env.lookupOr key preset
    | some n => toString n
  let text (flag key preset : String) : String :=
    textOr given flag (env.lookupOr key preset)
  let host := text "host" "HOST" "0.0.0.0"
  let data := text "data" "IMP_DATA" ""
  let budget ← budgetOf env given
  match if data = "" then none else dataFault? env.files data with
  | some why => .error (.plain ("opening store " ++ data ++ ": " ++ why))
  | none => .ok ()
  return {
    address := host ++ ":" ++ socket "port" "PORT" "8787"
    rpcAddress := host ++ ":" ++ socket "grpc-port" "GRPC_PORT" "8788"
    project := text "project" "PROJECT" "my-project"
    location := text "location" "LOCATION" "us-central1"
    programs := text "programs-dir" "PROGRAMS_DIR" ""
    data, budget }

/-! ## Command lines -/

/-- What a command line comes to. -/
inductive Start where
  | done (output : Output)
  | running (job : Job)
  | serving (settings : Settings)

/-- The version of the program. -/
def version : String := "dev (commit=unknown, built=unknown)"

/-- Why a verb does not take its arguments. -/
def arityFault? (v : Verb) (arguments : List String) : Option String :=
  match v, arguments with
  | .run, [_] | .tokens, [_] | .fmt, [_] => none
  | .run, l | .tokens, l | .fmt, l => some ("accepts 1 arg(s), received " ++ toString l.length)
  | .serve, argument :: _ =>
    some ("unknown command " ++ Text.quoteString argument ++ " for " ++ Text.quoteString v.path)
  | _, _ => none

/-- The job of running the program at a path. -/
def jobFor (env : Environment) (given : Given) (level : LogLevel) (path : String) :
    Except Problem Job := do
  let m ← programAt env path
  let store ← bindAll m.store (bindingTexts given)
  let budget ← budgetOf env given
  return {
    name := m.name
    engine := (Engine.new m.program budget).begin store
    timeout := given.span "timeout"
    json := given.isSet "json"
    level }

/-- The tokens at a path, one a line with its position. -/
def tokenLines (env : Environment) (path : String) : Except Problem String := do
  let source ← sourceAt env path
  let tokens ← (Token.lex source.chars).mapError fun e => Problem.ofDiagnostic e.report
  return String.join (tokens.map fun t => toString t.pos ++ "\t" ++ t.label ++ "\n")

/-- The program at a path in canonical form, on one line or on as many as it has parts. -/
def formatted (env : Environment) (inline : Bool) (path : String) : Except Problem String := do
  let m ← programAt env path
  return if inline then m.program.format ++ "\n" else m.program.formatIndent

/-- Does what a verb asks for, at a level of log lines. -/
def perform (env : Environment) (v : Verb) (given : Given) (level : LogLevel) :
    Except Problem Start :=
  match v, given.arguments with
  | .run, path :: _ => (jobFor env given level path).map .running
  | .tokens, path :: _ => (tokenLines env path).map fun out => .done (.written out)
  | .fmt, path :: _ =>
    (formatted env (given.isSet "inline") path).map fun out => .done (.written out)
  | .serve, _ => (settingsOf env given).map .serving
  | .help, topic => .ok (.done (.written (helpAbout topic)))
  | v, _ => .ok (.done (.written v.helpText))

/-- What a verb with its flags and arguments comes to. -/
def startVerb (env : Environment) (v : Verb) (given : Given) : Except Problem Start :=
  if given.isSet "help" then .ok (.done (.written v.helpText))
  else if given.isSet "version" then .ok (.done (.written ("imp version " ++ version ++ "\n")))
  else if v = .whole || v = .completion then .ok (.done (.written v.helpText))
  else
    match arityFault? v given.arguments with
    | some why => .error (.plain why)
    | none => do
      let level ← logLevelOf env given
      perform env v given level

/-- What a command line comes to in an environment. -/
def start (env : Environment) (arguments : List String) : Start :=
  match verbOf arguments with
  | .error word =>
    let p := Problem.plain (unknownVerb word)
    .done { Output.failed p with
      err := (Output.failed p).err ++ "Run 'imp --help' for usage.\n" }
  | .ok (v, arguments) =>
    match v.flags.parse arguments with
    | .error why => .done (.failed (.plain why.text))
    | .ok given =>
      match startVerb env v given with
      | .ok s => s
      | .error p => .done (.failed p)

end ImpHost.Cli
