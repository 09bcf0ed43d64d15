import ImpHost.Cli.Flag

/-!
The verbs of the command line with their flags, and how the verb of a command line is found:
`verbOf` takes the first argument that is neither a flag nor the value of one. A word that is no
verb gets the verbs close to it as suggestions.
-/

namespace ImpHost.Cli

/-- What a command line asks for. A command line without a verb is for the program as a whole. -/
inductive Verb where
  | whole
  | run
  | tokens
  | fmt
  | serve
  | help
  | completion
deriving DecidableEq

namespace Verb

/-- The name of a verb. -/
def name : Verb → String
  | .whole => "imp"
  | .run => "run"
  | .tokens => "tokens"
  | .fmt => "fmt"
  | .serve => "serve"
  | .help => "help"
  | .completion => "completion"

/-- The words that lead to a verb. -/
def path (v : Verb) : String :=
  if v = .whole then v.name else name .whole ++ " " ++ v.name

/-- The verbs in the order of their names. -/
def all : List Verb := [.completion, .fmt, .help, .run, .serve, .tokens]

/-- The verb with a name. -/
def ofName? (name : String) : Option Verb :=
  all.find? fun v => v.name == name

/-- The flag for the level of log lines, which all verbs take. -/
def logLevel : Flag :=
  ⟨"log-level", none, .text,
    "Log level: debug, info, warn, error (default info, env LOG_LEVEL)"⟩

/-- The flag that asks for help. -/
def helpFlag (v : Verb) : Flag :=
  ⟨"help", some 'h', .bool, "help for " ++ v.name⟩

/-- The flags of a verb, apart from those for help and for log lines. -/
def ownFlags : Verb → FlagSet
  | .whole => [⟨"version", some 'v', .bool, "version for imp"⟩]
  | .run =>
    [⟨"json", none, .bool, "Print the store as a JSON object"⟩,
      ⟨"max-steps", none, .int,
        "Step budget, 0 for unlimited (env IMP_MAX_STEPS) (default 1000000)"⟩,
      ⟨"set", none, .texts, "Bind a variable before running, as name=value (repeatable)"⟩,
      ⟨"timeout", none, .span, "Stop the program after this long (0 for no timeout)"⟩]
  | .fmt => [⟨"inline", none, .bool, "Print the program on a single line"⟩]
  | .serve =>
    [⟨"data", none, .text,
        "bbolt database file for persistent state; in memory if empty (env IMP_DATA)"⟩,
      ⟨"grpc-port", none, .int, "gRPC server port (default 8788, env GRPC_PORT)"⟩,
      ⟨"host", none, .text, "Bind address (default 0.0.0.0, env HOST)"⟩,
      ⟨"location", none, .text, "Location for API paths (default us-central1, env LOCATION)"⟩,
      ⟨"max-steps", none, .int,
        "Step budget per execution, 0 for unlimited (env IMP_MAX_STEPS) (default 1000000)"⟩,
      ⟨"port", none, .int, "HTTP server port (default 8787, env PORT)"⟩,
      ⟨"programs-dir", none, .text,
        "Directory of .imp/.yaml/.json programs to deploy at startup (env PROGRAMS_DIR)"⟩,
      ⟨"project", none, .text, "Project ID for API paths (default my-project, env PROJECT)"⟩]
  | .tokens | .help | .completion => []

/-- The flags that a verb takes. -/
def flags (v : Verb) : FlagSet :=
  v.helpFlag :: logLevel :: v.ownFlags

end Verb

/-! ## Suggestions -/

/-- A row of the table of distances after its first entry, for a text that ends in `b`: `left` is
the entry before, and the row of the text without `b` is `diagonal :: above`. -/
def extendRow (b : UInt8) (left diagonal : Nat) (name : List UInt8) (above : List Nat) : List Nat :=
  match name, above with
  | c :: name, up :: above =>
    let d := if b = c then diagonal else 1 + min left (min up diagonal)
    d :: extendRow b d up name above
  | _, _ => []

/-- The distances from a text to the fronts of `name`, where `row` has those of the text without its
last byte `b`. -/
def nextRow (name : List UInt8) (row : List Nat) (b : UInt8) : List Nat :=
  match row with
  | [] => []
  | diagonal :: above => (diagonal + 1) :: extendRow b (diagonal + 1) diagonal name above

/-- How many bytes are to be put in, left out or replaced to get from one text to the other. -/
def editDistance (s t : List UInt8) : Nat :=
  ((s.foldl (nextRow t) (List.range (t.length + 1))).getLast?).getD 0

/-- The bytes of a text in lower case. -/
def lowerBytes (s : String) : List UInt8 :=
  (String.ofList (s.toList.map Text.lowerChar)).toByteArray.data.toList

/-- Whether a verb is suggested for a word: the word is close to its name or begins it. -/
def isClose (word : String) (v : Verb) : Bool :=
  let typed := lowerBytes word
  let name := lowerBytes v.name
  editDistance typed name ≤ 2 || typed.isPrefixOf name

/-- The verbs to suggest for a word. -/
def suggestions (word : String) : List Verb :=
  [Verb.run, .tokens, .fmt, .serve, .completion].filter (isClose word)

/-! ## The verb of a command line -/

/-- Whether an argument is a flag whose value is the argument after it. Which flags there are is
known only with the verb, so that each flag without a value counts. -/
def takesNext (argument : String) : Bool :=
  !argument.contains '='
    && (argument.startsWith "--" || (argument.startsWith "-" && argument.utf8ByteSize == 2))

/-- The arguments that are neither flags nor values of flags. -/
def words : List String → List String
  | [] => []
  | argument :: rest =>
    if argument == "--" then []
    else if takesNext argument then
      match rest with
      | [] => []
      | _ :: rest => words rest
    else if argument == "" || argument.startsWith "-" then words rest
    else argument :: words rest

/-- The arguments without the first that is a word and equals `word`. -/
def without (word : String) : List String → List String
  | [] => []
  | argument :: rest =>
    if argument == "--" then argument :: rest
    else if takesNext argument then
      match rest with
      | [] => [argument]
      | value :: rest => argument :: value :: without word rest
    else if argument == word then rest
    else argument :: without word rest

/-- The verb of a command line with its arguments, or the word that is no verb. -/
def verbOf (arguments : List String) : Except String (Verb × List String) :=
  match words arguments with
  | [] => .ok (.whole, arguments)
  | word :: _ =>
    match Verb.ofName? word with
    | some v => .ok (v, without word arguments)
    | none => .error word

/-- The wording for a word that is no verb. -/
def unknownVerb (word : String) : String :=
  let close := suggestions word
  "unknown command " ++ Text.quoteString word ++ " for \"imp\""
    ++ (if close.isEmpty then ""
      else "\n\nDid you mean this?\n" ++ String.join (close.map fun v => "\t" ++ v.name ++ "\n"))

end ImpHost.Cli
