import ImpHost.Cli.Verb

/-!
Help for the verbs of the command line: what a verb does, how it is used, and its flags in columns.
-/

namespace ImpHost.Cli

/-- What a flag takes, in help. -/
def FlagKind.placeholder : FlagKind → String
  | .text => " string"
  | .texts => " stringArray"
  | .int => " int"
  | .span => " duration"
  | .bool => ""

/-- The first column of a flag in help. -/
def Flag.synopsis (f : Flag) : String :=
  let letter := match f.short? with
    | some c => "  -" ++ String.singleton c ++ ", "
    | none => "      "
  letter ++ "--" ++ f.name ++ f.kind.placeholder

/-- A text with blanks after it, up to `width` characters. -/
def padRight (width : Nat) (s : String) : String :=
  s ++ String.ofList (List.replicate (width - s.length) ' ')

/-- The flags in columns, one a line, in the order of their names. -/
def FlagSet.synopsis (flags : FlagSet) : String :=
  let width := (flags.map fun f => f.synopsis.length).foldl max 0
  let sorted := flags.mergeSort fun a b => a.name ≤ b.name
  String.join (sorted.map fun f => padRight (width + 3) f.synopsis ++ f.about ++ "\n")

namespace Verb

/-- What a verb does, in a line. -/
def about : Verb → String
  | .whole => "IMP interpreter and execution service"
  | .run => "Run a program and print the final store"
  | .tokens => "Print the tokens of a program, one per line"
  | .fmt => "Print a program in canonical form"
  | .serve => "Serve the execution API, gRPC API and web UI"
  | .help => "Help about any command"
  | .completion => "Generate the autocompletion script for the specified shell"

/-- What a verb does, at length. -/
def story : Verb → String
  | .run =>
    "Run an IMP program and print the final store.\n\n"
      ++ "FILE is a .imp source file or a .yaml/.yml/.json manifest, or - to read\n"
      ++ "source from standard input. Variables given with --set are bound over the\n"
      ++ "manifest's store before the program starts."
  | .help =>
    "Help provides help for any command in the application.\n"
      ++ "Simply type imp help [path to command] for full details."
  | .completion =>
    "Generate the autocompletion script for imp for the specified shell.\n"
      ++ "See each sub-command's help for details on how to use the generated script."
  | v => v.about

/-- What follows the name of a verb; none for one that only has verbs below it. -/
def arguments? : Verb → Option String
  | .whole | .completion => none
  | .run | .tokens | .fmt => some " FILE [flags]"
  | .serve => some " [flags]"
  | .help => some " [command] [flags]"

/-- The names below a verb, with what they stand for. -/
def below : Verb → List (String × String)
  | .whole => all.map fun v => (v.name, v.about)
  | .completion =>
    ["bash", "fish", "powershell", "zsh"].map fun shell =>
      (shell, "Generate the autocompletion script for " ++ shell)
  | _ => []

/-- How a verb is used. The flags of its own are `flags`. -/
def usage (v : Verb) (flags : FlagSet) : String :=
  let manner := match v.arguments? with
    | some arguments => v.path ++ arguments
    | none => v.path ++ " [command]"
  let commands := if v.below.isEmpty then ""
    else "\nAvailable Commands:\n"
      ++ String.join (v.below.map fun (name, about) =>
        "  " ++ padRight 11 name ++ " " ++ about ++ "\n")
  let general := if v = .whole then ""
    else "\nGlobal Flags:\n" ++ FlagSet.synopsis [logLevel]
  let more := if v.below.isEmpty then ""
    else "\nUse \"" ++ v.path ++ " [command] --help\" for more information about a command.\n"
  "Usage:\n  " ++ manner ++ "\n" ++ commands ++ "\nFlags:\n" ++ flags.synopsis ++ general ++ more

/-- Help for a verb. -/
def helpText (v : Verb) : String :=
  v.story ++ "\n\n" ++ v.usage (if v = .whole then v.flags else v.helpFlag :: v.ownFlags)

end Verb

/-- A word between marks: backquotes if it has nothing in it that they could not show. -/
def quoteWord (word : String) : String :=
  let plain := word.toList.all fun c =>
    c != Char.ofNat 0x60 && c != '\uFEFF' && c.toNat != 0x7F && (c == '\t' || 0x20 ≤ c.toNat)
  if plain then "`" ++ word ++ "`" else Text.quoteString word

/-- What is said to someone who asks for help about words that are no verb. -/
def unknownTopic (topic : List String) : String :=
  "Unknown help topic [" ++ " ".intercalate (topic.map quoteWord) ++ "]\n"
    ++ Verb.whole.usage [Verb.logLevel]

/-- Help about what words name. -/
def helpAbout (topic : List String) : String :=
  match verbOf topic with
  | .ok (v, _) => v.helpText
  | .error _ => unknownTopic topic

end ImpHost.Cli
