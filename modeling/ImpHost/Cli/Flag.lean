import ImpHost.Cli.Reading

/-!
Flags of a command line, as in `--name value`, `--name=value` and `-n`. Flags and other arguments
may stand in any order, and `--` ends the flags. `FlagSet.parse` checks each value where it is
given, so the first fault counts.
-/

namespace ImpHost.Cli

/-- What a flag takes. -/
inductive FlagKind where
  | text
  /-- A text, each time it is given. -/
  | texts
  | int
  | span
  /-- A truth value, which is true if it is left out. -/
  | bool
deriving DecidableEq

/-- A flag. -/
structure Flag where
  name : String
  short? : Option Char
  kind : FlagKind
  about : String

/-- Why a value does not fit a flag. -/
inductive ValueFault where
  | int (value : String) (why : NumberFault)
  | span (value : String) (why : SpanFault)
  | bool (value : String)
deriving DecidableEq

/-- The wording of a fault. -/
def ValueFault.text : ValueFault → String
  | .int value why =>
    "strconv.ParseInt: parsing " ++ Text.quoteString value ++ ": " ++ why.text
  | .span value why => why.text value
  | .bool value =>
    "strconv.ParseBool: parsing " ++ Text.quoteString value ++ ": " ++ NumberFault.malformed.text

/-- Why the flags of a command line cannot be taken. -/
inductive FlagError where
  | malformed (argument : String)
  | unknown (name : String)
  | unknownShort (letter : Char) (letters : String)
  | needsValue (name : String)
  | needsValueShort (letter : Char) (letters : String)
  | invalid (flag : Flag) (value : String) (why : ValueFault)

namespace Flag

/-- The flag in messages. -/
def shown (f : Flag) : String :=
  match f.short? with
  | some c => "-" ++ String.singleton c ++ ", --" ++ f.name
  | none => "--" ++ f.name

/-- Why a value does not fit the flag. -/
def fault? (f : Flag) (value : String) : Option ValueFault :=
  match f.kind with
  | .text | .texts => none
  | .int =>
    match readInt value with
    | .ok _ => none
    | .error why => some (.int value why)
  | .span =>
    match readSpan value with
    | .ok _ => none
    | .error why => some (.span value why)
  | .bool => if (readBool? value).isSome then none else some (.bool value)

/-- The value of a flag that is given without one. -/
def implied? (f : Flag) : Option String :=
  if f.kind = .bool then some "true" else none

end Flag

/-- The wording of an error. -/
def FlagError.text : FlagError → String
  | .malformed argument => "bad flag syntax: " ++ argument
  | .unknown name => "unknown flag: --" ++ name
  | .unknownShort letter letters =>
    "unknown shorthand flag: " ++ Text.quoteChar letter ++ " in -" ++ letters
  | .needsValue name => "flag needs an argument: --" ++ name
  | .needsValueShort letter letters =>
    "flag needs an argument: " ++ Text.quoteChar letter ++ " in -" ++ letters
  | .invalid flag value why =>
    "invalid argument " ++ Text.quoteString value ++ " for " ++ Text.quoteString flag.shown
      ++ " flag: " ++ why.text

/-- What a command line gives: the values of flags in order, and the other arguments. -/
structure Given where
  values : List (String × String)
  arguments : List String

namespace Given

/-- The command line that gives nothing. -/
def none : Given := ⟨[], []⟩

/-- The last value of a flag. -/
def value? (g : Given) (name : String) : Option String :=
  (g.values.reverse.find? fun v => v.1 == name).map Prod.snd

/-- The text of a flag; empty if it is not given. -/
def text (g : Given) (name : String) : String :=
  (g.value? name).getD ""

/-- All values of a flag. -/
def texts (g : Given) (name : String) : List String :=
  (g.values.filter fun v => v.1 == name).map Prod.snd

/-- The truth value of a flag; false if it is not given. -/
def isSet (g : Given) (name : String) : Bool :=
  ((g.value? name).bind readBool?).getD false

/-- The integer of a flag that is given. -/
def int? (g : Given) (name : String) : Option Int :=
  (g.value? name).map fun v =>
    match readInt v with
    | .ok n => n
    | .error _ => 0

/-- The span of a flag; none if it is not given. -/
def span (g : Given) (name : String) : Span :=
  match (g.value? name).map readSpan with
  | some (.ok d) => d
  | _ => ⟨0⟩

end Given

/-- The flags that a command takes. -/
abbrev FlagSet := List Flag

namespace FlagSet

/-- The flag with a name. -/
def named? (flags : FlagSet) (name : String) : Option Flag :=
  flags.find? fun f => f.name == name

/-- The flag with a letter. -/
def lettered? (flags : FlagSet) (c : Char) : Option Flag :=
  flags.find? fun f => f.short? == some c

/-- Gives a flag a value. -/
def give (f : Flag) (value : String) (g : Given) : Except FlagError Given :=
  match f.fault? value with
  | some why => .error (.invalid f value why)
  | none => .ok { g with values := g.values ++ [(f.name, value)] }

/-- The first byte of a character, as a character. -/
def firstByte (c : Char) : Char :=
  Char.ofNat (((String.singleton c).toByteArray.data.toList.head?).getD 0).toNat

/-- Takes a cluster of letters, with `next?` as the argument after it. Returns whether that argument
was taken. Letters that start with `test.` are passed over. -/
def takeLetters (flags : FlagSet) (next? : Option String) (g : Given) :
    List Char → Except FlagError (Given × Bool)
  | [] => .ok (g, false)
  | c :: cs =>
    let letters := String.ofList (c :: cs)
    if letters.startsWith "test." then .ok (g, false)
    else
      match flags.lettered? c with
      | none => .error (.unknownShort (firstByte c) letters)
      | some f =>
        match cs, f.implied?, next? with
        | '=' :: d :: value, _, _ =>
          (give f (String.ofList (d :: value)) g).map fun g => (g, false)
        | cs, some value, _ => do
          let g ← give f value g
          takeLetters flags next? g cs
        | d :: value, none, _ =>
          (give f (String.ofList (d :: value)) g).map fun g => (g, false)
        | [], none, some value => (give f value g).map fun g => (g, true)
        | [], none, none => .error (.needsValueShort c letters)

/-- Takes a flag by its name, with `next?` as the argument after it. Returns whether that argument
was taken. -/
def takeNamed (flags : FlagSet) (next? : Option String) (g : Given) (argument : String) :
    Except FlagError (Given × Bool) :=
  let body := argument.toList.drop 2
  if body.head? == some '-' || body.head? == some '=' then .error (.malformed argument)
  else
    let name := String.ofList (body.takeWhile (· != '='))
    match flags.named? name with
    | none => .error (.unknown name)
    | some f =>
      match body.dropWhile (· != '='), f.implied?, next? with
      | _ :: value, _, _ => (give f (String.ofList value) g).map fun g => (g, false)
      | [], some value, _ => (give f value g).map fun g => (g, false)
      | [], none, some value => (give f value g).map fun g => (g, true)
      | [], none, none => .error (.needsValue name)

/-- Takes the arguments of a command line, after those that give `g`. -/
def parseFrom (flags : FlagSet) (g : Given) : List String → Except FlagError Given
  | [] => .ok g
  | argument :: rest =>
    if !argument.startsWith "-" || argument == "-" then
      parseFrom flags { g with arguments := g.arguments ++ [argument] } rest
    else if argument == "--" then .ok { g with arguments := g.arguments ++ rest }
    else
      let taken := if argument.startsWith "--" then takeNamed flags rest.head? g argument
        else takeLetters flags rest.head? g (argument.toList.drop 1)
      match taken with
      | .error why => .error why
      | .ok (g, false) => parseFrom flags g rest
      | .ok (g, true) => parseFrom flags g rest.tail
termination_by arguments => arguments.length
decreasing_by
  all_goals simp only [List.length_cons, List.length_tail]; omega

/-- What a command line gives. -/
def parse (flags : FlagSet) (arguments : List String) : Except FlagError Given :=
  parseFrom flags .none arguments

end FlagSet

end ImpHost.Cli
