import JarFacts.Config.Load

/-!
# Command-line arguments

Options may stand anywhere among the arguments of a command.  An option with a value takes what is
attached to it or the next argument, which must not look like an option itself; behind two dashes
nothing is an option.  Nothing may be given twice, except that `--config` may stand in front of the
command and behind it, where the latter counts.

Arguments are read from the first to the last, up to one that is wrong or asks for help.
-/

namespace JarFacts.Command

/-! ## Single arguments -/

/-- What an option takes. -/
inductive OptionKind where
  | flag
  | value
  deriving DecidableEq

/-- An option: its name behind two dashes, and a letter behind one. -/
structure OptionForm where
  name : String
  letter : Option Char
  kind : OptionKind

/-- What stands next among the arguments. -/
inductive Token where
  | flag (name : String)
  | option (name value : String)
  | positional (text : String)
  deriving DecidableEq

/-- The option that asks for help is understood everywhere. -/
def helpForm : OptionForm := ⟨"help", some 'h', .flag⟩

/-- Does the argument look like an option?  A single dash does not. -/
def looksLikeOption : List Char → Bool
  | '-' :: _ :: _ => true
  | _ => false

/-- An option that takes a value, with what is attached to it. -/
def takeValue (name : String) (attached : Option (List Char)) (rest : List String) :
    Option (Token × List String) :=
  match attached, rest with
  | some value, _ => some (.option name (String.ofList value), rest)
  | none, value :: rest => if looksLikeOption value.toList then none
    else some (.option name value, rest)
  | none, [] => none

/-- An option that has been found, with what is attached to it. -/
def takeOption (form : OptionForm) (attached : Option (List Char)) (rest : List String) :
    Option (Token × List String) :=
  match form.kind, attached with
  | .value, _ => takeValue form.name attached rest
  | .flag, none => some (.flag form.name, rest)
  | .flag, some _ => none

/-- What stands next, for given options.  A letter may be followed by its value, with or without an
equals sign; the letter that asks for help may be followed by anything. -/
def token (forms : List OptionForm) (argument : String) (rest : List String) :
    Option (Token × List String) :=
  let forms := helpForm :: forms
  match argument.toList with
  | '-' :: '-' :: text =>
    let name := text.takeWhile (· ≠ '=')
    let attached := if name.length < text.length then some (text.drop (name.length + 1)) else none
    (forms.find? fun form => form.name.toList = name).bind fun form => takeOption form attached rest
  | '-' :: letter :: text =>
    (forms.find? fun form => form.letter = some letter).bind fun form =>
      match form.kind, text with
      | .flag, _ => some (.flag form.name, rest)
      | .value, [] => takeValue form.name none rest
      | .value, '=' :: value => takeValue form.name (some value) rest
      | .value, value => takeValue form.name (some value) rest
  | _ => some (.positional argument, rest)

/-! ## Commands -/

/-- The options of an extraction. -/
structure ExtractOptions where
  paths : List String
  output : Option String
  jobs : Option Nat
  includeMetaInf : Bool
  json : Bool
  deriving DecidableEq

/-- What is to be done. -/
inductive Request where
  | extract (configFile : Option String) (options : ExtractOptions)
  | printConfig
  | help
  deriving DecidableEq

/-- What has been given so far. -/
structure Given where
  configFile : Option String
  options : ExtractOptions
  deriving DecidableEq

/-- Nothing. -/
def Given.nothing : Given := ⟨none, ⟨[], none, none, false, false⟩⟩

/-- Is the option there already? -/
def Given.has (given : Given) (name : String) : Bool :=
  match name with
  | "config" => given.configFile.isSome
  | "output" => given.options.output.isSome
  | "jobs" => given.options.jobs.isSome
  | "include-meta-inf" => given.options.includeMetaInf
  | "json" => given.options.json
  | _ => false

/-- Adds what stands next.  Paths must not be empty. -/
def Given.add (given : Given) (next : Token) : Option Given :=
  let options := given.options
  match next with
  | .positional path =>
    if path = "" then none
    else some { given with options := { options with paths := options.paths ++ [path] } }
  | .flag name =>
    if given.has name then none
    else if name = "json" then some { given with options := { options with json := true } }
    else some { given with options := { options with includeMetaInf := true } }
  | .option name value =>
    if given.has name then none
    else if name = "jobs" then
      (Config.threads? value).map fun jobs =>
        { given with options := { options with jobs := some jobs } }
    else if value = "" then none
    else if name = "output" then some
      { given with options := { options with output := some value } }
    else some { given with configFile := some value }

/-- The option that names a configuration file. -/
def configForm : OptionForm := ⟨"config", none, .value⟩

/-- What may stand behind the name of a command. -/
structure CommandForm where
  options : List OptionForm
  takesPaths : Bool

/-- What may stand behind `extract`. -/
def extractForm : CommandForm where
  options := [configForm, ⟨"output", some 'o', .value⟩, ⟨"jobs", some 'j', .value⟩,
    ⟨"include-meta-inf", none, .flag⟩, ⟨"json", none, .flag⟩]
  takesPaths := true

/-- What may stand behind `config`. -/
def configCommandForm : CommandForm where
  options := [configForm]
  takesPaths := false

/-- May this stand behind the name of the command? -/
def CommandForm.allows (form : CommandForm) : Token → Bool
  | .positional _ => form.takesPaths
  | .flag _ | .option _ _ => true

/-- Adds what stands next behind the name of a command. -/
def CommandForm.add (form : CommandForm) (given : Given) (next : Token) : Option Given :=
  if form.allows next then given.add next else none

/-- What the arguments of a command say: `none` inside when they ask for help, nothing at all when
they are wrong. Each round takes an argument. -/
def collect (form : CommandForm) : Nat → List String → Given → Option (Option Given)
  | _, [], given => some (some given)
  | 0, _ :: _, _ => none
  | _ + 1, "--" :: rest, given =>
    (rest.foldlM (fun (given : Given) path => form.add given (.positional path)) given).map some
  | rounds + 1, argument :: rest, given =>
    match token form.options argument rest with
    | none => none
    | some (.flag "help", _) => some none
    | some (next, rest) =>
      match form.add given next with
      | some given => collect form rounds rest given
      | none => none

/-- Chooses the configuration file: behind the command before in front of it. -/
def chooseConfig (outer inner : Option String) : Option String :=
  inner <|> outer

/-- The request of a command with its arguments. -/
def request? (outer : Option String) (command : String) (arguments : List String) :
    Option Request :=
  match command with
  | "extract" =>
    match collect extractForm arguments.length arguments .nothing with
    | none => none
    | some none => some .help
    | some (some given) =>
      if given.options.paths.isEmpty then none
      else some (.extract (chooseConfig outer given.configFile) given.options)
  | "config" =>
    match collect configCommandForm arguments.length arguments .nothing with
    | none => none
    | some none => some .help
    | some (some _) => some .printConfig
  | "help" =>
    match arguments with
    | [] | ["extract"] | ["config"] | ["help"] => some .help
    | _ => none
  | _ => none

/-- The request that arguments make; nothing when they are wrong.  `outer` is the configuration file
named so far. Each round takes an argument. -/
def parseFrom (outer : Option String) : Nat → List String → Option Request
  | 0, _ => none
  | _ + 1, [] => none
  | rounds + 1, argument :: rest =>
    if argument = "--" then none
    else
      match token [configForm] argument rest with
      | none => none
      | some (.positional command, rest) => request? outer command rest
      | some (.flag _, _) => some .help
      | some (.option _ value, rest) =>
        if outer.isSome || value = "" then none else parseFrom (some value) rounds rest

/-- The request that arguments make; nothing when they are wrong. -/
def parse? (arguments : List String) : Option Request :=
  parseFrom none (arguments.length + 1) arguments

end JarFacts.Command
