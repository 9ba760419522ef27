import PatternSql.Conversion
import PatternSql.Text.Similar

/-!
# The command line

The program takes one statement and options, in any order; after a double hyphen everything is taken
as it stands. A long option may have its value behind an equals sign, and short options may share
one hyphen. All options are understood before anything else is looked at, and the first that is not
understood decides the answer.
-/

namespace PatternSql

/-- What the options and arguments ask for: the parameters of `main`. -/
structure Invocation where
  /-- The name of a dialect, if one is given. -/
  dialect : Option String := none
  /-- Whether lines are broken. -/
  pretty : Bool := false
  /-- Whether the help text is asked for. -/
  help : Bool := false
  /-- The arguments that are no options, in order. -/
  positional : List String := []
  deriving DecidableEq, Repr

/-- Why arguments are not understood. -/
inductive UsageError
  /-- There is no such option, but perhaps some like it. -/
  | unknownOption (option : String) (similar : List String)
  /-- The option is not followed by its value. -/
  | missingValue (option : String)
  /-- The option is given a value but takes none. -/
  | unexpectedValue (option : String)
  /-- There is no statement. -/
  | missingStatement
  /-- There is more than a statement. -/
  | extraArguments (arguments : List String)
  deriving DecidableEq, Repr

namespace UsageError

/-- What a misspelt option may have meant. -/
def suggestion : List String → String
  | [] => ""
  | [option] => " Did you mean " ++ Text.quoted option ++ "?"
  | options => " (Possible options: " ++ ", ".intercalate (options.map Text.quoted) ++ ")"

/-- The message of an error. -/
def message : UsageError → String
  | unknownOption option similar =>
    "No such option " ++ Text.quoted option ++ "." ++ suggestion similar
  | missingValue option => "Option " ++ Text.quoted option ++ " requires an argument."
  | unexpectedValue option => "Option " ++ Text.quoted option ++ " does not take a value."
  | missingStatement => "Missing argument 'QUERY'."
  | extraArguments arguments =>
    "Got unexpected extra argument" ++ (if arguments.length = 1 then "" else "s") ++ " (" ++
      " ".intercalate arguments ++ ")"

/-- Whether the usage is shown before the message. -/
def showsUsage : UsageError → Bool
  | missingValue _ => false
  | unexpectedValue _ => false
  | _ => true

end UsageError

/-! ## Options -/

/-- The long options. -/
def longOptions : List String := ["--dialect", "--pretty", "--verbose", "--help"]

/-- The part of an argument before an equals sign, and the value after it. -/
def splitValue (argument : String) : String × Option String :=
  let cs := argument.toList
  let option := String.ofList (cs.takeWhile (· != '='))
  match cs.dropWhile (· != '=') with
  | _ :: value => (option, some (String.ofList value))
  | [] => (option, none)

/-- Whether an argument is an option: a hyphen and more. -/
def isOption (argument : String) : Bool :=
  argument.toList.head? == some '-' && 1 < argument.length

/-- Adds an option that takes no value. The one for verbose output only adds log lines, which are left
    out of the answer. -/
def Invocation.switch (option : String) (i : Invocation) : Invocation :=
  match option with
  | "--pretty" => { i with pretty := true }
  | "--help" => { i with help := true }
  | _ => i

/-- The first of the short options behind one hyphen that is not understood. The only one that is
    asks for verbose output, so it leaves the answer without log lines as it is. -/
def unknownShort? (argument : String) : Option Char :=
  (argument.toList.drop 1).find? (· != 'v')

/-- The error for an option that does not exist. -/
def unknownLong (option : String) : UsageError :=
  .unknownOption option ((longOptions.filter (Text.isSimilar · option)).foldr insertText [])

/-- Takes in the arguments from left to right, as the options of `main` are declared. -/
def parseArguments (i : Invocation) : List String → Except UsageError Invocation
  | [] => .ok i
  | argument :: rest =>
    if argument == "--" then .ok { i with positional := i.positional ++ rest }
    else if !isOption argument then
      parseArguments { i with positional := i.positional ++ [argument] } rest
    else
      let (option, value) := splitValue argument
      if option == "--dialect" then
        match value, rest with
        | some name, rest => parseArguments { i with dialect := some name } rest
        | none, name :: rest => parseArguments { i with dialect := some name } rest
        | none, [] => .error (.missingValue option)
      else if longOptions.contains option then
        if value.isSome then .error (.unexpectedValue option)
        else parseArguments (i.switch option) rest
      else if argument.toList.take 2 == ['-', '-'] then .error (unknownLong option)
      else
        match unknownShort? argument with
        | some c => .error (.unknownOption (String.ofList ['-', c]) [])
        | none => parseArguments i rest

/-! ## Answers -/

/-- How the program is called. -/
def usage : String := "Usage: main [OPTIONS] QUERY\n"

/-- The help text. -/
def helpText : String :=
  usage ++ "\n  Translate a Cypher MATCH or CREATE statement into SQL\n\nOptions:\n" ++
    "  --dialect TEXT  sqlglot dialect for the generated SQL\n" ++
    "  --pretty        Pretty-print the generated SQL\n" ++
    "  -v, --verbose   Enable debug logging\n" ++
    "  --help          Show this message and exit.\n"

/-- What the program answers. Log lines are left out: the warnings before some refusals, and the lines
    that the option for verbose output adds. -/
structure Answer where
  /-- The exit code. -/
  exit : Nat
  /-- The text on the standard output. -/
  output : String := ""
  /-- The text on the standard error output, apart from log lines. -/
  errors : String := ""
  /-- The failure that is no error in the statement, if that is how the program ends. -/
  failure : Option Failure := none
  deriving DecidableEq, Repr

/-- The answer to arguments that are not understood. -/
def UsageError.answer (e : UsageError) : Answer where
  exit := 2
  errors :=
    (if e.showsUsage then usage ++ "Try 'main --help' for help.\n\n" else "") ++ "Error: " ++
      e.message ++ "\n"

/-- The configuration of an invocation: what the options leave open is taken from the settings, as
    in `main`. -/
def Invocation.config (settings : Settings) (i : Invocation) : Config :=
  let fromSettings := Config.ofSettings settings
  { fromSettings with
    dialect := (i.dialect.filter (!·.isEmpty)) <|> fromSettings.dialect
    pretty := i.pretty || fromSettings.pretty }

/-- The answer to a statement: `main` behind the options. The warning that is logged before some
    refusals is left out. -/
def answerStatement (config : Config) (text : String) : Answer :=
  match convert config text with
  | .ok command => { exit := 0, output := command ++ "\n" }
  | .error (.input e) => { exit := 1, errors := "Error: " ++ e.message ++ "\n" }
  | .error failure => { exit := 1, failure := some failure }

/-- The answer to arguments under settings. Model of `main`. -/
def answer (settings : Settings) (arguments : List String) : Answer :=
  match parseArguments {} arguments with
  | .error e => e.answer
  | .ok i =>
    if i.help then { exit := 0, output := helpText }
    else match i.positional with
      | [] => UsageError.missingStatement.answer
      | [text] => answerStatement (i.config settings) text
      | _ :: extra => (UsageError.extraArguments extra).answer

end PatternSql
