import LintReport.Check
import LintReport.Text.Basic
import LintReport.Text.Quoted

/-! # Command line arguments

Reading the words of a command line. An option may be written in full or by a
beginning that no other option has, and its value stands in the same word after an
equals sign or in the next word. A word that looks like an option cannot be a value
in a word of its own, unless it looks like a negative number or holds a blank. The
conventions differ from one release of the host's reader to another in what may be attached
to an option (`Release`). -/

namespace LintReport.CommandLine

open Text

/-- The releases of the reader of command lines, by what may be attached to an option. -/
inductive Release where
  /-- Two dashes after an equals sign leave the value empty, and only the letter of help
  may be attached to help. -/
  | early
  /-- Two dashes are a value like any other, and any letters may be attached to help. -/
  | late
  deriving DecidableEq, Repr

/-- The options of the program. -/
inductive OptionName where
  | help
  | input
  | file
  | workspace
  | tool
  | command
  deriving DecidableEq, Repr

/-- How the options are written. -/
def spellings : List (String × OptionName) :=
  [("-h", .help), ("--help", .help), ("--input", .input), ("--file", .file),
    ("--workspace", .workspace), ("--tool", .tool), ("--command", .command)]

/-- How a message names an option. -/
def OptionName.shown (name : OptionName) : String :=
  "/".intercalate ((spellings.filter fun spelling => spelling.2 = name).map Prod.fst)

/-- Why the words of a command line are not accepted. -/
inductive UsageError where
  /-- Help is asked for. -/
  | helpRequested
  /-- A word begins more than one option. -/
  | ambiguous (word : String) (spellings : List String)
  /-- An option has no value. -/
  | noValue (name : OptionName)
  /-- An option has a value that it does not take. -/
  | ignoredValue (name : OptionName) (value : String)
  /-- The value for the command is none of those that there are. -/
  | unknownCommand (value : String)
  /-- An option excludes one that came before. -/
  | excluded (name other : OptionName)
  /-- No target is given. -/
  | noTarget
  /-- Some words are not understood. -/
  | unrecognized (words : List String)
  deriving DecidableEq, Repr

/-- The sentence for an error. -/
def UsageError.message : UsageError → String
  | .helpRequested => ""
  | .ambiguous word spellings =>
      s!"ambiguous option: {word} could match " ++ ", ".intercalate spellings
  | .noValue name => s!"argument {name.shown}: expected one argument"
  | .ignoredValue name value =>
      s!"argument {name.shown}: ignored explicit argument {inQuotes value}"
  | .unknownCommand value =>
      s!"argument {OptionName.command.shown}: invalid choice: {inQuotes value} " ++
        "(choose from " ++ ", ".intercalate (runCommands.map inQuotes) ++ ")"
  | .excluded name other => s!"argument {name.shown}: not allowed with argument {other.shown}"
  | .noTarget =>
      s!"one of the arguments {OptionName.file.shown} {OptionName.workspace.shown} is required"
  | .unrecognized words => "unrecognized arguments: " ++ " ".intercalate words

/-- What stands behind an option in the same word: after an equals sign, or directly. -/
structure Attached where
  text : List Char
  directly : Bool := false
  deriving DecidableEq, Repr

/-- What a word of the command line is. -/
inductive Word where
  /-- A word that can be a value. -/
  | plain (text : String)
  /-- The two dashes after which no word is an option. -/
  | separator
  /-- A word that looks like an option and is none. -/
  | unknown (text : String)
  /-- An option by one of its spellings, with what stands behind it in the same word. -/
  | option (spelling : String) (name : OptionName) (attached : Option Attached)
  deriving DecidableEq, Repr

/-- Whether a word is a negative number, with or without a point; a line end after it
does not count. -/
def isNegativeNumber (word : List Char) : Bool :=
  match word with
  | '-' :: number =>
      let number := if number.getLast? = some '\n' then number.dropLast else number
      match number.takeWhile isDigit, number.dropWhile isDigit with
      | whole, [] => !whole.isEmpty
      | _, '.' :: fraction => !fraction.isEmpty && fraction.all isDigit
      | _, _ => false
  | _ => false

/-- The part of a word before its first equals sign, and what is attached after it. -/
def splitEquals (word : List Char) : List Char × Option Attached :=
  match word.dropWhile (· ≠ '=') with
  | '=' :: text => (word.takeWhile (· ≠ '='), some { text })
  | _ => (word, none)

/-- The options that a word may stand for when it is none of the spellings. After two
dashes it is a beginning of an option; after one dash it is an option of one letter with
a value attached. -/
def candidates (word : List Char) : List Word :=
  if ['-', '-'].isPrefixOf word then
    let (beginning, attached) := splitEquals word
    (spellings.filter fun spelling => beginning.isPrefixOf spelling.1.toList).map
      fun spelling => .option spelling.1 spelling.2 attached
  else
    (spellings.filter fun spelling => spelling.1.toList = word.take 2).map
      fun spelling => .option spelling.1 spelling.2 (some { text := word.drop 2, directly := true })

/-- What a word is when it stands before the two dashes. -/
def classify (word : String) : Except UsageError Word :=
  let text := word.toList
  if text.head? ≠ some '-' ∨ text.length = 1 then .ok (.plain word)
  else
    let (beginning, attached) := splitEquals text
    match spellings.lookup (String.ofList beginning) with
    | some name => .ok (.option (String.ofList beginning) name attached)
    | none =>
        match candidates text with
        | [found] => .ok found
        | [] =>
            .ok (if isNegativeNumber text || text.contains ' ' then .plain word else .unknown word)
        | several =>
            .error (.ambiguous word (several.filterMap fun candidate =>
              match candidate with
              | .option spelling _ _ => some spelling
              | _ => none))

/-- What the words of a command line are. -/
def classifyAll : List String → Except UsageError (List Word)
  | [] => .ok []
  | word :: words =>
      if word = "--" then .ok (.separator :: words.map .plain)
      else match classify word with
        | .error error => .error error
        | .ok first =>
            match classifyAll words with
            | .error error => .error error
            | .ok others => .ok (first :: others)

/-- What the program is to do. -/
structure Arguments where
  input : Option Label := none
  file : Option Label := none
  workspace : Option Label := none
  tool : Label := .given "mago"
  command : Label := .given "lint"
  deriving DecidableEq, Repr

/-- Whether a value may be given for the command: one of the commands that there are, or
one that was left empty, which is not looked up. -/
def isCommand : Label → Bool
  | .given text => runCommands.contains text
  | .empty => true

/-- Sets the value of an option. The two options for the target exclude each other. -/
def Arguments.set (arguments : Arguments) (name : OptionName) (value : Label) :
    Except UsageError Arguments :=
  match name with
  | .help => .error (.ignoredValue .help value.shown)
  | .input => .ok { arguments with input := some value }
  | .file =>
      if arguments.workspace.isSome then .error (.excluded .file .workspace)
      else .ok { arguments with file := some value }
  | .workspace =>
      if arguments.file.isSome then .error (.excluded .workspace .file)
      else .ok { arguments with workspace := some value }
  | .tool => .ok { arguments with tool := value }
  | .command =>
      if isCommand value then .ok { arguments with command := value }
      else .error (.unknownCommand value.shown)

/-- What comes of text behind the short spelling of help, which early releases let be
repeated in one word and nothing else. -/
def repeatedHelp : List Char → UsageError
  | ['h'] => .helpRequested
  | 'h' :: rest => repeatedHelp rest
  | text => .ignoredValue .help (String.ofList text)

/-- What comes of text directly behind the short spelling of help, which late releases let
be followed by any letters, until an equals sign or a dash. -/
def letteredHelp : List Char → UsageError
  | ['h'] => .helpRequested
  | 'h' :: '=' :: text => .ignoredValue .help (String.ofList text)
  | 'h' :: rest => letteredHelp rest
  | [] => .ignoredValue .help ""
  | '-' :: rest => .ignoredValue .help (String.ofList ('-' :: rest))
  | _ => .helpRequested

/-- What comes of asking for help. -/
def help (release : Release) (spelling : String) : Option Attached → UsageError
  | none => .helpRequested
  | some attached =>
      if spelling ≠ "-h" then .ignoredValue .help (String.ofList attached.text)
      else match release with
        | .early => repeatedHelp attached.text
        | .late =>
            if attached.directly then letteredHelp attached.text
            else .ignoredValue .help (String.ofList attached.text)

/-- The value that attached text gives to an option. -/
def attachedValue (release : Release) (text : List Char) : Label :=
  if release = .early ∧ text = ['-', '-'] then .empty else .given (String.ofList text)

/-- Takes the words one after another, and keeps those that are not understood. -/
def take (release : Release) (arguments : Arguments) (kept : List String) :
    List Word → Except UsageError (Arguments × List String)
  | [] => .ok (arguments, kept)
  | .plain text :: words => take release arguments (kept ++ [text]) words
  | .separator :: words => take release arguments (kept ++ ["--"]) words
  | .unknown text :: words => take release arguments (kept ++ [text]) words
  | .option spelling .help attached :: _ => .error (help release spelling attached)
  | .option _ name (some attached) :: words =>
      match arguments.set name (attachedValue release attached.text) with
      | .error error => .error error
      | .ok arguments => take release arguments kept words
  | .option _ name none :: .plain value :: words =>
      match arguments.set name (.given value) with
      | .error error => .error error
      | .ok arguments => take release arguments kept words
  | .option _ name none :: _ => .error (.noValue name)

/-- Reads the words of a command line. -/
def parse (release : Release) (words : List String) : Except UsageError Arguments :=
  match classifyAll words with
  | .error error => .error error
  | .ok words =>
      match take release {} [] words with
      | .error error => .error error
      | .ok (arguments, kept) =>
          if arguments.file.isNone ∧ arguments.workspace.isNone then .error .noTarget
          else if kept ≠ [] then .error (.unrecognized kept)
          else .ok arguments

end LintReport.CommandLine
