import LintReport.Text.Quoted
import LintReport.Keyed

/-! # Log levels

How urgent a log record is, and the level that a setting names (`Level.ofSetting`). -/

namespace LintReport.Log

/-- How urgent a record is; a larger level is more urgent. -/
abbrev Level := Int

namespace Level

/-- The level of what only helps to find mistakes. -/
def debug : Level := 10

/-- The level of what happens as it should. -/
def info : Level := 20

/-- The level of what may need a look. -/
def warning : Level := 30

/-- The levels that have a name, under the name that records show. -/
def named : List (Level × String) :=
  [(0, "NOTSET"), (debug, "DEBUG"), (info, "INFO"), (warning, "WARNING"), (40, "ERROR"),
    (50, "CRITICAL")]

/-- The name of a level. -/
def name (level : Level) : String :=
  (named.lookup level).getD s!"Level {level}"

/-- The levels that the settings may name. -/
def bySetting : Keyed Level :=
  [("CRITICAL", 50), ("FATAL", 50), ("ERROR", 40), ("WARNING", warning), ("WARN", warning),
    ("INFO", info), ("DEBUG", debug), ("NOTSET", 0)]

/-- The capital letters of ASCII that a letter has; the dotless `i`, the long `s` and the
two joined spellings of `st` have some too. -/
def capitals (char : Char) : List Char :=
  if char = '\u0131' then ['I']
  else if char = '\u017F' then ['S']
  else if char = '\uFB05' ∨ char = '\uFB06' then ['S', 'T']
  else [char.toUpper]

/-- A way to write the form of a record: the character that marks its places, the name
of the style, and its standard form. -/
structure Style where
  mark : Char
  name : String
  form : String
  deriving DecidableEq, Repr

/-- The ways to write the form of a record. -/
def styles : List Style :=
  [⟨'%', "PercentStyle", "%(levelname)s:%(name)s:%(message)s"⟩,
    ⟨'\x7b', "StrFormatStyle", "\x7blevelname\x7d:\x7bname\x7d:\x7bmessage\x7d"⟩,
    ⟨'$', "StringTemplateStyle", "$\x7blevelname\x7d:$\x7bname\x7d:$\x7bmessage\x7d"⟩]

/-- Why a setting names no level although its word has a meaning in the log. -/
inductive NotALevel where
  /-- The word stands for the form of a record. -/
  | form (form : String)
  /-- The word stands for all styles together. -/
  | styles
  deriving DecidableEq, Repr

/-- The words among the names of levels that stand for something else. -/
def otherWords : Keyed NotALevel :=
  [("BASIC_FORMAT", .form "%(levelname)s:%(name)s:%(message)s"), ("_STYLES", .styles)]

/-- A style as a message shows it. -/
def Style.shown (style : Style) : String :=
  let mark := Text.inQuotes (String.singleton style.mark)
  s!"{mark}: (<class 'logging.{style.name}'>, {Text.inQuotes style.form})"

/-- The sentence for a setting that names no level. -/
def NotALevel.message : NotALevel → String
  | .form text => "Unknown level: " ++ Text.inQuotes text
  | .styles =>
      "Level not an integer or a valid string: \x7b" ++
        ", ".intercalate (Level.styles.map Style.shown) ++ "\x7d"

/-- The level that a setting names in any case; `info` when there is no setting or it
names nothing. -/
def ofSetting (setting : Option String) : Except NotALevel Level :=
  let word := String.ofList ((setting.getD "INFO").toList.flatMap capitals)
  match otherWords.get? word with
  | some problem => .error problem
  | none => .ok ((bySetting.get? word).getD info)

end Level

/-- The name that a logger shows; the root has no name of its own. -/
def shownName (logger : String) : String :=
  if logger = "" then "root" else logger

end LintReport.Log
