import LintReport.Json.Literal
import LintReport.Text.Basic

/-! # Reading JSON texts

A reader takes a value off the start of a text and leaves the rest, which is always
shorter (`Reader.consumes`); loops over the items of a container end for that
reason. Containers nest at most `maxDepth` deep: the reader for one depth is built
from the reader for the depth below (`valueReader`), so nothing else bounds the
recursion. Beyond the plain format, the words for not-a-number and the infinities are
read as floating-point numbers. -/

namespace LintReport.Json

/-- Takes a result off the start of a text and leaves a shorter text. -/
structure Reader (Result : Type) where
  read : List Char → Except Fault (Result × List Char)
  consumes : ∀ {text : List Char} {result : Result} {rest : List Char},
    read text = .ok (result, rest) → rest.length < text.length

/-- The four characters that may stand between the tokens of a text. -/
def isSpace (char : Char) : Bool :=
  char == ' ' || char == '\t' || char == '\n' || char == '\r'

/-- The text without the space it starts with. -/
def skipSpace (text : List Char) : List Char :=
  text.dropWhile isSpace

theorem length_skipSpace_le (text : List Char) : (skipSpace text).length ≤ text.length :=
  (List.dropWhile_suffix _).length_le

/-- The words that denote a value by themselves. -/
def keywords : List (List Char × Value) :=
  [("null".toList, .null), ("true".toList, .bool true), ("false".toList, .bool false),
    ("NaN".toList, .float .nan), ("Infinity".toList, .float (.infinite false)),
    ("-Infinity".toList, .float (.infinite true))]

/-- The value of the word that a text starts with, and the rest. -/
def readKeyword? (text : List Char) : Option (Value × List Char) :=
  keywords.findSome? fun keyword => (Text.after? keyword.1 text).map fun rest => (keyword.2, rest)

/-- The number that a text starts with. -/
def readNumber (text : List Char) : Except Fault (Value × List Char) :=
  match NumberLiteral.read? text with
  | none => .error (.misread .noValue text)
  | some (literal, rest) =>
      match literal.value with
      | .ok value => .ok (value, rest)
      | .error fault => .error fault

/-- The name that opens an entry of an object, with its colon. -/
def readName (text : List Char) : Except Fault (String × List Char) :=
  match text with
  | '"' :: body =>
      match StringLiteral.read text body with
      | .error fault => .error fault
      | .ok (name, rest) =>
          match skipSpace rest with
          | ':' :: rest => .ok (name, skipSpace rest)
          | rest => .error (.misread .noColon rest)
  | _ => .error (.misread .noName text)

theorem length_lt_of_readName {text rest : List Char} {name : String}
    (success : readName text = .ok (name, rest)) : rest.length < text.length := by
  unfold readName at success
  split at success
  · next body =>
      split at success
      · simp at success
      · next middle read =>
          have shorter := StringLiteral.length_lt_of_read read
          have spaced := length_skipSpace_le middle
          split at success
          · next after colon =>
              have spacedAfter := length_skipSpace_le after
              simp only [Except.ok.injEq, Prod.mk.injEq] at success
              rw [colon] at spaced
              simp only [List.length_cons] at spaced ⊢
              rw [← success.2]
              omega
          · simp at success
  · simp at success

/-- Skipping a separator and the space around it leaves a shorter text. -/
theorem length_lt_of_separator {rest after : List Char} {mark : Char}
    (separated : skipSpace rest = mark :: after) : (skipSpace after).length < rest.length := by
  have before := length_skipSpace_le rest
  have behind := length_skipSpace_le after
  rw [separated] at before
  simp only [List.length_cons] at before
  omega

/-- The items of an array from its first item on, to after the closing bracket. -/
def readItems (element : Reader Value) (text : List Char) :
    Except Fault (List Value × List Char) :=
  match read : element.read text with
  | .error fault => .error fault
  | .ok (value, rest) =>
      match separated : skipSpace rest with
      | ']' :: rest => .ok ([value], rest)
      | ',' :: rest =>
          have : (skipSpace rest).length < text.length :=
            Nat.lt_trans (length_lt_of_separator separated) (element.consumes read)
          match readItems element (skipSpace rest) with
          | .error fault => .error fault
          | .ok (values, rest) => .ok (value :: values, rest)
      | rest => .error (.misread .noComma rest)
termination_by text.length

/-- The entries of an object from its first name on, to after the closing brace. -/
def readEntries (element : Reader Value) (text : List Char) :
    Except Fault (List (String × Value) × List Char) :=
  match named : readName text with
  | .error fault => .error fault
  | .ok (name, rest) =>
      match read : element.read rest with
      | .error fault => .error fault
      | .ok (value, rest) =>
          match separated : skipSpace rest with
          | '}' :: rest => .ok ([(name, value)], rest)
          | ',' :: rest =>
              have : (skipSpace rest).length < text.length :=
                Nat.lt_trans (length_lt_of_separator separated)
                  (Nat.lt_trans (element.consumes read) (length_lt_of_readName named))
              match readEntries element (skipSpace rest) with
              | .error fault => .error fault
              | .ok (entries, rest) => .ok ((name, value) :: entries, rest)
          | rest => .error (.misread .noComma rest)
termination_by text.length

/-- The array whose opening bracket was just read. -/
def readArray (element : Reader Value) (body : List Char) : Except Fault (Value × List Char) :=
  match skipSpace body with
  | ']' :: rest => .ok (.array [], rest)
  | inner =>
      match readItems element inner with
      | .error fault => .error fault
      | .ok (items, rest) => .ok (.array items, rest)

/-- The object whose opening brace was just read. The last value of a name that comes
twice counts, in the place of the first. -/
def readObject (element : Reader Value) (body : List Char) : Except Fault (Value × List Char) :=
  match skipSpace body with
  | '}' :: rest => .ok (.object [], rest)
  | inner =>
      match readEntries element inner with
      | .error fault => .error fault
      | .ok (entries, rest) => .ok (.object (Keyed.ofPairs entries), rest)

/-- The value that a text starts with, where `nested` reads the values inside it. -/
def readValue (nested : Option (Reader Value)) (text : List Char) :
    Except Fault (Value × List Char) :=
  match text with
  | '"' :: body =>
      match StringLiteral.read text body with
      | .error fault => .error fault
      | .ok (string, rest) => .ok (.string string, rest)
  | '[' :: body =>
      match nested with
      | none => .error (.tooDeep .array)
      | some element => readArray element body
  | '{' :: body =>
      match nested with
      | none => .error (.tooDeep .object)
      | some element => readObject element body
  | _ =>
      match readKeyword? text with
      | some found => .ok found
      | none => readNumber text

theorem length_lt_of_closed {rest after : List Char} {mark : Char}
    (closed : skipSpace rest = mark :: after) : after.length < rest.length := by
  have before := length_skipSpace_le rest
  rw [closed] at before
  simp only [List.length_cons] at before
  omega

theorem length_lt_of_readItems {element : Reader Value} {text rest : List Char}
    {items : List Value} (success : readItems element text = .ok (items, rest)) :
    rest.length < text.length := by
  fun_induction readItems element text generalizing items with
  | case1 => simp at success
  | case2 _ _ _ read _ closed =>
      simp only [Except.ok.injEq, Prod.mk.injEq] at success
      have shorter := element.consumes read
      have closing := length_lt_of_closed closed
      rw [← success.2]
      omega
  | case3 => simp at success
  | case4 _ _ _ _ _ _ shorter _ _ more ih =>
      simp only [Except.ok.injEq, Prod.mk.injEq] at success
      have inner := ih (success.2 ▸ more)
      omega
  | case5 => simp at success

theorem length_lt_of_readEntries {element : Reader Value} {text rest : List Char}
    {entries : List (String × Value)} (success : readEntries element text = .ok (entries, rest)) :
    rest.length < text.length := by
  fun_induction readEntries element text generalizing entries with
  | case1 => simp at success
  | case2 => simp at success
  | case3 _ _ _ named _ _ read _ closed =>
      simp only [Except.ok.injEq, Prod.mk.injEq] at success
      have nameShorter := length_lt_of_readName named
      have shorter := element.consumes read
      have closing := length_lt_of_closed closed
      rw [← success.2]
      omega
  | case4 => simp at success
  | case5 _ _ _ _ _ _ _ _ _ shorter _ _ more ih =>
      simp only [Except.ok.injEq, Prod.mk.injEq] at success
      have inner := ih (success.2 ▸ more)
      omega
  | case6 => simp at success

theorem length_lt_of_readArray {element : Reader Value} {body rest : List Char} {value : Value}
    (success : readArray element body = .ok (value, rest)) : rest.length < body.length := by
  have spaced := length_skipSpace_le body
  unfold readArray at success
  split at success
  · next closed =>
      simp only [Except.ok.injEq, Prod.mk.injEq] at success
      rw [← success.2]
      exact length_lt_of_closed closed
  · split at success
    · simp at success
    · next items =>
        simp only [Except.ok.injEq, Prod.mk.injEq] at success
        have shorter := length_lt_of_readItems items
        rw [← success.2]
        omega

theorem length_lt_of_readObject {element : Reader Value} {body rest : List Char} {value : Value}
    (success : readObject element body = .ok (value, rest)) : rest.length < body.length := by
  have spaced := length_skipSpace_le body
  unfold readObject at success
  split at success
  · next closed =>
      simp only [Except.ok.injEq, Prod.mk.injEq] at success
      rw [← success.2]
      exact length_lt_of_closed closed
  · split at success
    · simp at success
    · next entries =>
        simp only [Except.ok.injEq, Prod.mk.injEq] at success
        have shorter := length_lt_of_readEntries entries
        rw [← success.2]
        omega

theorem length_lt_of_after? {beginning text rest : List Char} (filled : beginning ≠ [])
    (found : Text.after? beginning text = some rest) : rest.length < text.length := by
  induction beginning generalizing text with
  | nil => exact absurd rfl filled
  | cons expected beginning ih =>
      cases text with
      | nil => simp [Text.after?] at found
      | cons char text =>
          simp only [Text.after?] at found
          split at found
          · cases beginning with
            | nil =>
                simp only [Text.after?, Option.some.injEq] at found
                simp [found]
            | cons next beginning =>
                have shorter := ih (by simp) found
                simp only [List.length_cons]
                omega
          · simp at found

theorem length_lt_of_readKeyword? {text rest : List Char} {value : Value}
    (found : readKeyword? text = some (value, rest)) : rest.length < text.length := by
  obtain ⟨keyword, member, found⟩ := List.exists_of_findSome?_eq_some found
  simp only [Option.map_eq_some_iff, Prod.mk.injEq] at found
  obtain ⟨after, found, _, same⟩ := found
  refine length_lt_of_after? ?_ (same ▸ found)
  have filled : ∀ keyword ∈ keywords, keyword.1 ≠ [] := by
    simp [keywords]
  exact filled keyword member

theorem length_lt_of_readNumber {text rest : List Char} {value : Value}
    (success : readNumber text = .ok (value, rest)) : rest.length < text.length := by
  unfold readNumber at success
  split at success
  · simp at success
  · next literal =>
      split at success
      · simp only [Except.ok.injEq, Prod.mk.injEq] at success
        exact NumberLiteral.length_lt_of_read? (success.2 ▸ literal)
      · simp at success

/-- Reading a value leaves a shorter text. -/
theorem length_lt_of_readValue {nested : Option (Reader Value)} {text rest : List Char}
    {value : Value} (success : readValue nested text = .ok (value, rest)) :
    rest.length < text.length := by
  unfold readValue at success
  split at success
  · split at success
    · simp at success
    · next literal =>
        simp only [Except.ok.injEq, Prod.mk.injEq] at success
        have shorter := StringLiteral.length_lt_of_read (success.2 ▸ literal)
        simp only [List.length_cons]
        omega
  · split at success
    · simp at success
    · have shorter := length_lt_of_readArray success
      simp only [List.length_cons]
      omega
  · split at success
    · simp at success
    · have shorter := length_lt_of_readObject success
      simp only [List.length_cons]
      omega
  · split at success
    · next found =>
        simp only [Except.ok.injEq] at success
        exact length_lt_of_readKeyword? (success ▸ found)
    · exact length_lt_of_readNumber success

/-- The reader of values in which at most `depth` containers nest. -/
def valueReader : (depth : Nat) → Reader Value
  | 0 => ⟨readValue none, length_lt_of_readValue⟩
  | depth + 1 => ⟨readValue (some (valueReader depth)), length_lt_of_readValue⟩

/-- Reads a text that holds one value with space around it. -/
def parse (text : List Char) : Except Fault Value :=
  if text.head? = some '\uFEFF' then .error (.misread .byteOrderMark text)
  else
    match (valueReader maxDepth).read (skipSpace text) with
    | .error fault => .error fault
    | .ok (value, rest) =>
        match skipSpace rest with
        | [] => .ok value
        | rest => .error (.misread .extraData rest)

end LintReport.Json
