import LintReport.CommandLine.Arguments
import LintReport.Proofs.Text.Run
import Mathlib.Data.List.Infix

/-! # Command lines that are accepted

A command line gives options with their values, one after another. The relation `Writes`
says how this may be written, without the order of work of the reader: in one word or in
two, and with any beginning of an option that tells it from the others. The reader accepts
exactly the command lines that give one of the two options for the target and not the
other, and only commands that there are; what it makes of them is the last value of each
option (`CommandLine.parse_eq_ok_iff`). The releases of the reader differ only in the value
that two dashes after an equals sign give. -/

namespace LintReport.CommandLine

/-! ## Options as they are given -/

/-- An option with its value. -/
abbrev GivenOption := OptionName × Label

/-- The last value that is given for an option. -/
def lastGiven? (name : OptionName) (given : List GivenOption) : Option Label :=
  (given.reverse.find? fun option => option.1 = name).map Prod.snd

/-- What the options say, each by its last value. -/
def Arguments.ofGiven (given : List GivenOption) : Arguments where
  input := lastGiven? .input given
  file := lastGiven? .file given
  workspace := lastGiven? .workspace given
  tool := (lastGiven? .tool given).getD (.given "mago")
  command := (lastGiven? .command given).getD (.given "lint")

/-- Whether options can be given together. -/
structure Compatible (given : List GivenOption) : Prop where
  exclusive : lastGiven? .file given = none ∨ lastGiven? .workspace given = none
  commands : ∀ value, (OptionName.command, value) ∈ given → isCommand value

/-- The beginnings that tell an option with a value from all others. -/
def beginnings : List (List Char × OptionName) :=
  (spellings.filter fun spelling => spelling.2 ≠ .help).flatMap fun spelling =>
    (spelling.1.toList.inits.filter fun beginning => 2 < beginning.length).map
      fun beginning => (beginning, spelling.2)

/-- Whether a word begins like an option. -/
def LooksLikeOption (text : List Char) : Prop :=
  ['-', 'h'] <+: text ∨
    ['-', '-'] <+: text ∧ ∃ spelling ∈ spellings, (splitEquals text).1 <+: spelling.1.toList

/-- Whether a word can be a value. -/
def CanBeValue (word : String) : Prop :=
  word.toList.head? ≠ some '-' ∨ word = "-" ∨
    ¬ LooksLikeOption word.toList ∧ (isNegativeNumber word.toList ∨ ' ' ∈ word.toList)

/-- Whether the words of a command line give these options in a release. -/
inductive Writes (release : Release) : List String → List GivenOption → Prop
  | nil : Writes release [] []
  /-- The value stands in a word of its own. -/
  | apart {word value : String} {name : OptionName} {words : List String}
      {given : List GivenOption} (named : (word.toList, name) ∈ beginnings)
      (free : CanBeValue value) (rest : Writes release words given) :
      Writes release (word :: value :: words) ((name, .given value) :: given)
  /-- The value stands after an equals sign. -/
  | attached {word : String} {beginning text : List Char} {name : OptionName}
      {words : List String} {given : List GivenOption} (named : (beginning, name) ∈ beginnings)
      (whole : word.toList = beginning ++ '=' :: text) (rest : Writes release words given) :
      Writes release (word :: words) ((name, attachedValue release text) :: given)

/-- What becomes of arguments when options are set one after another. -/
def Arguments.setAll (arguments : Arguments) : List GivenOption → Except UsageError Arguments
  | [] => .ok arguments
  | option :: options =>
      match arguments.set option.1 option.2 with
      | .error error => .error error
      | .ok arguments => arguments.setAll options

/-- Of an option given twice the later value counts. -/
theorem lastGiven?_concat (name : OptionName) (given : List GivenOption) (option : GivenOption) :
    lastGiven? name (given ++ [option]) =
      if option.1 = name then some option.2 else lastGiven? name given := by
  rw [lastGiven?, List.reverse_concat, List.find?_cons]
  by_cases same : option.1 = name <;> simp [same, lastGiven?]

/-- An option has no last value exactly if it is not given. -/
theorem lastGiven?_eq_none_iff {name : OptionName} {given : List GivenOption} :
    lastGiven? name given = none ↔ ∀ value, (name, value) ∉ given := by
  simp only [lastGiven?, Option.map_eq_none_iff, List.find?_eq_none, List.mem_reverse,
    decide_eq_true_eq]
  constructor
  · intro others value member
    exact others _ member rfl
  · rintro absent ⟨_, value⟩ member rfl
    exact absent value member

/-- What is given first is compatible if all is. -/
theorem Compatible.of_append {given more : List GivenOption}
    (compatible : Compatible (given ++ more)) : Compatible given := by
  obtain ⟨exclusive, commands⟩ := compatible
  refine ⟨?_, fun value member => commands value (List.mem_append_left _ member)⟩
  simp only [lastGiven?_eq_none_iff] at exclusive ⊢
  exact exclusive.imp (fun absent value member => absent value (List.mem_append_left _ member))
    fun absent value member => absent value (List.mem_append_left _ member)

/-- A further option is compatible unless it is the other one of the two modes or an unknown
command. -/
theorem compatible_concat_iff {given : List GivenOption} (compatible : Compatible given)
    (name : OptionName) (value : Label) :
    Compatible (given ++ [(name, value)]) ↔
      (name = .file → lastGiven? .workspace given = none) ∧
        (name = .workspace → lastGiven? .file given = none) ∧
          (name = .command → isCommand value) := by
  constructor
  · rintro ⟨exclusive, commands⟩
    simp only [lastGiven?_concat] at exclusive
    refine ⟨?_, ?_, ?_⟩
    · rintro rfl
      simpa using exclusive
    · rintro rfl
      simpa using exclusive
    · rintro rfl
      exact commands value (List.mem_append_right _ (List.mem_singleton.mpr rfl))
  · rintro ⟨file, workspace, command⟩
    constructor
    · simp only [lastGiven?_concat]
      by_cases files : name = .file
      · simp [files, file files]
      · by_cases workspaces : name = .workspace
        · simp [workspaces, workspace workspaces]
        · simpa [files, workspaces] using compatible.exclusive
    · intro other member
      rcases List.mem_append.mp member with early | last
      · exact compatible.commands other early
      · obtain ⟨same, rfl⟩ := Prod.mk.inj (List.mem_singleton.mp last)
        exact command same.symm

/-- An option can be set after others exactly if it is compatible with them. -/
theorem set_ofGiven {name : OptionName} (valued : name ≠ .help) {given : List GivenOption}
    (compatible : Compatible given) (value : Label) :
    (Compatible (given ++ [(name, value)]) ∧
      (Arguments.ofGiven given).set name value = .ok (.ofGiven (given ++ [(name, value)]))) ∨
    (¬ Compatible (given ++ [(name, value)]) ∧
      ∃ error, (Arguments.ofGiven given).set name value = .error error) := by
  rw [compatible_concat_iff compatible]
  simp only [Arguments.ofGiven, lastGiven?_concat]
  cases name with
  | help => exact absurd rfl valued
  | input => simp [Arguments.set]
  | file =>
      cases lastGiven? .workspace given <;> simp [Arguments.set]
  | workspace =>
      cases lastGiven? .file given <;> simp [Arguments.set]
  | tool => simp [Arguments.set]
  | command =>
      by_cases known : isCommand value <;> simp [Arguments.set, known]

/-- Options can be set one after another exactly if they are compatible. -/
theorem setAll_eq_ok_iff {before given : List GivenOption} {arguments : Arguments}
    (valued : ∀ option ∈ given, option.1 ≠ .help) (compatible : Compatible before) :
    (Arguments.ofGiven before).setAll given = .ok arguments ↔
      Compatible (before ++ given) ∧ arguments = .ofGiven (before ++ given) := by
  induction given generalizing before with
  | nil => simp [Arguments.setAll, compatible, eq_comm]
  | cons option options ih =>
      obtain ⟨first, valued⟩ := List.forall_mem_cons.mp valued
      have assoc : before ++ option :: options = before ++ [option] ++ options := by simp
      rw [assoc, Arguments.setAll]
      rcases set_ofGiven first compatible option.2 with ⟨compatible, set⟩ | ⟨clash, _, refused⟩
      · rw [set]
        exact ih valued compatible
      · rw [refused]
        simp only [reduceCtorEq, false_iff, not_and]
        exact fun together => absurd together.of_append clash

/-! ## Words -/

/-- The first equals sign ends the name of an option. -/
theorem splitEquals_append {beginning : List Char} (unequal : '=' ∉ beginning)
    (text : List Char) :
    splitEquals (beginning ++ '=' :: text) = (beginning, some { text }) := by
  have stays : ∀ char ∈ beginning, decide (char ≠ '=') := fun char member =>
    decide_eq_true (ne_of_mem_of_not_mem member unequal)
  have starts : Text.StartsWithout (fun char => decide (char ≠ '=')) ('=' :: text) := by simp
  simp only [splitEquals, Text.dropWhile_run stays starts, Text.takeWhile_run stays starts]

/-- A word without an equals sign is all name. -/
theorem splitEquals_of_notMem {text : List Char} (unequal : '=' ∉ text) :
    splitEquals text = (text, none) := by
  have stays : ∀ char ∈ text, decide (char ≠ '=') := fun char member =>
    decide_eq_true (ne_of_mem_of_not_mem member unequal)
  rw [splitEquals, List.dropWhile_eq_nil_iff.mpr stays]

/-- A word is what stands before its first equals sign, with what is attached after it. -/
theorem splitEquals_cases (text : List Char) :
    splitEquals text = (text, none) ∨
      ∃ beginning attached, text = beginning ++ '=' :: attached ∧
        splitEquals text = (beginning, some { text := attached }) := by
  by_cases equals : '=' ∈ text
  · obtain ⟨beginning, attached, rfl, first⟩ := List.eq_append_cons_of_mem equals
    exact .inr ⟨beginning, attached, rfl, splitEquals_append first attached⟩
  · exact .inl (splitEquals_of_notMem equals)

/-- The name of an option starts its word. -/
theorem prefix_splitEquals (text : List Char) : (splitEquals text).1 <+: text := by
  rcases splitEquals_cases text with whole | ⟨beginning, attached, rfl, split⟩
  · rw [whole]
  · rw [split]
    exact List.prefix_append ..

/-- The two dashes of a word belong to the name. -/
theorem dashes_splitEquals {text : List Char} (dashes : ['-', '-'] <+: text) :
    ['-', '-'] <+: (splitEquals text).1 := by
  obtain ⟨rest, whole⟩ := dashes
  rcases splitEquals_cases text with same | ⟨beginning, attached, parts, split⟩
  · rw [same]
    exact ⟨rest, whole⟩
  · rw [split]
    rw [parts] at whole
    rcases beginning with _ | ⟨first, _ | ⟨second, others⟩⟩
    · simp at whole
    · simp at whole
    · simp at whole
      simp [← whole.1, ← whole.2.1]

/-- A spelling that is looked up is one of the spellings. -/
theorem mem_spellings_of_lookup {spelling : String} {name : OptionName}
    (found : spellings.lookup spelling = some name) : (spelling, name) ∈ spellings := by
  obtain ⟨before, after, whole, _⟩ := List.lookup_eq_some_iff.mp found
  rw [whole]
  exact List.mem_append_right _ List.mem_cons_self

/-- The short spelling of help is the only one with one dash. -/
theorem of_mem_spellings {spelling : String} {name : OptionName}
    (member : (spelling, name) ∈ spellings) :
    spelling = "-h" ∧ name = .help ∨ ['-', '-'] <+: spelling.toList ∧ 2 < spelling.length := by
  have all : ∀ option ∈ spellings,
      option.1 = "-h" ∧ option.2 = .help ∨
        ['-', '-'] <+: option.1.toList ∧ 2 < option.1.length := by
    decide
  exact all _ member

/-- A long enough part of a spelling is one of the beginnings. -/
theorem mem_beginnings {spelling : String} {name : OptionName} {beginning : List Char}
    (valued : name ≠ .help) (long : 2 < beginning.length)
    (member : (spelling, name) ∈ spellings) (part : beginning <+: spelling.toList) :
    (beginning, name) ∈ beginnings := by
  refine List.mem_flatMap.mpr ⟨(spelling, name), ?_, List.mem_map.mpr ⟨beginning, ?_, rfl⟩⟩
  · exact List.mem_filter.mpr ⟨member, decide_eq_true valued⟩
  · exact List.mem_filter.mpr ⟨(List.mem_inits _ _).mpr part, decide_eq_true long⟩

/-- No beginning of an option holds an equals sign, and none begins two options. -/
theorem of_mem_beginnings {beginning : List Char} {name : OptionName}
    (member : (beginning, name) ∈ beginnings) :
    name ≠ .help ∧ '=' ∉ beginning ∧ ['-', '-'] <+: beginning ∧ 2 < beginning.length ∧
      (spellings.lookup (String.ofList beginning) = some name ∨
        spellings.lookup (String.ofList beginning) = none ∧
          ∃ spelling, (spellings.filter fun spelling =>
            beginning.isPrefixOf spelling.1.toList) = [(spelling, name)]) := by
  have all : ∀ option ∈ beginnings,
      option.2 ≠ .help ∧ '=' ∉ option.1 ∧ ['-', '-'] <+: option.1 ∧ 2 < option.1.length ∧
        (spellings.lookup (String.ofList option.1) = some option.2 ∨
          spellings.lookup (String.ofList option.1) = none ∧
            ((spellings.filter fun spelling =>
              option.1.isPrefixOf spelling.1.toList).map Prod.snd) = [option.2]) := by
    decide +kernel
  obtain ⟨valued, unequal, dashes, long, found | ⟨unknown, only⟩⟩ := all _ member
  · exact ⟨valued, unequal, dashes, long, .inl found⟩
  · obtain ⟨⟨spelling, named⟩, alone, rfl⟩ := List.map_eq_singleton_iff.mp only
    exact ⟨valued, unequal, dashes, long, .inr ⟨unknown, spelling, alone⟩⟩

/-! ## What a word is -/

/-- What can become of a word that starts with a dash: it is an option as it is spelled, or
the one option that it can stand for, or no option at all, or it is refused. -/
theorem classify_cases {word : String} {beginning : List Char} {attached : Option Attached}
    (dash : word.toList.head? = some '-') (long : word.toList.length ≠ 1)
    (split : splitEquals word.toList = (beginning, attached)) :
    (∃ name, spellings.lookup (String.ofList beginning) = some name ∧
      classify word = .ok (.option (String.ofList beginning) name attached)) ∨
    spellings.lookup (String.ofList beginning) = none ∧
      ((∃ found, candidates word.toList = [found] ∧ classify word = .ok found) ∨
      (candidates word.toList = [] ∧
        classify word = .ok (if isNegativeNumber word.toList || word.toList.contains ' '
          then .plain word else .unknown word)) ∨
      (1 < (candidates word.toList).length ∧ ∃ error, classify word = .error error)) := by
  rw [classify, if_neg (by simp [dash, long]), split]
  dsimp only
  cases spellings.lookup (String.ofList beginning) with
  | some name => exact .inl ⟨name, rfl, rfl⟩
  | none =>
      refine .inr ⟨rfl, ?_⟩
      rcases candidates word.toList with _ | ⟨first, _ | ⟨second, others⟩⟩
      · exact .inr (.inl ⟨rfl, rfl⟩)
      · exact .inl ⟨first, rfl, rfl⟩
      · exact .inr (.inr ⟨by simp, _, rfl⟩)

/-- A word with two dashes in front starts with a dash. -/
theorem head?_eq_dash {word beginning : List Char} (dashes : ['-', '-'] <+: beginning)
    (part : beginning <+: word) : word.head? = some '-' := by
  obtain ⟨rest, whole⟩ := dashes.trans part
  rw [← whole]
  rfl

/-- A word that begins an option up to its equals sign is that option. -/
theorem classify_of_split {word : String} {beginning : List Char} {name : OptionName}
    {attached : Option Attached} (named : (beginning, name) ∈ beginnings)
    (split : splitEquals word.toList = (beginning, attached)) :
    ∃ spelling, classify word = .ok (.option spelling name attached) := by
  obtain ⟨_, _, dashes, long, known⟩ := of_mem_beginnings named
  have part : beginning <+: word.toList := by
    simpa only [split] using prefix_splitEquals word.toList
  have several : word.toList.length ≠ 1 := by
    have := part.length_le
    omega
  have cases := classify_cases (head?_eq_dash dashes part) several split
  rcases known with found | ⟨unknown, spelling, alone⟩
  · obtain ⟨other, same, read⟩ | ⟨unknown, _⟩ := cases
    · rw [found, Option.some.injEq] at same
      exact ⟨_, same ▸ read⟩
    · rw [found] at unknown
      cases unknown
  · have one : candidates word.toList = [.option spelling name attached] := by
      rw [candidates, if_pos (List.isPrefixOf_iff_prefix.mpr (dashes.trans part)), split]
      dsimp only
      rw [alone]
      rfl
    rw [unknown, one] at cases
    exact ⟨spelling, by simpa using cases⟩

/-- The one option that a word can stand for without being a spelling of it: the word
begins it, unless it asks for help. -/
theorem of_candidates_eq_singleton {text : List Char} {found : Word}
    (one : candidates text = [found]) :
    ∃ spelling name attached, found = .option spelling name attached ∧
      (name ≠ .help → ((splitEquals text).1, name) ∈ beginnings ∧
        (splitEquals text).2 = attached) := by
  unfold candidates at one
  split at one
  · next dashes =>
      dsimp only at one
      obtain ⟨⟨spelling, name⟩, alone, rfl⟩ := List.map_eq_singleton_iff.mp one
      refine ⟨spelling, name, _, rfl, fun valued => ⟨?_, rfl⟩⟩
      have present : (spelling, name) ∈ spellings.filter fun spelling =>
          (splitEquals text).1.isPrefixOf spelling.1.toList := alone ▸ List.mem_cons_self
      obtain ⟨member, part⟩ := List.mem_filter.mp present
      refine mem_beginnings valued ?_ member (List.isPrefixOf_iff_prefix.mp part)
      -- the dashes alone begin every option that is written with two
      have begins := dashes_splitEquals (List.isPrefixOf_iff_prefix.mp dashes)
      refine lt_of_le_of_ne begins.length_le fun same => ?_
      rw [← begins.eq_of_length same] at alone
      have several : (spellings.filter fun spelling =>
          ['-', '-'].isPrefixOf spelling.1.toList).length = 6 := by decide
      rw [alone] at several
      cases several
  · obtain ⟨⟨spelling, name⟩, alone, rfl⟩ := List.map_eq_singleton_iff.mp one
    refine ⟨spelling, name, _, rfl, fun valued => ?_⟩
    have present : (spelling, name) ∈ spellings.filter fun spelling =>
        spelling.1.toList = text.take 2 := alone ▸ List.mem_cons_self
    obtain ⟨member, short⟩ := List.mem_filter.mp present
    have length : spelling.toList.length ≤ 2 := by
      rw [of_decide_eq_true short]
      exact List.length_take_le 2 text
    rcases of_mem_spellings member with ⟨_, rfl⟩ | ⟨_, long⟩
    · exact absurd rfl valued
    · rw [← String.length_toList] at long
      omega

/-- A word without a dash in front, or only a dash, is plain. -/
theorem classify_of_plain {word : String} (plain : word.toList.head? ≠ some '-' ∨ word = "-") :
    classify word = .ok (.plain word) := by
  rcases plain with other | rfl
  · rw [classify, if_pos (.inl other)]
  · decide

/-- A dash that is not alone has something behind it. -/
theorem length_ne_one {word : String} (dash : word.toList.head? = some '-')
    (filled : word ≠ "-") : word.toList.length ≠ 1 := by
  intro single
  obtain ⟨char, alone⟩ := List.length_eq_one_iff.mp single
  rw [alone, List.head?_cons, Option.some.injEq] at dash
  exact filled (String.toList_injective (by rw [alone, dash]; rfl))

/-- An option is read only from a word that begins it, by itself or before an equals sign. -/
theorem of_classify_option {word spelling : String} {name : OptionName}
    {attached : Option Attached} (valued : name ≠ .help)
    (read : classify word = .ok (.option spelling name attached)) :
    ((splitEquals word.toList).1, name) ∈ beginnings ∧ (splitEquals word.toList).2 = attached := by
  by_cases plain : word.toList.head? ≠ some '-' ∨ word = "-"
  · rw [classify_of_plain plain] at read
    cases read
  · obtain ⟨dash, filled⟩ := not_or.mp plain
    rw [not_not] at dash
    obtain ⟨beginning, text, split⟩ : ∃ beginning text,
        splitEquals word.toList = (beginning, text) := ⟨_, _, rfl⟩
    rcases classify_cases dash (length_ne_one dash filled) split with ⟨other, found, same⟩ |
      ⟨_, ⟨found, one, same⟩ | ⟨_, same⟩ | ⟨_, error, same⟩⟩
    · rw [same, Except.ok.injEq, Word.option.injEq] at read
      obtain ⟨_, rfl, rfl⟩ := read
      have member := mem_spellings_of_lookup found
      rcases of_mem_spellings member with ⟨_, rfl⟩ | ⟨_, long⟩
      · exact absurd rfl valued
      · rw [String.length_ofList] at long
        rw [split]
        exact ⟨mem_beginnings valued long member (by rw [String.toList_ofList]), rfl⟩
    · rw [same, Except.ok.injEq] at read
      subst read
      obtain ⟨_, _, _, equal, begins⟩ := of_candidates_eq_singleton one
      rw [Word.option.injEq] at equal
      obtain ⟨_, rfl, rfl⟩ := equal
      exact begins valued
    · rw [same] at read
      split at read <;> cases read
    · rw [same] at read
      cases read

/-- What looks like an option is a candidate for one. -/
theorem candidates_ne_nil_of_looksLikeOption {text : List Char} (looks : LooksLikeOption text) :
    candidates text ≠ [] := by
  rcases looks with ⟨rest, rfl⟩ | ⟨dashes, ⟨spelling, name⟩, member, part⟩
  · rw [candidates, if_neg (by simp)]
    have present : ("-h", OptionName.help) ∈ spellings.filter fun spelling =>
        spelling.1.toList = (['-', 'h'] ++ rest).take 2 :=
      List.mem_filter.mpr ⟨by decide, by simp⟩
    exact List.ne_nil_of_mem (List.mem_map_of_mem present)
  · rw [candidates, if_pos (List.isPrefixOf_iff_prefix.mpr dashes)]
    have present : (spelling, name) ∈ spellings.filter fun spelling =>
        (splitEquals text).1.isPrefixOf spelling.1.toList :=
      List.mem_filter.mpr ⟨member, List.isPrefixOf_iff_prefix.mpr part⟩
    exact List.ne_nil_of_mem (List.mem_map_of_mem present)

/-- A spelling looks like its option. -/
theorem looksLikeOption_of_lookup {text : List Char} {name : OptionName}
    (found : spellings.lookup (String.ofList (splitEquals text).1) = some name) :
    LooksLikeOption text := by
  have member := mem_spellings_of_lookup found
  have part := prefix_splitEquals text
  rcases of_mem_spellings member with ⟨short, _⟩ | ⟨dashes, _⟩
  · left
    rw [show (splitEquals text).1 = ['-', 'h'] from String.ofList_injective short] at part
    exact part
  · right
    rw [String.toList_ofList] at dashes
    exact ⟨dashes.trans part, _, member, by rw [String.toList_ofList]⟩

/-- A candidate for an option looks like one. -/
theorem looksLikeOption_of_candidates {text : List Char} (some : candidates text ≠ []) :
    LooksLikeOption text := by
  unfold candidates at some
  split at some
  · next dashes =>
      obtain ⟨_, present⟩ := List.exists_mem_of_ne_nil _ some
      obtain ⟨spelling, inside, rfl⟩ := List.mem_map.mp present
      obtain ⟨member, part⟩ := List.mem_filter.mp inside
      exact .inr ⟨List.isPrefixOf_iff_prefix.mp dashes, spelling, member,
        List.isPrefixOf_iff_prefix.mp part⟩
  · next single =>
      obtain ⟨_, present⟩ := List.exists_mem_of_ne_nil _ some
      obtain ⟨⟨spelling, name⟩, inside, rfl⟩ := List.mem_map.mp present
      obtain ⟨member, short⟩ := List.mem_filter.mp inside
      have whole : spelling.toList <+: text := by
        rw [of_decide_eq_true short]
        exact List.take_prefix 2 text
      rcases of_mem_spellings member with ⟨rfl, _⟩ | ⟨dashes, _⟩
      · exact .inl whole
      · exact absurd (List.isPrefixOf_iff_prefix.mpr (dashes.trans whole)) single

/-- A word that starts with a dash looks like an option if it begins some. -/
theorem looksLikeOption_iff {text : List Char} : LooksLikeOption text ↔ candidates text ≠ [] :=
  ⟨candidates_ne_nil_of_looksLikeOption, looksLikeOption_of_candidates⟩

/-- A word can be a value exactly if it is read as such. -/
theorem classify_eq_plain_iff {word text : String} :
    classify word = .ok (.plain text) ↔ text = word ∧ CanBeValue word := by
  by_cases plain : word.toList.head? ≠ some '-' ∨ word = "-"
  · have free : CanBeValue word := plain.elim .inl fun same => .inr (.inl same)
    rw [classify_of_plain plain]
    simp [free, eq_comm]
  · obtain ⟨dash, filled⟩ := not_or.mp plain
    rw [not_not] at dash
    have long := length_ne_one dash filled
    obtain ⟨beginning, attached, split⟩ : ∃ beginning attached,
        splitEquals word.toList = (beginning, attached) := ⟨_, _, rfl⟩
    have looks := @looksLikeOption_iff word.toList
    rcases classify_cases dash long split with ⟨other, found, same⟩ |
      ⟨_, ⟨found, one, same⟩ | ⟨none, same⟩ | ⟨several, error, same⟩⟩
    · have known : LooksLikeOption word.toList :=
        looksLikeOption_of_lookup (by rw [split]; exact found)
      simp [same, CanBeValue, dash, filled, known]
    · obtain ⟨_, _, _, rfl, _⟩ := of_candidates_eq_singleton one
      simp [same, CanBeValue, dash, filled, looks, one]
    · have other : ¬ LooksLikeOption word.toList := by simp [looks, none]
      by_cases reads : isNegativeNumber word.toList || word.toList.contains ' '
      · have free : isNegativeNumber word.toList ∨ ' ' ∈ word.toList := by simpa using reads
        have value : CanBeValue word := .inr (.inr ⟨other, free⟩)
        rw [same, if_pos reads]
        simp [value, eq_comm]
      · have bound : ¬ (isNegativeNumber word.toList ∨ ' ' ∈ word.toList) := by simpa using reads
        rw [same, if_neg reads]
        simp [CanBeValue, dash, filled, bound]
    · have some : candidates word.toList ≠ [] := by
        rintro none
        simp [none] at several
      simp [same, CanBeValue, dash, filled, looks, some]

/-! ## Command lines -/

variable {release : Release}

/-- No written option is the one for help. -/
theorem valued_of_writes {words : List String} {given : List GivenOption}
    (written : Writes release words given) : ∀ option ∈ given, option.1 ≠ .help := by
  induction written with
  | nil => simp
  | apart named _ _ ih => exact List.forall_mem_cons.mpr ⟨(of_mem_beginnings named).1, ih⟩
  | attached named _ _ ih => exact List.forall_mem_cons.mpr ⟨(of_mem_beginnings named).1, ih⟩

/-- Words before a separator are classified one by one. -/
theorem classifyAll_cons {word : String} {first : Word} {words : List String}
    {others : List Word} (whole : word ≠ "--") (read : classify word = .ok first)
    (rest : classifyAll words = .ok others) :
    classifyAll (word :: words) = .ok (first :: others) := by
  rw [classifyAll, if_neg whole, read, rest]

/-- The first of the classified words is a separator or stands for the first word. -/
theorem of_classifyAll_eq_cons {words : List String} {first : Word} {others : List Word}
    (read : classifyAll words = .ok (first :: others)) :
    first = .separator ∨ ∃ word rest, words = word :: rest ∧ classify word = .ok first ∧
      classifyAll rest = .ok others := by
  cases words with
  | nil => cases read
  | cons word rest =>
      rw [classifyAll] at read
      split at read
      · rw [Except.ok.injEq, List.cons.injEq] at read
        exact .inl read.1.symm
      · split at read
        · cases read
        · next classified =>
            split at read
            · cases read
            · next remaining =>
                rw [Except.ok.injEq, List.cons.injEq] at read
                obtain ⟨rfl, rfl⟩ := read
                exact .inr ⟨word, rest, rfl, classified, remaining⟩

/-- An option with a value of its own is set to it, wherever it stands. -/
theorem take_attached {name : OptionName} (valued : name ≠ .help) (arguments : Arguments)
    (kept : List String) (spelling : String) (attached : Attached) (words : List Word) :
    take release arguments kept (.option spelling name (some attached) :: words) =
      match arguments.set name (attachedValue release attached.text) with
      | .error error => .error error
      | .ok arguments => take release arguments kept words := by
  cases name with
  | help => exact absurd rfl valued
  | _ => rfl

/-- An option takes the plain word behind it as its value. -/
theorem take_apart {name : OptionName} (valued : name ≠ .help) (arguments : Arguments)
    (kept : List String) (spelling value : String) (words : List Word) :
    take release arguments kept (.option spelling name none :: .plain value :: words) =
      match arguments.set name (.given value) with
      | .error error => .error error
      | .ok arguments => take release arguments kept words := by
  cases name with
  | help => exact absurd rfl valued
  | _ => rfl

/-- What is written is taken, option by option. -/
theorem take_of_writes {words : List String} {given : List GivenOption}
    (written : Writes release words given) :
    ∃ classified, classifyAll words = .ok classified ∧ ∀ arguments,
      take release arguments [] classified =
        (Arguments.setAll arguments given).map fun arguments => (arguments, []) := by
  induction written with
  | nil => exact ⟨[], rfl, fun _ => rfl⟩
  | @apart word value name words given named free rest ih =>
      obtain ⟨classified, read, taken⟩ := ih
      obtain ⟨valued, unequal, _, long, _⟩ := of_mem_beginnings named
      obtain ⟨spelling, first⟩ := classify_of_split named (splitEquals_of_notMem unequal)
      have second := classify_eq_plain_iff.mpr ⟨rfl, free⟩
      have option : word ≠ "--" := by
        rintro rfl
        exact absurd long (by decide)
      have whole : value ≠ "--" := by
        rintro rfl
        cases second
      refine ⟨_, classifyAll_cons option first (classifyAll_cons whole second read), ?_⟩
      intro arguments
      rw [take_apart valued, Arguments.setAll]
      cases arguments.set name (.given value) with
      | error error => rfl
      | ok arguments => exact taken arguments
  | @attached word beginning text name words given named whole rest ih =>
      obtain ⟨classified, read, taken⟩ := ih
      obtain ⟨valued, unequal, _, long, _⟩ := of_mem_beginnings named
      have split : splitEquals word.toList = (beginning, some { text }) := by
        rw [whole, splitEquals_append unequal]
      obtain ⟨spelling, first⟩ := classify_of_split named split
      have option : word ≠ "--" := by
        rintro rfl
        rw [show splitEquals "--".toList = (['-', '-'], none) by decide] at split
        cases split
      refine ⟨_, classifyAll_cons option first read, ?_⟩
      intro arguments
      rw [take_attached valued, Arguments.setAll]
      cases arguments.set name (attachedValue release text) with
      | error error => rfl
      | ok arguments => exact taken arguments

/-- Words that are kept stay in front of those kept later. -/
theorem prefix_of_take {arguments final : Arguments} {kept left : List String} {words : List Word}
    (taken : take release arguments kept words = .ok (final, left)) : kept <+: left := by
  fun_induction take release arguments kept words with
  | case1 arguments kept =>
      rw [Except.ok.injEq, Prod.mk.injEq] at taken
      rw [taken.2]
  | case2 arguments kept text words ih => exact (List.prefix_append _ _).trans (ih taken)
  | case3 arguments kept words ih => exact (List.prefix_append _ _).trans (ih taken)
  | case4 arguments kept text words ih => exact (List.prefix_append _ _).trans (ih taken)
  | case7 _ _ _ _ _ _ _ _ _ ih => exact ih taken
  | case9 _ _ _ _ _ _ _ _ _ ih => exact ih taken
  | _ => cases taken

/-- Nothing is left over only if nothing was kept. -/
theorem not_take_of_kept {arguments final : Arguments} {kept : List String} {word : String}
    {words : List Word} : take release arguments (kept ++ [word]) words ≠ .ok (final, []) := by
  intro taken
  simpa using prefix_of_take taken

/-- Only no words are classified as none. -/
theorem classifyAll_eq_nil {words : List String} (read : classifyAll words = .ok []) :
    words = [] := by
  cases words with
  | nil => rfl
  | cons word words =>
      rw [classifyAll] at read
      split at read
      · cases read
      · split at read
        · cases read
        · split at read <;> cases read

/-- A command line that is taken without remainder is written option by option. -/
theorem writes_of_take {words : List String} {classified : List Word} {arguments final : Arguments}
    {kept : List String} (read : classifyAll words = .ok classified)
    (taken : take release arguments kept classified = .ok (final, [])) :
    ∃ given, Writes release words given ∧ arguments.setAll given = .ok final := by
  fun_induction take release arguments kept classified generalizing words with
  | case1 arguments kept =>
      rw [Except.ok.injEq, Prod.mk.injEq] at taken
      rw [classifyAll_eq_nil read, ← taken.1]
      exact ⟨[], .nil, rfl⟩
  | case2 arguments kept text words ih => exact absurd taken not_take_of_kept
  | case3 arguments kept words ih => exact absurd taken not_take_of_kept
  | case4 arguments kept text words ih => exact absurd taken not_take_of_kept
  | case7 arguments kept spelling name attached rest valued next set ih =>
      obtain same | ⟨word, words, rfl, first, others⟩ := of_classifyAll_eq_cons read
      · cases same
      · obtain ⟨named, attached⟩ := of_classify_option valued first
        rcases splitEquals_cases word.toList with alone | ⟨beginning, text, whole, split⟩
        · rw [alone] at attached
          cases attached
        · rw [split] at named attached
          obtain rfl := Option.some.inj attached
          obtain ⟨given, written, rest⟩ := ih others taken
          exact ⟨_, .attached named whole written, by simp only [Arguments.setAll, set, rest]⟩
  | case9 arguments kept spelling name value rest valued next set ih =>
      obtain same | ⟨word, words, rfl, first, others⟩ := of_classifyAll_eq_cons read
      · cases same
      · obtain same | ⟨_, words, rfl, second, remaining⟩ := of_classifyAll_eq_cons others
        · cases same
        · obtain ⟨named, attached⟩ := of_classify_option valued first
          obtain ⟨rfl, free⟩ := classify_eq_plain_iff.mp second
          rcases splitEquals_cases word.toList with alone | ⟨beginning, text, whole, split⟩
          · rw [alone] at named
            obtain ⟨given, written, rest⟩ := ih remaining taken
            exact ⟨_, .apart named free written, by simp only [Arguments.setAll, set, rest]⟩
          · rw [split] at attached
            cases attached
  | _ => cases taken

theorem compatible_nil : Compatible [] :=
  ⟨.inl rfl, fun _ member => absurd member List.not_mem_nil⟩

/-- A command line is accepted if it is taken without remainder and gives a target. -/
theorem parse_eq_ok_iff_take {words : List String} {arguments : Arguments} :
    parse release words = .ok arguments ↔
      ∃ classified, classifyAll words = .ok classified ∧
        take release {} [] classified = .ok (arguments, []) ∧
          (arguments.file ≠ none ∨ arguments.workspace ≠ none) := by
  have given : ∀ arguments : Arguments, (arguments.file ≠ none ∨ arguments.workspace ≠ none) ↔
      ¬ (arguments.file.isNone ∧ arguments.workspace.isNone) := by
    intro arguments
    rw [not_and_or]
    simp
  constructor
  · intro parsed
    unfold parse at parsed
    split at parsed
    · cases parsed
    · next classified read =>
        split at parsed
        · cases parsed
        · next final kept taken =>
            split at parsed
            · cases parsed
            · next targeted =>
                split at parsed
                · cases parsed
                · next nothing =>
                    rw [Except.ok.injEq] at parsed
                    rw [not_not] at nothing
                    subst parsed nothing
                    exact ⟨classified, read, taken, (given final).mpr targeted⟩
  · rintro ⟨classified, read, taken, targeted⟩
    simp only [parse, read, taken, if_neg ((given arguments).mp targeted)]
    rfl

/-- **Which command lines are accepted, and as what.** Exactly those that write options
which are compatible and give a target; each option has the last of its values. -/
theorem parse_eq_ok_iff {words : List String} {arguments : Arguments} :
    parse release words = .ok arguments ↔
      ∃ given, Writes release words given ∧ Compatible given ∧ arguments = .ofGiven given ∧
        (arguments.file ≠ none ∨ arguments.workspace ≠ none) := by
  rw [parse_eq_ok_iff_take]
  constructor
  · rintro ⟨classified, read, taken, targeted⟩
    obtain ⟨given, written, set⟩ := writes_of_take read taken
    obtain ⟨compatible, same⟩ :=
      (setAll_eq_ok_iff (valued_of_writes written) compatible_nil).mp set
    exact ⟨given, written, compatible, same, targeted⟩
  · rintro ⟨given, written, compatible, same, targeted⟩
    obtain ⟨classified, read, taken⟩ := take_of_writes written
    have set : Arguments.setAll {} given = .ok arguments :=
      (setAll_eq_ok_iff (valued_of_writes written) compatible_nil).mpr ⟨compatible, same⟩
    refine ⟨classified, read, ?_, targeted⟩
    rw [taken, set]
    rfl

end LintReport.CommandLine
