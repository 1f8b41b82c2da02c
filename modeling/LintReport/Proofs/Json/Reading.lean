import LintReport.Proofs.Json.Grammar
import LintReport.Proofs.Json.Literal

/-! # Reading and the grammar

The reader takes a text apart exactly as the grammar puts it together. What it reads is a
token that denotes the result (`denotes_of_read`), and every token is read as what it
denotes, whatever stands after it (`reads_valueReader`), but for a number, which must not
go on. So a text holds a value exactly when it is a token with space around it
(`parseWithin_eq_ok_iff`). -/

namespace LintReport.Json

open Text

variable {Item : List Char → Value → Prop}

/-! ## Space between tokens -/

theorem isSpacing_takeWhile (text : List Char) : IsSpacing (text.takeWhile isSpace) :=
  fun _ member => List.mem_takeWhile_imp member

theorem eq_spacing_append_skipSpace (text : List Char) :
    text = text.takeWhile isSpace ++ skipSpace text :=
  List.takeWhile_append_dropWhile.symm

theorem skipSpace_append {spacing text : List Char} (space : IsSpacing spacing)
    (starts : StartsWithout isSpace text) : skipSpace (spacing ++ text) = text :=
  dropWhile_run space starts

/-- Spacing before a mark is skipped up to the mark. -/
theorem skipSpace_append_mark {spacing : List Char} (space : IsSpacing spacing) (mark : Char)
    (other : isSpace mark = false) (text : List Char) :
    skipSpace (spacing ++ mark :: text) = mark :: text :=
  skipSpace_append space (startsWithout_cons.mpr other)

theorem skipSpace_eq_nil_iff {text : List Char} : skipSpace text = [] ↔ IsSpacing text :=
  List.dropWhile_eq_nil_iff

theorem continuesNumber_of_isSpace {char : Char} (space : isSpace char) :
    continuesNumber char = false := by
  simp only [isSpace, Bool.or_eq_true, beq_iff_eq, or_assoc] at space
  rcases space with rfl | rfl | rfl | rfl <;> rfl

/-- No number goes on into space. -/
theorem stops_append {spacing text : List Char} (space : IsSpacing spacing) (stops : Stops text) :
    Stops (spacing ++ text) := by
  cases spacing with
  | nil => exact stops
  | cons char rest =>
      exact startsWithout_cons.mpr (continuesNumber_of_isSpace (space char List.mem_cons_self))

theorem stops_append_mark {spacing : List Char} (space : IsSpacing spacing) (mark : Char)
    (other : continuesNumber mark = false) (text : List Char) : Stops (spacing ++ mark :: text) :=
  stops_append space (startsWithout_cons.mpr other)

/-! ## What values start with -/

/-- No value opens with spacing. -/
theorem isSpace_of_opensValue {char : Char} (opens : opensValue char) : isSpace char = false := by
  cases space : isSpace char with
  | false => rfl
  | true =>
      simp only [isSpace, Bool.or_eq_true, beq_iff_eq, or_assoc] at space
      rcases space with rfl | rfl | rfl | rfl <;> simp [opensValue] at opens

/-- A token for a scalar opens as a value does. -/
theorem ScalarText.opens {token : List Char} {value : Value} (scalar : ScalarText token value) :
    ∃ first rest, token = first :: rest ∧ opensValue first := by
  cases scalar with
  | string literal => exact ⟨'"', _, rfl, rfl⟩
  | keyword member =>
      simp only [keywords, List.mem_cons, List.not_mem_nil, or_false, Prod.mk.injEq] at member
      rcases member with ⟨rfl, _⟩ | ⟨rfl, _⟩ | ⟨rfl, _⟩ | ⟨rfl, _⟩ | ⟨rfl, _⟩ | ⟨rfl, _⟩ <;>
        exact ⟨_, _, rfl, rfl⟩
  | number read _ =>
      obtain ⟨_, rfl, ⟨sign, first, others, rfl, signs, digit⟩, _⟩ :=
        NumberLiteral.read?_token read
      rcases signs with rfl | rfl
      · exact ⟨first, _, rfl, by simp [opensValue, digit]⟩
      · exact ⟨'-', _, rfl, rfl⟩

/-- A token opens as a value does, whatever it denotes. -/
theorem Denotes.opens {depth : Nat} {token : List Char} {value : Value}
    (denotes : Denotes depth token value) :
    ∃ first rest, token = first :: rest ∧ opensValue first := by
  cases depth with
  | zero => exact ScalarText.opens denotes
  | succ depth =>
      rcases denotes with scalar | container
      · exact scalar.opens
      · obtain ⟨first, rest, rfl, rfl | rfl⟩ := container.cons <;> exact ⟨_, rest, rfl, rfl⟩

/-! ## Every token is read -/

/-- Whether a reader reads the tokens of a grammar, and nothing but a value may start
one. -/
structure Reads (element : Reader Value) (Item : List Char → Value → Prop) : Prop where
  read : ∀ {token more : List Char} {value : Value}, Item token value → Stops more →
    element.read (token ++ more) = .ok (value, more)
  opens : ∀ {token : List Char} {value : Value}, Item token value →
    ∃ first rest, token = first :: rest ∧ opensValue first

/-- No spacing is left to skip before an item. -/
theorem Reads.startsWithout {element : Reader Value} (reads : Reads element Item)
    {token : List Char} {value : Value} (item : Item token value) (more : List Char) :
    StartsWithout isSpace (token ++ more) := by
  obtain ⟨first, rest, rfl, opens⟩ := reads.opens item
  exact startsWithout_cons.mpr (isSpace_of_opensValue opens)

/-- The text of items opens with its first one. -/
theorem ItemsText.opens {element : Reader Value} (reads : Reads element Item) {text : List Char}
    {values : List Value} (items : ItemsText Item text values) :
    ∃ first rest, text = first :: rest ∧ opensValue first := by
  cases items with
  | last item space =>
      obtain ⟨first, rest, rfl, opens⟩ := reads.opens item
      exact ⟨first, _, rfl, opens⟩
  | more item before after rest =>
      obtain ⟨first, rest, rfl, opens⟩ := reads.opens item
      exact ⟨first, _, rfl, opens⟩

/-- An item before the closing bracket is the last one. -/
theorem readItems_last {element : Reader Value} {text rest after : List Char} {value : Value}
    (first : element.read text = .ok (value, rest)) (closed : skipSpace rest = ']' :: after) :
    readItems element text = .ok ([value], after) := by
  rw [readItems]
  split
  · next failed => simp [first] at failed
  · next found others again =>
      rw [first, Except.ok.injEq, Prod.mk.injEq] at again
      obtain ⟨rfl, rfl⟩ := again
      split <;> simp_all

/-- An item before a comma is followed by the others. -/
theorem readItems_more {element : Reader Value} {text rest after final : List Char} {value : Value}
    {values : List Value} (first : element.read text = .ok (value, rest))
    (separated : skipSpace rest = ',' :: after)
    (others : readItems element (skipSpace after) = .ok (values, final)) :
    readItems element text = .ok (value :: values, final) := by
  rw [readItems]
  split
  · next failed => simp [first] at failed
  · next found others again =>
      rw [first, Except.ok.injEq, Prod.mk.injEq] at again
      obtain ⟨rfl, rfl⟩ := again
      split <;> simp_all

/-- Items are read off their text, up to what follows it. -/
theorem readItems_of_itemsText {element : Reader Value} (reads : Reads element Item)
    {text : List Char} {values : List Value} (items : ItemsText Item text values)
    (more : List Char) : readItems element (text ++ more) = .ok (values, more) := by
  induction items with
  | last item space =>
      simp only [List.append_assoc, List.cons_append, List.nil_append]
      exact readItems_last (reads.read item (stops_append_mark space ']' rfl more))
        (skipSpace_append_mark space ']' rfl more)
  | more item spaceBefore spaceAfter items ih =>
      simp only [List.append_assoc, List.cons_append]
      refine readItems_more (reads.read item (stops_append_mark spaceBefore ',' rfl _))
        (skipSpace_append_mark spaceBefore ',' rfl _) ?_
      obtain ⟨first, inner, rfl, opens⟩ := items.opens reads
      rw [List.cons_append, skipSpace_append_mark spaceAfter first (isSpace_of_opensValue opens)]
      exact ih

/-- A name is read off its text with the colon, up to the value. -/
theorem readName_of_nameText {label : List Char} {name : String} (named : NameText label name)
    {more : List Char} (starts : StartsWithout isSpace more) :
    readName (label ++ more) = .ok (name, more) := by
  obtain ⟨literal, spaceBefore, spaceAfter⟩ := named
  obtain ⟨body, parts, again⟩ := StringLiteral.read_token literal
  rw [List.append_nil] at parts
  subst parts
  simp only [List.append_assoc, List.cons_append]
  rw [readName, again]
  simp only [skipSpace_append_mark spaceBefore ':' rfl, skipSpace_append spaceAfter starts]

/-- An entry before the closing brace is the last one. -/
theorem readEntries_last {element : Reader Value} {text middle rest after : List Char}
    {name : String} {value : Value} (named : readName text = .ok (name, middle))
    (first : element.read middle = .ok (value, rest)) (closed : skipSpace rest = '}' :: after) :
    readEntries element text = .ok ([(name, value)], after) := by
  rw [readEntries]
  split
  · next failed => simp [named] at failed
  · next found others again =>
      rw [named, Except.ok.injEq, Prod.mk.injEq] at again
      obtain ⟨rfl, rfl⟩ := again
      split
      · next failed => simp [first] at failed
      · next found others again =>
          rw [first, Except.ok.injEq, Prod.mk.injEq] at again
          obtain ⟨rfl, rfl⟩ := again
          split <;> simp_all

/-- An entry before a comma is followed by the others. -/
theorem readEntries_more {element : Reader Value} {text middle rest after final : List Char}
    {name : String} {value : Value} {entries : List (String × Value)}
    (named : readName text = .ok (name, middle)) (first : element.read middle = .ok (value, rest))
    (separated : skipSpace rest = ',' :: after)
    (others : readEntries element (skipSpace after) = .ok (entries, final)) :
    readEntries element text = .ok ((name, value) :: entries, final) := by
  rw [readEntries]
  split
  · next failed => simp [named] at failed
  · next found others again =>
      rw [named, Except.ok.injEq, Prod.mk.injEq] at again
      obtain ⟨rfl, rfl⟩ := again
      split
      · next failed => simp [first] at failed
      · next found others again =>
          rw [first, Except.ok.injEq, Prod.mk.injEq] at again
          obtain ⟨rfl, rfl⟩ := again
          split <;> simp_all

/-- The text of entries opens with the quote of the first name. -/
theorem EntriesText.cons {text : List Char} {pairs : List (String × Value)}
    (entries : EntriesText Item text pairs) : ∃ rest, text = '"' :: rest := by
  cases entries with
  | last named item space =>
      obtain ⟨rest, rfl⟩ := named.cons
      exact ⟨_, rfl⟩
  | more named item before after others =>
      obtain ⟨rest, rfl⟩ := named.cons
      exact ⟨_, rfl⟩

/-- Entries are read off their text, up to what follows it. -/
theorem readEntries_of_entriesText {element : Reader Value} (reads : Reads element Item)
    {text : List Char} {pairs : List (String × Value)} (entries : EntriesText Item text pairs)
    (more : List Char) : readEntries element (text ++ more) = .ok (pairs, more) := by
  induction entries with
  | last named item space =>
      simp only [List.append_assoc, List.cons_append, List.nil_append]
      exact readEntries_last (readName_of_nameText named (reads.startsWithout item _))
        (reads.read item (stops_append_mark space '}' rfl more))
        (skipSpace_append_mark space '}' rfl more)
  | more named item spaceBefore spaceAfter others ih =>
      simp only [List.append_assoc, List.cons_append]
      refine readEntries_more (readName_of_nameText named (reads.startsWithout item _))
        (reads.read item (stops_append_mark spaceBefore ',' rfl _))
        (skipSpace_append_mark spaceBefore ',' rfl _) ?_
      obtain ⟨inner, rfl⟩ := others.cons
      rw [List.cons_append, skipSpace_append_mark spaceAfter '"' rfl]
      exact ih

theorem readArray_empty (element : Reader Value) {body rest : List Char}
    (closed : skipSpace body = ']' :: rest) : readArray element body = .ok (.array [], rest) := by
  simp only [readArray, closed]

/-- Any other array is read item by item. -/
theorem readArray_filled {element : Reader Value} {body rest : List Char} {values : List Value}
    (filled : (skipSpace body).head? ≠ some ']')
    (items : readItems element (skipSpace body) = .ok (values, rest)) :
    readArray element body = .ok (.array values, rest) := by
  rw [readArray]
  split
  · next closed => simp [closed] at filled
  · rw [items]

theorem readObject_empty (element : Reader Value) {body rest : List Char}
    (closed : skipSpace body = '}' :: rest) : readObject element body = .ok (.object [], rest) := by
  simp only [readObject, closed]

/-- Any other object is read entry by entry, and of two entries with one name the later one counts.
-/
theorem readObject_filled {element : Reader Value} {body rest : List Char}
    {pairs : List (String × Value)} (filled : (skipSpace body).head? ≠ some '}')
    (entries : readEntries element (skipSpace body) = .ok (pairs, rest)) :
    readObject element body = .ok (.object (Keyed.ofPairs pairs), rest) := by
  rw [readObject]
  split
  · next closed => simp [closed] at filled
  · rw [entries]

/-- What starts with neither a quote nor a bracket nor a brace is read as a keyword or a
number. -/
theorem readValue_plain (nested : Option (Reader Value)) {text : List Char}
    (noQuote : text.head? ≠ some '"') (noBracket : text.head? ≠ some '[')
    (noBrace : text.head? ≠ some '{') :
    readValue nested text = match readKeyword? text with
      | some found => .ok found
      | none => readNumber text := by
  unfold readValue
  split
  · simp at noQuote
  · simp at noBracket
  · simp at noBrace
  · rfl

/-- A scalar is read off its token where a number cannot go on, however deep the reader may nest. -/
theorem readValue_of_scalarText {token : List Char} {value : Value}
    (scalar : ScalarText token value) (nested : Option (Reader Value)) {more : List Char}
    (stops : Stops more) : readValue nested (token ++ more) = .ok (value, more) := by
  cases scalar with
  | string literal =>
      obtain ⟨body, parts, again⟩ := StringLiteral.read_token literal
      rw [List.append_nil] at parts
      subst parts
      rw [List.cons_append, readValue, again]
  | keyword member =>
      have found := readKeyword?_append member more
      simp only [keywords, List.mem_cons, List.not_mem_nil, or_false, Prod.mk.injEq] at member
      rw [readValue_plain, found] <;>
        rcases member with ⟨rfl, _⟩ | ⟨rfl, _⟩ | ⟨rfl, _⟩ | ⟨rfl, _⟩ | ⟨rfl, _⟩ | ⟨rfl, _⟩ <;> simp
  | number read denotes =>
      obtain ⟨token, parts, ⟨sign, first, others, start, signs, digit⟩, again⟩ :=
        NumberLiteral.read?_token read
      rw [List.append_nil] at parts
      subst parts
      have number : readNumber (token ++ more) = .ok (value, more) := by
        rw [readNumber, again more stops]
        simp only [denotes]
      have noKeyword := readKeyword?_number signs digit (others ++ more)
      rw [← List.cons_append, ← List.append_assoc, ← start] at noKeyword
      rw [readValue_plain, noKeyword, number] <;>
        rcases signs with rfl | rfl <;> simp [start] <;> rintro rfl <;> simp at digit

/-- A container is read off its token, whatever follows, by a reader that may nest once more. -/
theorem readValue_of_containerText {element : Reader Value} (reads : Reads element Item)
    {token : List Char} {value : Value} (container : ContainerText Item token value)
    (more : List Char) : readValue (some element) (token ++ more) = .ok (value, more) := by
  cases container with
  | emptyArray space =>
      simp only [List.append_assoc, List.cons_append, List.nil_append]
      exact readArray_empty element (skipSpace_append_mark space ']' rfl more)
  | array space items =>
      obtain ⟨first, inner, rfl, opens⟩ := items.opens reads
      have skipped :=
        skipSpace_append_mark space first (isSpace_of_opensValue opens) (inner ++ more)
      have noBracket : first ≠ ']' := by rintro rfl; simp [opensValue] at opens
      simp only [List.append_assoc, List.cons_append]
      refine readArray_filled ?_ ?_
      · simp [skipped, noBracket]
      · rw [skipped]
        exact readItems_of_itemsText reads items more
  | emptyObject space =>
      simp only [List.append_assoc, List.cons_append, List.nil_append]
      exact readObject_empty element (skipSpace_append_mark space '}' rfl more)
  | object space entries =>
      obtain ⟨inner, rfl⟩ := entries.cons
      have skipped := skipSpace_append_mark space '"' rfl (inner ++ more)
      simp only [List.append_assoc, List.cons_append]
      refine readObject_filled ?_ ?_
      · simp [skipped]
      · rw [skipped]
        exact readEntries_of_entriesText reads entries more

/-- Every token is read as what it denotes, whatever stands after it, but for a number,
which must not go on. -/
theorem reads_valueReader (depth : Nat) : Reads (valueReader depth) (Denotes depth) := by
  induction depth with
  | zero => exact ⟨fun scalar stops => readValue_of_scalarText scalar none stops, Denotes.opens⟩
  | succ depth ih =>
      refine ⟨fun denotes stops => ?_, Denotes.opens⟩
      rcases denotes with scalar | container
      · exact readValue_of_scalarText scalar (some (valueReader depth)) stops
      · exact readValue_of_containerText ih container _

/-! ## What is read is a token -/

/-- What is read as a name is the text of that name. -/
theorem nameText_of_readName {text rest : List Char} {name : String}
    (success : readName text = .ok (name, rest)) :
    ∃ label, text = label ++ rest ∧ NameText label name := by
  unfold readName at success
  split at success
  · next opening =>
      split at success
      · simp at success
      · next found others literal =>
          obtain ⟨body, parts, again⟩ := StringLiteral.read_token literal
          split at success
          · next after colon =>
              simp only [Except.ok.injEq, Prod.mk.injEq] at success
              obtain ⟨rfl, rfl⟩ := success
              have closed := again [] []
              rw [List.append_nil] at closed
              refine ⟨_, ?_, .mk closed (isSpacing_takeWhile others) (isSpacing_takeWhile after)⟩
              simp only [List.cons_append, List.append_assoc, List.cons.injEq, true_and]
              rw [← eq_spacing_append_skipSpace after, ← colon, ← eq_spacing_append_skipSpace,
                parts]
          · simp at success
  · simp at success

/-- Whether a reader reads nothing but the tokens of a grammar. -/
def ReadsOnly (element : Reader Value) (Item : List Char → Value → Prop) : Prop :=
  ∀ {text rest : List Char} {value : Value}, element.read text = .ok (value, rest) →
    ∃ token, text = token ++ rest ∧ Item token value

/-- What is read as items is the text of those items. -/
theorem itemsText_of_readItems {element : Reader Value} (only : ReadsOnly element Item)
    {text rest : List Char} {values : List Value}
    (success : readItems element text = .ok (values, rest)) :
    ∃ body, text = body ++ rest ∧ ItemsText Item body values := by
  fun_induction readItems element text generalizing values with
  | case2 text value middle read after closed =>
      simp only [Except.ok.injEq, Prod.mk.injEq] at success
      obtain ⟨rfl, rfl⟩ := success
      obtain ⟨token, rfl, item⟩ := only read
      refine ⟨_, ?_, .last item (isSpacing_takeWhile middle)⟩
      simp only [List.append_assoc, List.cons_append, List.nil_append, ← closed]
      rw [← eq_spacing_append_skipSpace]
  | case4 text value middle read after separated shorter others final more ih =>
      simp only [Except.ok.injEq, Prod.mk.injEq] at success
      obtain ⟨rfl, rfl⟩ := success
      obtain ⟨token, rfl, item⟩ := only read
      obtain ⟨body, parts, items⟩ := ih more
      refine ⟨_, ?_, .more item (isSpacing_takeWhile middle) (isSpacing_takeWhile after) items⟩
      simp only [List.append_assoc, List.cons_append]
      rw [← parts, ← eq_spacing_append_skipSpace after, ← separated, ← eq_spacing_append_skipSpace]
  | _ => simp at success

/-- What is read as entries is the text of those entries. -/
theorem entriesText_of_readEntries {element : Reader Value} (only : ReadsOnly element Item)
    {text rest : List Char} {pairs : List (String × Value)}
    (success : readEntries element text = .ok (pairs, rest)) :
    ∃ body, text = body ++ rest ∧ EntriesText Item body pairs := by
  fun_induction readEntries element text generalizing pairs with
  | case3 text name opened named value middle read after closed =>
      simp only [Except.ok.injEq, Prod.mk.injEq] at success
      obtain ⟨rfl, rfl⟩ := success
      obtain ⟨label, rfl, labelled⟩ := nameText_of_readName named
      obtain ⟨token, rfl, item⟩ := only read
      refine ⟨_, ?_, .last labelled item (isSpacing_takeWhile middle)⟩
      simp only [List.append_assoc, List.cons_append, List.nil_append, ← closed]
      rw [← eq_spacing_append_skipSpace]
  | case5 text name opened named value middle read after separated shorter others final more ih =>
      simp only [Except.ok.injEq, Prod.mk.injEq] at success
      obtain ⟨rfl, rfl⟩ := success
      obtain ⟨label, rfl, labelled⟩ := nameText_of_readName named
      obtain ⟨token, rfl, item⟩ := only read
      obtain ⟨body, parts, entries⟩ := ih more
      refine ⟨_, ?_, .more labelled item (isSpacing_takeWhile middle) (isSpacing_takeWhile after)
        entries⟩
      simp only [List.append_assoc, List.cons_append]
      rw [← parts, ← eq_spacing_append_skipSpace after, ← separated, ← eq_spacing_append_skipSpace]
  | _ => simp at success

/-- What is read as an array is a token for that array. -/
theorem containerText_of_readArray {element : Reader Value} (only : ReadsOnly element Item)
    {text rest : List Char} {value : Value} (success : readArray element text = .ok (value, rest)) :
    ∃ body, text = body ++ rest ∧ ContainerText Item ('[' :: body) value := by
  have spaced := eq_spacing_append_skipSpace text
  unfold readArray at success
  split at success
  · next closed =>
      simp only [Except.ok.injEq, Prod.mk.injEq] at success
      obtain ⟨rfl, rfl⟩ := success
      refine ⟨_, ?_, .emptyArray (isSpacing_takeWhile text)⟩
      rw [List.append_assoc, List.singleton_append, ← closed]
      exact spaced
  · split at success
    · simp at success
    · next items others read =>
        simp only [Except.ok.injEq, Prod.mk.injEq] at success
        obtain ⟨rfl, rfl⟩ := success
        obtain ⟨body, parts, found⟩ := itemsText_of_readItems only read
        refine ⟨_, ?_, .array (isSpacing_takeWhile text) found⟩
        rw [List.append_assoc, ← parts]
        exact spaced

/-- What is read as an object is a token for that object. -/
theorem containerText_of_readObject {element : Reader Value} (only : ReadsOnly element Item)
    {text rest : List Char} {value : Value}
    (success : readObject element text = .ok (value, rest)) :
    ∃ body, text = body ++ rest ∧ ContainerText Item ('{' :: body) value := by
  have spaced := eq_spacing_append_skipSpace text
  unfold readObject at success
  split at success
  · next closed =>
      simp only [Except.ok.injEq, Prod.mk.injEq] at success
      obtain ⟨rfl, rfl⟩ := success
      refine ⟨_, ?_, .emptyObject (isSpacing_takeWhile text)⟩
      rw [List.append_assoc, List.singleton_append, ← closed]
      exact spaced
  · split at success
    · simp at success
    · next pairs others read =>
        simp only [Except.ok.injEq, Prod.mk.injEq] at success
        obtain ⟨rfl, rfl⟩ := success
        obtain ⟨body, parts, found⟩ := entriesText_of_readEntries only read
        refine ⟨_, ?_, .object (isSpacing_takeWhile text) found⟩
        rw [List.append_assoc, ← parts]
        exact spaced

/-- What is read is a scalar, or a container whose reader was there to read it. -/
theorem text_of_readValue {nested : Option (Reader Value)}
    (only : ∀ element, nested = some element → ReadsOnly element Item) {text rest : List Char}
    {value : Value} (success : readValue nested text = .ok (value, rest)) :
    ∃ token, text = token ++ rest ∧
      (ScalarText token value ∨ nested.isSome ∧ ContainerText Item token value) := by
  unfold readValue at success
  split at success
  · split at success
    · simp at success
    · next string others literal =>
        simp only [Except.ok.injEq, Prod.mk.injEq] at success
        obtain ⟨rfl, rfl⟩ := success
        obtain ⟨body, rfl, again⟩ := StringLiteral.read_token literal
        have closed := again [] []
        rw [List.append_nil] at closed
        exact ⟨'"' :: body, rfl, .inl (.string closed)⟩
  · split at success
    · simp at success
    · next element =>
        obtain ⟨body, rfl, container⟩ := containerText_of_readArray (only element rfl) success
        exact ⟨'[' :: body, rfl, .inr ⟨rfl, container⟩⟩
  · split at success
    · simp at success
    · next element =>
        obtain ⟨body, rfl, container⟩ := containerText_of_readObject (only element rfl) success
        exact ⟨'{' :: body, rfl, .inr ⟨rfl, container⟩⟩
  · split at success
    · next found keyword =>
        simp only [Except.ok.injEq] at success
        subst success
        obtain ⟨word, member, rfl⟩ := readKeyword?_token keyword
        exact ⟨word, rfl, .inl (.keyword member)⟩
    · unfold readNumber at success
      split at success
      · simp at success
      · next literal others read =>
          split at success
          · next number denotes =>
              simp only [Except.ok.injEq, Prod.mk.injEq] at success
              obtain ⟨rfl, rfl⟩ := success
              obtain ⟨token, rfl, _, again⟩ := NumberLiteral.read?_token read
              have whole := again [] startsWithout_nil
              rw [List.append_nil] at whole
              exact ⟨token, rfl, .inl (.number whole denotes)⟩
          · simp at success

/-- What is read is a token that denotes the result. -/
theorem denotes_of_read (depth : Nat) : ReadsOnly (valueReader depth) (Denotes depth) := by
  induction depth with
  | zero =>
      intro text rest value success
      have only : ∀ element : Reader Value, none = some element →
          ReadsOnly element (Denotes 0) := by simp
      obtain ⟨token, parts, scalar | ⟨nested, _⟩⟩ := text_of_readValue only success
      · exact ⟨token, parts, scalar⟩
      · simp at nested
  | succ depth ih =>
      intro text rest value success
      have only : ∀ element, some (valueReader depth) = some element →
          ReadsOnly element (Denotes depth) := by
        intro element same
        exact Option.some.inj same ▸ ih
      obtain ⟨token, parts, scalar | ⟨_, container⟩⟩ := text_of_readValue only success
      · exact ⟨token, parts, .inl scalar⟩
      · exact ⟨token, parts, .inr container⟩

/-! ## Whole texts -/

/-- Reads a text that holds one value with space around it, in which at most `depth`
containers nest. -/
def parseWithin (depth : Nat) (text : List Char) : Except Fault Value :=
  if text.head? = some '\uFEFF' then .error (.misread .byteOrderMark text)
  else
    match (valueReader depth).read (skipSpace text) with
    | .error fault => .error fault
    | .ok (value, rest) =>
        match skipSpace rest with
        | [] => .ok value
        | rest => .error (.misread .extraData rest)

theorem parse_eq_parseWithin (text : List Char) : parse text = parseWithin maxDepth text := rfl

/-- **What texts hold.** A text holds a value exactly when it is a token of that value
with space around it. -/
theorem parseWithin_eq_ok_iff {depth : Nat} {text : List Char} {value : Value} :
    parseWithin depth text = .ok value ↔
      ∃ before token after, text = before ++ (token ++ after) ∧ IsSpacing before ∧
        Denotes depth token value ∧ IsSpacing after := by
  constructor
  · intro success
    unfold parseWithin at success
    split at success
    · simp at success
    · split at success
      · simp at success
      · next found rest read =>
          split at success
          · next nothing =>
              simp only [Except.ok.injEq] at success
              subst success
              obtain ⟨token, parts, denotes⟩ := denotes_of_read depth read
              refine ⟨_, token, rest, ?_, isSpacing_takeWhile text, denotes,
                skipSpace_eq_nil_iff.mp nothing⟩
              rw [← parts]
              exact eq_spacing_append_skipSpace text
          · simp at success
  · rintro ⟨before, token, after, rfl, spaceBefore, denotes, spaceAfter⟩
    have read := (reads_valueReader depth).read denotes
      (stops_append spaceAfter startsWithout_nil)
    rw [List.append_nil] at read
    obtain ⟨first, rest, rfl, opens⟩ := denotes.opens
    have noMark : (before ++ (first :: rest ++ after)).head? ≠ some '\uFEFF' := by
      intro start
      cases before with
      | nil =>
          rw [List.nil_append, List.cons_append, List.head?_cons, Option.some.injEq] at start
          subst start
          simp [opensValue] at opens
      | cons char others =>
          rw [List.cons_append, List.head?_cons, Option.some.injEq] at start
          subst start
          exact Bool.false_ne_true (spaceBefore _ List.mem_cons_self)
    rw [parseWithin, if_neg noMark, List.cons_append,
      skipSpace_append_mark spaceBefore first (isSpace_of_opensValue opens)]
    simp only [← List.cons_append, read, skipSpace_eq_nil_iff.mpr spaceAfter]

end LintReport.Json
