import LintReport.Proofs.Json.Bare
import LintReport.Proofs.Number.Digits
import LintReport.Proofs.Text.Returns

/-! # Texts with other space between their tokens

The space between the tokens of a container may be another one, and the value is the
same. A change of texts that keeps what holds no control character and turns space into
space (`Respacing`) changes no value, because in the text of a value control characters
stand in the space alone (`Respacing.denotes`). A carriage return before every newline is
such a change, and so is taking it away (`denotes_withReturns_iff`). -/

namespace LintReport.Json

open Text

/-! ## Control characters -/

/-- The characters that no literal may hold. -/
def isControl (char : Char) : Bool :=
  char.toNat < 0x20

/-- Whether a text holds no control character. -/
def IsGraphic (text : List Char) : Prop :=
  ∀ char ∈ text, isControl char = false

theorem IsGraphic.endsWithout {text : List Char} (graphic : IsGraphic text) :
    EndsWithout isControl text :=
  fun char last => graphic char (List.mem_of_getLast? last)

theorem IsGraphic.startsWithout {text : List Char} (graphic : IsGraphic text) :
    StartsWithout isControl text :=
  fun char start => graphic char (List.mem_of_mem_head? start)

theorem isGraphic_nil : IsGraphic [] := by
  intro char member
  cases member

/-- A graphic character before a graphic text makes a graphic text. -/
theorem isGraphic_cons {char : Char} {text : List Char} (here : isControl char = false)
    (later : IsGraphic text) : IsGraphic (char :: text) := by
  intro other member
  rcases List.mem_cons.mp member with rfl | member
  · exact here
  · exact later other member

namespace StringLiteral

/-- A hexadecimal digit is no control character. -/
theorem isControl_of_hexValue? {char : Char} {value : Nat} (known : hexValue? char = some value) :
    isControl char = false := by
  unfold hexValue? at known
  simp only [isControl, decide_eq_false_iff_not]
  grind

/-- The letter of an escape is no control character. -/
theorem isControl_of_escape? {letter char : Char} (known : escape? letter = some char) :
    isControl letter = false := by
  unfold escape? at known
  split at known <;> first | rfl | simp at known

/-- The four digits of a unit are graphic. -/
theorem isGraphic_of_unit? {first second third fourth : Char} {unit : Nat}
    (known : unit? first second third fourth = some unit) :
    IsGraphic [first, second, third, fourth] := by
  unfold unit? at known
  split at known
  · next a b c d =>
      apply isGraphic_cons (isControl_of_hexValue? a)
      apply isGraphic_cons (isControl_of_hexValue? b)
      apply isGraphic_cons (isControl_of_hexValue? c)
      exact isGraphic_cons (isControl_of_hexValue? d) isGraphic_nil
  · simp at known

/-- A literal holds no control character up to its closing quote. -/
theorem isGraphic_of_pieces {opening text rest : List Char} {found : List Piece}
    (success : pieces opening text = .ok (found, rest)) :
    ∃ body, text = body ++ rest ∧ IsGraphic body := by
  fun_induction pieces opening text generalizing found with
  | case2 rest =>
      simp only [Except.ok.injEq, Prod.mk.injEq] at success
      exact ⟨['"'], by rw [success.2]; rfl, isGraphic_cons rfl isGraphic_nil⟩
  | case4 first second third fourth next rest unit known ih =>
      obtain ⟨others, read, _⟩ := prepend_eq_ok success
      obtain ⟨body, parts, graphic⟩ := ih read
      refine ⟨'\\' :: 'u' :: ([first, second, third, fourth] ++ body), ?_, ?_⟩
      · simp [parts]
      · refine isGraphic_cons rfl (isGraphic_cons rfl ?_)
        intro char member
        rcases List.mem_append.mp member with digit | later
        · exact isGraphic_of_unit? known char digit
        · exact graphic char later
  | case7 letter rest _ plain char known ih =>
      obtain ⟨others, read, _⟩ := prepend_eq_ok success
      obtain ⟨body, rfl, graphic⟩ := ih read
      exact ⟨'\\' :: letter :: body, rfl,
        isGraphic_cons rfl (isGraphic_cons (isControl_of_escape? known) graphic)⟩
  | case10 char rest _ _ _ _ visible ih =>
      obtain ⟨others, read, _⟩ := prepend_eq_ok success
      obtain ⟨body, rfl, graphic⟩ := ih read
      exact ⟨char :: body, rfl, isGraphic_cons (decide_eq_false visible) graphic⟩
  | _ => simp at success

/-- A string literal holds no control character, since those are refused in it. -/
theorem isGraphic_of_read {opening body : List Char} {string : String}
    (success : read opening body = .ok (string, [])) : IsGraphic body := by
  unfold read at success
  split at success
  · next found rest cut =>
      simp only [Except.ok.injEq, Prod.mk.injEq] at success
      obtain ⟨inner, parts, graphic⟩ := isGraphic_of_pieces cut
      rw [success.2, List.append_nil] at parts
      exact parts ▸ graphic
  · simp at success

end StringLiteral

/-- A number has no control character. -/
theorem NumberLiteral.isPart_of_isControl {char : Char} (control : isControl char = true) :
    isPart char = false := by
  have low : char.toNat < 0x20 := of_decide_eq_true control
  have noDigit : char.isDigit = false := by
    cases digit : char.isDigit with
    | false => rfl
    | true => exact absurd (toNat_of_isDigit digit) (by omega)
  have noMark : char ∉ ['-', '+', '.', 'e', 'E'] := by
    intro member
    simp only [List.mem_cons, List.not_mem_nil, or_false] at member
    rcases member with rfl | rfl | rfl | rfl | rfl <;> exact absurd low (by decide)
  rw [isPart, noDigit, Bool.false_or]
  simpa using noMark

/-- Control characters stand between tokens only. -/
theorem ScalarText.isGraphic {token : List Char} {value : Value} (scalar : ScalarText token value) :
    IsGraphic token := by
  cases scalar with
  | string literal => exact isGraphic_cons rfl (StringLiteral.isGraphic_of_read literal)
  | keyword member =>
      have words : ∀ keyword ∈ keywords, keyword.1.all fun char => !isControl char := by decide
      intro char inside
      simpa using List.all_eq_true.mp (words _ member) char inside
  | number read _ =>
      intro char inside
      cases control : isControl char with
      | false => rfl
      | true =>
          have foreign := NumberLiteral.isPart_of_isControl control
          exact absurd (NumberLiteral.mem_read? foreign read inside) List.not_mem_nil

/-! ## Edges of tokens -/

/-- Whether a text starts and ends with characters that are no control characters. -/
structure IsFramed (text : List Char) : Prop where
  filled : text ≠ []
  starts : StartsWithout isControl text
  ends : EndsWithout isControl text

/-- The text of items ends with the closing bracket. -/
theorem ItemsText.concat {Item : List Char → Value → Prop} {text : List Char}
    {values : List Value} (items : ItemsText Item text values) : ∃ rest, text = rest ++ [']'] := by
  induction items with
  | @last token spacing _ _ _ => exact ⟨token ++ spacing, by rw [List.append_assoc]⟩
  | @more token before after _ _ _ _ _ _ _ ih =>
      obtain ⟨rest, rfl⟩ := ih
      exact ⟨token ++ (before ++ ',' :: (after ++ rest)), by
        simp only [List.append_assoc, List.cons_append]⟩

/-- A container ends with its bracket or brace. -/
theorem ContainerText.concat {Item : List Char → Value → Prop} {token : List Char} {value : Value}
    (container : ContainerText Item token value) :
    ∃ rest last, token = rest ++ [last] ∧ (last = ']' ∨ last = '}') := by
  cases container with
  | emptyArray space => exact ⟨_, ']', (List.cons_append ..).symm, .inl rfl⟩
  | @array spacing _ _ space items =>
      obtain ⟨rest, rfl⟩ := items.concat
      exact ⟨'[' :: (spacing ++ rest), ']', by simp, .inl rfl⟩
  | emptyObject space => exact ⟨_, '}', (List.cons_append ..).symm, .inr rfl⟩
  | @object spacing _ _ space entries =>
      obtain ⟨rest, rfl⟩ := entries.concat
      exact ⟨'{' :: (spacing ++ rest), '}', by simp, .inr rfl⟩

/-- A framed text starts without a control character, whatever follows it. -/
theorem IsFramed.starts_append {text : List Char} (framed : IsFramed text) (more : List Char) :
    StartsWithout isControl (text ++ more) :=
  framed.starts.append framed.filled more

/-- The text of items starts as its first item does. -/
theorem ItemsText.starts {Item : List Char → Value → Prop}
    (framed : ∀ token value, Item token value → IsFramed token) {text : List Char}
    {values : List Value} (items : ItemsText Item text values) : StartsWithout isControl text := by
  cases items with
  | last item space => exact (framed _ _ item).starts_append _
  | more item spaceBefore spaceAfter items => exact (framed _ _ item).starts_append _

/-- Every token is framed by characters that are no control characters. -/
theorem Denotes.isFramed {depth : Nat} {token : List Char} {value : Value}
    (denotes : Denotes depth token value) : IsFramed token := by
  have scalar : ScalarText token value → IsFramed token := by
    intro scalar
    obtain ⟨first, rest, parts, _⟩ := scalar.opens
    exact ⟨parts ▸ List.cons_ne_nil _ _, scalar.isGraphic.startsWithout,
      scalar.isGraphic.endsWithout⟩
  cases depth with
  | zero => exact scalar denotes
  | succ depth =>
      rcases denotes with plain | container
      · exact scalar plain
      · obtain ⟨first, rest, parts, opening⟩ := container.cons
        obtain ⟨before, last, same, closing⟩ := container.concat
        refine ⟨parts ▸ List.cons_ne_nil _ _, ?_, ?_⟩
        · rw [parts, startsWithout_cons]
          rcases opening with rfl | rfl <;> rfl
        · rw [same, endsWithout_concat]
          rcases closing with rfl | rfl <;> rfl

/-! ## Respacing -/

/-- A change of texts that turns space into space, keeps what has no control character,
and works on two texts apart unless they meet in control characters. -/
structure Respacing (respaced : List Char → List Char) : Prop where
  graphic : ∀ {text}, IsGraphic text → respaced text = text
  space : ∀ {text}, IsSpacing text → IsSpacing (respaced text)
  append : ∀ {before after}, EndsWithout isControl before ∨ StartsWithout isControl after →
    respaced (before ++ after) = respaced before ++ respaced after

namespace Respacing

variable {respaced : List Char → List Char} (respacing : Respacing respaced)
include respacing

/-- A graphic mark in front stays in front. -/
theorem cons {mark : Char} (graphic : isControl mark = false) (rest : List Char) :
    respaced (mark :: rest) = mark :: respaced rest := by
  have single : IsGraphic [mark] := isGraphic_cons graphic isGraphic_nil
  have apart : respaced ([mark] ++ rest) = respaced [mark] ++ respaced rest :=
    respacing.append (.inl single.endsWithout)
  rw [respacing.graphic single] at apart
  exact apart

theorem nil : respaced [] = [] :=
  respacing.graphic isGraphic_nil

/-- A respacing can be done before and behind a graphic mark on its own. -/
theorem append_cons {mark : Char} (graphic : isControl mark = false) (before rest : List Char) :
    respaced (before ++ mark :: rest) = respaced before ++ mark :: respaced rest := by
  rw [respacing.append (.inr (startsWithout_cons.mpr graphic)), respacing.cons graphic]

/-- A name keeps its text up to spacing around the colon. -/
theorem nameText {label : List Char} {name : String} (named : NameText label name) :
    NameText (respaced label) name := by
  obtain ⟨literal, spaceBefore, spaceAfter⟩ := named
  have body := StringLiteral.isGraphic_of_read literal
  rw [respacing.cons rfl, respacing.append (.inl body.endsWithout), respacing.graphic body,
    respacing.append_cons rfl]
  exact .mk literal (respacing.space spaceBefore) (respacing.space spaceAfter)

section Containers

variable {Item : List Char → Value → Prop}
  (framed : ∀ token value, Item token value → IsFramed token)
  (kept : ∀ token value, Item token value → Item (respaced token) value)
include framed kept

/-- Respaced items are the same items. -/
theorem itemsText {text : List Char} {values : List Value} (items : ItemsText Item text values) :
    ItemsText Item (respaced text) values := by
  induction items with
  | last item space =>
      rw [respacing.append (.inl (framed _ _ item).ends), respacing.append_cons rfl, respacing.nil]
      exact .last (kept _ _ item) (respacing.space space)
  | more item spaceBefore spaceAfter items ih =>
      rw [respacing.append (.inl (framed _ _ item).ends), respacing.append_cons rfl,
        respacing.append (.inr (items.starts framed))]
      exact .more (kept _ _ item) (respacing.space spaceBefore) (respacing.space spaceAfter) ih

/-- Respaced entries are the same entries. -/
theorem entriesText {text : List Char} {pairs : List (String × Value)}
    (entries : EntriesText Item text pairs) : EntriesText Item (respaced text) pairs := by
  induction entries with
  | last named item space =>
      rw [respacing.append (.inr ((framed _ _ item).starts_append _)),
        respacing.append (.inl (framed _ _ item).ends), respacing.append_cons rfl, respacing.nil]
      exact .last (respacing.nameText named) (kept _ _ item) (respacing.space space)
  | more named item spaceBefore spaceAfter others ih =>
      obtain ⟨inner, rfl⟩ := others.cons
      rw [respacing.append (.inr ((framed _ _ item).starts_append _)),
        respacing.append (.inl (framed _ _ item).ends), respacing.append_cons rfl,
        respacing.append_cons rfl, ← respacing.cons rfl]
      exact .more (respacing.nameText named) (kept _ _ item) (respacing.space spaceBefore)
        (respacing.space spaceAfter) ih

/-- A respaced container is the same container. -/
theorem containerText {token : List Char} {value : Value}
    (container : ContainerText Item token value) : ContainerText Item (respaced token) value := by
  cases container with
  | emptyArray space =>
      rw [respacing.cons rfl, respacing.append_cons rfl, respacing.nil]
      exact .emptyArray (respacing.space space)
  | array space items =>
      rw [respacing.cons rfl, respacing.append (.inr (items.starts framed))]
      exact .array (respacing.space space) (respacing.itemsText framed kept items)
  | emptyObject space =>
      rw [respacing.cons rfl, respacing.append_cons rfl, respacing.nil]
      exact .emptyObject (respacing.space space)
  | object space entries =>
      obtain ⟨inner, rfl⟩ := entries.cons
      rw [respacing.cons rfl, respacing.append_cons rfl, ← respacing.cons rfl]
      exact .object (respacing.space space) (respacing.entriesText framed kept entries)

end Containers

/-- **Other space, the same value.** -/
theorem denotes {depth : Nat} {token : List Char} {value : Value}
    (denotes : Denotes depth token value) : Denotes depth (respaced token) value := by
  have scalar : ∀ {token value}, ScalarText token value → ScalarText (respaced token) value := by
    intro token value scalar
    rw [respacing.graphic scalar.isGraphic]
    exact scalar
  induction depth generalizing token value with
  | zero => exact scalar denotes
  | succ depth ih =>
      rcases denotes with plain | container
      · exact .inl (scalar plain)
      · refine .inr (respacing.containerText ?_ ?_ container)
        · exact fun token value => Denotes.isFramed
        · exact fun token value => ih

end Respacing

/-! ## Returns before newlines -/

theorem isUnbroken_of_isGraphic {text : List Char} (graphic : IsGraphic text) :
    '\n' ∉ text ∧ '\r' ∉ text :=
  ⟨fun member => absurd (graphic _ member) (by decide),
    fun member => absurd (graphic _ member) (by decide)⟩

/-- Putting a return before each line feed changes spacing only. -/
theorem respacing_withReturns : Respacing withReturns where
  graphic graphic := withReturns_of_notMem (isUnbroken_of_isGraphic graphic).1
  space := by
    intro text space char member
    obtain ⟨first, inside, same⟩ := List.mem_flatMap.mp member
    split at same
    · rcases List.mem_cons.mp same with rfl | same
      · rfl
      · rw [List.mem_singleton.mp same]
        rfl
    · exact List.mem_singleton.mp same ▸ space first inside
  append _ := withReturns_append _ _

/-- Taking a return out before each line feed changes spacing only. -/
theorem respacing_withoutReturns : Respacing withoutReturns where
  graphic graphic := withoutReturns_of_notMem (isUnbroken_of_isGraphic graphic).2
  space space char member := space char ((withoutReturns_sublist _).mem member)
  append := by
    intro before after apart
    apply withoutReturns_append
    rcases apart with ends | starts
    · exact .inl fun last => absurd (ends _ last) (by decide)
    · exact .inr fun start => absurd (starts _ start) (by decide)

/-- **Returns before newlines change no value**, neither when they come nor when they go. -/
theorem denotes_withReturns_iff {depth : Nat} {token : List Char} {value : Value} :
    Denotes depth (withReturns token) value ↔ Denotes depth token value := by
  constructor
  · intro denotes
    rw [← withoutReturns_withReturns token]
    exact respacing_withoutReturns.denotes denotes
  · exact respacing_withReturns.denotes

end LintReport.Json
