import LintReport.Text.Basic
import Mathlib.Data.List.Infix

/-! # Pieces between marks

Cutting a text at a mark gives pieces without the mark, those before any one mark and those
after it apart from each other (`splitAt_append_cons`). Cutting what was put together from
such pieces gives these back (`splitAt_join`). What occurs in a text without holding the mark
occurs in one of the pieces (`exists_isInfix_of_join`). -/

namespace LintReport.Text

/-- No piece holds the mark that the text was split at. -/
theorem mark_notMem_of_mem_splitAt {mark : Char} {text piece : List Char}
    (member : piece ∈ splitAt mark text) : mark ∉ piece := by
  induction text generalizing piece with
  | nil => simp_all [splitAt]
  | cons char rest ih =>
      rw [splitAt] at member
      split at member
      · rcases List.mem_cons.mp member with rfl | member
        · exact List.not_mem_nil
        · exact ih member
      · next other =>
          split at member
          · next none => exact absurd none (splitAt_ne_nil mark rest)
          · next first others pieces =>
              rcases List.mem_cons.mp member with rfl | member
              · have inner := ih (pieces ▸ List.mem_cons_self)
                simp [Ne.symm other, inner]
              · exact ih (pieces ▸ List.mem_cons_of_mem _ member)

theorem join_cons {pieces : List (List Char)} (filled : pieces ≠ []) (separator piece : List Char) :
    join separator (piece :: pieces) = piece ++ (separator ++ join separator pieces) := by
  rw [join, List.append_assoc]
  exact filled

/-- Joining keeps the characters of every piece. -/
theorem mem_join_of_mem {separator piece : List Char} {pieces : List (List Char)} {char : Char}
    (member : piece ∈ pieces) (inside : char ∈ piece) : char ∈ join separator pieces := by
  induction pieces with
  | nil => cases member
  | cons first pieces ih =>
      by_cases filled : pieces = []
      · subst filled
        rw [List.mem_singleton.mp member] at inside
        exact inside
      · rw [join_cons filled, List.mem_append, List.mem_append]
        obtain rfl | later := List.mem_cons.mp member
        · exact .inl inside
        · exact .inr (.inr (ih later))

theorem mem_of_mem_splitAt {mark char : Char} {text piece : List Char}
    (member : piece ∈ splitAt mark text) (inside : char ∈ piece) : char ∈ text := by
  rw [← join_splitAt mark text]
  exact mem_join_of_mem member inside

/-- A text without the mark is one piece. -/
theorem splitAt_of_notMem {mark : Char} {text : List Char} (absent : mark ∉ text) :
    splitAt mark text = [text] := by
  induction text with
  | nil => rfl
  | cons char rest ih =>
      rw [List.mem_cons, not_or] at absent
      rw [splitAt, if_neg (Ne.symm absent.1), ih absent.2]

/-- A mark separates the pieces before it from those after it. -/
theorem splitAt_append_cons (mark : Char) (before after : List Char) :
    splitAt mark (before ++ mark :: after) = splitAt mark before ++ splitAt mark after := by
  induction before with
  | nil => simp [splitAt]
  | cons char before ih =>
      rw [List.cons_append, splitAt, splitAt, ih]
      split
      · rfl
      · cases pieces : splitAt mark before with
        | nil => exact absurd pieces (splitAt_ne_nil mark before)
        | cons piece others => rfl

/-- A line feed ends the lines before it. -/
theorem lines_append_newline (before after : List Char) :
    lines (before ++ '\n' :: after) = lines before ++ lines after :=
  splitAt_append_cons '\n' before after

/-- Pieces without the mark are what their joined text is cut into. -/
theorem splitAt_join {mark : Char} {pieces : List (List Char)} (filled : pieces ≠ [])
    (absent : ∀ piece ∈ pieces, mark ∉ piece) : splitAt mark (join [mark] pieces) = pieces := by
  induction pieces with
  | nil => exact absurd rfl filled
  | cons piece pieces ih =>
      have here := absent piece List.mem_cons_self
      cases pieces with
      | nil => exact splitAt_of_notMem here
      | cons next pieces =>
          have later := ih (List.cons_ne_nil _ _) fun other member =>
            absent other (List.mem_cons_of_mem _ member)
          rw [join_cons (List.cons_ne_nil _ _), List.singleton_append, splitAt_append_cons,
            splitAt_of_notMem here, later, List.singleton_append]

/-- There are no more pieces that say something than there are characters. -/
theorem countP_filled_splitAt_le (mark : Char) (text : List Char) :
    (splitAt mark text).countP (· ≠ []) ≤ text.length := by
  induction text with
  | nil => exact Nat.le_refl 0
  | cons char rest ih =>
      rw [splitAt, List.length_cons]
      split
      · rw [List.countP_cons_of_neg (by simp)]
        exact Nat.le_succ_of_le ih
      · cases pieces : splitAt mark rest with
        | nil => exact absurd pieces (splitAt_ne_nil mark rest)
        | cons piece others =>
            rw [pieces] at ih
            have fewer : others.countP (· ≠ []) ≤ (piece :: others).countP (· ≠ []) :=
              (List.sublist_cons_self piece others).countP_le
            rw [List.countP_cons_of_pos (by simp)]
            exact Nat.succ_le_succ (Nat.le_trans fewer ih)

/-- Whether these are the lines of a text. -/
structure IsLines (text : List Char) (pieces : List (List Char)) : Prop where
  filled : pieces ≠ []
  unbroken : ∀ piece ∈ pieces, '\n' ∉ piece
  whole : join ['\n'] pieces = text

/-- There is one way to cut a text into lines. -/
theorem isLines_iff {text : List Char} {pieces : List (List Char)} :
    IsLines text pieces ↔ pieces = lines text := by
  constructor
  · rintro ⟨filled, unbroken, rfl⟩
    exact (splitAt_join filled unbroken).symm
  · rintro rfl
    exact ⟨splitAt_ne_nil _ _, fun _ member => mark_notMem_of_mem_splitAt member,
      join_splitAt _ _⟩

/-! ## Occurrences -/

/-- The search for a text finds it exactly where it stands in one piece. -/
theorem occurs_iff_isInfix {needle text : List Char} :
    occurs needle text ↔ needle <:+: text := by
  induction text with
  | nil => simp [occurs]
  | cons char rest ih =>
      rw [occurs, Bool.or_eq_true, List.isPrefixOf_iff_prefix, ih, List.infix_cons_iff]

/-- A needle without a mark occurs on one side of the mark. -/
theorem isInfix_append_cons_iff {needle : List Char} {mark : Char} (absent : mark ∉ needle)
    {before after : List Char} :
    needle <:+: before ++ mark :: after ↔ needle <:+: before ∨ needle <:+: after := by
  constructor
  · rintro ⟨front, back, parts⟩
    rcases List.append_eq_append_iff.mp parts with ⟨rest, whole, _⟩ | ⟨rest, cut, tail⟩
    · exact .inl ⟨front, rest, whole.symm⟩
    · cases rest with
      | nil =>
          rw [List.append_nil] at cut
          exact .inl ⟨front, [], by rw [List.append_nil, cut]⟩
      | cons char rest =>
          -- the mark stands before the end of the needle, so it stands before its start
          obtain ⟨rfl, rfl⟩ := List.cons.inj tail
          rcases List.append_eq_append_iff.mp cut with ⟨other, _, inner⟩ | ⟨other, _, inner⟩
          · exact absurd (inner ▸ List.mem_append_right _ List.mem_cons_self) absent
          · cases other with
            | nil =>
                rw [List.nil_append] at inner
                exact absurd (inner ▸ List.mem_cons_self) absent
            | cons char other =>
                obtain ⟨_, rfl⟩ := List.cons.inj inner
                exact .inr ⟨other, back, rfl⟩
  · rintro (inside | inside)
    · exact inside.trans (List.prefix_append _ _).isInfix
    · exact inside.trans ((List.suffix_cons _ _).trans (List.suffix_append _ _)).isInfix

/-- What occurs in a joined text without holding the mark occurs in one of the pieces. -/
theorem exists_isInfix_of_join {mark : Char} {needle : List Char} (filled : needle ≠ [])
    (absent : mark ∉ needle) {pieces : List (List Char)}
    (inside : needle <:+: join [mark] pieces) : ∃ piece ∈ pieces, needle <:+: piece := by
  induction pieces with
  | nil => exact absurd (List.infix_nil.mp inside) filled
  | cons piece pieces ih =>
      by_cases single : pieces = []
      · subst single
        exact ⟨piece, List.mem_cons_self, inside⟩
      · rw [join_cons single, List.singleton_append, isInfix_append_cons_iff absent] at inside
        rcases inside with here | later
        · exact ⟨piece, List.mem_cons_self, here⟩
        · obtain ⟨other, member, occurs⟩ := ih later
          exact ⟨other, List.mem_cons_of_mem _ member, occurs⟩

end LintReport.Text
