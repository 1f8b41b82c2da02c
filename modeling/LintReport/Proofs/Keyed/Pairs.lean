import LintReport.Keyed
import Mathlib.Data.List.Induction
import Mathlib.Data.List.Nodup

/-! # Entries written one after another

Writing a value under a name leaves every other value where it is, so the entries that
are made from pairs hold no value that stands in none of them, and pairs with distinct
names are entries already (`Keyed.ofPairs_eq_self`). -/

namespace LintReport.Keyed

variable {Value : Type}

@[simp]
theorem keys_nil : keys ([] : Keyed Value) = [] := rfl

@[simp]
theorem keys_cons (entry : String × Value) (rest : Keyed Value) :
    keys (entry :: rest) = entry.1 :: keys rest := rfl

/-- An entry after a replacement was there before it or is the one put in. -/
theorem mem_put {name : String} {value : Value} {entries : Keyed Value} {entry : String × Value}
    (member : entry ∈ entries.put name value) : entry ∈ entries ∨ entry = (name, value) := by
  induction entries with
  | nil =>
      rw [put, List.mem_singleton] at member
      exact .inr member
  | cons first rest ih =>
      rw [put] at member
      split at member
      · next same =>
          rcases List.mem_cons.mp member with rfl | member
          · exact .inr (by rw [same])
          · exact .inl (List.mem_cons_of_mem _ member)
      · rcases List.mem_cons.mp member with rfl | member
        · exact .inl List.mem_cons_self
        · exact (ih member).imp_left (List.mem_cons_of_mem _)

/-- Writing under a name that is absent adds it at the end. -/
theorem put_of_notMem {entries : Keyed Value} {name : String} (absent : name ∉ entries.keys)
    (value : Value) : entries.put name value = entries ++ [(name, value)] := by
  induction entries with
  | nil => rfl
  | cons entry rest ih =>
      simp only [keys, List.map_cons, List.mem_cons, not_or] at absent ih
      rw [put, if_neg (Ne.symm absent.1), ih absent.2, List.cons_append]

/-- Writing under a present name keeps the names, and a new one comes last. -/
theorem keys_put (entries : Keyed Value) (name : String) (value : Value) :
    (entries.put name value).keys =
      if name ∈ entries.keys then entries.keys else entries.keys ++ [name] := by
  induction entries with
  | nil => simp [put]
  | cons entry rest ih =>
      by_cases same : entry.1 = name
      · simp [put, same]
      · rw [put, if_neg same, keys_cons, ih]
        by_cases present : name ∈ keys rest
        · simp [present]
        · simp [present, Ne.symm same]

/-- Putting a value in adds its name only where the name is new. -/
theorem nodup_keys_put {entries : Keyed Value} (distinct : entries.keys.Nodup) (name : String)
    (value : Value) : (entries.put name value).keys.Nodup := by
  rw [keys_put]
  split
  · exact distinct
  · next absent =>
      refine List.nodup_append.mpr ⟨distinct, List.nodup_singleton _, ?_⟩
      intro key present other single equal
      rw [List.mem_singleton.mp single] at equal
      exact absent (equal ▸ present)

theorem nodup_keys_erase {entries : Keyed Value} (distinct : entries.keys.Nodup) (name : String) :
    (entries.erase name).keys.Nodup :=
  distinct.sublist (List.filter_sublist.map _)

/-- A name gives no value exactly if it is not among the names. -/
theorem get?_eq_none_iff {entries : Keyed Value} {name : String} :
    entries.get? name = none ↔ name ∉ entries.keys := by
  induction entries with
  | nil => simp [get?]
  | cons entry rest ih =>
      by_cases same : entry.1 = name
      · simp [get?, same]
      · simp [get?, same, ih, Ne.symm same]

theorem has_iff_mem_keys {entries : Keyed Value} {name : String} :
    entries.has name ↔ name ∈ entries.keys := by
  rw [has, Option.isSome_iff_ne_none, Ne, get?_eq_none_iff, not_not]

/-- A value that is found stands beside its name. -/
theorem mem_of_get? {name : String} {value : Value} {entries : Keyed Value}
    (found : entries.get? name = some value) : (name, value) ∈ entries := by
  induction entries with
  | nil => simp [get?] at found
  | cons entry rest ih =>
      rw [get?] at found
      split at found
      · next same =>
          rw [Option.some.injEq] at found
          subst same found
          exact List.mem_cons_self
      · exact List.mem_cons_of_mem _ (ih found)

/-- What is looked up in changed entries is changed as they are. -/
theorem get?_map {Other : Type} (change : Value → Other) (entries : Keyed Value) (name : String) :
    Keyed.get? name (entries.map fun entry => (entry.1, change entry.2)) =
      (entries.get? name).map change := by
  induction entries with
  | nil => rfl
  | cons entry rest ih =>
      rw [List.map_cons, get?, get?, ih]
      split <;> rfl

/-- With distinct names each entry is the one that is looked up under its name. -/
theorem get?_of_mem {entries : Keyed Value} (distinct : entries.keys.Nodup)
    {entry : String × Value} (member : entry ∈ entries) :
    entries.get? entry.1 = some entry.2 := by
  induction entries with
  | nil => cases member
  | cons first rest ih =>
      obtain ⟨absent, distinct⟩ := List.nodup_cons.mp distinct
      rcases List.mem_cons.mp member with rfl | later
      · exact if_pos rfl
      · have other : first.1 ≠ entry.1 := fun same => absent (same ▸ List.mem_map_of_mem later)
        rw [get?, if_neg other, ih distinct later]

/-- Entries with two names in order are two entries in that order. -/
theorem eq_pair_of_keys {entries : Keyed Value} {first second : String}
    (names : entries.keys = [first, second]) :
    ∃ one two, entries = [(first, one), (second, two)] := by
  match entries, names with
  | [(_, one), (_, two)], rfl => exact ⟨one, two, rfl⟩

/-- Taking out a name that is not there changes nothing. -/
theorem erase_of_not_has {entries : Keyed Value} {name : String} (absent : ¬ entries.has name) :
    entries.erase name = entries := by
  apply List.filter_eq_self.mpr
  intro entry member
  rw [has, Bool.not_eq_true, Option.isSome_eq_false_iff, Option.isNone_iff_eq_none,
    get?_eq_none_iff] at absent
  have other : entry.1 ≠ name := fun same => absent (same ▸ List.mem_map_of_mem member)
  exact decide_eq_true other

theorem ofPairs_concat (pairs : List (String × Value)) (pair : String × Value) :
    ofPairs (pairs ++ [pair]) = (ofPairs pairs).put pair.1 pair.2 := by
  simp [ofPairs]

/-- Pairs with distinct names are the entries that are made from them. -/
theorem ofPairs_eq_self {pairs : List (String × Value)} (distinct : (keys pairs).Nodup) :
    ofPairs pairs = pairs := by
  induction pairs using List.reverseRecOn with
  | nil => rfl
  | append_singleton pairs pair ih =>
      rw [keys, List.map_append] at distinct
      obtain ⟨before, _, apart⟩ := List.nodup_append.mp distinct
      have absent : pair.1 ∉ keys pairs := by
        intro present
        exact apart _ present _ (List.mem_singleton_self _) rfl
      rw [ofPairs_concat, ih before, put_of_notMem absent]

/-- Among pairs put in one after the other each name is left once. -/
theorem nodup_keys_ofPairs (pairs : List (String × Value)) : (ofPairs pairs).keys.Nodup := by
  induction pairs using List.reverseRecOn with
  | nil => exact List.nodup_nil
  | append_singleton pairs pair ih =>
      rw [ofPairs_concat]
      exact nodup_keys_put ih _ _

/-- Every value of an object stands in one of the pairs that it was made from. -/
theorem exists_of_mem_ofPairs {pairs : List (String × Value)} {entry : String × Value}
    (member : entry ∈ ofPairs pairs) : ∃ pair ∈ pairs, pair.2 = entry.2 := by
  induction pairs using List.reverseRecOn with
  | nil => simp [ofPairs] at member
  | append_singleton pairs pair ih =>
      rw [ofPairs_concat] at member
      rcases mem_put member with member | same
      · obtain ⟨other, there, same⟩ := ih member
        exact ⟨other, List.mem_append_left _ there, same⟩
      · exact ⟨pair, by simp, by rw [same]⟩

end LintReport.Keyed
