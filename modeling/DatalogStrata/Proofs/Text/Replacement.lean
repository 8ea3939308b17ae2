import DatalogStrata.Text
import Mathlib.Data.List.Basic

/-!
# Characters replaced one after another

When characters are replaced one after another, a replacement also changes what the ones before it
have put in. It changes none of it if the order is right: then the result is that of one pass over
the text, in which every character is replaced on its own. A pass of this kind can be undone if the
replacements tell each other apart, and tell themselves apart from the characters that stay.

## Main definitions

* `replaceInTurn` — replacements one after another
* `standsFor` — what a character is replaced by when all replacements are made at once
* `restore` — replacements undone, from left to right
* `Reversible` — replacements that can be undone

## Main results

* `replaceInTurn_eq_flatMap` — in the right order the replacements are one pass
* `not_mem_flatMap_standsFor` — a character that is replaced does not stay
* `Reversible.restore_flatMap` — a pass is undone
-/

namespace DatalogStrata

variable {rules : List (Char × List Char)} {rule : Char × List Char} {c : Char}

/-- Replace characters one after another, each in what the replacements before it have left. -/
def replaceInTurn (rules : List (Char × List Char)) (text : List Char) : List Char :=
  rules.foldl (fun text rule => replaceChar rule.1 rule.2 text) text

/-- The replacement of a character, or the character itself if it is not replaced. -/
def standsFor (rules : List (Char × List Char)) (c : Char) : List Char :=
  (rules.lookup c).getD [c]

/-! ## One pass -/

theorem standsFor_cons (c : Char) (replacement : List Char) (rules : List (Char × List Char))
    (d : Char) : standsFor ((c, replacement) :: rules) d =
      if d = c then replacement else standsFor rules d := by
  by_cases same : d = c
  · simp [standsFor, same]
  · simp [standsFor, List.lookup_cons, same, beq_eq_false_iff_ne.mpr same]

/-- A character is not replaced, or it is replaced by one of the replacements for it. -/
theorem standsFor_cases (rules : List (Char × List Char)) (c : Char) :
    ((∀ rule ∈ rules, c ≠ rule.1) ∧ standsFor rules c = [c]) ∨ (c, standsFor rules c) ∈ rules := by
  induction rules with
  | nil => exact .inl ⟨by simp, rfl⟩
  | cons rule rules ih =>
    obtain ⟨d, replacement⟩ := rule
    rw [standsFor_cons]
    by_cases same : c = d
    · subst same
      exact .inr (by simp)
    · rw [if_neg same]
      obtain ⟨unreplaced, itself⟩ | replaced := ih
      · exact .inl ⟨by simpa [same] using unreplaced, itself⟩
      · exact .inr (List.mem_cons_of_mem _ replaced)

/-- A text without any of the characters that are replaced stays as it is. -/
theorem flatMap_standsFor_of_apart {text : List Char} (apart : ∀ rule ∈ rules, rule.1 ∉ text) :
    text.flatMap (standsFor rules) = text := by
  have itself : ∀ c ∈ text, standsFor rules c = [c] := by
    intro c inside
    obtain ⟨-, itself⟩ | replaced := standsFor_cases rules c
    · exact itself
    · exact absurd inside (apart _ replaced)
  rw [List.flatMap_congr itself, List.flatMap_singleton']

/-- Replacements one after another are one pass over the text if no replacement brings in a
character that is replaced later. -/
theorem replaceInTurn_eq_flatMap
    (order : rules.Pairwise fun earlier later => later.1 ∉ earlier.2) (text : List Char) :
    replaceInTurn rules text = text.flatMap (standsFor rules) := by
  induction rules generalizing text with
  | nil => exact (List.flatMap_singleton' text).symm
  | cons rule rules ih =>
    obtain ⟨c, replacement⟩ := rule
    obtain ⟨apart, order⟩ := List.pairwise_cons.mp order
    have kept : replacement.flatMap (standsFor rules) = replacement :=
      flatMap_standsFor_of_apart apart
    calc
      _ = (replaceChar c replacement text).flatMap (standsFor rules) := ih order _
      _ = text.flatMap fun d => (if d = c then replacement else [d]).flatMap (standsFor rules) :=
        List.flatMap_assoc
      _ = text.flatMap (standsFor ((c, replacement) :: rules)) := by
        congr 1
        funext d
        rw [standsFor_cons]
        split
        · exact kept
        · simp

/-- The order matters: a backslash that is put before a quote must not be doubled. -/
example :
    replaceInTurn [('\\', ['\\', '\\']), ('"', ['\\', '"'])] ['"'] = ['\\', '"'] ∧
      replaceInTurn [('"', ['\\', '"']), ('\\', ['\\', '\\'])] ['"'] = ['\\', '\\', '"'] := by
  decide

/-- A character that is replaced, and that no replacement brings in, does not stay. -/
theorem not_mem_flatMap_standsFor (replaced : ∃ rule ∈ rules, c = rule.1)
    (absent : ∀ rule ∈ rules, c ∉ rule.2) (text : List Char) :
    c ∉ text.flatMap (standsFor rules) := by
  intro inside
  obtain ⟨d, -, brought⟩ := List.mem_flatMap.mp inside
  obtain ⟨unreplaced, itself⟩ | member := standsFor_cases rules d
  · rw [itself, List.mem_singleton] at brought
    obtain ⟨rule, member, same⟩ := replaced
    exact unreplaced rule member (brought.symm.trans same)
  · exact absent _ member brought

/-! ## The pass undone -/

/-- Undo replacements from left to right. What is no replacement stays as it is. -/
def restore (rules : List (Char × List Char)) : List Char → List Char
  | [] => []
  | c :: text =>
    match rules.find? fun rule => rule.2.isPrefixOf (c :: text) with
    | some rule => rule.1 :: restore rules (text.drop (rule.2.length - 1))
    | none => c :: restore rules text
termination_by text => text.length
decreasing_by
  · rw [List.length_cons, List.length_drop]
    omega
  · exact Nat.lt_succ_self _

/-- Replacements that are told apart in a text: by their first character from all that is not
replaced, and from each other since none of them begins another. -/
structure Reversible (rules : List (Char × List Char)) : Prop where
  marked : ∀ rule ∈ rules, ∃ other ∈ rules, rule.2.head? = some other.1
  distinct : ∀ rule ∈ rules, ∀ other ∈ rules, rule.2 <+: other.2 → rule = other

namespace Reversible

variable (reversible : Reversible rules)
include reversible

/-- A replacement is undone, whatever follows it. -/
theorem restore_append (member : rule ∈ rules) (text : List Char) :
    restore rules (rule.2 ++ text) = rule.1 :: restore rules text := by
  have found : (rules.find? fun other => other.2.isPrefixOf (rule.2 ++ text)) = some rule := by
    have matching : (rules.find? fun other => other.2.isPrefixOf (rule.2 ++ text)).isSome := by
      rw [List.find?_isSome]
      exact ⟨rule, member, List.isPrefixOf_iff_prefix.mpr (List.prefix_append _ _)⟩
    obtain ⟨other, found⟩ := Option.isSome_iff_exists.mp matching
    have among := List.mem_of_find?_eq_some found
    have begins : other.2 <+: rule.2 ++ text := by simpa using List.find?_some found
    -- Of two replacements that begin one text, one begins the other.
    obtain shorter | longer := List.prefix_or_prefix_of_prefix begins (List.prefix_append _ _)
    · rw [found, reversible.distinct other among rule member shorter]
    · rw [found, ← reversible.distinct rule member other among longer]
  obtain ⟨other, -, first⟩ := reversible.marked rule member
  obtain ⟨tail, split⟩ := List.head?_eq_some_iff.mp first
  rw [split, List.cons_append] at found ⊢
  rw [restore, found]
  simp [split]

/-- A character that is not replaced begins no replacement. -/
theorem restore_cons (unreplaced : ∀ rule ∈ rules, c ≠ rule.1) (text : List Char) :
    restore rules (c :: text) = c :: restore rules text := by
  have missing : (rules.find? fun rule => rule.2.isPrefixOf (c :: text)) = none := by
    rw [List.find?_eq_none]
    intro rule member begins
    obtain ⟨other, among, first⟩ := reversible.marked rule member
    obtain ⟨tail, split⟩ := List.head?_eq_some_iff.mp first
    rw [List.isPrefixOf_iff_prefix, split, List.cons_prefix_cons] at begins
    exact unreplaced other among begins.1.symm
  rw [restore, missing]

/-- One pass of replacements is undone. -/
theorem restore_flatMap (text : List Char) :
    restore rules (text.flatMap (standsFor rules)) = text := by
  induction text with
  | nil => rw [List.flatMap_nil, restore]
  | cons c text ih =>
    rw [List.flatMap_cons]
    obtain ⟨unreplaced, itself⟩ | replaced := standsFor_cases rules c
    · rw [itself, List.singleton_append, reversible.restore_cons unreplaced, ih]
    · rw [reversible.restore_append replaced, ih]

end Reversible

end DatalogStrata
