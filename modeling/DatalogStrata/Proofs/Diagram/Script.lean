import DatalogStrata.Diagram.Script
import Mathlib.Data.List.Infix

/-!
# Where a mark occurs

A text is cut at the first occurrence of a mark. Where this is can be told from the parts that a
text is put together from: a part in which no occurrence begins, even one that goes on behind it,
can be left out in front, and no occurrence goes over a character that is not in the mark.

## Main definitions

* `NeverBegins` — a text in which no occurrence of a mark begins, whatever follows

## Main results

* `NeverBegins.append`, `NeverBegins.infix_append_iff` — parts in which no occurrence begins
* `infix_separated_iff` — an occurrence stands on one side of a character outside of the mark
* `cutAt?_append`, `exists_first_infix` — the first occurrence
-/

namespace DatalogStrata

variable {mark text more : List Char} {c : Char}

/-- No occurrence of the mark begins in the text, whatever follows the text. -/
def NeverBegins (mark text : List Char) : Prop :=
  ∀ rest ∈ text.tails, rest ≠ [] → ¬ mark <+: rest ∧ ¬ rest <+: mark

instance : Decidable (NeverBegins mark text) :=
  inferInstanceAs (Decidable (∀ rest ∈ text.tails, rest ≠ [] → ¬ mark <+: rest ∧ ¬ rest <+: mark))

theorem neverBegins_of_not_mem {tail : List Char} (missing : c ∉ text) :
    NeverBegins (c :: tail) text := by
  intro rest ends nonempty
  obtain ⟨d, rest, rfl⟩ := List.exists_cons_of_ne_nil nonempty
  have other : c ≠ d := by
    rintro rfl
    exact missing (((List.mem_tails _ _).mp ends).subset List.mem_cons_self)
  exact ⟨fun within => other (List.cons_prefix_cons.mp within).1,
    fun within => other (List.cons_prefix_cons.mp within).1.symm⟩

/-- A text that is written out is made of its characters, and these decide. -/
theorem neverBegins_ofList (never : NeverBegins mark text) :
    NeverBegins (String.ofList mark).toList (String.ofList text).toList := by
  rwa [String.toList_ofList, String.toList_ofList]

/-- An occurrence over the end of the first text would begin in the first text. -/
theorem NeverBegins.append (first : NeverBegins mark text) (second : NeverBegins mark more) :
    NeverBegins mark (text ++ more) := by
  intro rest ends nonempty
  rw [List.mem_tails] at ends
  obtain inside | ⟨front, rfl⟩ :=
    List.suffix_or_suffix_of_suffix ends (List.suffix_append text more)
  · exact second rest ((List.mem_tails _ _).mpr inside) nonempty
  · cases front with
    | nil => exact second more ((List.mem_tails _ _).mpr List.suffix_rfl) nonempty
    | cons d front =>
      have within : d :: front ∈ text.tails := by
        obtain ⟨before, whole⟩ := ends
        rw [← List.append_assoc] at whole
        exact (List.mem_tails _ _).mpr ⟨before, List.append_cancel_right whole⟩
      obtain ⟨longer, shorter⟩ := first _ within (List.cons_ne_nil d front)
      refine ⟨fun begins => ?_, fun begins => shorter ((List.prefix_append _ _).trans begins)⟩
      exact (List.prefix_or_prefix_of_prefix begins (List.prefix_append _ _)).elim longer shorter

theorem NeverBegins.toList_append {first second : String} (before : NeverBegins mark first.toList)
    (after : NeverBegins mark second.toList) : NeverBegins mark (first ++ second).toList := by
  rw [String.toList_append]
  exact before.append after

/-- A text in which the mark never begins can be left out in front. -/
theorem NeverBegins.infix_append_iff (never : NeverBegins mark text) (nonempty : mark ≠ []) :
    mark <:+: text ++ more ↔ mark <:+: more := by
  rw [List.infix_append_iff]
  constructor
  · rintro (inside | after | ⟨front, back, rfl, ends, begins⟩)
    · obtain ⟨rest, within, ends⟩ := List.infix_iff_prefix_suffix.mp inside
      refine absurd within (never rest ((List.mem_tails _ _).mpr ends) ?_).1
      rintro rfl
      exact nonempty (List.prefix_nil.mp within)
    · exact after
    · cases front with
      | nil => exact begins.isInfix
      | cons d front =>
        exact absurd (List.prefix_append _ _)
          (never _ ((List.mem_tails _ _).mpr ends) (List.cons_ne_nil d front)).2
  · exact fun after => .inr (.inl after)

/-- An occurrence of a mark does not go over a character that is not in the mark. -/
theorem infix_separated_iff (outside : c ∉ mark) (text more : List Char) :
    mark <:+: text ++ c :: more ↔ mark <:+: text ∨ mark <:+: more := by
  rw [List.infix_append_iff, List.infix_cons_iff]
  have front {part : List Char} (within : part <+: c :: more) (missing : c ∉ part) :
      part = [] := by
    cases part with
    | nil => rfl
    | cons d part =>
      rw [(List.cons_prefix_cons.mp within).1] at missing
      exact absurd List.mem_cons_self missing
  constructor
  · rintro (before | (across | after) | ⟨ends, begins, rfl, suffix, across⟩)
    · exact .inl before
    · rw [front across outside]
      exact .inl List.nil_infix
    · exact .inr after
    · have none := front across fun inside => outside (List.mem_append_right _ inside)
      rw [none, List.append_nil]
      exact .inl suffix.isInfix
  · rintro (before | after)
    · exact .inl before
    · exact .inr (.inl (.inr after))

/-- The first occurrence of a mark whose first character does not come again in it is the one that
follows a text without an occurrence. -/
theorem cutAt?_append {tail : List Char} (once : c ∉ tail) (free : ¬ c :: tail <:+: text) :
    cutAt? (c :: tail) (text ++ (c :: tail ++ more)) = some (text, more) := by
  induction text with
  | nil =>
    have found : (c :: tail).isPrefixOf? (c :: tail ++ more) = some more :=
      List.isPrefixOf?_eq_some_iff_append_eq.mpr rfl
    rw [List.nil_append, List.cons_append, cutAt?, ← List.cons_append, found]
  | cons d text ih =>
    have notHere : (c :: tail).isPrefixOf? (d :: (text ++ (c :: tail ++ more))) = none := by
      cases found : (c :: tail).isPrefixOf? (d :: (text ++ (c :: tail ++ more))) with
      | none => rfl
      | some after =>
        have whole := List.isPrefixOf?_eq_some_iff_append_eq.mp found
        have begins : (c :: tail) <+: d :: text ++ (c :: tail ++ more) := ⟨after, whole⟩
        -- An occurrence here would end in the next one, whose first character it would hold again.
        obtain within | beyond := List.prefix_or_prefix_of_prefix begins (List.prefix_append _ _)
        · exact absurd within.isInfix free
        · obtain ⟨across, split⟩ := beyond
          cases across with
          | nil =>
            rw [List.append_nil] at split
            exact absurd (split ▸ List.infix_rfl) free
          | cons first across =>
            rw [← List.cons_append, ← split, List.append_assoc, split] at whole
            have next : first = c := (List.cons.inj (List.append_cancel_left whole)).1
            subst next
            have again : text ++ first :: across = tail := (List.cons.inj split).2
            exact absurd (again ▸ List.mem_append_right text List.mem_cons_self) once
    rw [List.cons_append, cutAt?, notHere, ih fun inside => free (List.infix_cons inside)]
    rfl

/-- What is cut at a mark is put together again with the mark. -/
theorem append_of_cutAt? {before after : List Char} (cut : cutAt? mark text = some (before, after)) :
    before ++ (mark ++ after) = text := by
  induction text generalizing before with
  | nil =>
    rw [cutAt?] at cut
    split at cut
    · next empty =>
      cases cut
      rw [empty]
      rfl
    · cases cut
  | cons d text ih =>
    rw [cutAt?] at cut
    split at cut
    · next rest found =>
      cases cut
      rw [List.nil_append, List.isPrefixOf?_eq_some_iff_append_eq.mp found]
    · rw [Option.map_eq_some_iff] at cut
      obtain ⟨⟨front, rest⟩, found, same⟩ := cut
      cases same
      rw [List.cons_append, ih found]

/-- A mark that occurs has a first occurrence. -/
theorem exists_first_infix (nonempty : mark ≠ []) (occurs : mark <:+: text) :
    ∃ before after, text = before ++ (mark ++ after) ∧ ¬ mark <:+: before := by
  have notEmpty : ¬ mark <:+: [] := fun inside => nonempty (List.infix_nil.mp inside)
  induction text with
  | nil => exact absurd occurs notEmpty
  | cons d text ih =>
    by_cases here : mark <+: d :: text
    · obtain ⟨after, split⟩ := here
      exact ⟨[], after, split.symm, notEmpty⟩
    · obtain ⟨before, after, rfl, free⟩ := ih ((List.infix_cons_iff.mp occurs).resolve_left here)
      refine ⟨d :: before, after, rfl, fun inside => ?_⟩
      obtain begins | later := List.infix_cons_iff.mp inside
      · exact here (begins.trans (List.prefix_append _ _))
      · exact free later

end DatalogStrata
