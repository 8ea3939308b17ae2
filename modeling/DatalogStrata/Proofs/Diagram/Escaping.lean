import DatalogStrata.Diagram.Page
import DatalogStrata.Proofs.Diagram.Decoding
import Mathlib.Algebra.Group.Nat.Even
import Mathlib.Data.List.DropRight

/-!
# Escaped texts

Names in DOT text and titles on pages are escaped by replacing one character after another. In both
cases the order of the replacements is right, so every character is escaped on its own, and what is
escaped can be told from what stands around it: no quote within a quoted name ends the name, and no
angle bracket within a title begins or ends a tag.

A quote counts as escaped by the backslashes directly before it, which is a matter of the text
alone. Reading stops at the first quote that is not escaped, so the round trip of names tells where
such quotes stand.

## Main definitions

* `Dot.Unescaped`, `Dot.FirstUnescaped` — where a quote is not escaped, and where the first one is
* `Page.references` — the characters that are escaped on a page and their names
* `Page.unescape` — a text as a page shows it

## Main results

* `Dot.firstUnescaped_of_readEscaped?` — reading stops at the first quote that is not escaped
* `Dot.unescaped_in_quote_iff` — the quotes of a quoted text that are not escaped are the outer two
* `Page.toList_escape`, `Page.unescape_escape` — escaping on a page is one pass and is undone
* `escaped_character_by_character` — both ways of escaping
-/

namespace DatalogStrata

namespace Dot

/-! ## Quotes that are not escaped -/

variable {before front inside : List Char} {c : Char}

/-- A quote behind this text is not escaped: the backslashes directly before it make pairs. -/
def Unescaped (before : List Char) : Prop :=
  Even (before.rtakeWhile (· = '\\')).length

instance : Decidable (Unescaped before) :=
  inferInstanceAs (Decidable (Even _))

@[simp] theorem unescaped_nil : Unescaped [] := by
  decide

/-- One more backslash escapes the quote, or it is escaped itself. -/
@[simp] theorem unescaped_concat_backslash : Unescaped (before ++ ['\\']) ↔ ¬ Unescaped before := by
  rw [Unescaped, List.rtakeWhile_concat_pos _ _ _ (by simp), List.length_append,
    List.length_singleton, Nat.even_add_one, Unescaped]

theorem unescaped_concat (before : List Char) (other : c ≠ '\\') : Unescaped (before ++ [c]) := by
  rw [Unescaped, List.rtakeWhile_concat_neg _ _ _ (by simpa using other)]
  exact Even.zero

/-- A text in front makes no difference if it escapes nothing behind it. -/
theorem unescaped_append (closed : Unescaped front) :
    Unescaped (front ++ before) ↔ Unescaped before := by
  induction before using List.reverseRecOn with
  | nil => simpa using closed
  | append_singleton before c ih =>
    rw [← List.append_assoc]
    by_cases backslash : c = '\\'
    · subst backslash
      rw [unescaped_concat_backslash, unescaped_concat_backslash, ih]
    · exact iff_of_true (unescaped_concat _ backslash) (unescaped_concat _ backslash)

/-- A quote behind this text is the first one that is not escaped. -/
structure FirstUnescaped (inside : List Char) : Prop where
  closing : Unescaped inside
  escaped : ∀ before after, inside = before ++ '"' :: after → ¬ Unescaped before

namespace FirstUnescaped

theorem nil : FirstUnescaped [] :=
  ⟨unescaped_nil, by simp⟩

theorem singleton (noBackslash : c ≠ '\\') (noQuote : c ≠ '"') : FirstUnescaped [c] where
  closing := unescaped_concat [] noBackslash
  escaped := by
    intro before after split
    cases before with
    | nil => exact absurd (List.cons.inj split).1 noQuote
    | cons d before => simp at split

/-- A character behind a backslash is escaped, even if it is a backslash. -/
theorem pair (c : Char) : FirstUnescaped ['\\', c] where
  closing := by
    by_cases backslash : c = '\\'
    · subst backslash
      decide
    · exact unescaped_concat ['\\'] backslash
  escaped := by
    intro before after split
    match before with
    | [] => exact absurd (List.cons.inj split).1 (by decide)
    | [d] =>
      rw [← (List.cons.inj split).1]
      decide
    | d :: e :: before => simp at split

/-- Texts of this kind one after another are of this kind: the first one escapes nothing in the
second, which does not begin with a quote. -/
theorem append (first : FirstUnescaped front) (second : FirstUnescaped inside) :
    FirstUnescaped (front ++ inside) where
  closing := (unescaped_append first.closing).mpr second.closing
  escaped := by
    intro before after split
    obtain ⟨between, rfl, later⟩ | ⟨between, sooner, later⟩ := List.append_eq_append_iff.mp split
    · exact mt (unescaped_append first.closing).mp (second.escaped between after later)
    · cases between with
      | nil => exact absurd unescaped_nil (second.escaped [] after later.symm)
      | cons quotes between =>
        obtain ⟨rfl, -⟩ := List.cons.inj later
        exact first.escaped before between sooner

end FirstUnescaped

/-- Reading stops at the first quote that is not escaped and leaves what follows it. -/
theorem firstUnescaped_of_readEscaped? {text name rest : List Char}
    (read : readEscaped? text = some (name, rest)) :
    ∃ inside, text = inside ++ '"' :: rest ∧ FirstUnescaped inside := by
  induction text using readEscaped?.induct generalizing name with
  | case1 => simp [readEscaped?] at read
  | case2 text =>
    simp only [readEscaped?, Option.some_inj, Prod.mk.injEq] at read
    obtain ⟨-, rfl⟩ := read
    exact ⟨[], rfl, .nil⟩
  | case3 c text ih =>
    simp only [readEscaped?, Option.map_eq_some_iff, Prod.exists, Prod.mk.injEq] at read
    obtain ⟨name, _, later, -, rfl⟩ := read
    obtain ⟨inside, rfl, first⟩ := ih later
    exact ⟨'\\' :: c :: inside, rfl, (FirstUnescaped.pair c).append first⟩
  | case4 c text noQuote noPair ih =>
    simp only [readEscaped?, Option.map_eq_some_iff, Prod.exists, Prod.mk.injEq] at read
    obtain ⟨name, rest, later, -, rfl⟩ := read
    obtain ⟨inside, rfl, first⟩ := ih later
    -- A backslash here would be the last character, but a quote is still to come.
    have noBackslash : c ≠ '\\' := by
      intro backslash
      obtain ⟨next, more, goesOn⟩ := List.exists_cons_of_ne_nil
        (List.append_ne_nil_of_right_ne_nil inside (List.cons_ne_nil '"' rest))
      exact noPair next more backslash goesOn
    exact ⟨c :: inside, rfl, (FirstUnescaped.singleton noBackslash noQuote).append first⟩

theorem firstUnescaped_escape (text : List Char) : FirstUnescaped (text.flatMap escape) := by
  obtain ⟨inside, split, first⟩ := firstUnescaped_of_readEscaped? (readEscaped?_escape text [])
  rwa [List.append_cancel_right split]

/-- The quotes of a quoted text that are not escaped are the first and the last character. -/
theorem unescaped_in_quote_iff {text : String} {before after : List Char}
    (split : (quote text).toList = before ++ '"' :: after) :
    Unescaped before ↔ before = [] ∨ after = [] := by
  have first := firstUnescaped_escape text.toList
  rw [toList_quote, List.cons_append] at split
  cases before with
  | nil => exact iff_of_true unescaped_nil (.inl rfl)
  | cons c before =>
    rw [List.cons_append, List.cons.injEq] at split
    obtain ⟨rfl, split⟩ := split
    rw [← List.singleton_append, unescaped_append (by decide)]
    obtain rfl | ⟨after, last, rfl⟩ := after.eq_nil_or_concat
    · rw [← List.append_cancel_right split]
      exact iff_of_true first.closing (.inr rfl)
    · rw [List.concat_eq_append, ← List.cons_append, ← List.append_assoc] at split
      have inner := (List.append_inj' split rfl).1
      exact iff_of_false (first.escaped before after inner) (by simp)

end Dot

namespace Page

/-! ## Titles -/

/-- The characters that are escaped on a page, and their names. The ampersand comes first, since
every name begins with one. -/
def references : List (Char × List Char) :=
  [('&', "&amp;".toList), ('<', "&lt;".toList), ('>', "&gt;".toList)]

/-- Undo the escaping of a text. -/
def unescape (text : String) : String :=
  String.ofList (restore references text.toList)

theorem escape_eq_replaceInTurn (text : String) :
    escape text = String.ofList (replaceInTurn references text.toList) := rfl

/-- No name holds a character that is escaped later, so all replacements are one pass. -/
theorem toList_escape (text : String) :
    (escape text).toList = text.toList.flatMap (standsFor references) := by
  rw [escape_eq_replaceInTurn, String.toList_ofList, replaceInTurn_eq_flatMap (by decide)]

/-- Nothing in an escaped text opens or closes a tag. -/
theorem not_mem_escape {c : Char} (bracket : c = '<' ∨ c = '>') (text : String) :
    c ∉ (escape text).toList := by
  rw [toList_escape]
  apply not_mem_flatMap_standsFor <;> obtain rfl | rfl := bracket <;> decide

/-- Every name begins with an ampersand, which is escaped itself, and none begins another. -/
theorem reversible_references : Reversible references :=
  ⟨by decide, by decide⟩

theorem unescape_escape (text : String) : unescape (escape text) = text := by
  rw [unescape, toList_escape, reversible_references.restore_flatMap, String.ofList_toList]

end Page

/-! ## Both ways of escaping -/

/-- Texts are escaped character by character, although this is done by one replacement after
another, and they are read back. A quoted text has no quotes that are not escaped but the outer
two, and it is read up to the second of them, whatever follows. A text on a page has no angle
brackets, and the text itself is what unescaping gives. -/
theorem escaped_character_by_character (text : String) :
    ((Dot.quote text).toList = '"' :: text.toList.flatMap Dot.escape ++ ['"'] ∧
      (∀ before after, (Dot.quote text).toList = before ++ '"' :: after →
        (Dot.Unescaped before ↔ before = [] ∨ after = [])) ∧
      ∀ rest, Dot.readName? ((Dot.quote text).toList ++ rest) = some (text, rest)) ∧
    (Page.escape text).toList = text.toList.flatMap (standsFor Page.references) ∧
      '<' ∉ (Page.escape text).toList ∧ '>' ∉ (Page.escape text).toList ∧
      Page.unescape (Page.escape text) = text :=
  ⟨⟨Dot.toList_quote text, fun _ _ => Dot.unescaped_in_quote_iff, Dot.readName?_quote text⟩,
    Page.toList_escape text, Page.not_mem_escape (.inl rfl) text,
    Page.not_mem_escape (.inr rfl) text, Page.unescape_escape text⟩

namespace LooksEscaped

/-- A text that looks as if it had been escaped before. -/
def text : String := "\\\"&lt;"

/-- It is escaped once more all the same: the quote within does not end it, and what a page shows
is the name of a bracket and not the bracket. -/
theorem escaped_again :
    (Dot.quote text).toList = ['"', '\\', '\\', '\\'] ++ '"' :: "&lt;\"".toList ∧
    ¬ Dot.Unescaped ['"', '\\', '\\', '\\'] ∧
    Dot.readName? ((Dot.quote text).toList ++ ['"', ';']) = some (text, ['"', ';']) ∧
    Page.escape text = "\\\"&amp;lt;" ∧ Page.unescape "\\\"&amp;lt;" = text := by
  obtain ⟨⟨-, quotes, reads⟩, -, -, -, restored⟩ := escaped_character_by_character text
  have split : (Dot.quote text).toList =
      ['"', '\\', '\\', '\\'] ++ '"' :: "&lt;\"".toList := by decide
  have inner := mt (quotes _ _ split).mp (by decide)
  have named : Page.escape text = "\\\"&amp;lt;" := by decide
  exact ⟨split, inner, reads ['"', ';'], named, named ▸ restored⟩

end LooksEscaped

end DatalogStrata
