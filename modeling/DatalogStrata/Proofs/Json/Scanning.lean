import DatalogStrata.Json.Writer
import Mathlib.Data.List.Basic

/-!
# Scanning what is spelled

A list of tokens is legible when the scanner, started between tokens, finds them in their spellings
put one after another. A number or a word is still open when its last character has been taken, so
legible lists do not simply append; they do after punctuation or a string, which leave the scanner
between tokens. Such lists are closed.

## Main definitions

* `Json.Legible`, `Json.Closed` — lists of tokens that the scanner finds in their spellings
* `Json.Token.IsPunctuation` — the tokens that end a word or a number before them

## Main results

* `Json.legible_whole`, `Json.closed_text` — whole numbers and texts are read as they are written
* `Json.Legible.punctuate`, `Json.Closed.append` — how legible lists are put together
* `Json.Legible.scan?_eq` — a legible list is what its spelling is scanned to
-/

namespace DatalogStrata.Json

open Scanner (step?)

/-! ## Ends of tokens -/

/-- Tokens that a single character spells and that nothing continues. -/
def Token.IsPunctuation (token : Token) : Prop :=
  token ∈ [Token.openBrace, .closeBrace, .openBracket, .closeBracket, .comma, .colon]

instance : DecidablePred Token.IsPunctuation :=
  fun token => inferInstanceAs (Decidable (token ∈ [_, _, _, _, _, _]))

/-- No word and no number goes on with this character. -/
structure Delimits (c : Char) : Prop where
  not_alpha : c.isAlpha = false
  not_digit : c.isDigit = false
  not_point : c ≠ '.'

theorem NumberStage.next?_of_delimits {stage : NumberStage} {c : Char} (delimits : Delimits c)
    (complete : stage.complete = true) : stage.next? c = none := by
  have not_mark : ¬(c = 'e' ∨ c = 'E') := by
    intro mark
    obtain rfl | rfl := mark
    · exact absurd delimits.not_alpha (by decide)
    · exact absurd delimits.not_alpha (by decide)
  cases stage <;>
    simp_all [NumberStage.next?, NumberStage.next?.afterWhole, NumberStage.next?.afterFraction,
      NumberStage.complete, delimits.not_digit, delimits.not_point]

/-- A delimiter settles what is open and is then taken between tokens. -/
theorem Scanner.step?_of_delimits {scanner settled : Scanner} {c : Char} (delimits : Delimits c)
    (settles : scanner.settle? = some settled) : scanner.step? c = settled.begin? c := by
  obtain ⟨mode, tokens⟩ := scanner
  cases mode with
  | between =>
    simp only [Scanner.settle?, Option.some.injEq] at settles
    rw [← settles]
    rfl
  | word letters =>
    simp [Scanner.step?, settles, delimits.not_alpha]
  | number stage spelling =>
    have complete : stage.complete = true := by
      by_contra incomplete
      simp [Scanner.settle?, incomplete] at settles
    simp [Scanner.step?, settles, NumberStage.next?_of_delimits delimits complete]
  | string content => cases settles
  | escape content => cases settles
  | hex remaining unit content => cases settles

/-! ## Lists of tokens -/

/-- From between tokens, the scanner reads the spellings of these tokens as these tokens, of which
the last may still be open. -/
def Legible (tokens : List Token) : Prop :=
  ∀ before : List Token, ∃ scanner,
    (tokens.flatMap Token.spelling).foldlM step? ⟨.between, before⟩ = some scanner ∧
      scanner.settle? = some ⟨.between, tokens.reverse ++ before⟩

/-- The scanner reads the spellings of these tokens as these tokens and is then between tokens. -/
def Closed (tokens : List Token) : Prop :=
  ∀ before : List Token, (tokens.flatMap Token.spelling).foldlM step? ⟨.between, before⟩ =
    some ⟨.between, tokens.reverse ++ before⟩

section

variable {first second tokens : List Token} {token : Token}

theorem Closed.legible (closed : Closed tokens) : Legible tokens :=
  fun before => ⟨_, closed before, rfl⟩

theorem Closed.nil : Closed [] :=
  fun _ => rfl

theorem Closed.append (closed : Closed first) (legible : Legible second) :
    Legible (first ++ second) := by
  intro before
  obtain ⟨scanner, read, settles⟩ := legible (first.reverse ++ before)
  refine ⟨scanner, ?_, ?_⟩
  · rw [List.flatMap_append, List.foldlM_append, closed before]
    exact read
  · rw [settles, List.reverse_append, List.append_assoc]

theorem Closed.append_closed (closed : Closed first) (other : Closed second) :
    Closed (first ++ second) := by
  intro before
  rw [List.flatMap_append, List.foldlM_append, closed before]
  refine (other _).trans ?_
  rw [List.reverse_append, List.append_assoc]

/-- Punctuation is taken between tokens as its token. -/
theorem exists_spelling_of_isPunctuation (punctuation : token.IsPunctuation) :
    ∃ c, token.spelling = [c] ∧ Delimits c ∧
      ∀ scanner : Scanner, scanner.begin? c = some (scanner.emit token) := by
  simp only [Token.IsPunctuation, List.mem_cons, List.not_mem_nil, or_false] at punctuation
  obtain rfl | rfl | rfl | rfl | rfl | rfl := punctuation
  all_goals exact ⟨_, rfl, ⟨by decide, by decide, by decide⟩, fun _ => rfl⟩

/-- Punctuation closes the tokens before it. -/
theorem Legible.punctuate (legible : Legible tokens) (token : Token)
    (punctuation : token.IsPunctuation) : Closed (tokens ++ [token]) := by
  intro before
  obtain ⟨scanner, read, settles⟩ := legible before
  obtain ⟨c, spelled, delimits, begins⟩ := exists_spelling_of_isPunctuation punctuation
  rw [List.flatMap_append, List.foldlM_append, read, List.flatMap_singleton, spelled,
    List.reverse_concat]
  change (step? scanner c).bind (fun next => some next) = _
  rw [Option.bind_fun_some, Scanner.step?_of_delimits delimits settles, begins]
  rfl

theorem Closed.punctuation (token : Token) (punctuation : token.IsPunctuation) : Closed [token] :=
  Closed.nil.legible.punctuate token punctuation

/-- The scanner finds legible tokens in their spelling. -/
theorem Legible.scan?_eq (legible : Legible tokens) :
    scan? (tokens.flatMap Token.spelling) = some tokens := by
  obtain ⟨scanner, read, settles⟩ := legible []
  change (List.foldlM step? ⟨.between, []⟩ _).bind _ = _
  rw [read, Option.bind_some, settles, List.append_nil]
  exact congrArg some tokens.reverse_reverse

end

/-! ## Words and whole numbers -/

theorem legible_null : Legible [.null] :=
  fun _ => ⟨_, rfl, rfl⟩

theorem legible_bool : ∀ value : Bool, Legible [.bool value]
  | true => fun _ => ⟨_, rfl, rfl⟩
  | false => fun _ => ⟨_, rfl, rfl⟩

/-- A character that continues a number is added to it. -/
theorem Scanner.step?_number {stage next : NumberStage} {c : Char} (tokens : List Token)
    (spelling : List Char) (continues : stage.next? c = some next) :
    step? ⟨.number stage spelling, tokens⟩ c = some ⟨.number next (c :: spelling), tokens⟩ := by
  simp [step?, continues]

theorem foldlM_digits (digits : List Char) (tokens : List Token)
    (all_digits : ∀ c ∈ digits, c.isDigit = true) : ∀ spelling : List Char,
    digits.foldlM step? ⟨.number .whole spelling, tokens⟩ =
      some ⟨.number .whole (digits.reverse ++ spelling), tokens⟩ := by
  induction digits with
  | nil => exact fun _ => rfl
  | cons c rest ih =>
    intro spelling
    have digit : NumberStage.next? .whole c = some .whole :=
      if_pos (all_digits c List.mem_cons_self)
    rw [List.foldlM_cons, Scanner.step?_number _ _ digit, List.reverse_cons, List.append_assoc]
    exact ih (fun d mem => all_digits d (List.mem_cons_of_mem c mem)) (c :: spelling)

/-- The decimal digits of a positive number start with a digit other than zero. -/
theorem exists_toDigits_eq_cons (n : Nat) (pos : 0 < n) :
    ∃ c rest, Nat.toDigits 10 n = c :: rest ∧ c ≠ '0' := by
  induction n using Nat.strongRecOn with
  | ind n ih =>
    by_cases small : n < 10
    · refine ⟨n.digitChar, [], Nat.toDigits_of_lt_base small, ?_⟩
      intro zero
      rw [Nat.digitChar_eq_zero] at zero
      omega
    · obtain ⟨c, rest, digits, nonzero⟩ := ih (n / 10) (by omega) (by omega)
      refine ⟨c, rest ++ [(n % 10).digitChar], ?_, nonzero⟩
      rw [Nat.toDigits_of_base_le (by decide) (by omega), digits, List.cons_append]

theorem digitsValue_toDigits (n : Nat) : digitsValue (Nat.toDigits 10 n) = n :=
  Nat.ofDigitChars_eq_foldl.symm.trans Nat.ofDigitChars_ten_toDigits

theorem isDigit_of_mem_toDigits {n : Nat} : ∀ c ∈ Nat.toDigits 10 n, c.isDigit = true :=
  fun _ mem => Nat.isDigit_of_mem_toDigits (by decide) (by decide) mem

/-- Between tokens, a digit other than zero begins a number. -/
theorem Scanner.begin?_of_isDigit {c : Char} (digit : c.isDigit = true) (nonzero : c ≠ '0')
    (tokens : List Token) :
    Scanner.begin? ⟨.between, tokens⟩ c = some ⟨.number .whole [c], tokens⟩ := by
  have other : ∀ d : Char, d.isDigit = false → c ≠ d := by
    intro d no_digit same
    rw [same, no_digit] at digit
    cases digit
  simp [Scanner.begin?, isBlank, other, nonzero, digit]

/-- The digits of a positive number, after at most a minus sign, leave the scanner in a whole number
with that spelling. -/
theorem foldlM_toDigits {n : Nat} (pos : 0 < n) (before : List Token) :
    (Nat.toDigits 10 n).foldlM step? ⟨.between, before⟩ =
        some ⟨.number .whole (Nat.toDigits 10 n).reverse, before⟩ ∧
      ('-' :: Nat.toDigits 10 n).foldlM step? ⟨.between, before⟩ =
        some ⟨.number .whole ('-' :: Nat.toDigits 10 n).reverse, before⟩ := by
  obtain ⟨c, rest, digits, nonzero⟩ := exists_toDigits_eq_cons n pos
  have all_digits := isDigit_of_mem_toDigits (n := n)
  rw [digits] at all_digits ⊢
  have digit := all_digits c List.mem_cons_self
  have read := foldlM_digits rest before fun d mem => all_digits d (List.mem_cons_of_mem c mem)
  have after_sign : NumberStage.next? .sign c = some .whole := by
    rw [NumberStage.next?, if_neg nonzero, if_pos digit]
  constructor
  · rw [List.foldlM_cons, List.reverse_cons]
    change (Scanner.begin? _ c).bind _ = _
    rw [Scanner.begin?_of_isDigit digit nonzero]
    exact read [c]
  · rw [List.foldlM_cons, List.reverse_cons, List.reverse_cons, List.append_assoc]
    change List.foldlM step? ⟨.number .sign ['-'], before⟩ (c :: rest) = _
    rw [List.foldlM_cons, Scanner.step?_number _ _ after_sign]
    exact read [c, '-']

/-- A list of digits is the number that it spells. -/
theorem Number.ofSpelling_toDigits (n : Nat) :
    Number.ofSpelling .whole (Nat.toDigits 10 n) = .whole n := by
  have unsigned : ∀ digits, Nat.toDigits 10 n ≠ '-' :: digits := by
    intro digits same
    have sign := isDigit_of_mem_toDigits (n := n) '-' (same ▸ List.mem_cons_self)
    exact absurd sign (by decide)
  rw [Number.ofSpelling, digitsValue_toDigits]
  · rfl
  · exact unsigned

theorem Number.ofSpelling_sign_toDigits {n : Nat} (pos : 0 < n) :
    Number.ofSpelling .whole ('-' :: Nat.toDigits 10 n) = .whole (-(n : Int)) := by
  simp only [Number.ofSpelling, digitsValue_toDigits]
  rw [if_pos (by rfl), if_neg (by omega)]

theorem Scanner.settle?_whole (spelling : List Char) (tokens : List Token) :
    Scanner.settle? ⟨.number .whole spelling.reverse, tokens⟩ =
      some ⟨.between, .number (.ofSpelling .whole spelling) :: tokens⟩ := by
  simp [Scanner.settle?, NumberStage.complete, Scanner.emit]

/-- Whole numbers are written without leading zeros, and zero without a sign. -/
theorem legible_whole (value : Int) : Legible [.number (.whole value)] := by
  intro before
  rw [List.flatMap_singleton, Token.spelling]
  obtain n | n := value
  · rw [wholeSpelling]
    by_cases zero : n = 0
    · subst zero
      exact ⟨_, rfl, rfl⟩
    · refine ⟨_, (foldlM_toDigits (Nat.pos_of_ne_zero zero) before).1, ?_⟩
      rw [Scanner.settle?_whole, Number.ofSpelling_toDigits]
      rfl
  · refine ⟨_, (foldlM_toDigits n.succ_pos before).2, ?_⟩
    rw [Scanner.settle?_whole, Number.ofSpelling_sign_toDigits n.succ_pos]
    rfl

/-! ## Texts -/

theorem hexValue?_hexDigit : ∀ digit < 16, hexValue? (hexDigit digit) = some digit := by
  decide

/-- The escape for a code unit below the surrogates adds the character that it is. -/
theorem foldlM_unitEscape (c : Char) (small : c.toNat < 0x20) (content : List Piece)
    (tokens : List Token) : (unitEscape c.toNat).foldlM step? ⟨.string content, tokens⟩ =
      some ⟨.string (.char c :: content), tokens⟩ := by
  have digits : ∀ n, hexValue? (hexDigit (n % 16)) = some (n % 16) :=
    fun n => hexValue?_hexDigit _ (Nat.mod_lt n (by decide))
  have unit : 16 * (16 * (16 * (c.toNat / 4096 % 16) + c.toNat / 256 % 16) +
      c.toNat / 16 % 16) + c.toNat % 16 = c.toNat := by omega
  have no_low : isLowSurrogate c.toNat = false := by simp [isLowSurrogate]; omega
  have no_high : isHighSurrogate c.toNat = false := by simp [isHighSurrogate]; omega
  have added : addUnit c.toNat content = .char c :: content := by
    simp [addUnit, no_low, no_high]
  simp [unitEscape, step?, digits, unit, added]

/-- What stands for a character in a string is read as that character. -/
theorem foldlM_escapeChar (c : Char) (content : List Piece) (tokens : List Token) :
    (escapeChar c).foldlM step? ⟨.string content, tokens⟩ =
      some ⟨.string (.char c :: content), tokens⟩ := by
  by_cases letter : c ∈ ['"', '\\', '\x08', '\x0c', '\n', '\r', '\t']
  · simp only [List.mem_cons, List.not_mem_nil, or_false] at letter
    obtain rfl | rfl | rfl | rfl | rfl | rfl | rfl := letter
    all_goals rfl
  · simp only [List.mem_cons, List.not_mem_nil, or_false, not_or] at letter
    by_cases small : c.toNat < 0x20
    · simpa [escapeChar, letter, small] using foldlM_unitEscape c small content tokens
    · simp [escapeChar, letter, small, step?]

/-- The content of a text between quotes is one token. -/
theorem foldlM_content (text : List Char) (tokens : List Token) : ∀ content : List Piece,
    ((text.map Piece.char).flatMap Piece.spelling).foldlM step? ⟨.string content, tokens⟩ =
      some ⟨.string ((text.map Piece.char).reverse ++ content), tokens⟩ := by
  induction text with
  | nil => exact fun _ => rfl
  | cons c rest ih =>
    intro content
    rw [List.map_cons, List.flatMap_cons, List.foldlM_append, Piece.spelling, foldlM_escapeChar,
      List.reverse_cons, List.append_assoc]
    exact ih (.char c :: content)

/-- Texts are read as they are written. -/
theorem closed_text (text : String) : Closed [.string (contentOf text)] := by
  intro before
  rw [List.flatMap_singleton, Token.spelling, contentOf, List.cons_append, List.foldlM_cons]
  change List.foldlM step? ⟨.string [], before⟩ _ = _
  rw [List.foldlM_append, foldlM_content, List.append_nil]
  change some (Scanner.emit _ (.string (List.reverse (List.reverse _)))) = _
  rw [List.reverse_reverse]
  rfl

end DatalogStrata.Json
