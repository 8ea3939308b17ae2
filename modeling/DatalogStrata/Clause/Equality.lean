import DatalogStrata.Clause.Basic

/-!
# Equality of clauses

Terms, literals and atoms are compared node by node. The comparison is exact, which makes
equality of clauses decidable.

## Main results

* `Term.same_iff`, `Literal.same_iff`, `Atom.same_iff` — the comparison holds of equal trees only
-/

namespace DatalogStrata

mutual

/-- Whether two terms are equal. -/
def Term.same : Term → Term → Bool
  | .variable a, .variable b => a == b
  | .constant a, .constant b => a == b
  | .placeholder, .placeholder => true
  | .record a, .record b => Term.sameAll a b
  | .functor f a, .functor g b => f == g && Term.sameAll a b
  | .aggregate o none a, .aggregate p none b => o == p && Literal.sameAll a b
  | .aggregate o (some t) a, .aggregate p (some u) b =>
    o == p && t.same u && Literal.sameAll a b
  | _, _ => false

/-- Whether two lists of terms are equal. -/
def Term.sameAll : List Term → List Term → Bool
  | [], [] => true
  | a :: as, b :: bs => a.same b && Term.sameAll as bs
  | _, _ => false

/-- Whether two literals are equal. -/
def Literal.same : Literal → Literal → Bool
  | .atom a, .atom b => a.same b
  | .negation a, .negation b => a.same b
  | .constraint l c r, .constraint m d s => c == d && l.same m && r.same s
  | .bool a, .bool b => a == b
  | _, _ => false

/-- Whether two lists of literals are equal. -/
def Literal.sameAll : List Literal → List Literal → Bool
  | [], [] => true
  | a :: as, b :: bs => a.same b && Literal.sameAll as bs
  | _, _ => false

/-- Whether two atoms are equal. -/
def Atom.same : Atom → Atom → Bool
  | ⟨n, a⟩, ⟨m, b⟩ => n == m && Term.sameAll a b

end

mutual

theorem Term.same_iff : ∀ s t : Term, s.same t = true ↔ s = t
  | .variable _, t => by cases t <;> simp [Term.same]
  | .constant _, t => by cases t <;> simp [Term.same]
  | .placeholder, t => by cases t <;> simp [Term.same]
  | .record a, t => by cases t <;> simp [Term.same, Term.sameAll_iff a]
  | .functor _ a, t => by cases t <;> simp [Term.same, Term.sameAll_iff a]
  | .aggregate _ none a, t => by
    cases t with
    | aggregate _ target _ => cases target <;> simp [Term.same, Literal.sameAll_iff a]
    | _ => simp [Term.same]
  | .aggregate _ (some u) a, t => by
    cases t with
    | aggregate _ target _ =>
      cases target <;> simp [Term.same, Term.same_iff u, Literal.sameAll_iff a, and_assoc]
    | _ => simp [Term.same]

theorem Term.sameAll_iff : ∀ s t : List Term, Term.sameAll s t = true ↔ s = t
  | [], t => by cases t <;> simp [Term.sameAll]
  | a :: as, t => by
    cases t <;> simp [Term.sameAll, Term.same_iff a, Term.sameAll_iff as]

theorem Literal.same_iff : ∀ s t : Literal, s.same t = true ↔ s = t
  | .atom a, t => by cases t <;> simp [Literal.same, Atom.same_iff a]
  | .negation a, t => by cases t <;> simp [Literal.same, Atom.same_iff a]
  | .constraint l _ r, t => by
    cases t <;> simp [Literal.same, Term.same_iff l, Term.same_iff r]
    -- The comparison looks at the operator first, equality at the left side.
    grind
  | .bool _, t => by cases t <;> simp [Literal.same]

theorem Literal.sameAll_iff : ∀ s t : List Literal, Literal.sameAll s t = true ↔ s = t
  | [], t => by cases t <;> simp [Literal.sameAll]
  | a :: as, t => by
    cases t <;> simp [Literal.sameAll, Literal.same_iff a, Literal.sameAll_iff as]

theorem Atom.same_iff : ∀ s t : Atom, s.same t = true ↔ s = t
  | ⟨_, a⟩, ⟨_, _⟩ => by simp [Atom.same, Term.sameAll_iff a]

end

instance : DecidableEq Term :=
  fun s t => decidable_of_iff (s.same t = true) (Term.same_iff s t)

instance : DecidableEq Literal :=
  fun s t => decidable_of_iff (s.same t = true) (Literal.same_iff s t)

instance : DecidableEq Atom :=
  fun s t => decidable_of_iff (s.same t = true) (Atom.same_iff s t)

deriving instance DecidableEq for Clause

end DatalogStrata
