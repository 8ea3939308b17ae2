import DatalogStrata.Proofs.Clause.Preorder
import Mathlib.Data.List.Basic
import Mathlib.Data.List.Perm.Basic

/-!
# The syntax tree of a clause

A body, a literal, an atom and a term are nodes of one tree, and a place in the tree is the list of
the numbers of the children on the way to it. An atom that is written twice stands at two places.
Places are ordered as words are in a dictionary, which is the preorder of the tree: a node comes
before what stands below it, and what stands below one child before what stands below a later one.

The walk over a clause lists the atoms of the tree in this order, one for each place. An atom is
flagged when its parent is a negation, so negations further up do not matter.

## Main definitions

* `Node`, `Node.children`, `Node.at?` — the tree, and the node at a place in it
* `Node.StandsAt` — what occurs at a place
* `Node.Lists` — a list has what occurs below a node, once for each place and in preorder

## Main results

* `Node.lists_nested` — the occurrences nested in a node list what occurs below it
* `Node.Lists.unique` — nothing else does
* `Clause.occurrences_listed_once` — what the walk over a clause lists
-/

namespace DatalogStrata

/-- A node of a syntax tree. -/
inductive Node where
  | body (literals : List Literal)
  | literal (literal : Literal)
  | atom (atom : Atom)
  | term (term : Term)

namespace Node

/-- The parts of a node from left to right; the target of an aggregate comes before its body. -/
def children : Node → List Node
  | body literals => literals.map literal
  | literal (.atom own) => [atom own]
  | literal (.negation own) => [atom own]
  | literal (.constraint left _ right) => [term left, term right]
  | literal (.bool _) => []
  | atom ⟨_, arguments⟩ => arguments.map term
  | term (.variable _) => []
  | term (.constant _) => []
  | term .placeholder => []
  | term (.record fields) => fields.map term
  | term (.functor _ arguments) => arguments.map term
  | term (.aggregate _ target goals) => target.toList.map term ++ goals.map literal

/-- The node at a place below a node; each number of a place chooses a child. -/
def at? : Node → List Nat → Option Node
  | node, [] => some node
  | node, index :: place => node.children[index]?.bind fun child => child.at? place

/-- An occurrence stands at a place below a node: its atom is the node there, and it is negated when
the parent of that node is a negation. -/
structure StandsAt (root : Node) (place : List Nat) (o : Occurrence) : Prop where
  below : place ≠ []
  atom : root.at? place = some (atom o.atom)
  negated : o.negated = true ↔
    ∃ own, root.at? place.dropLast = some (literal (.negation own))

end Node

/-! ## Listings -/

section Listings

variable {stands others : List Nat → Occurrence → Prop} {found more : List Occurrence}

/-- A list has what stands at any place, once for each place and in the order of places. -/
def ListsPlaces (stands : List Nat → Occurrence → Prop) (found : List Occurrence) : Prop :=
  ∃ entries : List (List Nat × Occurrence), entries.map Prod.snd = found ∧
    entries.Pairwise (fun first second => first.1 < second.1) ∧
    ∀ place o, (place, o) ∈ entries ↔ stands place o

namespace ListsPlaces

theorem congr (same : ∀ place o, stands place o ↔ others place o)
    (lists : ListsPlaces stands found) : ListsPlaces others found := by
  obtain ⟨entries, listed, ordered, exact⟩ := lists
  exact ⟨entries, listed, ordered, fun place o => (exact place o).trans (same place o)⟩

theorem nil (nowhere : ∀ place o, ¬ stands place o) : ListsPlaces stands [] :=
  ⟨[], rfl, .nil, fun place o => iff_of_false List.not_mem_nil (nowhere place o)⟩

theorem singleton (place : List Nat) (o : Occurrence) :
    ListsPlaces (fun other own => other = place ∧ own = o) [o] := by
  refine ⟨[(place, o)], rfl, List.pairwise_singleton _ _, fun other own => ?_⟩
  rw [List.mem_singleton, Prod.mk.injEq]

/-- What stands at later places is listed behind. -/
theorem append (lists : ListsPlaces stands found) (behind : ListsPlaces others more)
    (later : ∀ {place o other own}, stands place o → others other own → place < other) :
    ListsPlaces (fun place o => stands place o ∨ others place o) (found ++ more) := by
  obtain ⟨entries, rfl, ordered, exact⟩ := lists
  obtain ⟨rest, rfl, orderedRest, exactRest⟩ := behind
  refine ⟨entries ++ rest, List.map_append, ?_, fun place o => ?_⟩
  · refine List.pairwise_append.mpr ⟨ordered, orderedRest, ?_⟩
    rintro ⟨place, o⟩ member ⟨other, own⟩ memberRest
    exact later ((exact place o).mp member) ((exactRest other own).mp memberRest)
  · rw [List.mem_append, exact, exactRest]

/-- The places below a child are those of the child behind its number. -/
theorem under (index : Nat) (lists : ListsPlaces stands found) :
    ListsPlaces (fun place o => ∃ rest, place = index :: rest ∧ stands rest o) found := by
  obtain ⟨entries, rfl, ordered, exact⟩ := lists
  refine ⟨entries.map fun entry => (index :: entry.1, entry.2), ?_, ?_, fun place o => ?_⟩
  · rw [List.map_map]
    rfl
  · rw [List.pairwise_map]
    exact ordered.imp fun before => List.cons_lt_cons_iff.mpr (Or.inr ⟨rfl, before⟩)
  · constructor
    · intro member
      obtain ⟨⟨rest, own⟩, inside, same⟩ := List.mem_map.mp member
      obtain ⟨rfl, rfl⟩ := Prod.mk.inj same
      exact ⟨rest, rfl, (exact rest own).mp inside⟩
    · rintro ⟨rest, rfl, stand⟩
      exact List.mem_map.mpr ⟨(rest, o), (exact rest o).mpr stand, rfl⟩

/-- What stands below nodes is listed node by node. The nodes are children from a number on. -/
theorem flatMap {standsBelow : Node → List Nat → Occurrence → Prop}
    {list : Node → List Occurrence} :
    ∀ (nodes : List Node) (start : Nat),
      (∀ node ∈ nodes, ListsPlaces (standsBelow node) (list node)) →
      ListsPlaces (fun place o => ∃ index node rest, nodes[index]? = some node ∧
        place = (start + index) :: rest ∧ standsBelow node rest o) (nodes.flatMap list)
  | [], start, _ => by
    refine nil ?_
    rintro place o ⟨index, node, rest, child, -, -⟩
    cases child
  | node :: nodes, start, lists => by
    have first := (lists node List.mem_cons_self).under start
    have others := flatMap nodes (start + 1) fun other member =>
      lists other (List.mem_cons_of_mem node member)
    have shift (index : Nat) : start + 1 + index = start + (index + 1) := by omega
    rw [List.flatMap_cons]
    refine congr (fun place o => ?_) (first.append others ?_)
    · constructor
      · rintro (⟨rest, rfl, stand⟩ | ⟨index, other, rest, child, rfl, stand⟩)
        · exact ⟨0, node, rest, rfl, rfl, stand⟩
        · exact ⟨index + 1, other, rest, child, by rw [shift], stand⟩
      · rintro ⟨index, other, rest, child, rfl, stand⟩
        cases index with
        | zero =>
          obtain rfl := Option.some.inj child
          exact Or.inl ⟨rest, rfl, stand⟩
        | succ index => exact Or.inr ⟨index, other, rest, child, by rw [shift], stand⟩
    · rintro place o other own ⟨rest, rfl, -⟩ ⟨index, -, restOther, -, rfl, -⟩
      refine List.cons_lt_cons_iff.mpr (Or.inl ?_)
      omega

end ListsPlaces

end Listings

namespace Node

variable {root : Node} {found : List Occurrence}

/-- A list has what occurs below a node, once for each place and in preorder. -/
def Lists (root : Node) (found : List Occurrence) : Prop :=
  ListsPlaces root.StandsAt found

/-- What occurs below a node is listed in one way only. -/
theorem Lists.unique {other : List Occurrence} (lists : root.Lists found)
    (listsOther : root.Lists other) : found = other := by
  obtain ⟨entries, rfl, ordered, exact⟩ := lists
  obtain ⟨entriesOther, rfl, orderedOther, exactOther⟩ := listsOther
  have distinct {list : List (List Nat × Occurrence)}
      (ordered : list.Pairwise fun first second => first.1 < second.1) : list.Nodup := by
    refine ordered.imp ?_
    rintro first second before rfl
    exact List.lt_irrefl first.1 before
  have perm : entries.Perm entriesOther := by
    refine (List.perm_ext_iff_of_nodup (distinct ordered) (distinct orderedOther)).mpr ?_
    rintro ⟨place, o⟩
    rw [exact, exactOther]
  exact congrArg (List.map Prod.snd) <| perm.eq_of_pairwise
    (fun _ _ _ _ before after => absurd after (List.lt_asymm before)) ordered orderedOther

/-! ## What stands below a node -/

/-- A negation as a node. -/
def isNegation : Node → Bool
  | literal (.negation _) => true
  | _ => false

theorem isNegation_iff {node : Node} :
    node.isNegation = true ↔ ∃ self, node = literal (.negation self) := by
  constructor
  · intro negation
    match node, negation with
    | literal (.negation self), _ => exact ⟨self, rfl⟩
  · rintro ⟨self, rfl⟩
    rfl

/-- The occurrence that a child is by itself: it is one if it is an atom. -/
def own (parent : Node) : Node → List Occurrence
  | atom child => [⟨child, parent.isNegation⟩]
  | _ => []

theorem own_eq_singleton_iff {parent child : Node} {o : Occurrence} :
    parent.own child = [o] ↔ child = atom o.atom ∧ o.negated = parent.isNegation := by
  cases child with
  | atom self =>
    rw [own, List.singleton_inj, Occurrence.mk.injEq, atom.injEq, eq_comm (a := o.negated)]
  | _ => exact iff_of_false (by rintro ⟨⟩) (by rintro ⟨⟨⟩, -⟩)

/-- The occurrences nested in a node. -/
def nested : Node → List Occurrence
  | body goals => goals.flatMap Literal.occurrences
  | literal self => self.occurrences
  | atom self => self.nestedOccurrences
  | term self => self.occurrences

/-- The occurrences that a node adds for a child: the child itself and those nested in it. -/
def contributed (parent child : Node) : List Occurrence :=
  parent.own child ++ child.nested

theorem flatMap_contributed_literals (parent : Node) (goals : List Literal) :
    (goals.map literal).flatMap parent.contributed = goals.flatMap Literal.occurrences :=
  List.flatMap_map ..

theorem flatMap_contributed_terms (parent : Node) (terms : List Term) :
    (terms.map term).flatMap parent.contributed = terms.flatMap Term.occurrences :=
  List.flatMap_map ..

/-- The occurrences nested in a node are what its children contribute. -/
theorem nested_eq : ∀ node : Node, node.nested = node.children.flatMap node.contributed
  | body goals => (flatMap_contributed_literals (body goals) goals).symm
  | literal (.atom self) => by
    rw [nested, Literal.occurrences, children, List.flatMap_singleton]
    rfl
  | literal (.negation self) => by
    rw [nested, Literal.occurrences, children, List.flatMap_singleton]
    rfl
  | literal (.constraint left _ right) => by
    rw [nested, Literal.occurrences, children, List.flatMap_cons, List.flatMap_singleton]
    rfl
  | literal (.bool _) => by rw [nested, Literal.occurrences, children, List.flatMap_nil]
  | atom ⟨_, arguments⟩ => by
    rw [nested, Atom.nestedOccurrences_eq, children, flatMap_contributed_terms]
  | term (.variable _) => by rw [nested, Term.occurrences, children, List.flatMap_nil]
  | term (.constant _) => by rw [nested, Term.occurrences, children, List.flatMap_nil]
  | term .placeholder => by rw [nested, Term.occurrences, children, List.flatMap_nil]
  | term (.record fields) => by
    rw [nested, Term.occurrences, Term.allOccurrences_eq, children, flatMap_contributed_terms]
  | term (.functor _ arguments) => by
    rw [nested, Term.occurrences, Term.allOccurrences_eq, children, flatMap_contributed_terms]
  | term (.aggregate _ none goals) => by
    rw [nested, Term.occurrences, Literal.allOccurrences_eq, children, List.flatMap_append,
      flatMap_contributed_terms, flatMap_contributed_literals]
    rfl
  | term (.aggregate _ (some target) goals) => by
    rw [nested, Term.occurrences, Literal.allOccurrences_eq, children, List.flatMap_append,
      flatMap_contributed_terms, flatMap_contributed_literals, Option.toList_some,
      List.flatMap_singleton]

theorem sizeOf_lt_of_mem_literals {child : Node} {goals : List Literal}
    (member : child ∈ goals.map literal) : sizeOf child < 1 + sizeOf goals := by
  obtain ⟨goal, inside, rfl⟩ := List.mem_map.mp member
  have smaller := List.sizeOf_lt_of_mem inside
  simp only [literal.sizeOf_spec]
  omega

theorem sizeOf_lt_of_mem_terms {child : Node} {terms : List Term}
    (member : child ∈ terms.map term) : sizeOf child < 1 + sizeOf terms := by
  obtain ⟨self, inside, rfl⟩ := List.mem_map.mp member
  have smaller := List.sizeOf_lt_of_mem inside
  simp only [term.sizeOf_spec]
  omega

theorem sizeOf_lt_of_mem_children {child : Node} :
    ∀ {node : Node}, child ∈ node.children → sizeOf child < sizeOf node
  | body goals, member => sizeOf_lt_of_mem_literals member
  | literal (.atom self), member => by
    obtain rfl := List.mem_singleton.mp member
    simp only [atom.sizeOf_spec, literal.sizeOf_spec, Literal.atom.sizeOf_spec]
    omega
  | literal (.negation self), member => by
    obtain rfl := List.mem_singleton.mp member
    simp only [atom.sizeOf_spec, literal.sizeOf_spec, Literal.negation.sizeOf_spec]
    omega
  | literal (.constraint left _ right), member => by
    have sides : child = term left ∨ child = term right := List.mem_pair.mp member
    rcases sides with rfl | rfl <;>
      simp only [term.sizeOf_spec, literal.sizeOf_spec, Literal.constraint.sizeOf_spec] <;> omega
  | atom ⟨_, arguments⟩, member => by
    have smaller := sizeOf_lt_of_mem_terms member
    simp only [atom.sizeOf_spec, Atom.mk.sizeOf_spec]
    omega
  | term (.record fields), member => by
    have smaller := sizeOf_lt_of_mem_terms member
    simp only [term.sizeOf_spec, Term.record.sizeOf_spec]
    omega
  | term (.functor _ arguments), member => by
    have smaller := sizeOf_lt_of_mem_terms member
    simp only [term.sizeOf_spec, Term.functor.sizeOf_spec]
    omega
  | term (.aggregate _ target goals), member => by
    rcases List.mem_append.mp member with inTarget | inGoals
    · obtain ⟨self, isTarget, rfl⟩ := List.mem_map.mp inTarget
      obtain rfl := Option.mem_toList.mp isTarget
      simp only [term.sizeOf_spec, Term.aggregate.sizeOf_spec, Option.some.sizeOf_spec]
      omega
    · have smaller := sizeOf_lt_of_mem_literals inGoals
      simp only [term.sizeOf_spec, Term.aggregate.sizeOf_spec]
      omega

/-- What occurs below a node is one of its children or occurs below one of them. -/
theorem standsAt_iff {place : List Nat} {o : Occurrence} : root.StandsAt place o ↔
    ∃ index child rest, root.children[index]? = some child ∧ place = index :: rest ∧
      (rest = [] ∧ root.own child = [o] ∨ child.StandsAt rest o) := by
  constructor
  · rintro ⟨below, standing, negated⟩
    obtain ⟨index, rest, rfl⟩ := List.exists_cons_of_ne_nil below
    obtain ⟨child, chosen, inside⟩ := Option.bind_eq_some_iff.mp standing
    refine ⟨index, child, rest, chosen, rfl, ?_⟩
    cases rest with
    | nil =>
      obtain rfl := Option.some.inj inside
      refine Or.inl ⟨rfl, own_eq_singleton_iff.mpr ⟨rfl, ?_⟩⟩
      rw [Bool.eq_iff_iff, negated, isNegation_iff]
      exact exists_congr fun _ => Option.some_inj
    | cons next rest =>
      refine Or.inr ⟨List.cons_ne_nil next rest, inside, negated.trans ?_⟩
      rw [List.dropLast_cons_of_ne_nil (List.cons_ne_nil next rest), at?, chosen, Option.bind_some]
  · rintro ⟨index, child, rest, chosen, rfl, ⟨rfl, self⟩ | ⟨below, standing, negated⟩⟩
    · obtain ⟨rfl, negated⟩ := own_eq_singleton_iff.mp self
      refine ⟨List.cons_ne_nil index [], ?_, ?_⟩
      · rw [at?, chosen, Option.bind_some, at?]
      · rw [negated, isNegation_iff]
        exact exists_congr fun _ => Option.some_inj.symm
    · refine ⟨List.cons_ne_nil index rest, ?_, negated.trans ?_⟩
      · rw [at?, chosen, Option.bind_some, standing]
      · rw [List.dropLast_cons_of_ne_nil below, at?, chosen, Option.bind_some]

/-- A child is listed before what occurs below it. -/
theorem lists_contributed (parent : Node) {child : Node} (lists : child.Lists child.nested) :
    ListsPlaces (fun rest o => rest = [] ∧ parent.own child = [o] ∨ child.StandsAt rest o)
      (parent.contributed child) := by
  have self : ListsPlaces (fun rest o => rest = [] ∧ parent.own child = [o])
      (parent.own child) := by
    cases child with
    | atom self =>
      refine (ListsPlaces.singleton [] ⟨self, parent.isNegation⟩).congr fun place o => ?_
      rw [own, List.singleton_inj, eq_comm (a := o)]
    | _ => exact ListsPlaces.nil (by rintro place o ⟨-, ⟨⟩⟩)
  refine self.append lists ?_
  rintro place o other _ ⟨rfl, -⟩ ⟨below, -, -⟩
  obtain ⟨index, rest, rfl⟩ := List.exists_cons_of_ne_nil below
  exact List.nil_lt_cons index rest

/-- The occurrences nested in a node list what occurs below it. -/
theorem lists_nested (node : Node) : node.Lists node.nested := by
  have children (child : Node) (member : child ∈ node.children) :=
    have smaller := sizeOf_lt_of_mem_children member
    lists_contributed node (lists_nested child)
  rw [nested_eq]
  refine ListsPlaces.congr (fun place o => ?_) (ListsPlaces.flatMap node.children 0 children)
  simp only [Nat.zero_add]
  exact standsAt_iff.symm
termination_by sizeOf node

end Node

/-! ## The walk over a clause -/

/-- The walk lists the atoms of a clause once for each place, in preorder and flagged by their own
parent: those of the body, and those in the arguments of the head without the head and without
flags. What was found before stays in front of what any part of the walk finds. -/
theorem Clause.occurrences_listed_once (clause : Clause) :
    (∀ found, (Node.body clause.body).Lists found ↔ found = clause.bodyOccurrences) ∧
    (∃ found, (Node.atom clause.head).Lists found ∧
      clause.headAtoms = found.map Occurrence.atom) ∧
    ∀ found : Array Occurrence,
      (∀ term : Term, term.collect found = found ++ term.collect #[]) ∧
      (∀ terms, Term.collectAll found terms = found ++ Term.collectAll #[] terms) ∧
      (∀ literal : Literal, literal.collect found = found ++ literal.collect #[]) ∧
      (∀ literals, Literal.collectAll found literals = found ++ Literal.collectAll #[] literals) ∧
      ∀ atom : Atom, atom.collectNested found = found ++ atom.collectNested #[] := by
  have body : (Node.body clause.body).Lists clause.bodyOccurrences := by
    rw [clause.bodyOccurrences_eq]
    exact Node.lists_nested (Node.body clause.body)
  have head := Node.lists_nested (Node.atom clause.head)
  refine ⟨fun found => ⟨fun lists => lists.unique body, ?_⟩, ⟨_, head, ?_⟩, fun found => ?_⟩
  · rintro rfl
    exact body
  · rw [clause.headAtoms_eq, Node.nested, Atom.nestedOccurrences_eq]
  · simp only [← Array.toList_inj, Array.toList_append, Term.toList_collect,
      Term.toList_collectAll, Literal.toList_collect, Literal.toList_collectAll,
      Atom.toList_collectNested, List.nil_append, implies_true, and_self]

/-- What stands in an aggregate is not negated by a negation around the aggregate. -/
example (outer inner : Name) :
    let counted : Term := .aggregate .count none [.atom ⟨inner, []⟩]
    Clause.bodyOccurrences ⟨⟨outer, []⟩, [.negation ⟨outer, [counted]⟩]⟩ =
      [⟨⟨outer, [counted]⟩, true⟩, ⟨⟨inner, []⟩, false⟩] :=
  rfl

end DatalogStrata
