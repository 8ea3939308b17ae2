import DatalogStrata.Proofs.Stratum.Rejection

/-!
# Whose turn it is

The order of evaluation is greedy: wherever it is cut, the component that comes next is declared
before all others that are ready there. So a component is only taken after one that is declared
later while it still waits, and then it waits for a component that is declared later as well.

This tells the reported unsafe component apart from the one that is evaluated first. The report goes
by declarations alone. A component that has to wait may be reported although another unsafe one is
taken before it.

## Main definitions

* `Agenda.Greedy` — an order in which the earliest declared of those ready comes next
* `Decomposition.TakenBefore` — one component stands before another in the order of evaluation

## Main results

* `Agenda.Sound.greedy_take`, `Decomposition.Represents.greedy_evaluationOrder` — one step keeps an
  order greedy, so the order of evaluation is
* `Decomposition.Represents.takenBefore_or_waits` — a component comes before all that are declared
  later, unless it waits for one that is declared later still
* `Precedence.exists_reported` — the report describes the unsafe component that is declared first
* `Precedence.component_of_cycleOf` — an unsafe component is known by its description
* `reported_before_unless_waiting` — where the reported component stands in the order of evaluation
-/

namespace DatalogStrata

/-- What stands before the first place of a value is what precedes it. -/
theorem idxOf_lt_iff_mem {α : Type} [DecidableEq α] {items before after : List α} {item other : α}
    (split : items = before ++ item :: after) (fresh : item ∉ before) :
    items.idxOf other < items.idxOf item ↔ other ∈ before := by
  have place : items.idxOf item = before.length := by
    rw [split, List.idxOf_append_of_notMem fresh, List.idxOf_cons_self, Nat.add_zero]
  rw [place]
  constructor
  · intro smaller
    by_contra outside
    rw [split, List.idxOf_append_of_notMem outside] at smaller
    omega
  · intro inside
    rw [split, List.idxOf_append_of_mem inside]
    exact List.idxOf_lt_length_of_mem inside

namespace Agenda

variable {decomposition : Decomposition} {graph : Graph RelationId} {agenda : Agenda}
  {id : ComponentId} {rest order : List ComponentId}

/-- Wherever the order is cut, the component that comes next is to be taken before all others that
are ready there. -/
def Greedy (decomposition : Decomposition) (order : List ComponentId) : Prop :=
  ∀ earlier next later, order = earlier ++ next :: later →
    ∀ other ∈ decomposition.condensation.vertices, other ∉ earlier → other ≠ next →
      (∀ p, decomposition.condensation.HasEdge p other → p ∈ earlier) →
        decomposition.before next other = true

/-- Taking the component at the head of the queue keeps the order greedy. -/
theorem Sound.greedy_take (sound : agenda.Sound decomposition) (next : agenda.ready = id :: rest)
    (greedy : Greedy decomposition agenda.order.toList) :
    Greedy decomposition (agenda.take decomposition id rest).order.toList := by
  intro earlier following later split other vertex waiting different free
  rw [order_take, Array.toList_push] at split
  rcases List.eq_nil_or_concat later with rfl | ⟨others, last, rfl⟩
  · -- The cut is before what is taken now, and all that is ready stands behind it in the queue.
    obtain ⟨rfl, same⟩ := List.append_inj' split rfl
    obtain rfl : id = following := List.head_eq_of_cons_eq same
    have ready : other ∈ agenda.ready := by
      apply sound.mem_ready_iff.mpr
      exact ⟨vertex, mt Array.mem_toList_iff.mpr waiting,
        fun p edge => Array.mem_toList_iff.mp (free p edge)⟩
    have behind : other ∈ rest := (List.mem_cons.mp (next ▸ ready)).resolve_left different
    exact (List.pairwise_cons.mp (next ▸ sound.ready_ordered)).1 other behind
  · -- The cut is within what was taken before.
    have ends : agenda.order.toList ++ [id] = (earlier ++ following :: others) ++ [last] := by
      rw [split, List.concat_eq_append, List.append_assoc, List.cons_append]
    have inner := (List.append_inj' ends rfl).1
    exact greedy earlier following others inner other vertex waiting different free

/-- Taking components until none is ready keeps the order greedy. -/
theorem Sound.greedy_finish (represents : decomposition.Represents graph)
    (sound : agenda.Sound decomposition) (greedy : Greedy decomposition agenda.order.toList) :
    Greedy decomposition (agenda.finish decomposition).order.toList := by
  induction agenda using finish.induct decomposition with
  | case1 agenda empty =>
    rw [finish_of_empty empty]
    exact greedy
  | case2 agenda id rest next ih =>
    rw [finish_of_next next]
    exact ih (sound.take represents next) (sound.greedy_take next greedy)

end Agenda

/-! ## Places in the order of evaluation -/

namespace Decomposition

/-- One component stands before another in the order of evaluation. -/
def TakenBefore (decomposition : Decomposition) (a b : ComponentId) : Prop :=
  decomposition.evaluationOrder.idxOf a < decomposition.evaluationOrder.idxOf b

namespace Represents

variable {decomposition : Decomposition} {graph : Graph RelationId} {a b : ComponentId}
  {earlier later : List ComponentId} (represents : decomposition.Represents graph)
include represents

theorem greedy_evaluationOrder : Agenda.Greedy decomposition decomposition.evaluationOrder := by
  apply (Agenda.sound_start represents).greedy_finish represents
  intro earlier next later split
  -- At the start nothing has been taken.
  exact absurd split.symm (List.append_ne_nil_of_right_ne_nil _ (List.cons_ne_nil _ _))

/-- The order of evaluation can be cut at each component. -/
theorem exists_split (vertex : a ∈ decomposition.condensation.vertices) :
    ∃ earlier later, decomposition.evaluationOrder = earlier ++ a :: later :=
  List.append_of_mem (represents.isSchedule_evaluationOrder.mem_iff.mpr vertex)

/-- To stand before a component is to be among those taken before it. -/
theorem takenBefore_iff (split : decomposition.evaluationOrder = earlier ++ b :: later) :
    decomposition.TakenBefore a b ↔ a ∈ earlier := by
  have distinct := represents.isSchedule_evaluationOrder.nodup represents.condensation_wellFormed
  rw [split] at distinct
  exact idxOf_lt_iff_mem split fun again =>
    List.disjoint_of_nodup_append distinct again List.mem_cons_self

/-- What a component that has been taken waits for has been taken as well. -/
theorem mem_of_reaches (split : decomposition.evaluationOrder = earlier ++ later)
    (reach : decomposition.condensation.Reaches a b) (taken : b ∈ earlier) : a ∈ earlier := by
  have schedule := split ▸ represents.isSchedule_evaluationOrder
  induction reach using Relation.ReflTransGen.head_induction_on with
  | refl => exact taken
  | head edge reach ih => exact schedule.mem_of_hasEdge edge ih

/-- All that a component waits for is taken before it. -/
theorem takenBefore_of_transGen
    (waits : Relation.TransGen decomposition.condensation.HasEdge a b) :
    decomposition.TakenBefore a b := by
  obtain ⟨last, -, edge⟩ := Relation.TransGen.tail'_iff.mp waits
  have vertex := (Graph.mem_vertices_of_hasEdge edge).2
  obtain ⟨earlier, later, split⟩ := represents.exists_split vertex
  have behind : decomposition.evaluationOrder = (earlier ++ [b]) ++ later := by
    rw [split, List.append_cons]
  have inside := represents.mem_of_reaches behind waits.to_reflTransGen (by simp)
  rw [represents.takenBefore_iff split]
  rcases List.mem_append.mp inside with before | last
  · exact before
  · obtain rfl := List.mem_singleton.mp last
    exact absurd waits (represents.not_transGen_self _)

/-- A component that has not been taken waits for one that is ready, if it is not ready itself. -/
theorem exists_ready (earlier : List ComponentId) :
    ∀ a ∈ decomposition.condensation.vertices, a ∉ earlier →
      ∃ c ∈ decomposition.condensation.vertices, decomposition.condensation.Reaches c a ∧
        c ∉ earlier ∧ ∀ p, decomposition.condensation.HasEdge p c → p ∈ earlier := by
  refine represents.condensation_induction fun a vertex ih waiting => ?_
  by_cases ready : ∀ p, decomposition.condensation.HasEdge p a → p ∈ earlier
  · exact ⟨a, vertex, .refl, waiting, ready⟩
  · push Not at ready
    obtain ⟨p, edge, missing⟩ := ready
    obtain ⟨c, vertexC, reach, notTaken, free⟩ := ih p edge missing
    exact ⟨c, vertexC, reach.tail edge, notTaken, free⟩

/-- A component stands before another one that is declared later, unless it waits for one that is
not declared before that one and that the other one does not wait for. -/
theorem takenBefore_or_waits {first second : Component}
    (foundA : decomposition.component? a = some first)
    (foundB : decomposition.component? b = some second)
    (declared : first.firstDeclared < second.firstDeclared) :
    decomposition.TakenBefore a b ∨ ∃ c waited, decomposition.component? c = some waited ∧
      Relation.TransGen decomposition.condensation.HasEdge c a ∧
        ¬ Relation.TransGen decomposition.condensation.HasEdge c b ∧
          second.firstDeclared ≤ waited.firstDeclared := by
  have vertexA := represents.mem_condensation_iff.mpr (component?_eq_some_iff.mp ⟨first, foundA⟩)
  have vertexB := represents.mem_condensation_iff.mpr (component?_eq_some_iff.mp ⟨second, foundB⟩)
  obtain ⟨earlier, later, split⟩ := represents.exists_split vertexB
  rw [represents.takenBefore_iff split]
  refine or_iff_not_imp_left.mpr fun waiting => ?_
  obtain ⟨c, vertex, reach, missing, free⟩ := represents.exists_ready earlier a vertexA waiting
  obtain ⟨waited, foundC⟩ := component?_eq_some_iff.mpr (represents.mem_condensation_iff.mp vertex)
  have notEarlier : second.firstDeclared ≤ waited.firstDeclared := by
    rw [RelationId.le_iff, ← firstDeclaration_of_component? foundB,
      ← firstDeclaration_of_component? foundC]
    by_cases same : c = b
    · exact le_of_eq (congrArg decomposition.firstDeclaration same.symm)
    · -- What is ready when the other one is taken is declared later.
      have before :=
        represents.greedy_evaluationOrder earlier b later split c vertex missing same free
      exact le_of_lt (represents.firstDeclaration_lt vertexB vertex before)
  have notWaitedFor : ¬ Relation.TransGen decomposition.condensation.HasEdge c b := by
    intro waits
    exact missing ((represents.takenBefore_iff split).mp (represents.takenBefore_of_transGen waits))
  refine ⟨c, waited, foundC, ?_, notWaitedFor, notEarlier⟩
  rcases Relation.reflTransGen_iff_eq_or_transGen.mp reach with rfl | waits
  · obtain rfl := Option.some_inj.mp (foundA.symm.trans foundC)
    exact absurd notEarlier (Nat.not_le_of_lt declared)
  · exact waits

end Represents

end Decomposition

/-! ## The reported component -/

namespace Precedence

/-- What is reported describes the unsafe component that is declared first. -/
theorem exists_reported {precedence : Precedence} {rejection : Rejection}
    (wellFormed : precedence.graph.WellFormed) (rejected : precedence.stratify = .error rejection) :
    ∃ id component, (Decomposition.ofGraph precedence.graph).component? id = some component ∧
      component.negativeEdges ≠ [] ∧ precedence.cycleOf component = rejection.cycle ∧
        ∀ other c, (Decomposition.ofGraph precedence.graph).component? other = some c →
          c.negativeEdges ≠ [] → other ≠ id → component.firstDeclared < c.firstDeclared := by
  have represents := Decomposition.represents_ofGraph wellFormed
  have told := eq_error_iff.mp rejected
  rw [negationCycles, List.map_eq_cons_iff] at told
  obtain ⟨component, others, listed, reported, -⟩ := told
  have isUnsafe {c : Component} : c ∈ unsafeComponents (Decomposition.ofGraph precedence.graph) ↔
      c.negativeEdges ≠ [] ∧ ∃ id, (Decomposition.ofGraph precedence.graph).component? id = some c :=
    represents.mem_unsafeComponents_iff
  have ascending := represents.unsafeComponents_ascending
  rw [listed] at ascending
  obtain ⟨negative, id, found⟩ := isUnsafe.mp (listed ▸ List.mem_cons_self)
  refine ⟨id, component, found, negative, reported, ?_⟩
  intro other c foundOther negativeOther different
  have member := isUnsafe.mpr ⟨negativeOther, other, foundOther⟩
  rw [listed] at member
  rcases List.mem_cons.mp member with rfl | later
  · exact absurd (represents.firstDeclared_inj foundOther found rfl) different
  · exact (List.pairwise_cons.mp ascending).1 _ (List.mem_map_of_mem later)

/-- An unsafe component of a program is known by what is told of it. -/
theorem component_of_cycleOf {program : Program} {i j : ComponentId} {a b : Component}
    (foundA : (Decomposition.ofGraph program.precedence.graph).component? i = some a)
    (foundB : (Decomposition.ofGraph program.precedence.graph).component? j = some b)
    (negativeA : a.negativeEdges ≠ []) (negativeB : b.negativeEdges ≠ [])
    (same : program.precedence.cycleOf a = program.precedence.cycleOf b) : i = j := by
  have represents :=
    Decomposition.represents_ofGraph (wellFormed_build program program.resolver)
  have isUnsafeA := represents.isUnsafe_of_component foundA negativeA
  have isUnsafeB := represents.isUnsafe_of_component foundB negativeB
  rw [cycleOf_eq foundA, cycleOf_eq foundB] at same
  have members := eq_of_cycleAmong isUnsafeA isUnsafeB same
  -- Components with a member in common are the same.
  obtain ⟨u, inside, -⟩ := isUnsafeA.negative
  exact represents.unique foundA foundB (Array.mem_toList_iff.mp inside)
    (Array.mem_toList_iff.mp (members ▸ inside))

end Precedence

/-- The reported component is the unsafe one that is declared first, and no other unsafe component
is described alike. In the order of evaluation it stands before another unsafe component, unless it
waits, directly or through others, for a component that is not declared before that one and that the
other one does not wait for. If it waits for the other one itself, that one stands before it. -/
theorem reported_before_unless_waiting (program : Program) {rejection : Rejection}
    (rejected : program.precedence.stratify = .error rejection) :
    let decomposition := Decomposition.ofGraph program.precedence.graph
    let Waits := Relation.TransGen decomposition.condensation.HasEdge
    ∃ id component, decomposition.component? id = some component ∧
      component.negativeEdges ≠ [] ∧ program.precedence.cycleOf component = rejection.cycle ∧
      ∀ other c, decomposition.component? other = some c → c.negativeEdges ≠ [] → other ≠ id →
        program.precedence.cycleOf c ≠ rejection.cycle ∧
        component.firstDeclared < c.firstDeclared ∧
        (decomposition.TakenBefore id other ∨ ∃ d waited,
          decomposition.component? d = some waited ∧ Waits d id ∧ ¬ Waits d other ∧
            c.firstDeclared ≤ waited.firstDeclared) ∧
        (Waits other id → decomposition.TakenBefore other id) := by
  intro decomposition Waits
  have wellFormed := Precedence.wellFormed_build program program.resolver
  have represents : decomposition.Represents program.precedence.graph :=
    Decomposition.represents_ofGraph wellFormed
  obtain ⟨id, component, found, negative, reported, first⟩ :=
    Precedence.exists_reported wellFormed rejected
  refine ⟨id, component, found, negative, reported, ?_⟩
  intro other c foundOther negativeOther different
  have declared := first other c foundOther negativeOther different
  refine ⟨?_, declared, represents.takenBefore_or_waits found foundOther declared,
    represents.takenBefore_of_transGen⟩
  intro same
  exact different (Precedence.component_of_cycleOf foundOther found negativeOther negative
    (same.trans reported.symm))

namespace WaitingReport

/-- Two relations that negate themselves. The one that is declared first depends on the other. -/
def program : Program :=
  ⟨[⟨⟨["p"]⟩, []⟩, ⟨⟨["q"]⟩, []⟩],
    [⟨.propositional "p", [.negation (.propositional "p"), .atom (.propositional "q")]⟩,
      ⟨.propositional "q", [.negation (.propositional "q")]⟩]⟩

def decomposition : Decomposition :=
  Decomposition.ofGraph program.precedence.graph

/-- The report names the relation that is declared first. -/
def rejection : Rejection :=
  ⟨⟨[⟨["p"]⟩], [(⟨["p"]⟩, ⟨["p"]⟩)]⟩, [⟨[⟨["q"]⟩], [(⟨["q"]⟩, ⟨["q"]⟩)]⟩]⟩

theorem rejected : program.precedence.stratify = .error rejection := by
  cbv

theorem components_eq : decomposition.components =
    #[⟨#[⟨0⟩], true, [(⟨0⟩, ⟨0⟩)]⟩, ⟨#[⟨1⟩], true, [(⟨1⟩, ⟨1⟩)]⟩] := by
  cbv

theorem evaluationOrder_eq : decomposition.evaluationOrder = [⟨1⟩, ⟨0⟩] := by
  cbv

/-- The other component is taken before the reported one, which waits for it. -/
theorem other_taken_first : program.precedence.stratify = .error rejection ∧
    ∃ id component, decomposition.component? id = some component ∧
      program.precedence.cycleOf component = rejection.cycle ∧
        decomposition.TakenBefore ⟨1⟩ id := by
  obtain ⟨id, component, found, -, reported, unlessWaiting⟩ :=
    reported_before_unless_waiting program rejected
  have second : decomposition.component? ⟨1⟩ = some ⟨#[⟨1⟩], true, [(⟨1⟩, ⟨1⟩)]⟩ := by
    rw [Decomposition.component?, components_eq]
    rfl
  have different : (⟨1⟩ : ComponentId) ≠ id := by
    rintro rfl
    obtain rfl := Option.some_inj.mp (second.symm.trans found)
    exact absurd reported (by decide)
  obtain rfl : id = ⟨0⟩ := by
    have bound : id.index < decomposition.size :=
      Decomposition.component?_eq_some_iff.mp ⟨component, found⟩
    have size : decomposition.size = 2 := congrArg Array.size components_eq
    have number : (1 : Nat) ≠ id.index := fun same => different (congrArg ComponentId.mk same)
    have first : id.index = 0 := by omega
    exact congrArg ComponentId.mk first
  have edge : (⟨⟨1⟩, ⟨0⟩, .positive⟩ : Edge ComponentId) ∈ decomposition.condensation.edges := by
    have listed : decomposition.condensation.edges = [⟨⟨1⟩, ⟨0⟩, .positive⟩] := by cbv
    rw [listed]
    exact List.mem_cons_self
  obtain ⟨-, -, -, before⟩ := unlessWaiting ⟨1⟩ _ second (List.cons_ne_nil _ _) different
  exact ⟨rejected, ⟨0⟩, component, found, reported, before (.single ⟨.positive, edge⟩)⟩

/-- So the reported component is not the one that is evaluated first of the unsafe ones. -/
theorem reported_not_taken_first : ¬ ∀ rejection, program.precedence.stratify = .error rejection →
    ∀ id component other c, decomposition.component? id = some component →
      program.precedence.cycleOf component = rejection.cycle →
        decomposition.component? other = some c → c.negativeEdges ≠ [] → other ≠ id →
          decomposition.TakenBefore id other := by
  intro first
  have before := first rejection rejected ⟨0⟩ ⟨#[⟨0⟩], true, [(⟨0⟩, ⟨0⟩)]⟩ ⟨1⟩
    ⟨#[⟨1⟩], true, [(⟨1⟩, ⟨1⟩)]⟩ (by rw [Decomposition.component?, components_eq]; rfl) (by decide)
    (by rw [Decomposition.component?, components_eq]; rfl) (List.cons_ne_nil _ _) (by decide)
  rw [Decomposition.TakenBefore, evaluationOrder_eq] at before
  exact absurd before (by decide)

end WaitingReport

end DatalogStrata
