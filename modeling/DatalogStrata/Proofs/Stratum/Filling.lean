import DatalogStrata.Proofs.Component.Assembly
import DatalogStrata.Proofs.Stratum.Reads
import DatalogStrata.Stratum.Filling

/-!
# The full table of places

While strata are built, the table has one entry for each relation in them. The strata of a graph
have no relation in common, so no entry covers another, and a look-up in the full table finds what a
search through the strata finds.

## Main definitions

* `Filling.Entered` — the relations of the strata are entered, each with the place of its stratum

## Main results

* `Filling.Entered.add` — one more stratum
* `Filling.exists_foldlM_add?` — strata one after another
* `Precedence.exists_fill?_eq` — the full table of an accepted program
-/

namespace DatalogStrata

/-- No relation is in two layers, or twice in one. -/
theorem Graph.IsLayering.nodup_flatten {graph : Graph RelationId}
    {layers : List (List RelationId)} (layering : graph.IsLayering layers) :
    layers.flatten.Nodup := by
  rw [List.nodup_flatten]
  refine ⟨fun layer member => (layering.ascending layer member).nodup, ?_⟩
  refine layering.distinct.imp_of_mem fun member memberOther different v inside insideOther => ?_
  exact different (layering.layer_eq layering member memberOther inside insideOther)

namespace Filling

/-- Each relation of the strata is entered with the place of its stratum, and nothing else is. -/
structure Entered (filling : Filling) : Prop where
  mem_places_iff : ∀ {relation place}, (relation, place) ∈ filling.places ↔
    ∃ stratum, filling.strata[place]? = some stratum ∧ relation ∈ stratum.relations
  keys_perm : (filling.places.map Prod.fst).Perm (filling.strata.flatMap Stratum.relations)

variable {filling : Filling} {decomposition : Decomposition}

theorem entered_empty : empty.Entered :=
  ⟨by simp [empty], .nil⟩

theorem places_add (filling : Filling) (id : ComponentId) (component : Component) :
    (filling.add id component).places =
      (component.members.toList.map fun relation =>
        (relation, filling.strata.length)).reverse ++ filling.places := by
  simp [add]

/-- A new stratum stands behind the others, so the places of the others are not touched. -/
theorem Entered.add (entered : filling.Entered) (id : ComponentId) (component : Component) :
    (filling.add id component).Entered where
  mem_places_iff {relation place} := by
    rw [places_add, List.mem_append, entered.mem_places_iff]
    rcases Nat.lt_trichotomy place filling.strata.length with before | rfl | behind
    · simp [Filling.add, List.getElem?_append_left before, Nat.ne_of_gt before]
    · simp [Filling.add, Stratum.ofComponent]
    · have outside : (filling.add id component).strata[place]? = none := by
        rw [List.getElem?_eq_none_iff, Filling.add, List.length_append, List.length_singleton]
        omega
      rw [outside, List.getElem?_eq_none (Nat.le_of_lt behind)]
      simp [Nat.ne_of_lt behind]
  keys_perm := by
    have new : ((component.members.toList.map fun relation =>
        (relation, filling.strata.length)).reverse.map Prod.fst).Perm component.members.toList := by
      simp [Function.comp_def]
    have joined := (new.append entered.keys_perm).trans List.perm_append_comm
    rw [places_add, List.map_append]
    simpa [Filling.add, Stratum.ofComponent] using joined

/-- Components that are there are added without failing. -/
theorem exists_foldlM_add? (ids : List ComponentId)
    (there : ∀ id ∈ ids, ∃ component, decomposition.component? id = some component) :
    ∀ {filling : Filling}, filling.Entered → ∃ filled,
      ids.foldlM (add? decomposition) filling = some filled ∧ filled.Entered ∧
        filled.strata = filling.strata ++ ids.filterMap fun id =>
          (decomposition.component? id).map (Stratum.ofComponent id) := by
  induction ids with
  | nil => exact fun {filling} entered => ⟨filling, rfl, entered, by simp⟩
  | cons id ids ih =>
    intro filling entered
    obtain ⟨component, found⟩ := there id List.mem_cons_self
    obtain ⟨filled, added, complete, strata⟩ :=
      ih (fun other listed => there other (List.mem_cons_of_mem id listed))
        (entered.add id component)
    have first : add? decomposition filling id = some (filling.add id component) := by
      rw [add?, found, Option.map_some]
    refine ⟨filled, ?_, complete, ?_⟩
    · rw [List.foldlM_cons, first]
      exact added
    · simp [strata, Filling.add, found]

/-- Where the strata have no relation in common, the table answers as the search does. -/
theorem Entered.lookup_eq (entered : filling.Entered) {graph : Graph RelationId}
    (layering : graph.IsLayering (filling.strata.map Stratum.relations)) (relation : RelationId) :
    filling.places.lookup relation = stratumPlace? filling.strata relation := by
  have placed (place : Nat) : (relation, place) ∈ filling.places ↔
      stratumPlace? filling.strata relation = some place := by
    rw [entered.mem_places_iff, stratumPlace?_eq, layering.place_iff]
    simp
  refine Option.ext fun place => ?_
  refine (lookup_eq_some_iff_mem fun other member memberOther => ?_).trans (placed place)
  rw [placed] at member memberOther
  exact Option.some_inj.mp (memberOther.symm.trans member)

end Filling

namespace Precedence

variable {precedence : Precedence} {stratification : Stratification}

/-- The strata of an accepted program are built without failing. In the full table every relation
stands once, as many as are counted in the strata, and its place is the one that is searched for. -/
theorem exists_fill?_eq (wellFormed : precedence.graph.WellFormed)
    (accepted : precedence.stratify = .ok stratification) :
    ∃ places, precedence.fill? stratification.decomposition =
        some ⟨stratification.strata, places⟩ ∧
      (∀ relation, places.lookup relation = stratification.place? relation) ∧
      (places.map Prod.fst).Nodup ∧ places.length = stratification.relationCount := by
  have layering := isLayering_of_eq_ok wellFormed accepted
  have represents := Decomposition.represents_ofGraph wellFormed
  obtain ⟨-, rfl⟩ := (eq_ok_iff wellFormed).mp accepted
  have there : ∀ id ∈ (Decomposition.ofGraph precedence.graph).evaluationOrder, ∃ component,
      (Decomposition.ofGraph precedence.graph).component? id = some component := by
    intro id ordered
    have vertex := represents.isSchedule_evaluationOrder.mem_iff.mp ordered
    exact Decomposition.component?_eq_some_iff.mpr (represents.mem_condensation_iff.mp vertex)
  obtain ⟨filled, added, entered, strata⟩ :=
    Filling.exists_foldlM_add? _ there Filling.entered_empty
  -- What the strata read is noted last, and changes neither their relations nor their places.
  have noted : precedence.layers (Decomposition.ofGraph precedence.graph) =
      filled.strata.mapIdx
        (Stratum.withReads precedence.graph (stratumPlace? filled.strata)) := by
    rw [layers, strata]
    rfl
  simp only [noted, relations_mapIdx_withReads] at layering
  have found := entered.lookup_eq layering
  have keys := entered.keys_perm
  rw [List.flatMap_def] at keys
  refine ⟨filled.places, ?_, fun relation => ?_, ?_, ?_⟩
  · rw [fill?, added, noted, ← funext found]
    rfl
  · rw [found, Stratification.place?, noted, stratumPlace?_mapIdx]
  · exact keys.nodup_iff.mpr layering.nodup_flatten
  · rw [Stratification.relationCount, List.flatMap_def, noted, relations_mapIdx_withReads,
      ← keys.length_eq, List.length_map]

end Precedence

end DatalogStrata
