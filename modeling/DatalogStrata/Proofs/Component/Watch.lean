import DatalogStrata.Proofs.Component.Run
import DatalogStrata.Proofs.Traversal

/-!
# The search under watch

The search is run again with every place that it reads or writes checked against the size of its
table, so that it fails where a place is missing. On the way it is noted which vertices are
entered, which slots are taken, and how often the loop below a root turns.

As long as the invariant of the search holds no check fails, and the search under watch does what
the search does.

## Main definitions

* `Watch`, `Watch.step?` — a search with its notes, and one turn of the loop
* `Watch.Drains`, `Watch.Visits` — the loop comes to its end below one root, and below all of them
* `Search.Fits` — the tables have a place for every vertex that the search handles

## Main results

* `Watch.enter?_eq`, `Watch.follow?_new`, `Watch.follow?_old`, `Watch.leave?_eq` — no check fails
* `Watch.Visits.unique` — the search under watch comes to one end only
-/

namespace DatalogStrata

/-- A search with notes on what it has done. -/
structure Watch where
  search : Search
  /-- The vertices that have been entered, the latest first. -/
  entries : List Nat
  /-- The slots that have been taken, each behind its vertex, the latest first. -/
  taken : List (Nat × Nat)
  /-- How often the loop has turned. -/
  turns : Nat

namespace Watch

/-- Before anything has been entered. -/
def start (size : Nat) : Watch :=
  ⟨Search.start size, [], [], 0⟩

/-- Enter a vertex, which needs a place in all tables. -/
def enter? (watch : Watch) (vertex : Nat) : Option Watch := do
  guard (vertex < watch.search.number.size)
  guard (vertex < watch.search.lowLink.size)
  guard (vertex < watch.search.onStack.size)
  return { watch with search := watch.search.enter vertex, entries := vertex :: watch.entries }

/-- Bring down a low link, which must be there. -/
def lower? (watch : Watch) (vertex bound : Nat) : Option Watch := do
  guard (vertex < watch.search.lowLink.size)
  return { watch with search := watch.search.lower vertex bound }

/-- Take a component off the stack; each of its vertices needs a mark to be taken away. -/
def close? (watch : Watch) (vertex : Nat) : Option Watch := do
  guard (∀ member ∈ (Search.popThrough vertex watch.search.stack).1,
    member < watch.search.onStack.size)
  return { watch with search := watch.search.close vertex }

/-- Follow an edge; the mark of its target is read only when the target has a number. -/
def follow? (watch : Watch) (vertex target : Nat) : Option Watch := do
  match ← watch.search.number[target]? with
  | none => watch.enter? target
  | some number =>
    if ← watch.search.onStack[target]? then watch.lower? vertex number else return watch

/-- Hand a low link to the vertex below. -/
def report? (watch : Watch) (vertex : Nat) : Option Watch :=
  match watch.search.frames with
  | below :: _ => do watch.lower? below.vertex (← watch.search.lowLink[vertex]?)
  | [] => some watch

/-- Leave a vertex, and close a component when its low link is its own number. -/
def leave? (watch : Watch) (vertex : Nat) : Option Watch := do
  let low ← watch.search.lowLink[vertex]?
  let number ← watch.search.number[vertex]?
  if some low = number then watch.close? vertex else return watch

/-- Take the next slot of the innermost frame of a path. -/
def advance (watch : Watch) (frame : Frame) (path : List Frame) : Watch where
  search := { watch.search with frames := { frame with next := frame.next + 1 } :: path }
  entries := watch.entries
  taken := (frame.vertex, frame.next) :: watch.taken
  turns := watch.turns + 1

/-- Go back to a path without its innermost frame. -/
def shorten (watch : Watch) (path : List Frame) : Watch where
  search := { watch.search with frames := path }
  entries := watch.entries
  taken := watch.taken
  turns := watch.turns + 1

variable {V : Type}

/-- One turn of the loop. -/
def step? (graph : Graph V) (watch : Watch) : Option Watch :=
  match watch.search.frames with
  | [] => some watch
  | frame :: path =>
    match graph.target? frame.vertex frame.next with
    | some target => (watch.advance frame path).follow? frame.vertex target
    | none => do
      let reported ← (watch.shorten path).report? frame.vertex
      reported.leave? frame.vertex

/-- The loop below a root ends: it turns until the path is empty, and no turn fails. -/
inductive Drains (graph : Graph V) : Watch → Watch → Prop
  | finished {watch : Watch} (empty : watch.search.frames = []) : Drains graph watch watch
  | turn {watch next last : Watch} (running : watch.search.frames ≠ [])
      (turned : watch.step? graph = some next) (rest : Drains graph next last) :
      Drains graph watch last

/-- The search ends below all of some roots, tried one after the other. A root without a position
is passed over, and so is one that has been entered; the number of any other is read. -/
inductive Visits [DecidableEq V] (graph : Graph V) : List V → Watch → Watch → Prop
  | nil {watch : Watch} : Visits graph [] watch watch
  | unplaced {root : V} {roots : List V} {watch last : Watch}
      (missing : graph.position? root = none) (rest : Visits graph roots watch last) :
      Visits graph (root :: roots) watch last
  | entered {root : V} {roots : List V} {position number : Nat} {watch last : Watch}
      (found : graph.position? root = some position)
      (old : watch.search.number[position]? = some (some number))
      (rest : Visits graph roots watch last) : Visits graph (root :: roots) watch last
  | drained {root : V} {roots : List V} {position : Nat} {watch opened left last : Watch}
      (found : graph.position? root = some position)
      (new : watch.search.number[position]? = some none)
      (opens : watch.enter? position = some opened) (drains : Drains graph opened left)
      (rest : Visits graph roots left last) : Visits graph (root :: roots) watch last

/-! ## One end only -/

section Unique

variable {graph : Graph V} {watch last other : Watch}

theorem Drains.unique (drains : Drains graph watch last) (others : Drains graph watch other) :
    last = other := by
  induction drains with
  | finished empty =>
    cases others with
    | finished => rfl
    | turn running => exact absurd empty running
  | turn running turned _ ih =>
    cases others with
    | finished empty => exact absurd empty running
    | turn _ turnedOther rest =>
      obtain rfl := Option.some_inj.mp (turned.symm.trans turnedOther)
      exact ih rest

theorem Visits.unique [DecidableEq V] {roots : List V} (visits : Visits graph roots watch last)
    (others : Visits graph roots watch other) : last = other := by
  induction visits with
  | nil =>
    cases others
    rfl
  | unplaced missing _ ih =>
    cases others with
    | unplaced _ rest => exact ih rest
    | entered found => simp [missing] at found
    | drained found => simp [missing] at found
  | entered found old _ ih =>
    cases others with
    | unplaced missing => simp [found] at missing
    | entered _ _ rest => exact ih rest
    | drained foundOther new =>
      obtain rfl := Option.some_inj.mp (found.symm.trans foundOther)
      simp [old] at new
  | drained found new opens drains _ ih =>
    cases others with
    | unplaced missing => simp [found] at missing
    | entered foundOther old =>
      obtain rfl := Option.some_inj.mp (found.symm.trans foundOther)
      simp [new] at old
    | drained foundOther _ opensOther drainsOther rest =>
      obtain rfl := Option.some_inj.mp (found.symm.trans foundOther)
      obtain rfl := Option.some_inj.mp (opens.symm.trans opensOther)
      obtain rfl := drains.unique drainsOther
      exact ih rest

end Unique

end Watch

/-! ## No check fails -/

namespace Search

variable {V : Type} {graph : Graph V} {search : Search} {size v : Nat}

/-- The tables have a place for each vertex, and only vertices are on the stack. -/
structure Fits (size : Nat) (search : Search) : Prop where
  number_size : search.number.size = size
  lowLink_size : search.lowLink.size = size
  onStack_size : search.onStack.size = size
  stack_lt : ∀ v ∈ search.stack, v < size

theorem Sound.fits (sound : search.Sound graph) : search.Fits graph.vertices.size where
  number_size := sound.number_size
  lowLink_size := sound.lowLink_size
  onStack_size := sound.onStack_size
  stack_lt := fun _ member => sound.stack_lt member

theorem Fits.lower (fits : search.Fits size) (vertex bound : Nat) :
    (search.lower vertex bound).Fits size :=
  ⟨fits.number_size, Array.size_modify.trans fits.lowLink_size, fits.onStack_size, fits.stack_lt⟩

theorem Fits.report (fits : search.Fits size) (vertex : Nat) : (search.report vertex).Fits size := by
  unfold Search.report
  split
  · exact fits.lower _ _
  · exact fits

theorem Fits.getElem?_lowLink (fits : search.Fits size) (bound : v < size) :
    search.lowLink[v]? = some (search.lowLinkOf v) := by
  rw [← fits.lowLink_size] at bound
  rw [lowLinkOf, Array.getElem?_eq_getElem bound, Option.getD_some]

theorem Fits.getElem?_onStack (fits : search.Fits size) (bound : v < size) :
    search.onStack[v]? = some (search.isOnStack v) := by
  rw [← fits.onStack_size] at bound
  rw [isOnStack, Array.getElem?_eq_getElem bound, Option.getD_some]

theorem Fits.exists_number (fits : search.Fits size) (bound : v < size) :
    ∃ number, search.number[v]? = some number := by
  rw [← fits.number_size] at bound
  exact ⟨_, Array.getElem?_eq_getElem bound⟩

/-- What is taken off a stack was on it. -/
theorem mem_of_mem_popThrough {vertex : Nat} :
    ∀ {stack : List Nat}, v ∈ (popThrough vertex stack).1 → v ∈ stack
  | [], member => absurd member List.not_mem_nil
  | top :: rest, member => by
    rw [popThrough] at member
    split at member
    · rw [List.mem_singleton.mp member]
      exact List.mem_cons_self
    · rcases List.mem_cons.mp member with rfl | later
      · exact List.mem_cons_self
      · exact List.mem_cons_of_mem top (mem_of_mem_popThrough later)

end Search

namespace Watch

variable {V : Type} {graph : Graph V} {watch : Watch} {size v w : Nat}

section Checks

variable (fits : watch.search.Fits size)
include fits

theorem enter?_eq (bound : v < size) : watch.enter? v =
    some { watch with search := watch.search.enter v, entries := v :: watch.entries } := by
  rw [enter?, guard_bind (fits.number_size ▸ bound), guard_bind (fits.lowLink_size ▸ bound),
    guard_bind (fits.onStack_size ▸ bound)]
  rfl

theorem lower?_eq (bound : v < size) (limit : Nat) :
    watch.lower? v limit = some { watch with search := watch.search.lower v limit } := by
  rw [lower?, guard_bind (fits.lowLink_size ▸ bound)]
  rfl

theorem close?_eq (v : Nat) :
    watch.close? v = some { watch with search := watch.search.close v } := by
  have inside : ∀ member ∈ (Search.popThrough v watch.search.stack).1,
      member < watch.search.onStack.size := fun member taken =>
    fits.onStack_size ▸ fits.stack_lt member (Search.mem_of_mem_popThrough taken)
  rw [close?, guard_bind inside]
  rfl

/-- A target without a number is entered. -/
theorem follow?_new (new : watch.search.number[w]? = some none) (v : Nat) : watch.follow? v w =
    some { watch with search := watch.search.follow v w, entries := w :: watch.entries } := by
  have bound : w < size := fits.number_size ▸ (Array.getElem?_eq_some_iff.mp new).1
  simp only [follow?, Search.follow, new, Option.bind_eq_bind, Option.bind_some]
  exact enter?_eq fits bound

/-- A target with a number is not. -/
theorem follow?_old (old : watch.search.Entered w) (bound : v < size) :
    watch.follow? v w = some { watch with search := watch.search.follow v w } := by
  obtain ⟨number, found⟩ := old
  have inside : w < size := fits.number_size ▸ (Array.getElem?_eq_some_iff.mp found).1
  simp only [follow?, Search.follow, found, fits.getElem?_onStack inside, Option.bind_eq_bind,
    Option.bind_some]
  split
  · exact lower?_eq fits bound number
  · rfl

theorem report?_eq (bound : v < size) (path : ∀ frame ∈ watch.search.frames, frame.vertex < size) :
    watch.report? v = some { watch with search := watch.search.report v } := by
  cases frames : watch.search.frames with
  | nil => simp only [report?, Search.report, frames]
  | cons below rest =>
    have inside := path below (frames ▸ List.mem_cons_self)
    simp only [report?, Search.report, frames, fits.getElem?_lowLink bound, Option.bind_eq_bind,
      Option.bind_some]
    exact lower?_eq fits inside _

theorem leave?_eq (bound : v < size) :
    watch.leave? v = some { watch with search := watch.search.leave v } := by
  obtain ⟨number, found⟩ := fits.exists_number bound
  simp only [leave?, Search.leave, fits.getElem?_lowLink bound, found, Option.bind_eq_bind,
    Option.bind_some, Option.some_inj, eq_comm (a := number)]
  split
  · exact close?_eq fits v
  · rfl

end Checks

end Watch

end DatalogStrata
