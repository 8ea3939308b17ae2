import DatalogStrata.Output.Block
import DatalogStrata.Proofs.Files.Bytes

/-!
# What sinks hold

A sink that takes everything holds what was written, in order. A sink with room for so many bytes
holds the beginning of what it was offered: once it has refused something it is full, so whatever is
left out behind a text that was refused would not have been taken either.

## Main definitions

* `Sink.Keeps` — a sink takes everything, as told by the bytes it has taken
* `Sink.Gathers` — a sink takes everything, as told by what it has gathered
* `BoundedSink.Offered` — what a bounded sink was offered so far

## Main results

* `Sink.Gathers.writeAll` — several texts written to a sink that takes everything
* `BoundedSink.Offered.writeAll`, `BoundedSink.Offered.writeAll_eq_ok_iff` — several texts written
  to a bounded sink
-/

namespace DatalogStrata

/-! ## Sinks that take everything -/

/-- A sink refuses nothing and loses nothing of what it has taken. -/
structure Sink.Keeps {σ : Type} [Sink σ] (taken : σ → List UInt8) : Prop where
  write_ok : ∀ (sink : σ) text, (Sink.write sink text).1 = .ok ()
  taken_write : ∀ (sink : σ) text, taken (Sink.write sink text).2 = taken sink ++ bytesOf text
  flush_ok : ∀ sink : σ, (Sink.flush sink).1 = .ok ()
  taken_flush : ∀ sink : σ, taken (Sink.flush sink).2 = taken sink

/-- A sink refuses nothing, and whatever it has gathered grows by what is written to it. What a sink
has gathered need not be all that can be seen of it. -/
structure Sink.Gathers {σ : Type} [Sink σ] (gathered : σ → List UInt8 → Prop) : Prop where
  write_ok : ∀ (sink : σ) text, (Sink.write sink text).1 = .ok ()
  write : ∀ {sink : σ} {bytes}, gathered sink bytes →
    ∀ text, gathered (Sink.write sink text).2 (bytes ++ bytesOf text)
  flush_ok : ∀ sink : σ, (Sink.flush sink).1 = .ok ()
  flush : ∀ {sink : σ} {bytes}, gathered sink bytes → gathered (Sink.flush sink).2 bytes

theorem Sink.Keeps.gathers {σ : Type} [Sink σ] {taken : σ → List UInt8} (keeps : Sink.Keeps taken) :
    Sink.Gathers fun sink bytes => taken sink = bytes where
  write_ok := keeps.write_ok
  write held text := held ▸ keeps.taken_write _ text
  flush_ok := keeps.flush_ok
  flush held := held ▸ keeps.taken_flush _

section Texts

variable {σ : Type} [Sink σ] {gathered : σ → List UInt8 → Prop} (gathers : Sink.Gathers gathered)
include gathers

theorem Sink.Gathers.write_eq (sink : σ) (text : String) :
    Sink.write sink text = (.ok (), (Sink.write sink text).2) :=
  Prod.ext (gathers.write_ok sink text) rfl

theorem Sink.Gathers.writeAll_ok (texts : List String) :
    ∀ sink : σ, (Sink.writeAll sink texts).1 = .ok () := by
  induction texts with
  | nil => exact fun _ => rfl
  | cons text texts ih =>
    intro sink
    rw [Sink.writeAll, gathers.write_eq]
    exact ih _

theorem Sink.Gathers.writeAll (texts : List String) : ∀ {sink bytes}, gathered sink bytes →
    gathered (Sink.writeAll sink texts).2 (bytes ++ bytesOf (concat texts)) := by
  induction texts with
  | nil => simp [Sink.writeAll]
  | cons text texts ih =>
    intro sink bytes before
    have held := gathers.write before text
    rw [Sink.writeAll, gathers.write_eq]
    simpa [List.append_assoc] using ih held

end Texts

theorem Spool.keeps : Sink.Keeps fun spool : Spool => bytesOf spool.held where
  write_ok _ _ := rfl
  taken_write _ _ := bytesOf_append _ _
  flush_ok _ := rfl
  taken_flush _ := rfl

theorem BlockBuffer.rest_take (buffer : BlockBuffer) (bytes : List UInt8) :
    (buffer.take bytes).rest = buffer.rest ++ bytes := by
  unfold BlockBuffer.take BlockBuffer.add BlockBuffer.sendBlock BlockBuffer.rest
  split
  · split
    · simp
    · -- A text as long as a block fits only into a block that holds nothing.
      have empty : buffer.held = [] := by
        rw [← List.length_eq_zero_iff]
        omega
      simp [empty]
  · split <;> simp

theorem BlockBuffer.keeps : Sink.Keeps BlockBuffer.rest where
  write_ok _ _ := rfl
  taken_write buffer text := buffer.rest_take (bytesOf text)
  flush_ok _ := rfl
  taken_flush buffer := by simp [Sink.flush, sendBlock, rest]

/-! ## Sinks with bounded room -/

namespace BoundedSink

/-- The sink holds as much of what it was offered as it has room for. -/
structure Offered (sink : BoundedSink) (room : Nat) (offered : List UInt8) : Prop where
  room_eq : sink.room = some room
  content_eq : sink.content = offered.take room

variable {sink : BoundedSink} {room : Nat} {offered : List UInt8}

theorem offered_start (room : Nat) : (start (some room)).Offered room [] :=
  ⟨rfl, List.take_nil.symm⟩

/-- A full sink would not have taken any more. -/
theorem Offered.full (sunk : sink.Offered room offered) (full : room ≤ offered.length)
    (more : List UInt8) : sink.Offered room (offered ++ more) where
  room_eq := sunk.room_eq
  content_eq := by rw [sunk.content_eq, List.take_append_of_le_length full]

theorem Offered.flush (sunk : sink.Offered room offered) :
    (Sink.flush sink).2.Offered room offered :=
  ⟨sunk.room_eq, sunk.content_eq⟩

theorem Offered.accepts_eq (sunk : sink.Offered room offered) (count : Nat) :
    sink.accepts count = min count (room - offered.length) := by
  rw [accepts, sunk.room_eq, sunk.content_eq, List.length_take]
  have := Nat.min_le_left room offered.length
  simp only
  omega

theorem Offered.write (sunk : sink.Offered room offered) (text : String) :
    (Sink.write sink text).2.Offered room (offered ++ bytesOf text) where
  room_eq := sunk.room_eq
  content_eq := by
    simp only [Sink.write, sunk.accepts_eq, sunk.content_eq, List.take_append]
    rw [Nat.min_comm, ← List.take_eq_take_min]

/-- A text is taken when there is nothing to take or it ends within the room. -/
theorem Offered.write_eq_ok_iff (sunk : sink.Offered room offered) (text : String) :
    (Sink.write sink text).1 = .ok () ↔
      text = "" ∨ (offered ++ bytesOf text).length ≤ room := by
  rw [← bytesOf_eq_nil_iff, ← List.length_eq_zero_iff, List.length_append]
  simp only [Sink.write, sunk.accepts_eq]
  generalize (bytesOf text).length = count
  split
  · simp only [true_iff]
    omega
  · simp only [reduceCtorEq, false_iff]
    omega

/-- Of several texts those behind one that is refused find a full sink, tried or not. -/
theorem Offered.writeAll (texts : List String) : ∀ {sink : BoundedSink} {offered : List UInt8},
    sink.Offered room offered →
      (Sink.writeAll sink texts).2.Offered room (offered ++ bytesOf (concat texts)) := by
  induction texts with
  | nil =>
    intro sink offered sunk
    simpa [Sink.writeAll] using sunk
  | cons text texts ih =>
    intro sink offered sunk
    have after := sunk.write text
    have refused := (sunk.write_eq_ok_iff text).not
    rw [concat_cons, bytesOf_append, ← List.append_assoc, Sink.writeAll]
    cases written : Sink.write sink text with
    | mk answer rest =>
      rw [written] at after refused
      -- The texts behind one that is refused are not tried, and would not have changed the sink.
      cases answer with
      | ok => exact ih after
      | error => exact after.full (by simp_all; omega) _

/-- Several texts are taken when there is nothing to take or the last one ends within the room. -/
theorem Offered.writeAll_eq_ok_iff (texts : List String) :
    ∀ {sink : BoundedSink} {offered : List UInt8}, sink.Offered room offered →
      ((Sink.writeAll sink texts).1 = .ok () ↔
        concat texts = "" ∨ (offered ++ bytesOf (concat texts)).length ≤ room) := by
  induction texts with
  | nil => simp [Sink.writeAll]
  | cons text texts ih =>
    intro sink offered sunk
    have first := sunk.write_eq_ok_iff text
    have rest := ih (sunk.write text)
    -- Told by lengths, both cases are arithmetic: empty texts before and behind count for nothing.
    rw [← bytesOf_eq_nil_iff, ← List.length_eq_zero_iff] at first rest ⊢
    rw [concat_cons, bytesOf_append]
    simp only [List.length_append] at first rest ⊢
    rw [Sink.writeAll]
    cases written : Sink.write sink text with
    | mk answer after =>
      rw [written] at first rest
      cases answer with
      | ok =>
        simp only [true_iff] at first
        simp only [rest]
        omega
      | error =>
        simp only [reduceCtorEq, false_iff] at first ⊢
        omega

end BoundedSink

end DatalogStrata
