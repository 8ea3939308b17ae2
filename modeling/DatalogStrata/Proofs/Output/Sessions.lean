import DatalogStrata.Proofs.Output.Desk
import DatalogStrata.Proofs.Output.Journal

/-!
# Writers and their sessions

Each writer at a desk is the one that its session tells, and holds nothing back from the console. So
what stands on the console is what the sessions print, piece by piece, and a request that is refused
leaves everything as it was.

## Main definitions

* `Writer.Serves` — a writer is where its session says
* `Desk.Follows` — the writers and the console of a desk are as the journal tells

## Main results

* `Desk.Follows.handled` — what one request does
* `Desk.follows_after` — what any requests do
* `Desk.Follows.alike_of_refused` — a request that is refused
-/

namespace DatalogStrata

/-! ## Writers that serve sessions -/

/-- A writer is of the kind of its session, and what the session printed has left it. What reaches
files, and when, does not matter here. -/
inductive Writer.Serves {ε : Type} (session : Session) : Writer ε → Prop
  | file (path : List String) (position : Nat) (table : TableWriter BlockBuffer)
      (kind : session.kind = .file) : Serves session (.file path position table)
  | archive (path : List String) (position : Nat) (table : TableWriter (PackedBuffer ε))
      (kind : session.kind = .file) : Serves session (.archive path position table)
  | console (kind : session.kind = .console) :
      Serves session
        (.console ⟨Spool.empty, session.directives.delimiter, Table.closing? true⟩)
  | size (kind : session.kind = .size) :
      Serves session (.size ⟨Spool.empty, session.directives.relationName⟩)

namespace Writer.Serves

variable {ε : Type} {writer : Writer ε} {session : Session}

theorem writeSize (serves : writer.Serves session) (desk : Desk ε) (count : Nat) :
    let written := desk.writeSize count writer
    written.1 = (if session.kind = .size then .done else .refused (.tuplesOnly session.kind)) ∧
    written.2.1.Serves (session.next (.size count)) ∧
    written.2.2.printed = desk.printed ++ concat (session.prints (.size count)) := by
  intro written
  have unprinted : desk.printed = desk.printed ++ concat [] := String.append_empty.symm
  cases serves with
  | file path position table kind =>
    rw [Session.next_size_of_ne (by simp [kind])]
    simp only [written, Desk.writeSize, Writer.kind, Session.prints, kind]
    exact ⟨rfl, .file _ _ _ kind, unprinted⟩
  | archive path position table kind =>
    rw [Session.next_size_of_ne (by simp [kind])]
    simp only [written, Desk.writeSize, Writer.kind, Session.prints, kind]
    exact ⟨rfl, .archive _ _ _ kind, unprinted⟩
  | console kind =>
    rw [Session.next_size_of_ne (by simp [kind])]
    simp only [written, Desk.writeSize, Writer.kind, Session.prints, kind]
    exact ⟨rfl, .console kind, unprinted⟩
  | size kind =>
    rw [Session.next_size kind]
    simp only [written, Desk.writeSize, Session.prints, kind]
    refine ⟨rfl, .size rfl, ?_⟩
    simp [Desk.printSizes, Desk.print, SizeWriter.writeSize, TableWriter.writeLast, Sink.write,
      Sink.flush, Spool.empty]

variable [Compressor ε]

theorem writeTuple (serves : writer.Serves session) (desk : Desk ε) (values : List Value) :
    let written := desk.writeTuple values writer
    written.1 = (if session.kind = .size then
      .refused (.sizeOnly session.directives.relationName) else .done) ∧
    written.2.1.Serves (session.next (.tuple values)) ∧
    written.2.2.printed = desk.printed ++ concat (session.prints (.tuple values)) := by
  intro written
  cases serves with
  | file path position table kind =>
    have accepted := TableWriter.writeRow_ok BlockBuffer.keeps.gathers table values
    rw [Session.next_tuple (by simp [kind])]
    simp only [written, Desk.writeTuple, accepted, Session.prints, kind]
    exact ⟨rfl, .file _ _ _ rfl, String.append_empty.symm⟩
  | archive path position table kind =>
    have accepted := TableWriter.writeRow_ok (PackedBuffer.gathers []) table values
    rw [Session.next_tuple (by simp [kind])]
    simp only [written, Desk.writeTuple, accepted, Session.prints, kind]
    exact ⟨rfl, .archive _ _ _ rfl, String.append_empty.symm⟩
  | console kind =>
    rw [Session.next_tuple (by simp [kind])]
    simp only [written, Desk.writeTuple, Spool.writeRow_eq, Session.prints, kind]
    exact ⟨rfl, .console rfl, by simp [Desk.printHeld, Desk.print, Spool.empty]⟩
  | size kind =>
    rw [Session.next_tuple_of_size kind]
    simp only [written, Desk.writeTuple, SizeWriter.writeRow, Session.prints, kind]
    exact ⟨rfl, .size kind, rfl⟩

/-- However a writer comes to its end, the console is closed off in the same way. -/
theorem ended (serves : writer.Serves session) {desk after : Desk ε}
    (ended : desk.Ended writer after) :
    after.printed = desk.printed ++ concat (session.prints .drop) := by
  have released : (desk.release writer).printed =
      desk.printed ++ concat (session.prints .drop) := by
    cases serves with
    | file path position table kind => simp [Desk.release, Desk.store, Session.prints, kind]
    | archive path position table kind => simp [Desk.release, Desk.store, Session.prints, kind]
    | console kind =>
      simp [Desk.release, Session.prints, kind, Desk.print]
      rfl
    | size kind => simp [Desk.release, Session.prints, kind]
  cases ended with
  | released => exact released
  | finished =>
    -- Neither ending of an encoder prints anything.
    cases serves with
    | archive => exact released
    | _ => rwa [Desk.finish_eq _ (by rintro _ _ _ ⟨⟩)]

end Writer.Serves

/-! ## Desks that follow journals -/

namespace Desk

variable {ε : Type}

/-- Under an identifier there is one writer, which serves the one session, or there is none. -/
inductive Agrees : Option (Writer ε) → List Session → Prop
  | none : Agrees none []
  | some {writer : Writer ε} {session : Session} (serves : writer.Serves session) :
      Agrees (some writer) [session]

theorem Agrees.of_none {sessions : List Session}
    (agrees : Agrees (Option.none : Option (Writer ε)) sessions) : sessions = [] := by
  cases agrees
  rfl

theorem Agrees.of_some {writer : Writer ε} {sessions : List Session}
    (agrees : Agrees (Option.some writer) sessions) :
    ∃ session, sessions = [session] ∧ writer.Serves session := by
  cases agrees with
  | some serves => exact ⟨_, rfl, serves⟩

/-- The writers of a desk serve the sessions of a journal, and what stands on its console is what
the sessions have printed. -/
structure Follows (desk : Desk ε) (journal : Journal) : Prop where
  agrees : ∀ id, Agrees (desk.writer? id) (journal.current id)
  printed_eq : desk.printed = concat (journal.pieces.map Prod.snd)

variable {desk : Desk ε} {journal : Journal} {id : String}

theorem follows_start (files : FileTree) : (start files : Desk ε).Follows Journal.empty :=
  ⟨fun _ => .none, rfl⟩

/-- A request that leaves other writers alone, and does to one writer and the console what it does
to the session. -/
theorem Follows.give (follows : desk.Follows journal) {request : Request} {after : Desk ε}
    (others : ∀ name, name ≠ id → after.writer? name = desk.writer? name)
    (own : Agrees (after.writer? id) ((journal.give id request).current id))
    (printed : after.printed = desk.printed ++
      concat ((journal.current id).flatMap fun session => session.prints request)) :
    after.Follows (journal.give id request) where
  agrees name := by
    by_cases same : name = id
    · rw [same]
      exact own
    · rw [others name same, Journal.current_give_of_ne same]
      exact follows.agrees name
  printed_eq := by
    rw [printed, follows.printed_eq, Journal.pieces_give, concat_append]

theorem Follows.current_eq_nil (follows : desk.Follows journal)
    (absent : desk.writer? id = none) : journal.current id = [] :=
  Agrees.of_none (absent ▸ follows.agrees id)

theorem Follows.exists_session (follows : desk.Follows journal) {writer : Writer ε}
    (present : desk.writer? id = some writer) :
    ∃ session, journal.current id = [session] ∧ writer.Serves session ∧ session.bears id := by
  obtain ⟨session, current, serves⟩ := Agrees.of_some (present ▸ follows.agrees id)
  exact ⟨session, current, serves, (Journal.listed_of_current current).2⟩

/-- A session that goes on has its writer at the desk. -/
theorem Follows.exists_writer (follows : desk.Follows journal) {session : Session}
    (listed : session ∈ journal.sessions) (goesOn : session.ended = false) :
    ∃ writer, desk.writer? session.id = some writer ∧ writer.Serves session := by
  -- The session is among those with its identifier, of which there is at most one.
  have found : session ∈ journal.current session.id :=
    List.mem_filter.mpr ⟨listed, Session.bears_iff.mpr ⟨goesOn, rfl⟩⟩
  cases present : desk.writer? session.id with
  | none => simp [follows.current_eq_nil present] at found
  | some writer =>
    obtain ⟨other, current, serves, -⟩ := follows.exists_session present
    rw [current, List.mem_singleton] at found
    exact ⟨writer, rfl, found ▸ serves⟩

/-- A request that its writer goes on after. -/
theorem Follows.keep (follows : desk.Follows journal) {writer : Writer ε} {session : Session}
    {request : Request} {after : Desk ε} (current : journal.current id = [session])
    (serves : writer.Serves (session.next request)) (goesOn : (session.next request).bears id)
    (others : after.writers = desk.writers)
    (printed : after.printed = desk.printed ++ concat (session.prints request)) :
    (after.keep id writer).Follows (journal.give id request) := by
  refine follows.give (fun name different => ?_) ?_ ?_
  · rw [writer?_keep, if_neg different, writer?_congr others]
  · rw [writer?_keep, if_pos rfl, Journal.current_give, current]
    simpa [goesOn] using Agrees.some serves
  · rw [current]
    simpa [Desk.keep] using printed

theorem Follows.begin (follows : desk.Follows journal) {writer : Writer ε} {session : Session}
    (bears : session.bears id) (vacant : journal.current id = []) (serves : writer.Serves session) :
    (desk.keep id writer).Follows (journal.begin session) where
  agrees name := by
    rw [writer?_keep, Journal.current_begin]
    by_cases same : name = id
    · rw [if_pos same, same, vacant, if_pos bears]
      exact .some serves
    · have other : session.bears name = false := by
        simp [Session.bears, (Session.bears_iff.mp bears).2, Ne.symm same]
      rw [if_neg same, other]
      simpa using follows.agrees name
  printed_eq := follows.printed_eq

variable [Compressor ε]

/-- A writer that comes to its end, asked to or not. -/
theorem Follows.ended (follows : desk.Follows journal) {writer : Writer ε} {after : Desk ε}
    (present : desk.writer? id = some writer) (ended : (desk.remove id).Ended writer after) :
    after.Follows (journal.give id .drop) := by
  obtain ⟨session, current, serves, bears⟩ := follows.exists_session present
  have lookup (name : String) := writer?_congr ended.writers_eq name
  refine follows.give (fun name different => ?_) ?_ ?_
  · rw [lookup, writer?_remove, if_neg different]
  · rw [lookup, writer?_remove, if_pos rfl, Journal.current_give_drop]
    exact .none
  · rw [serves.ended ended, current]
    simp [remove]

theorem Follows.drop (follows : desk.Follows journal) (id : String) :
    (desk.drop id).Follows (journal.give id .drop) := by
  cases present : desk.writer? id with
  | none =>
    rw [Desk.drop, present, Journal.give_eq_self (follows.current_eq_nil present)]
    exact follows
  | some writer =>
    rw [drop_eq present]
    exact follows.ended present .released

/-- A writer that is opened serves a session that begins. -/
theorem serves_of_openWriter {name : Option String} {directives : Directives} {writer : Writer ε}
    {opened : Desk ε} (opens : desk.openWriter name directives = .ok (writer, opened))
    (id : String) :
    writer.Serves (.start id writer.kind directives) ∧
      opened.printed =
        desk.printed ++ concat (Session.start id writer.kind directives).opening := by
  obtain ⟨name, opens⟩ := openWriter_eq_ok opens
  rcases openNamed_eq_ok opens with ⟨path, file, files, -, -, opens⟩ | ⟨rfl, rfl⟩ | ⟨rfl, rfl⟩
  · -- Both kinds of writers of files leave the console as it is.
    rw [fileWriter] at opens
    split at opens
    · rw [← (Prod.mk.inj opens).1, ← (Prod.mk.inj opens).2]
      exact ⟨.archive _ _ _ rfl, String.append_empty.symm⟩
    · rw [← (Prod.mk.inj opens).1, ← (Prod.mk.inj opens).2]
      exact ⟨.file _ _ _ rfl, String.append_empty.symm⟩
  · exact ⟨.console rfl, by simp [Session.opening, Session.start, Writer.kind, print]⟩
  · exact ⟨.size rfl, String.append_empty.symm⟩

/-- A writer that is opened prints its opening, before it has its place at the desk. -/
theorem Follows.announce (follows : desk.Follows journal) {name : Option String}
    {directives : Directives} {writer : Writer ε} {opened : Desk ε}
    (opens : desk.openWriter name directives = .ok (writer, opened)) (id : String) :
    opened.Follows (journal.announce (.start id writer.kind directives)) where
  agrees name := by
    rw [writer?_congr (writers_openWriter opens)]
    exact follows.agrees name
  printed_eq := by
    rw [(serves_of_openWriter opens id).2, follows.printed_eq, Journal.announce]
    simp [Function.comp_def]

/-- What a request does to writers and console is what the journal notes. -/
theorem Follows.handled (follows : desk.Follows journal) {request : Request} {reply : Reply}
    {after : Desk ε} (handled : desk.Handled id request reply after) :
    after.Follows (journal.note ⟨id, request, reply⟩) := by
  cases handled with
  | refused opens => exact follows
  | opened opens =>
    -- The opening is printed first, then the old writer comes to its end, then the new one is kept.
    refine ((follows.announce opens id).drop id).begin ?_ (Journal.current_give_drop id)
      (serves_of_openWriter opens id).1
    simp [Session.bears, Session.start]
  | absent absent noOpening =>
    rw [Journal.note_eq_give noOpening, Journal.give_eq_self (follows.current_eq_nil absent)]
    exact follows
  | @tuple writer values present =>
    obtain ⟨session, current, serves, bears⟩ := follows.exists_session present
    obtain ⟨-, next, printed⟩ := serves.writeTuple desk values
    exact follows.keep current next (by simpa using bears) (writers_writeTuple desk values writer)
      printed
  | @size writer count present =>
    obtain ⟨session, current, serves, bears⟩ := follows.exists_session present
    obtain ⟨-, next, printed⟩ := serves.writeSize desk count
    exact follows.keep current next (by simpa using bears) (writers_writeSize desk count writer)
      printed
  | finish present => exact follows.ended present .finished
  | drop present => exact follows.drop id

/-- What requests do to writers and console is what the journal notes of them. -/
theorem Follows.after_steps (steps : List (String × Request)) :
    ∀ {desk : Desk ε} {journal : Journal}, desk.Follows journal →
      (desk.after steps).Follows ((desk.transcript steps).foldl Journal.note journal) := by
  induction steps with
  | nil => exact id
  | cons step steps ih =>
    intro desk journal follows
    exact ih (follows.handled (desk.handled step.1 step.2))

/-- At any time the writers and the console are as the journal tells. -/
theorem follows_after (files : FileTree) (steps : List (String × Request)) :
    let desk : Desk ε := start files
    (desk.after steps).Follows (Journal.ofTranscript (desk.transcript steps)) :=
  (follows_start files).after_steps steps

/-! ## Requests that are refused -/

/-- A request that is refused makes no difference. -/
theorem Follows.alike_of_refused (follows : desk.Follows journal) {request : Request}
    {error : WriteError} {after : Desk ε}
    (refused : desk.Handled id request (.refused error) after) : desk.Alike after := by
  generalize answered : Reply.refused error = reply at refused
  cases refused with
  | refused opens => exact .refl desk
  | @tuple writer values present =>
    obtain ⟨session, -, serves, -⟩ := follows.exists_session present
    have written := (serves.writeTuple desk values).1
    cases serves with
    | size kind =>
      -- What the spool holds is printed after a refusal too, but it holds nothing.
      have unprinted : desk.print "" = desk := by simp [print]
      change desk.Alike ((desk.print "").keep id _)
      rw [unprinted]
      exact .keep_self present
    | _ => simp_all
  | @size writer count present =>
    obtain ⟨session, -, serves, -⟩ := follows.exists_session present
    have written := (serves.writeSize desk count).1
    cases serves with
    | size kind => simp_all
    | _ => exact .keep_self present
  | opened | absent | finish | drop => cases answered

namespace Alike

variable {other : Desk ε}

theorem transcript_eq (steps : List (String × Request)) : ∀ {desk other : Desk ε},
    desk.Alike other → other.transcript steps = desk.transcript steps := by
  induction steps with
  | nil => exact fun _ => rfl
  | cons step steps ih =>
    intro desk other alike
    obtain ⟨reply, next⟩ := alike.handle step.1 step.2
    rw [transcript, transcript, reply, ih next]

theorem after (steps : List (String × Request)) : ∀ {desk other : Desk ε},
    desk.Alike other → (desk.after steps).Alike (other.after steps) := by
  induction steps with
  | nil => exact fun alike => alike
  | cons step steps ih => exact fun alike => ih (alike.handle step.1 step.2).2

end Alike

end Desk

end DatalogStrata
