import DatalogStrata.Gzip.Encoder
import DatalogStrata.Output.Journal
import DatalogStrata.Proofs.Output.Table
import Mathlib.Data.List.Induction

/-!
# Sessions in a journal

A request goes to the session that bears the identifier, and to no other. So the pieces that a
journal has for a session are the session's own printout, at any time and whatever else was asked at
the desk.

## Main results

* `filter_piecesOf` — the pieces at a place are the texts of the item there
* `Journal.attributed_ofTranscript` — the pieces for a session are its printout
* `Journal.current_give`, `Journal.current_give_of_ne` — which sessions bear an identifier after a
  request
* `Journal.exists_places_notes` — the files that are written only become more
-/

namespace DatalogStrata

/-! ## Pieces -/

theorem filter_labelled (label place : Nat) (texts : List String) :
    ((texts.map fun text => (label, text)).filter fun piece => piece.1 = place).map Prod.snd =
      if label = place then texts else [] := by
  split <;> simp_all [List.filter_map, Function.comp_def]

section Pieces

variable {α : Type} (texts : α → List String)

theorem piecesOf_concat (items : List α) (item : α) :
    piecesOf texts (items ++ [item]) =
      piecesOf texts items ++ (texts item).map fun text => (items.length, text) := by
  simp [piecesOf, List.mapIdx_append]

theorem map_snd_piecesOf (items : List α) :
    (piecesOf texts items).map Prod.snd = items.flatMap texts := by
  induction items using List.reverseRecOn with
  | nil => rfl
  | append_singleton items item ih =>
    rw [piecesOf_concat, List.map_append, ih, List.flatMap_append, List.flatMap_singleton]
    simp [Function.comp_def]

/-- The pieces at a place are the texts of the item there. -/
theorem filter_piecesOf (items : List α) (place : Nat) :
    ((piecesOf texts items).filter fun piece => piece.1 = place).map Prod.snd =
      (items[place]?.map texts).getD [] := by
  induction items using List.reverseRecOn with
  | nil => rfl
  | append_singleton items item ih =>
    rw [piecesOf_concat, List.filter_append, List.map_append, ih, filter_labelled]
    rcases Nat.lt_trichotomy place items.length with before | here | behind
    · simp [List.getElem?_append_left before, Nat.ne_of_gt before]
    · simp [here]
    · have outside : (items ++ [item])[place]? = none := by
        rw [List.getElem?_eq_none_iff, List.length_append, List.length_singleton]
        omega
      rw [outside, List.getElem?_eq_none (Nat.le_of_lt behind)]
      simp [Nat.ne_of_lt behind]

end Pieces

/-! ## Sessions that go on and sessions that end -/

namespace Session

variable {session : Session} {id : String}

theorem bears_iff : session.bears id ↔ session.ended = false ∧ session.id = id := by
  simp [bears]

@[simp] theorem id_next (request : Request) : (session.next request).id = session.id := by
  cases request <;> simp only [next] <;> split <;> rfl

@[simp] theorem kind_next (request : Request) : (session.next request).kind = session.kind := by
  cases request <;> simp only [next] <;> split <;> rfl

@[simp] theorem directives_next (request : Request) :
    (session.next request).directives = session.directives := by
  cases request <;> simp only [next] <;> split <;> rfl

theorem printout_start (kind : WriterKind) (directives : Directives) :
    (start id kind directives).printout = (start id kind directives).opening := by
  cases kind <;> rfl

/-- What is printed on a request continues the printout of the session. -/
theorem printout_next (goesOn : session.ended = false) (request : Request) :
    (session.next request).printout = session.printout ++ session.prints request := by
  cases kind : session.kind <;> cases request <;>
    simp [next, prints, printout, kind, goesOn]

theorem next_tuple (tuples : session.kind ≠ .size) (values : List Value) :
    session.next (.tuple values) = { session with rows := session.rows ++ [values] } :=
  if_neg tuples

theorem next_tuple_of_size (sizes : session.kind = .size) (values : List Value) :
    session.next (.tuple values) = session :=
  if_pos sizes

theorem next_size (sizes : session.kind = .size) (count : Nat) :
    session.next (.size count) = { session with sizes := session.sizes ++ [count] } :=
  if_pos sizes

theorem next_size_of_ne (tuples : session.kind ≠ .size) (count : Nat) :
    session.next (.size count) = session :=
  if_neg tuples

@[simp] theorem path_next (request : Request) : (session.next request).path = session.path := by
  rw [path, directives_next, path]

@[simp] theorem place_next (request : Request) (working : List String) :
    (session.next request).place working = session.place working := by
  rw [place, path_next, place]

@[simp] theorem bears_next_tuple (values : List Value) :
    (session.next (.tuple values)).bears id = session.bears id := by
  simp only [next]
  split <;> rfl

@[simp] theorem bears_next_size (count : Nat) :
    (session.next (.size count)).bears id = session.bears id := by
  simp only [next]
  split <;> rfl

theorem text_start (id : String) (kind : WriterKind) (directives : Directives) :
    (start id kind directives).text = Table.openingText false directives := by
  simp [text, start, Table.text, Table.closingText]

theorem text_rows_append (values : List Value) :
    ({ session with rows := session.rows ++ [values] } : Session).text =
      session.text ++ Table.rowText session.directives.delimiter values := by
  simp [text, Table.text, Table.closingText, Table.rowsText, String.append_assoc]

end Session

namespace Journal

/-! ## The pieces of a session -/

/-- The pieces for each session are its printout. -/
def Attributed (journal : Journal) : Prop :=
  ∀ place, (journal.pieces.filter fun piece => piece.1 = place).map Prod.snd =
    (journal.sessions[place]?.map Session.printout).getD []

theorem Attributed.give {journal : Journal} (attributed : journal.Attributed) (id : String)
    (request : Request) : (journal.give id request).Attributed := by
  intro place
  rw [Journal.give, List.filter_append, List.map_append, attributed, filter_piecesOf,
    List.getElem?_map]
  cases journal.sessions[place]? with
  | none => rfl
  | some session =>
    by_cases bears : session.bears id
    · simp [bears, Session.printout_next (Session.bears_iff.mp bears).1]
    · simp [bears]

/-- A session that begins has its opening for its only piece. -/
theorem Attributed.begin {journal : Journal} (attributed : journal.Attributed) (id : String)
    (request : Request) {session : Session} (fresh : session.printout = session.opening) :
    (((journal.announce session).give id request).begin session).Attributed := by
  intro place
  have before := attributed.give id request place
  simp only [Journal.give, List.filter_append, List.map_append] at before
  simp only [announce, Journal.give, Journal.begin, List.filter_append, List.map_append,
    filter_labelled, List.append_assoc]
  rcases Nat.lt_or_ge place journal.sessions.length with old | new
  · rw [List.getElem?_append_left (by simpa using old), ← before]
    simp [Nat.ne_of_gt old]
  · -- There have been no pieces so far for a place behind the last session.
    rw [List.getElem?_eq_none (by simpa using new)] at before
    obtain ⟨nothingBefore, nothingGiven⟩ := List.append_eq_nil_iff.mp before
    rw [nothingBefore, nothingGiven, List.getElem?_append_right (by simpa using new),
      List.length_map]
    rcases Nat.eq_or_lt_of_le new with here | behind
    · simp [here, fresh]
    · obtain ⟨distance, far⟩ := Nat.exists_eq_add_of_lt behind
      simp [far, Nat.add_assoc]

theorem Attributed.note {journal : Journal} (attributed : journal.Attributed)
    (exchange : Exchange) : (journal.note exchange).Attributed := by
  unfold Journal.note
  split
  · exact attributed.begin _ _ (Session.printout_start ..)
  · exact attributed
  · exact attributed.give _ _

/-- The pieces that a journal has for a session are the printout of the session. -/
theorem attributed_ofTranscript (exchanges : List Exchange) :
    (ofTranscript exchanges).Attributed := by
  -- What is noted last changes the journal of all that came before.
  induction exchanges using List.reverseRecOn with
  | nil => exact fun _ => rfl
  | append_singleton exchanges exchange ih =>
    rw [ofTranscript, List.foldl_append]
    exact ih.note exchange

/-- Two writers print in turn, and the second refuses a tuple. -/
example : (ofTranscript ((Desk.start (.emptyAt []) : Desk GzipEncoder).transcript
    [("a", .open (some "stdout") .empty), ("b", .open (some "stdoutprintsize") .empty),
      ("b", .size 2), ("a", .tuple [.text "x"]), ("b", .tuple []), ("a", .drop)])).pieces =
    [(0, "---------------\n\n===============\n"), (1, "\t2\n"), (0, "x\n"),
      (0, "===============\n")] := by
  decide

/-! ## The session of a writer -/

variable {journal : Journal} {id name : String}

theorem mem_fileSessions {session : Session} : session ∈ journal.fileSessions ↔
    session ∈ journal.sessions ∧ session.kind = .file := by
  simp [fileSessions]

/-- The session of a writer is listed, and bears the identifier. -/
theorem listed_of_current {session : Session} (current : journal.current id = [session]) :
    session ∈ journal.sessions ∧ session.bears id :=
  List.mem_filter.mp (current ▸ List.mem_singleton_self session)

theorem current_give_of_ne (different : name ≠ id) (request : Request) :
    (journal.give id request).current name = journal.current name := by
  rw [current, current, give]
  induction journal.sessions with
  | nil => rfl
  | cons session sessions ih =>
    rw [List.map_cons, List.filter_cons, List.filter_cons, ih]
    by_cases bears : session.bears id
    · -- The session bears one identifier, so it does not bear the other, before or afterwards.
      have own := (Session.bears_iff.mp bears).2
      have before : session.bears name = false := by simp [Session.bears, own, different.symm]
      have afterwards : (session.next request).bears name = false := by
        simp [Session.bears, own, different.symm]
      simp [bears, before, afterwards]
    · simp [bears]

theorem current_give (id : String) (request : Request) :
    (journal.give id request).current id =
      ((journal.current id).map fun session => session.next request).filter
        fun session => session.bears id := by
  rw [current, current, give]
  induction journal.sessions with
  | nil => rfl
  | cons session sessions ih =>
    rw [List.map_cons, List.filter_cons, ih, List.filter_cons]
    by_cases bears : session.bears id <;> simp [bears, List.filter_cons]

/-- Once it is dropped, no session has the identifier. -/
theorem current_give_drop (id : String) : (journal.give id .drop).current id = [] := by
  rw [current_give, List.filter_eq_nil_iff]
  intro session listed
  obtain ⟨before, -, rfl⟩ := List.mem_map.mp listed
  exact Bool.false_ne_true

/-- A request that is for no session changes nothing. -/
theorem give_eq_self (nobody : journal.current id = []) (request : Request) :
    journal.give id request = journal := by
  have foreign : ∀ session ∈ journal.sessions, session.bears id = false := by
    simpa [current, List.filter_eq_nil_iff] using nobody
  have silent : piecesOf (fun session => if session.bears id then session.prints request else [])
      journal.sessions = [] := by
    rw [← List.map_eq_nil_iff (f := Prod.snd), map_snd_piecesOf, List.flatMap_eq_nil_iff]
    intro session listed
    simp [foreign session listed]
  have same : (journal.sessions.map fun session =>
      if session.bears id then session.next request else session) = journal.sessions := by
    refine (List.map_congr_left fun session listed => ?_).trans (List.map_id _)
    simp [foreign session listed]
  rw [give, silent, List.append_nil, same]

/-- What is no opening is passed on. -/
theorem note_eq_give {request : Request}
    (noOpening : ∀ name directives, request ≠ .open name directives) (reply : Reply) :
    journal.note ⟨id, request, reply⟩ = journal.give id request := by
  cases request with
  | «open» name directives => exact absurd rfl (noOpening name directives)
  | _ => rfl

theorem current_begin (session : Session) (name : String) :
    (journal.begin session).current name =
      journal.current name ++ if session.bears name then [session] else [] := by
  rw [current, current, begin, List.filter_append, List.filter_singleton]
  split <;> simp_all

theorem pieces_give (id : String) (request : Request) :
    (journal.give id request).pieces.map Prod.snd =
      journal.pieces.map Prod.snd ++
        (journal.current id).flatMap fun session => session.prints request := by
  rw [give, List.map_append, map_snd_piecesOf, current]
  congr 1
  induction journal.sessions with
  | nil => rfl
  | cons session sessions ih =>
    rw [List.flatMap_cons, ih, List.filter_cons]
    by_cases bears : session.bears id <;> simp [bears]

/-! ## The places of files -/

variable (working : List String)

/-- Sessions keep their places. -/
theorem places_give (id : String) (request : Request) :
    (journal.give id request).places working = journal.places working := by
  rw [places, places, fileSessions, fileSessions, give]
  induction journal.sessions with
  | nil => rfl
  | cons session sessions ih =>
    rw [List.map_cons, List.filter_cons, List.filter_cons]
    by_cases bears : session.bears id <;> by_cases kind : session.kind = .file <;>
      simp [bears, kind, ih]

theorem places_begin (session : Session) :
    (journal.begin session).places working =
      journal.places working ++ if session.kind = .file then [session.place working] else [] := by
  rw [places, places, fileSessions, fileSessions, begin, List.filter_append,
    List.filter_singleton, List.map_append]
  by_cases kind : session.kind = .file <;> simp [kind]

/-- Sessions that begin come behind the others. -/
theorem exists_places_note (journal : Journal) (exchange : Exchange) :
    ∃ more, (journal.note exchange).places working = journal.places working ++ more := by
  unfold note
  split
  · exact ⟨_, (places_begin ..).trans (congrArg (· ++ _) (places_give ..))⟩
  · exact ⟨[], (List.append_nil _).symm⟩
  · exact ⟨[], (places_give ..).trans (List.append_nil _).symm⟩

theorem exists_places_notes (exchanges : List Exchange) : ∀ journal : Journal,
    ∃ more, (exchanges.foldl note journal).places working = journal.places working ++ more := by
  induction exchanges with
  | nil => exact fun journal => ⟨[], (List.append_nil _).symm⟩
  | cons exchange exchanges ih =>
    intro journal
    obtain ⟨first, noted⟩ := exists_places_note working journal exchange
    obtain ⟨more, later⟩ := ih (journal.note exchange)
    exact ⟨first ++ more, by rw [List.foldl_cons, later, noted, List.append_assoc]⟩

end Journal

end DatalogStrata
