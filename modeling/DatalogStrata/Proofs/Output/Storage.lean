import DatalogStrata.Proofs.Gzip.Encoder
import DatalogStrata.Proofs.Output.Sessions
import Mathlib.Data.List.Nodup

/-!
# Files of sessions

As long as no two writers are opened for the same file, each file is its writer's own. It holds the
beginning of what its session tells, the rest of which waits at the writer, and once the session has
ended it holds all of it. For a compressed file, that is what its encoder was given, and what a
decoder reads in the end.

## Main definitions

* `Writer.Stored` — a file and its writer hold together what the session tells
* `Desk.Files` — the files of all sessions are as the journal tells

## Main results

* `Desk.Files.handled` — what one request does to the files
* `Desk.writers_undisturbed` — what becomes of files, console and requests that are refused
-/

namespace DatalogStrata

/-! ## A file and its writer -/

variable {ε : Type} [Compressor ε]

/-- A file and its writer hold together what the session tells. -/
inductive Writer.Stored (files : FileTree) (place : List String) (session : Session) :
    Writer ε → Prop
  | file {stored held : List UInt8} (plain : session.directives.compress = false)
      (there : files.node? place = some (.file stored))
      (whole : stored ++ held = bytesOf session.text) :
      Stored files place session
        (.file place stored.length ⟨⟨[], held⟩, session.directives.delimiter, none⟩)
  | archive {stored : List UInt8} {sink : PackedBuffer ε}
      (compressed : session.directives.compress = true)
      (there : files.node? place = some (.file stored)) (fetched : sink.buffer.sent = [])
      (gathered : sink.Gathered stored (bytesOf session.text)) :
      Stored files place session
        (.archive place stored.length ⟨sink, session.directives.delimiter, none⟩)

namespace Writer.Stored

variable {files : FileTree} {desk : Desk ε} {place : List String} {session : Session}
variable {writer : Writer ε}

theorem noDirectory (stored : writer.Stored files place session) :
    files.node? place ≠ some .directory := by
  cases stored with
  | file plain there whole => simp [there]
  | archive compressed there fetched gathered => simp [there]

theorem congr {other : FileTree} (stored : writer.Stored files place session)
    (same : other.node? place = files.node? place) : writer.Stored other place session := by
  cases stored with
  | file plain there whole => exact .file plain (same.trans there) whole
  | archive compressed there fetched gathered =>
    exact .archive compressed (same.trans there) fetched gathered

/-- What a table of a plain file holds back is known once it is known what is in the file. -/
theorem storeSent {stored : List UInt8} {buffer : BlockBuffer}
    (plain : session.directives.compress = false)
    (there : desk.files.node? place = some (.file stored)) (named : place ≠ [])
    (whole : stored ++ buffer.rest = bytesOf session.text) :
    let written := desk.storeSent place stored.length
      ⟨buffer, session.directives.delimiter, none⟩
    desk.files.ChangedAt written.2.files place ∧
      written.1.Stored written.2.files place session := by
  intro written
  refine ⟨FileTree.changedAt_writeAt _ _ (by simp [there]), ?_⟩
  simp only [written, Desk.storeSent, Desk.store]
  rw [← List.length_append]
  refine .file plain (FileTree.node?_writeAt named there buffer.sent) ?_
  rw [List.append_assoc]
  exact whole

/-- What an encoder was given is known as well once some of what it made of it is in the file. -/
theorem storePacked {stored : List UInt8} {sink : PackedBuffer ε}
    (compressed : session.directives.compress = true)
    (there : desk.files.node? place = some (.file stored)) (named : place ≠ [])
    (gathered : sink.Gathered stored (bytesOf session.text)) :
    let written := desk.storePacked place stored.length
      ⟨sink, session.directives.delimiter, none⟩
    desk.files.ChangedAt written.2.files place ∧
      written.1.Stored written.2.files place session := by
  intro written
  refine ⟨FileTree.changedAt_writeAt _ _ (by simp [there]), ?_⟩
  simp only [written, Desk.storePacked, Desk.store]
  rw [← List.length_append]
  exact .archive compressed (FileTree.node?_writeAt named there _) rfl gathered.fetched

/-- A row goes to the file, to the writer, or in part to both. -/
theorem writeTuple (stored : writer.Stored desk.files place session) (kind : session.kind = .file)
    (named : place ≠ []) (values : List Value) :
    let written := desk.writeTuple values writer
    desk.files.ChangedAt written.2.2.files place ∧
      written.2.1.Stored written.2.2.files place (session.next (.tuple values)) := by
  intro written
  rw [Session.next_tuple (by simp [kind])]
  let longer : Session := { session with rows := session.rows ++ [values] }
  cases stored with
  | @file before held plain there whole =>
    obtain ⟨buffer, writes, taken⟩ := TableWriter.exists_writeRow_eq BlockBuffer.keeps.gathers
      ⟨⟨[], held⟩, session.directives.delimiter, none⟩ rfl values
    have longerWhole : before ++ buffer.rest = bytesOf longer.text := by
      rw [taken, Session.text_rows_append, bytesOf_append, ← whole, List.append_assoc]
      rfl
    simp only [written, Desk.writeTuple, writes]
    exact storeSent (show longer.directives.compress = false from plain) there named longerWhole
  | @archive before sink compressed there fetched gathered =>
    obtain ⟨next, writes, more⟩ := TableWriter.exists_writeRow_eq (PackedBuffer.gathers before)
      ⟨sink, session.directives.delimiter, none⟩ gathered values
    rw [← bytesOf_append, ← Session.text_rows_append] at more
    simp only [written, Desk.writeTuple, writes]
    exact storePacked (show longer.directives.compress = true from compressed) there named more

/-- A size is refused. -/
theorem writeSize (stored : writer.Stored desk.files place session) (kind : session.kind = .file)
    (count : Nat) :
    let written := desk.writeSize count writer
    written.2.1.Stored written.2.2.files place (session.next (.size count)) := by
  rw [Session.next_size_of_ne (by simp [kind])]
  cases stored with
  | file plain there whole => exact .file plain there whole
  | archive compressed there fetched gathered => exact .archive compressed there fetched gathered

/-- In the end all of it is in the file, whether the writer was finished or dropped. -/
theorem ended {decode : List UInt8 → Option (List UInt8)}
    (lossless : Compressor.Lossless ε decode) {after : Desk ε}
    (stored : writer.Stored desk.files place session) (named : place ≠ [])
    (ended : desk.Ended writer after) :
    desk.files.ChangedAt after.files place ∧
      ∃ bytes, after.files.node? place = some (.file bytes) ∧
        session.decoded decode bytes = some (bytesOf session.text) := by
  have noDirectory := stored.noDirectory
  cases stored with
  | @file before held plain there whole =>
    have same : after = desk.release
        (.file place before.length ⟨⟨[], held⟩, session.directives.delimiter, none⟩) := by
      cases ended with
      | finished => exact Desk.finish_eq _ (by rintro _ _ _ ⟨⟩)
      | released => rfl
    subst same
    refine ⟨FileTree.changedAt_writeAt _ _ noDirectory, _,
      FileTree.node?_writeAt named there _, ?_⟩
    rw [Session.decoded, plain, ← whole]
    rfl
  | @archive before sink compressed there fetched gathered =>
    -- The encoder comes to its end in one of two ways, and either is decoded.
    cases ended with
    | finished =>
      obtain ⟨flushed, finished, held⟩ := TableWriter.exists_finish_eq (PackedBuffer.gathers before)
        ⟨sink, session.directives.delimiter, none⟩ gathered
      rw [Option.getD_none, bytesOf_empty, List.append_nil] at held
      simp only [Desk.finish, finished, Desk.store]
      refine ⟨FileTree.changedAt_writeAt _ _ noDirectory, _,
        FileTree.node?_writeAt named there _, ?_⟩
      rw [Session.decoded, compressed]
      exact held.finish lossless
    | released =>
      refine ⟨FileTree.changedAt_writeAt _ _ noDirectory, _,
        FileTree.node?_writeAt named there _, ?_⟩
      rw [Session.decoded, compressed]
      exact gathered.drop lossless

end Writer.Stored

/-! ## The files of a desk -/

namespace Desk

variable {ε : Type} {desk after : Desk ε} {journal : Journal} {id : String} {session : Session}
variable {working : List String}

/-- A desk differs in its files from what it was before at most where a session has its file. -/
structure Touches (desk after : Desk ε) (working : List String) (session : Session) : Prop where
  changedAt : session.kind = .file → desk.files.ChangedAt after.files (session.place working)
  files_eq : session.kind ≠ .file → after.files = desk.files

theorem Touches.working_eq (touches : desk.Touches after working session) :
    after.files.working = desk.files.working := by
  by_cases kind : session.kind = .file
  · exact (touches.changedAt kind).working_eq
  · rw [touches.files_eq kind]

theorem Touches.spares (touches : desk.Touches after working session) {place : List String}
    (apart : session.kind = .file → place ≠ session.place working) :
    desk.files.Spares after.files place := by
  by_cases kind : session.kind = .file
  · exact (touches.changedAt kind).spares (apart kind)
  · rw [touches.files_eq kind]
    exact FileTree.spares_refl _ _

variable [Compressor ε] {decode : List UInt8 → Option (List UInt8)}

/-- The file of a session is as the session tells. -/
structure Stores (desk : Desk ε) (decode : List UInt8 → Option (List UInt8))
    (working : List String) (session : Session) : Prop where
  leads : desk.files.Leads session.path (session.place working)
  ended : session.ended = true →
    ∃ bytes, desk.files.node? (session.place working) = some (.file bytes) ∧
      session.decoded decode bytes = some (bytesOf session.text)
  goesOn : session.ended = false →
    ∃ writer, desk.writer? session.id = some writer ∧
      writer.Stored desk.files (session.place working) session

/-- The files of all sessions are as the journal tells. -/
structure Files (desk : Desk ε) (decode : List UInt8 → Option (List UInt8))
    (working : List String) (journal : Journal) : Prop where
  working_eq : desk.files.working = working
  stores : ∀ session ∈ journal.fileSessions, desk.Stores decode working session

/-- All is well with a file that is spared and stays with its writer. -/
theorem Stores.spared (stores : desk.Stores decode working session)
    (spares : desk.files.Spares after.files (session.place working))
    (lookup : session.ended = false → after.writer? session.id = desk.writer? session.id) :
    after.Stores decode working session where
  leads := spares.leads stores.leads
  ended past := by
    obtain ⟨bytes, there, decoded⟩ := stores.ended past
    exact ⟨bytes, spares.node?_eq.trans there, decoded⟩
  goesOn ongoing := by
    obtain ⟨writer, found, stored⟩ := stores.goesOn ongoing
    exact ⟨writer, (lookup ongoing).trans found, stored.congr spares.node?_eq⟩

/-- A request to one writer, which does to its own file what it does to the session, and nothing to
others. -/
theorem Files.give (files : desk.Files decode working journal)
    (apart : (journal.places working).Nodup)
    (current : journal.current id = [session]) {request : Request}
    (others : ∀ name, name ≠ id → after.writer? name = desk.writer? name)
    (touches : desk.Touches after working session)
    (own : session.kind = .file → after.Stores decode working (session.next request)) :
    after.Files decode working (journal.give id request) := by
  refine ⟨touches.working_eq.trans files.working_eq, fun given member => ?_⟩
  obtain ⟨listed, kind⟩ := Journal.mem_fileSessions.mp member
  obtain ⟨before, known, rfl⟩ := List.mem_map.mp listed
  by_cases bears : before.bears id
  · have same : before = session := by
      have found : before ∈ journal.current id := List.mem_filter.mpr ⟨known, bears⟩
      simpa [current] using found
    subst same
    simp only [bears, if_true, Session.kind_next] at kind ⊢
    exact own kind
  · simp only [bears, Bool.false_eq_true, if_false] at kind ⊢
    have written := Journal.mem_fileSessions.mpr ⟨known, kind⟩
    refine (files.stores before written).spared
      (touches.spares fun ownKind samePlace => bears ?_)
      fun ongoing => others _ fun named => bears (Session.bears_iff.mpr ⟨ongoing, named⟩)
    -- Two sessions with the same file would be the same session.
    have serving := Journal.listed_of_current current
    have same := List.inj_on_of_nodup_map apart written
      (Journal.mem_fileSessions.mpr ⟨serving.1, ownKind⟩) samePlace
    exact same ▸ serving.2

variable {writer : Writer ε}

/-- The file of a session that goes on, with its writer. -/
theorem Files.stored (files : desk.Files decode working journal)
    (current : journal.current id = [session]) (present : desk.writer? id = some writer)
    (kind : session.kind = .file) :
    desk.files.Leads session.path (session.place working) ∧
      writer.Stored desk.files (session.place working) session := by
  have serving := Journal.listed_of_current current
  obtain ⟨ongoing, named⟩ := Session.bears_iff.mp serving.2
  have stores := files.stores session (Journal.mem_fileSessions.mpr ⟨serving.1, kind⟩)
  obtain ⟨own, found, stored⟩ := stores.goesOn ongoing
  rw [named, present, Option.some.injEq] at found
  exact ⟨stores.leads, found ▸ stored⟩

/-- A writer that is remembered and its file hold what the session tells. -/
theorem stores_keep (bears : session.bears id)
    (leads : after.files.Leads session.path (session.place working))
    (stored : writer.Stored after.files (session.place working) session) :
    (after.keep id writer).Stores decode working session where
  leads := leads
  ended past := by simp [(Session.bears_iff.mp bears).1] at past
  goesOn _ := ⟨writer, by simp [(Session.bears_iff.mp bears).2], stored⟩

theorem Files.tuple (files : desk.Files decode working journal) (follows : desk.Follows journal)
    (apart : (journal.places working).Nodup)
    (present : desk.writer? id = some writer) (values : List Value) :
    let written := desk.writeTuple values writer
    (written.2.2.keep id written.2.1).Files decode working (journal.give id (.tuple values)) := by
  intro written
  obtain ⟨session, current, serves, bears⟩ := follows.exists_session present
  have changes (kind : session.kind = .file) :
      desk.files.ChangedAt written.2.2.files (session.place working) ∧
        (written.2.2.keep id written.2.1).Stores decode working
          (session.next (.tuple values)) := by
    obtain ⟨leads, stored⟩ := files.stored current present kind
    obtain ⟨changed, next⟩ := stored.writeTuple kind leads.ne_nil values
    refine ⟨changed, stores_keep (by simpa using bears) ?_ (by simpa using next)⟩
    simpa using leads.changedAt changed
  -- A writer of another kind leaves all files as they are.
  have touches : desk.Touches (written.2.2.keep id written.2.1) working session :=
    ⟨fun kind => (changes kind).1, fun noFile => by cases serves <;> first | contradiction | rfl⟩
  refine files.give apart current (fun name different => ?_) touches fun kind => (changes kind).2
  rw [writer?_keep, if_neg different, writer?_congr (writers_writeTuple desk values writer)]

theorem Files.size (files : desk.Files decode working journal) (follows : desk.Follows journal)
    (apart : (journal.places working).Nodup)
    (present : desk.writer? id = some writer) (count : Nat) :
    let written := desk.writeSize count writer
    (written.2.2.keep id written.2.1).Files decode working (journal.give id (.size count)) := by
  intro written
  obtain ⟨session, current, serves, bears⟩ := follows.exists_session present
  have same : written.2.2.files = desk.files := by cases serves <;> rfl
  refine files.give apart current ?_ ⟨?_, fun _ => same⟩ ?_
  · intro name different
    rw [writer?_keep, if_neg different, writer?_congr (writers_writeSize desk count writer)]
  · intro kind
    rw [Desk.keep, same]
    exact FileTree.changedAt_refl (files.stored current present kind).2.noDirectory
  · intro kind
    obtain ⟨leads, stored⟩ := files.stored current present kind
    refine stores_keep (by simpa using bears) ?_ (by simpa using stored.writeSize kind count)
    rw [same]
    simpa using leads

section Ending

variable (lossless : Compressor.Lossless ε decode)
include lossless

/-- The file of a writer that comes to its end is complete, and no other file changes. -/
theorem Files.ended (files : desk.Files decode working journal) (follows : desk.Follows journal)
    (apart : (journal.places working).Nodup) (present : desk.writer? id = some writer)
    (ended : (desk.remove id).Ended writer after) :
    after.Files decode working (journal.give id .drop) ∧
      ∀ place, (∀ session ∈ journal.fileSessions, place ≠ session.place working) →
        desk.files.Spares after.files place := by
  obtain ⟨session, current, serves, bears⟩ := follows.exists_session present
  have changes (kind : session.kind = .file) :
      desk.files.ChangedAt after.files (session.place working) ∧
        after.Stores decode working (session.next .drop) := by
    obtain ⟨leads, stored⟩ := files.stored current present kind
    -- To be removed from the desk makes no difference to the file.
    have stored : writer.Stored (desk.remove id).files (session.place working) session := stored
    obtain ⟨changed, complete⟩ := stored.ended lossless leads.ne_nil ended
    exact ⟨changed, leads.changedAt changed, fun _ => complete, fun ongoing => by cases ongoing⟩
  have touches : desk.Touches after working session := by
    refine ⟨fun kind => (changes kind).1, fun noFile => ?_⟩
    cases ended <;> cases serves <;> first | contradiction | rfl
  refine ⟨files.give apart current ?_ touches fun kind => (changes kind).2, ?_⟩
  · intro name different
    rw [writer?_congr ended.writers_eq, writer?_remove, if_neg different]
  · intro place elsewhere
    have listed := (Journal.listed_of_current current).1
    exact touches.spares fun kind =>
      elsewhere session (Journal.mem_fileSessions.mpr ⟨listed, kind⟩)

theorem Files.drop (files : desk.Files decode working journal) (follows : desk.Follows journal)
    (apart : (journal.places working).Nodup) (id : String) :
    (desk.drop id).Files decode working (journal.give id .drop) ∧
      ∀ place, (∀ session ∈ journal.fileSessions, place ≠ session.place working) →
        desk.files.Spares (desk.drop id).files place := by
  cases present : desk.writer? id with
  | none =>
    rw [Desk.drop, present, Journal.give_eq_self (follows.current_eq_nil present)]
    exact ⟨files, fun _ _ => FileTree.spares_refl _ _⟩
  | some writer =>
    rw [drop_eq present]
    exact files.ended lossless follows apart present .released

end Ending

/-- The file of a writer that is opened holds the opening of its table, with the writer. -/
theorem opened_file {directives : Directives} {path : String} {file : List String}
    {tree : FileTree} (working_eq : desk.files.working = working)
    (named : directives.get? "filename" = some path)
    (created : desk.files.create path = .ok (file, tree))
    (opens : fileWriter { desk with files := tree } file directives = (writer, after))
    (id : String) :
    let session := Session.start id .file directives
    writer.kind = .file ∧ desk.files.ChangedAt after.files (session.place working) ∧
      after.files.Leads session.path (session.place working) ∧
        writer.Stored after.files (session.place working) session := by
  intro session
  have text := Session.text_start id .file directives
  obtain ⟨leads, noDirectory, rfl⟩ := FileTree.create_eq_ok created
  have path_eq : session.path = path := by simp [session, Session.path, Session.start, named]
  have place : session.place working = file := by
    rw [Session.place, path_eq, ← working_eq, leads.place_eq]
  have emptied := FileTree.changedAt_put (.file []) noDirectory
  let fresh : Desk ε := { desk with files := desk.files.put file (.file []) }
  have there : fresh.files.node? file = some (.file []) := FileTree.node?_put_self _ leads.ne_nil
  rw [path_eq, place]
  -- Of either kind of writer something may have reached the file already.
  have begun : writer.kind = .file ∧ fresh.files.ChangedAt after.files file ∧
      writer.Stored after.files file session := by
    cases compress : directives.compress with
    | true =>
      obtain ⟨sink, gathered, opened⟩ := fileWriter_compressed compress fresh file
      have next := Writer.Stored.storePacked (show session.directives.compress = true from compress)
        there leads.ne_nil (text ▸ gathered)
      obtain ⟨rfl, rfl⟩ := Prod.mk.inj (opened.symm.trans opens)
      exact ⟨rfl, next⟩
    | false =>
      obtain ⟨buffer, taken, opened⟩ := fileWriter_plain compress fresh file
      have next := Writer.Stored.storeSent (show session.directives.compress = false from compress)
        there leads.ne_nil (taken.trans (congrArg bytesOf text.symm))
      obtain ⟨rfl, rfl⟩ := Prod.mk.inj (opened.symm.trans opens)
      exact ⟨rfl, next⟩
  obtain ⟨kind, written, stored⟩ := begun
  exact ⟨kind, emptied.trans written, (leads.changedAt emptied).changedAt written, stored⟩

/-- To open a writer touches its own file only, which then holds the opening of the table. -/
theorem touches_openWriter {name : Option String} {directives : Directives}
    (working_eq : desk.files.working = working)
    (opens : desk.openWriter name directives = .ok (writer, after)) (id : String) :
    let session := Session.start id writer.kind directives
    desk.Touches after working session ∧ (session.kind = .file →
      after.files.Leads session.path (session.place working) ∧
        writer.Stored after.files (session.place working) session) := by
  intro session
  obtain ⟨name, opens⟩ := openWriter_eq_ok opens
  rcases openNamed_eq_ok opens with
    ⟨path, file, tree, named, created, made⟩ | ⟨rfl, rfl⟩ | ⟨rfl, rfl⟩
  · obtain ⟨kind, changed, leads, stored⟩ := opened_file working_eq named created made id
    rw [← kind] at changed leads stored
    exact ⟨⟨fun _ => changed, fun noFile => absurd kind noFile⟩, fun _ => ⟨leads, stored⟩⟩
  · exact ⟨⟨fun kind => (by cases kind), fun _ => rfl⟩, fun kind => (by cases kind)⟩
  · exact ⟨⟨fun kind => (by cases kind), fun _ => rfl⟩, fun kind => (by cases kind)⟩

/-- A session that begins with a writer of its own. -/
theorem Files.begin (files : desk.Files decode working journal) (bears : session.bears id)
    (vacant : journal.current id = [])
    (own : session.kind = .file → desk.files.Leads session.path (session.place working) ∧
      writer.Stored desk.files (session.place working) session) :
    (desk.keep id writer).Files decode working (journal.begin session) := by
  refine ⟨files.working_eq, fun given member => ?_⟩
  obtain ⟨listed, kind⟩ := Journal.mem_fileSessions.mp member
  rcases List.mem_append.mp listed with known | new
  · have foreign : given.bears id = false := by
      have := List.filter_eq_nil_iff.mp vacant given known
      simpa using this
    refine (files.stores given (Journal.mem_fileSessions.mpr ⟨known, kind⟩)).spared
      (FileTree.spares_refl _ _) fun ongoing => ?_
    rw [writer?_keep, if_neg]
    intro named
    simp [Session.bears, ongoing, named] at foreign
  · obtain rfl := List.mem_singleton.mp new
    exact stores_keep bears (own kind).1 (own kind).2

section Requests

variable (lossless : Compressor.Lossless ε decode)
include lossless

/-- A writer that is opened writes a file of its own, and the one that it replaces is dropped. -/
theorem Files.replace (files : desk.Files decode working journal) (follows : desk.Follows journal)
    {name : Option String} {directives : Directives}
    (opens : desk.openWriter name directives = .ok (writer, after)) (id : String)
    (apart : ((((journal.announce (.start id writer.kind directives)).give id .drop).begin
      (.start id writer.kind directives)).places working).Nodup) :
    ((after.drop id).keep id writer).Files decode working
      (((journal.announce (.start id writer.kind directives)).give id .drop).begin
        (.start id writer.kind directives)) := by
  rw [Journal.places_begin, Journal.places_give] at apart
  obtain ⟨apartBefore, -, distinct⟩ := List.nodup_append.mp apart
  generalize begun : Session.start id writer.kind directives = session at apart distinct ⊢
  obtain ⟨touches, own⟩ := touches_openWriter files.working_eq opens id
  rw [begun] at touches own
  have elsewhere (kind : session.kind = .file) (other : Session)
      (known : other ∈ journal.fileSessions) : other.place working ≠ session.place working :=
    distinct _ (List.mem_map_of_mem known) _ (by simp [kind])
  -- The new file is there before the writer that is replaced completes its own.
  have opened : after.Files decode working (journal.announce session) :=
    ⟨touches.working_eq.trans files.working_eq, fun other known =>
      (files.stores other known).spared (touches.spares fun kind => elsewhere kind other known)
        fun _ => writer?_congr (writers_openWriter opens) _⟩
  obtain ⟨dropped, spares⟩ :=
    opened.drop lossless (begun ▸ follows.announce opens id) apartBefore id
  refine dropped.begin ?_ (Journal.current_give_drop id) fun kind => ?_
  · simp [← begun, Session.bears, Session.start]
  · obtain ⟨leads, stored⟩ := own kind
    have spared := spares (session.place working) fun other known =>
      (elsewhere kind other known).symm
    exact ⟨spared.leads leads, stored.congr spared.node?_eq⟩

/-- What a request does to the files is what the journal notes, as long as no two sessions write
the same file. -/
theorem Files.handled (files : desk.Files decode working journal) (follows : desk.Follows journal)
    {request : Request} {reply : Reply} (handled : desk.Handled id request reply after)
    (apart : ((journal.note ⟨id, request, reply⟩).places working).Nodup) :
    after.Files decode working (journal.note ⟨id, request, reply⟩) := by
  cases handled with
  | refused opens => exact files
  | opened opens => exact files.replace lossless follows opens id apart
  | absent absent noOpening =>
    rw [Journal.note_eq_give noOpening, Journal.give_eq_self (follows.current_eq_nil absent)]
    exact files
  | tuple values present =>
    exact files.tuple follows (Journal.places_give .. ▸ apart) present values
  | size count present => exact files.size follows (Journal.places_give .. ▸ apart) present count
  | finish present =>
    exact (files.ended lossless follows (Journal.places_give .. ▸ apart) present .finished).1
  | drop present =>
    exact (files.drop lossless follows (Journal.places_give .. ▸ apart) id).1

/-- What requests do to the files is what the journal notes of them. -/
theorem Files.after_steps (steps : List (String × Request)) :
    ∀ {desk : Desk ε} {journal : Journal}, desk.Files decode working journal →
      desk.Follows journal →
      (((desk.transcript steps).foldl Journal.note journal).places working).Nodup →
      (desk.after steps).Files decode working
        ((desk.transcript steps).foldl Journal.note journal) := by
  induction steps with
  | nil => exact fun files _ _ => files
  | cons step steps ih =>
    intro desk journal files follows apart
    obtain ⟨id, request⟩ := step
    rw [transcript, List.foldl_cons] at apart ⊢
    -- The places so far are among those in the end, so they are different from each other as well.
    obtain ⟨more, places⟩ := Journal.exists_places_notes working _ _
    have apartNow := (List.nodup_append.mp (places ▸ apart)).1
    have handled := desk.handled id request
    exact ih (files.handled lossless follows handled apartNow) (follows.handled handled) apart

end Requests

end Desk

namespace TwoWriters

/-- A machine whose working directory is not the root. -/
def files : FileTree :=
  .emptyAt ["data", "out"]

/-- The directives of a relation that goes to a compressed file in the working directory. -/
def edge : Directives :=
  .ofList [("compress", "true"), ("filename", "./edge.csv.gz"), ("name", "edge")]

/-- The directives of a relation that goes to a file in the directory above. -/
def path : Directives :=
  .ofList [("filename", "/data/out/../path.csv"), ("name", "path")]

/-- Two files and the console are written in turn, and the writer of a file refuses a size. -/
def steps : List (String × Request) :=
  [("e", .open (some "file") edge), ("c", .open (some "stdout") .empty),
    ("p", .open (some "file") path), ("e", .tuple [.text "a", .number 1]), ("c", .tuple []),
    ("p", .tuple [.text "b"]), ("e", .size 1), ("p", .drop), ("e", .finish)]

end TwoWriters

end DatalogStrata
