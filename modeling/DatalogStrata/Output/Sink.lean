import DatalogStrata.Output.Error

/-!
# Sinks

A sink takes text. It may take only a part of it and refuse the rest; what it took stays taken.

## Main definitions

* `Sink` — what a sink can do
* `Sink.writeAll` — several texts, until one is refused
* `BoundedSink` — a sink with room for so many bytes
* `Spool` — a sink that takes everything
-/

namespace DatalogStrata

/-- What a sink can do. -/
class Sink (σ : Type) where
  /-- Take a text, or as much of it as there is room for. -/
  write : σ → String → Except WriteError Unit × σ
  /-- Pass on what was taken. -/
  flush : σ → Except WriteError Unit × σ

/-- Write texts one after another. What follows a text that is refused is not tried. -/
def Sink.writeAll {σ : Type} [Sink σ] (sink : σ) : List String → Except WriteError Unit × σ
  | [] => (.ok (), sink)
  | text :: rest =>
    match Sink.write sink text with
    | (.ok (), sink) => Sink.writeAll sink rest
    | (.error error, sink) => (.error error, sink)

/-- A sink with room for so many bytes, or for any number. -/
structure BoundedSink where
  /-- The bytes taken so far. -/
  content : List UInt8
  /-- How many bytes are taken in all, if there is a bound. -/
  room : Option Nat
  /-- How often the sink was flushed. -/
  flushes : Nat
deriving DecidableEq, Repr

namespace BoundedSink

/-- A sink before anything is written. -/
def start (room : Option Nat) : BoundedSink :=
  ⟨[], room, 0⟩

/-- How many of so many bytes there is room for. -/
def accepts (sink : BoundedSink) (count : Nat) : Nat :=
  match sink.room with
  | some room => min count (room - sink.content.length)
  | none => count

instance : Sink BoundedSink where
  write sink text :=
    let bytes := bytesOf text
    let accepted := sink.accepts bytes.length
    (if accepted = bytes.length then .ok () else .error .sinkFull,
      { sink with content := sink.content ++ bytes.take accepted })
  flush sink := (.ok (), { sink with flushes := sink.flushes + 1 })

end BoundedSink

/-- A sink that takes everything and holds it until it is fetched. -/
structure Spool where
  held : String
deriving DecidableEq, Repr

namespace Spool

/-- A spool that holds nothing. -/
def empty : Spool :=
  ⟨""⟩

instance : Sink Spool where
  write spool text := (.ok (), ⟨spool.held ++ text⟩)
  flush spool := (.ok (), spool)

end Spool

end DatalogStrata
