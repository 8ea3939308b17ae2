import DatalogStrata.CommandLine.Tool

/-!
# What comes of a diagram

Options may ask for a diagram, and a diagram that is asked for may arrive or not. All that is left
of it is told here from the files alone: what goes to the console, what the log says about it, and
what has become of the files.

## Main definitions

* `FileTree.delivery` — how the delivery of a text ends, and the files after it
* `Rendering` — what is left of a diagram
* `Options.rendering` — what is left of the diagram that options ask for
* `Options.Renders` — the diagram was delivered between two parts of a log
-/

namespace DatalogStrata

/-- How the delivery of a text to a target ends, and the files after it. The console takes any
text; a file may refuse it, and is then left as it is. -/
def FileTree.delivery (files : FileTree) (target text : String) :
    Except DeliveryError Unit × FileTree :=
  if target = "-" then (.ok (), files)
  else
    match files.writeText target text with
    | .ok written => (.ok (), written)
    | .error cause => (.error ⟨target, cause⟩, files)

/-- What is left of a diagram. -/
structure Rendering where
  /-- The diagram, if it goes to the console. -/
  printed : Option String
  /-- The record about how its delivery ended, if one is asked for. -/
  note : Option Record
  /-- The files afterwards. -/
  files : FileTree

/-- What is left of a diagram on the console: it stands before the record about it. -/
def Rendering.events (rendering : Rendering) : List Event :=
  rendering.printed.toList.map .text ++ rendering.note.toList.map .record

/-- What is left of the diagram that options ask for; of none, nothing. -/
def Options.rendering (options : Options) (precedence : Precedence) (files : FileTree) :
    Rendering :=
  match options.dot with
  | none => ⟨none, none, files⟩
  | some target =>
    let diagram := precedence.diagram options.format options.program
    let (outcome, after) := files.delivery target diagram
    ⟨if target = "-" then some diagram else none, some (deliveryRecord target outcome), after⟩

/-- On a machine, which had some files at first, the log has two parts, and between them stands what
is left of the diagram that options ask for. -/
structure Options.Renders (options : Options) (precedence : Precedence) (files : FileTree)
    (before after : List Record) (machine : Machine) : Prop where
  files_eq : machine.files = (options.rendering precedence files).files
  console_eq : machine.console.toList = before.map .record ++
    (options.rendering precedence files).events ++ after.map .record
  /-- The log has at most one record more than its two parts. -/
  records_eq : machine.records = before ++ (options.rendering precedence files).note.toList ++ after
  /-- It has that record exactly if a diagram is asked for. -/
  isSome_note : (options.rendering precedence files).note.isSome = options.dot.isSome
  /-- The record is no debugging record. -/
  atLeast_note : ∀ record ∈ (options.rendering precedence files).note, record.atLeast .info
  /-- Nothing but the diagram itself is printed beside the log. -/
  printed_eq : machine.printed =
    if options.dot = some "-" then precedence.diagram options.format options.program else ""

end DatalogStrata
