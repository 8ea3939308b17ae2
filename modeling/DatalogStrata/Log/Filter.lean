import DatalogStrata.Log.Directive
import DatalogStrata.Log.Record

/-!
# Choosing what is logged

A filter is a list of directives, written with commas between them. Of the directives that apply to
a record the most specific one decides: the one with the longest part, of those the one with the
most fields, and of those the last. Where none applies, nothing is shown.

The tool opens no spans. So a directive for a span applies to no record, and neither does one for
the value of a field, since values are looked at in spans only.

## Main definitions

* `LogFilter.parse` — the filter that a text writes
* `LogFilter.ofSetting` — the filter for a setting, which may be missing or malformed
* `LogFilter.allows` — whether a record is shown
-/

namespace DatalogStrata

namespace LogDirective

/-- The directive with a verbosity for everything. -/
def general (verbosity : Nat) : LogDirective :=
  ⟨"", none, [], verbosity⟩

/-- Whether a directive applies to a record. -/
def applies (directive : LogDirective) (record : Record) : Bool :=
  directive.span.isNone &&
    directive.fields.all (fun field => field.name = Record.fieldName && field.value.isNone) &&
    directive.part.toList.isPrefixOf record.source.label.toList

/-- Whether a directive is at least as specific as another. -/
def outweighs (directive other : LogDirective) : Bool :=
  other.part.length < directive.part.length ||
    (other.part.length = directive.part.length && other.fields.length ≤ directive.fields.length)

end LogDirective

/-- The directives of a log. -/
structure LogFilter where
  directives : List LogDirective
deriving DecidableEq, Repr

namespace LogFilter

/-- The filter that a text writes. Nothing between two commas is no directive. -/
def parse (text : String) : Except FilterFault LogFilter :=
  let pieces := (splitAt ',' text.toList).filter fun piece => !piece.isEmpty
  (pieces.mapM LogDirective.parse).map LogFilter.mk

/-- What is shown unless something else is asked for: all but debugging records. -/
def standard : LogFilter :=
  ⟨[.general Level.info.verbosity]⟩

/-- The filter for a setting: the standard one if it is missing or malformed, and none if it cannot
even be taken apart. -/
def ofSetting : Option String → Option LogFilter
  | none => some standard
  | some text =>
    match parse text with
    | .ok filter => some filter
    | .error .malformed => some standard
    | .error .insideCharacter => none

/-- Of two directives the one that decides, where the second stands later. -/
def stronger (found : Option LogDirective) (directive : LogDirective) : Option LogDirective :=
  match found with
  | some other => if directive.outweighs other then some directive else some other
  | none => some directive

/-- The directive that decides about a record. -/
def decisive? (filter : LogFilter) (record : Record) : Option LogDirective :=
  (filter.directives.filter fun directive => directive.applies record).foldl stronger none

/-- Whether a record is shown. -/
def allows (filter : LogFilter) (record : Record) : Bool :=
  match filter.decisive? record with
  | some directive => record.level.verbosity ≤ directive.verbosity
  | none => false

end LogFilter

end DatalogStrata
