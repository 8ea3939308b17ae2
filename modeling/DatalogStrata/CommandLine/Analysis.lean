import DatalogStrata.CommandLine.Host
import DatalogStrata.Stratum.Basic

/-!
# Records of an analysis

While a program is analysed, the log tells which occurrences were left out of the precedence
graph, how large the graph is, what each stratum reads and how many strata there are. Of the
negation cycles of a program without strata all but the reported one are told as warnings.

## Main definitions

* `Precedence.records`, `Stratification.records`, `Rejection.records` — what is told
* `Precedence.analyse` — stratify and tell
-/

namespace DatalogStrata

namespace Precedence

/-- The notes about unresolved occurrences, then the size of the graph. -/
def records (precedence : Precedence) : List Record :=
  let vertices := toString precedence.graph.vertexCount
  let edges := toString precedence.graph.edgeCount
  precedence.unresolved.map (fun u => ⟨.debug, .precedence, u.message⟩) ++
    [⟨.debug, .precedence,
      "Precedence graph built (vertices=" ++ vertices ++ ", edges=" ++ edges ++ ")"⟩]

end Precedence

namespace Stratum

/-- Relations by their long form, between brackets. -/
def longTexts (relations : List RelationId) : String :=
  "[" ++ commaSeparated (relations.map RelationId.longText) ++ "]"

/-- What is recorded about the stratum at a place. -/
def record (place : Nat) (stratum : Stratum) : Record :=
  ⟨.debug, .strata,
    "Stratum #" ++ toString (place + 1) ++ " enter=" ++ longTexts stratum.enter ++
      " iterative=" ++ longTexts stratum.iterative⟩

end Stratum

namespace Stratification

/-- What each stratum reads, then how many strata there are. -/
def records (stratification : Stratification) : List Record :=
  let relations := toString stratification.relationCount
  let strata := toString stratification.strata.length
  let recursive := toString stratification.recursiveCount
  stratification.strata.mapIdx Stratum.record ++
    [⟨.info, .strata,
      "Stratified " ++ relations ++ " relations into " ++ strata ++ " strata (" ++ recursive ++
        " recursive)"⟩]

end Stratification

namespace Rejection

/-- A warning for each cycle that is not reported. -/
def records (rejection : Rejection) : List Record :=
  rejection.others.map fun cycle =>
    ⟨.warn, .strata, "Also unstratifiable: " ++ cycle.message⟩

end Rejection

/-- What the log tells about the outcome of a stratification. -/
def outcomeRecords : Except Rejection Stratification → List Record
  | .ok stratification => stratification.records
  | .error rejection => rejection.records

variable {m : Type → Type} [Monad m] [Host m]

/-- Stratify a program by its precedence graph, and tell about it. -/
def Precedence.analyse (precedence : Precedence) : m (Except Rejection Stratification) := do
  let outcome := precedence.stratify
  Host.logAll (precedence.records ++ outcomeRecords outcome)
  return outcome

end DatalogStrata
