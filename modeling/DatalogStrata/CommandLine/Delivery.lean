import DatalogStrata.CommandLine.Host
import DatalogStrata.Diagram.Page

/-!
# Delivering diagrams

A diagram goes into a file, or to the console when its target is a dash. Nothing else depends on
whether it arrives, so a failure can be told in the log and left at that.

## Main definitions

* `DeliveryError` — why a diagram did not arrive
* `deliver` — write a diagram to its target
* `deliverAndTell` — write it and tell how that went
-/

namespace DatalogStrata

/-- Why a diagram did not arrive. -/
structure DeliveryError where
  target : String
  cause : FileError
deriving DecidableEq

/-- The message for a diagram that did not arrive. -/
def DeliveryError.message (error : DeliveryError) : String :=
  "Render error: failed to write '" ++ error.target ++ "': " ++ error.cause.message

variable {m : Type → Type} [Monad m] [Host m]

/-- Write a text to its target, a file or the console. -/
def deliver (target text : String) : m (Except DeliveryError Unit) := do
  if target = "-" then
    Host.emit (.text text)
    return .ok ()
  else
    match ← Host.writeText target text with
    | .ok () => return .ok ()
    | .error cause => return .error ⟨target, cause⟩

/-- What is recorded about a delivery. -/
def deliveryRecord (target : String) : Except DeliveryError Unit → Record
  | .ok () => ⟨.info, .diagram, "Wrote precedence graph rendering to " ++ target⟩
  | .error error => ⟨.warn, .diagram, error.message⟩

/-- Write a text to its target and tell how that went. -/
def deliverAndTell (target text : String) : m Unit := do
  Host.log (deliveryRecord target (← deliver target text))

end DatalogStrata
