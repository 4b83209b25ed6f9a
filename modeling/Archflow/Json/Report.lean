import Archflow.Json.Value
import Archflow.Trace

/-!
Faults and traces as JSON.
-/
namespace Archflow

namespace Fault

/-- What a fault says besides its kind. -/
def detail : Fault → Json
  | .parse text => .text text
  | .invalidModel cause => .text cause.text
  | .typeMismatch cause => .text cause.text
  | .invalidDirection port direction operation => .object [
      ("port", .text port), ("direction", .text direction), ("operation", .text operation)]
  | .unresolved cause => .text cause.text
  | .unsupportedOperator token => .text token
  | .arithmetic cause => .text cause.text
  | .constraintViolated name expression evaluated => .object [
      ("name", .text name), ("expression", .text expression), ("evaluated", .text evaluated)]
  | .missingAllocation cause => .text cause.text
  | .cascadeLimitExceeded limit => .object [("limit", .number (.ofNat limit))]

def toJson (fault : Fault) : Json :=
  .object [("type", .text fault.kind.name), ("detail", fault.detail)]

end Fault

namespace Trace

/-- An entry as JSON. The time is that since the start of the run. -/
def Entry.toJson (entry : Entry) (time : Nat) : Json :=
  .object ([("seq", .number (.ofNat entry.seq)), ("element", .text entry.element),
    ("kind", .text entry.kind.text), ("input", .ofOption Value.toJson entry.input),
    ("output", .ofOption Value.toJson entry.output), ("timestamp", .number (.ofNat time))] ++
    entry.fault.toList.map fun fault => ("error", fault.toJson))

def jsonLines (trace : Trace) (time : Entry → Nat) : List String :=
  trace.entries.toList.map fun entry => (entry.toJson (time entry)).render

end Trace
end Archflow
