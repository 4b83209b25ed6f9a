import Archflow.Fault

/-!
The trace of a run: numbered entries, of which each one tells what an element took in and gave out,
or why it failed.
-/
namespace Archflow

inductive StepKind where
  | exec
  | port
  | protocol
  | log
deriving DecidableEq, Repr

def StepKind.text : StepKind → String
  | .exec => "exec"
  | .port => "port"
  | .protocol => "protocol"
  | .log => "log"

namespace Trace

structure Entry where
  seq : Nat
  element : String
  kind : StepKind
  input : Option Value := none
  output : Option Value := none
  fault : Option Fault := none
deriving DecidableEq, Repr

namespace Entry

def isFailure (entry : Entry) : Bool := entry.fault.isSome

def isFatal (entry : Entry) : Bool :=
  match entry.fault with
  | some fault => fault.isFatal
  | none => false

/-- One line of the narrative. The number is padded to four places. -/
def line (entry : Entry) : String :=
  let number := (toString entry.seq).toList
  let padded := String.ofList (number ++ List.replicate (4 - number.length) ' ')
  let shown (value : Option Value) : String := (value.map Value.render).getD ""
  s!"#{padded} [{entry.kind.text}] {entry.element} " ++
    match entry.fault with
    | some fault => s!"FAILED {fault.message}"
    | none => s!"({shown entry.input}) -> {shown entry.output}"

end Entry
end Trace

structure Trace where
  entries : Array Trace.Entry := #[]
deriving DecidableEq

namespace Trace

instance : Inhabited Trace := ⟨{}⟩

/-- Append an entry; its number is the count of the entries before it. -/
def push (trace : Trace) (element : String) (kind : StepKind) (input output : Option Value)
    (fault : Option Fault) : Trace :=
  ⟨trace.entries.push { seq := trace.entries.size, element, kind, input, output, fault }⟩

def record (trace : Trace) (element : String) (kind : StepKind) (input output : Option Value) :
    Trace :=
  trace.push element kind input output none

def recordFault (trace : Trace) (element : String) (kind : StepKind) (input : Option Value)
    (fault : Fault) : Trace :=
  trace.push element kind input none (some fault)

def size (trace : Trace) : Nat := trace.entries.size

def ofKind (trace : Trace) (kind : StepKind) : List Entry :=
  trace.entries.toList.filter fun entry => entry.kind = kind

def failures (trace : Trace) : List Entry := trace.entries.toList.filter Entry.isFailure

/-- Did the run end early? -/
def halted (trace : Trace) : Bool := trace.entries.toList.any Entry.isFatal

def narrative (trace : Trace) (run : String) : String :=
  s!"run {run}\n" ++ String.join (trace.entries.toList.map fun entry => entry.line ++ "\n")

@[simp] theorem entries_push (trace : Trace) (element : String) (kind : StepKind)
    (input output : Option Value) (fault : Option Fault) :
    (trace.push element kind input output fault).entries.toList =
      trace.entries.toList ++ [⟨trace.entries.size, element, kind, input, output, fault⟩] := by
  simp [push]

end Trace
end Archflow
