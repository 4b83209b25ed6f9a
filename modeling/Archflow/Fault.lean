import Archflow.Operator
import Archflow.PortRef
import Archflow.Text.Quoted
import Archflow.TypeRef
import Archflow.Value

/-!
What can go wrong when a model is declared, checked or run. A fault names its cause; `Fault.kind`
says which family the cause belongs to and `Fault.message` words it. A cause may also be stated as
free text, for faults that are recorded from outside.
-/
namespace Archflow

/-- A place that asks for a value of some type. -/
inductive Slot where
  | variable (name : String)
  | objectLiteral
  | parameter (name executable : String)
  | result (executable : String)
  | port (ref : PortRef)
  | flow (source target : PortRef)
  | stated (text : String)
deriving DecidableEq, Repr

def Slot.text : Slot → String
  | .variable name => s!"variable '{name}'"
  | .objectLiteral => "object literal"
  | .parameter name executable => s!"parameter '{name}' of '{executable}'"
  | .result executable => s!"return value of '{executable}'"
  | .port ref => s!"port '{ref.text}'"
  | .flow source target => s!"flow {source.text} -> {target.text}"
  | .stated text => text

inductive ModelFault where
  | componentNotDeclared (component : String)
  | portDeclaredTwice (port component : String)
  | portNotDeclared (ref : PortRef)
  | subcomponentNotDeclared (component : String)
  | noOuterPort (composite port : String)
  | notSubcomponent (component composite : String)
  | connectorNotDeclared (connector : String)
  | misnamedComponent (key name : String)
  | misownedPort (port component owner : String)
  | invalidSubcomponent (component child : String)
  | foreignDelegation (component outer : String) (inner : PortRef)
  | unknownActivity (component activity : String)
  | containsItself (component through : String)
  | unknownTransform (connector transform : String)
  | unknownConstraint (connector constraint : String)
  | unknownProtocolComponent (protocol component : String)
  | stated (text : String)
deriving DecidableEq, Repr

def ModelFault.text : ModelFault → String
  | .componentNotDeclared component => s!"component '{component}' not declared"
  | .portDeclaredTwice port component => s!"port '{port}' declared twice on component '{component}'"
  | .portNotDeclared ref => s!"port '{ref.text}' not declared"
  | .subcomponentNotDeclared component => s!"subcomponent '{component}' not declared"
  | .noOuterPort composite port => s!"composite '{composite}' has no port '{port}'"
  | .notSubcomponent component composite => s!"'{component}' is not a subcomponent of '{composite}'"
  | .connectorNotDeclared connector => s!"connector '{connector}' not declared"
  | .misnamedComponent key name => s!"component registered as '{key}' is named '{name}'"
  | .misownedPort port component owner => s!"port '{port}' of '{component}' points back to '{owner}'"
  | .invalidSubcomponent component child =>
      s!"component '{component}' lists invalid subcomponent '{child}'"
  | .foreignDelegation component outer inner =>
      s!"'{component}' delegates '{outer}' to '{inner.text}', which is not one of its subcomponents"
  | .unknownActivity component activity =>
      s!"component '{component}' registers unknown activity '{activity}'"
  | .containsItself component through => s!"component '{component}' contains itself through '{through}'"
  | .unknownTransform connector transform =>
      s!"connector '{connector}' uses unknown transform '{transform}'"
  | .unknownConstraint connector constraint =>
      s!"connector '{connector}' uses unknown constraint '{constraint}'"
  | .unknownProtocolComponent protocol component =>
      s!"protocol '{protocol}' is bound to unknown component '{component}'"
  | .stated text => text

inductive TypeFault where
  | nonconforming (slot : Slot) (type : TypeRef) (value : Value)
  | assignToPort (port : String)
  | unaryOperand (op : UnaryOp) (value : Value)
  | booleanOperand (op : BinaryOp) (value : Value)
  | numericOperands (op : ArithmeticOp) (left right : Value)
  | incomparable (left right : Value)
  | fieldOfNonRecord (field : String) (value : Value)
  | condition (text : String) (value : Value)
  | tooManyArguments (executable : String) (expected given : Nat)
  | transformWithoutResult (executable : String)
  | stated (text : String)
deriving DecidableEq, Repr

def TypeFault.text : TypeFault → String
  | .nonconforming slot type value => s!"{slot.text} expects {type.label}, got {value.cite}"
  | .assignToPort port => s!"cannot assign to port '{port}' inside an executable"
  | .unaryOperand op value => s!"operator {op.name} cannot be applied to {value.cite}"
  | .booleanOperand op value => s!"operator {op.name} expects Boolean operands, got {value.cite}"
  | .numericOperands op left right =>
      s!"operator {op.name} expects numeric operands, got {left.cite} and {right.cite}"
  | .incomparable left right => s!"cannot compare {left.cite} with {right.cite}"
  | .fieldOfNonRecord field value => s!"field access '.{field}' on non-record value {value.cite}"
  | .condition text value => s!"condition '{text}' evaluated to {value.cite}, expected Boolean"
  | .tooManyArguments executable expected given =>
      s!"'{executable}' takes {expected} argument(s), got {given}"
  | .transformWithoutResult executable => s!"transform '{executable}' returned no value"
  | .stated text => text

/-- What a name fails to lead to. -/
inductive ReferenceFault where
  | unqualified (text : String)
  | identifier (name : String)
  | enumeration (name : String)
  | enumerationLiteral (enumeration literal : String)
  | looseLiteral (literal : String)
  | assignmentTarget (name : String)
  | field (record : Value) (name : String)
  | component (name : String)
  | port (ref : PortRef) (known : List String)
  | barePort (name : String)
  | link (index : Nat)
  | constraint (name : String)
  | executable (name : String)
  | stated (text : String)
deriving DecidableEq, Repr

def ReferenceFault.text : ReferenceFault → String
  | .unqualified text => s!"'{text}' is not a qualified port name (expected Component.port)"
  | .identifier name => s!"identifier '{name}' is not defined"
  | .enumeration name => s!"enum '{name}' is not declared"
  | .enumerationLiteral owner literal => s!"enum '{owner}' has no literal '{literal}'"
  | .looseLiteral literal => s!"enum literal '{literal}' is not declared"
  | .assignmentTarget name => s!"assignment to undeclared variable '{name}'"
  | .field record name => s!"record {record.render} has no field '{name}'"
  | .component name => s!"component '{name}' not found"
  | .port ref known =>
      s!"port '{ref.port}' not found on component '{ref.component}'. Valid ports: " ++
        Text.quotedList known
  | .barePort name => s!"port '{name}' not found"
  | .link index => s!"binding #{index}"
  | .constraint name => s!"constraint '{name}'"
  | .executable name => s!"executable '{name}'"
  | .stated text => text

inductive ArithmeticFault where
  | negation (operand : Int64)
  | integerOverflow (op : ArithmeticOp) (left right : Int64)
  | byZero (op : ArithmeticOp) (left : Value)
  | notFinite (op : ArithmeticOp) (left right : Value)
  | stated (text : String)
deriving DecidableEq, Repr

def ArithmeticFault.text : ArithmeticFault → String
  | .negation operand => s!"overflow negating {operand.toInt}"
  | .integerOverflow op left right => s!"integer overflow in {left.toInt} {op.name} {right.toInt}"
  | .byZero op left => s!"{left.render} {op.name} by zero"
  | .notFinite op left right => s!"{left.render} {op.name} {right.render} is not finite"
  | .stated text => text

inductive AllocationFault where
  | executableMissing (executable action : String)
  | actionMissing (action executable : String)
  | activityMissing (activity target : String)
  | targetMissing (activity target : String)
  | activityUnregistered (activity component : String)
  | noActions (activity : String)
  | actionUnallocated (action activity : String)
  | executableGone (executable : String)
  | stated (text : String)
deriving DecidableEq, Repr

def AllocationFault.text : AllocationFault → String
  | .executableMissing executable action =>
      s!"executable '{executable}' allocated to action '{action}' does not exist"
  | .actionMissing action executable =>
      s!"action '{action}' targeted by executable '{executable}' does not exist"
  | .activityMissing activity target => s!"activity '{activity}' allocated to '{target}' does not exist"
  | .targetMissing activity target =>
      s!"activity '{activity}' allocated to unknown connector or component '{target}'"
  | .activityUnregistered activity component =>
      s!"activity '{activity}' registered on '{component}' does not exist"
  | .noActions activity => s!"activity '{activity}' has no actions"
  | .actionUnallocated action activity =>
      s!"no executable allocated to action '{action}' of activity '{activity}'"
  | .executableGone executable => s!"executable '{executable}' does not exist"
  | .stated text => text

inductive Fault where
  | parse (text : String)
  | invalidModel (cause : ModelFault)
  | typeMismatch (cause : TypeFault)
  | invalidDirection (port direction operation : String)
  | unresolved (cause : ReferenceFault)
  | unsupportedOperator (token : String)
  | arithmetic (cause : ArithmeticFault)
  | constraintViolated (name expression evaluated : String)
  | missingAllocation (cause : AllocationFault)
  | cascadeLimitExceeded (limit : Nat)
deriving DecidableEq, Repr

namespace Fault

inductive Kind where
  | parse
  | invalidModel
  | typeMismatch
  | invalidDirection
  | unresolved
  | unsupportedOperator
  | arithmetic
  | constraintViolated
  | missingAllocation
  | cascadeLimitExceeded
deriving DecidableEq, Repr

def Kind.name : Kind → String
  | .parse => "ParseTimeError"
  | .invalidModel => "InvalidModel"
  | .typeMismatch => "TypeMismatch"
  | .invalidDirection => "InvalidDirection"
  | .unresolved => "UnresolvedReference"
  | .unsupportedOperator => "UnsupportedOperator"
  | .arithmetic => "ArithmeticError"
  | .constraintViolated => "ConstraintViolation"
  | .missingAllocation => "MissingAllocation"
  | .cascadeLimitExceeded => "CascadeLimitExceeded"

def kind : Fault → Kind
  | .parse _ => .parse
  | .invalidModel _ => .invalidModel
  | .typeMismatch _ => .typeMismatch
  | .invalidDirection .. => .invalidDirection
  | .unresolved _ => .unresolved
  | .unsupportedOperator _ => .unsupportedOperator
  | .arithmetic _ => .arithmetic
  | .constraintViolated .. => .constraintViolated
  | .missingAllocation _ => .missingAllocation
  | .cascadeLimitExceeded _ => .cascadeLimitExceeded

def message : Fault → String
  | .parse text => s!"Parse error: {text}"
  | .invalidModel cause => s!"Invalid model: {cause.text}"
  | .typeMismatch cause => s!"Type mismatch: {cause.text}"
  | .invalidDirection port direction operation =>
      s!"Invalid direction: cannot {operation} on {direction} port '{port}'"
  | .unresolved cause => s!"Unresolved reference: {cause.text}"
  | .unsupportedOperator token => s!"Unsupported operator: '{token}'"
  | .arithmetic cause => s!"Arithmetic error: {cause.text}"
  | .constraintViolated name expression evaluated =>
      s!"Constraint '{name}' violated: {expression} ({evaluated})"
  | .missingAllocation cause => s!"Missing allocation: {cause.text}"
  | .cascadeLimitExceeded limit => s!"Cascade limit exceeded: more than {limit} nested reactions"

/-- A fatal fault ends the run; every other one is recorded and the run goes on. -/
def isFatal : Fault → Bool
  | .cascadeLimitExceeded _ => true
  | _ => false

end Fault

def BinaryOp.parse (token : String) : Except Fault BinaryOp :=
  match ofToken? token with
  | some op => .ok op
  | none => .error (.unsupportedOperator token)

def UnaryOp.parse (token : String) : Except Fault UnaryOp :=
  match ofToken? token with
  | some op => .ok op
  | none => .error (.unsupportedOperator token)

def PortRef.parse (qualified : String) : Except Fault PortRef :=
  match parse? qualified with
  | some ref => .ok ref
  | none => .error (.unresolved (.unqualified qualified))

end Archflow
