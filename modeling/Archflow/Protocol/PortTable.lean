import Archflow.Model
import Archflow.Protocol.Machine

/-!
Protocols on ports that stand in a table of their own, outside of any model. A port takes what is
sent from it, whatever its type, and nothing else happens.
-/
namespace Archflow.Protocol

def portTable : Access (Table Port) where
  direction ports name := (ports.get? name).map Port.direction
  current ports name := (ports.get? name).bind Port.value
  send ports name value :=
    match ports.get? name with
    | some port => .ok (ports.insert name { port with value := some value })
    | none => .error (.unresolved (.barePort name))

end Archflow.Protocol
