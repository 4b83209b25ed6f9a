import Archflow.Value

/-!
The channel of a connector: the values still to be delivered, in the order they were sent, and
whether a delivery is under way.
-/
namespace Archflow

/-- A value on its way over the link with the given index. -/
structure Delivery where
  link : Nat
  value : Value
deriving DecidableEq, Repr

structure Channel where
  pending : List Delivery := []
  delivering : Bool := false
deriving DecidableEq, Repr

namespace Channel

instance : Inhabited Channel := ⟨{}⟩

def enqueue (channel : Channel) (delivery : Delivery) : Channel :=
  { channel with pending := channel.pending ++ [delivery] }

/-- Claim the channel for deliveries; refused while it is claimed. -/
def begin? (channel : Channel) : Option Channel :=
  if channel.delivering then none else some { channel with delivering := true }

/-- Take out the delivery that has waited longest. -/
def next? (channel : Channel) : Option (Delivery × Channel) :=
  match channel.pending with
  | [] => none
  | delivery :: pending => some (delivery, { channel with pending })

def finish (channel : Channel) : Channel := { channel with delivering := false }

def abort (_ : Channel) : Channel := {}

def size (channel : Channel) : Nat := channel.pending.length

end Channel
end Archflow
