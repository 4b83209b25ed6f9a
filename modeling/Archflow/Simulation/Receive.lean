import Archflow.Simulation

/-!
Reception of values. A value that a port receives is passed on to the ports the port delegates to,
and all of them must accept it before any of them changes.
-/
namespace Archflow

namespace Model

/-- The ports that a port passes received values on to, in order of declaration. -/
def delegates (model : Model) (ref : PortRef) : List PortRef :=
  match model.components.get? ref.component with
  | some component =>
      (component.delegations.filter fun delegation => delegation.outer == ref.port).map
        PortDelegation.inner
  | none => []

def checkReceive (model : Model) (ref : PortRef) (value : Value) : Except Fault Unit := do
  let port ← model.resolve ref
  port.checkReceive
  port.checkPayload model.symbols value

/-- The number of delegations in the model, which bounds those of every port. -/
def delegationCount (model : Model) : Nat :=
  (model.components.items.flatMap Component.delegations).length

theorem length_delegates_le (model : Model) (ref : PortRef) :
    (model.delegates ref).length ≤ model.delegationCount := by
  unfold delegates delegationCount Table.get? Table.items
  generalize model.components.entries = entries
  induction entries with
  | nil => simp [Entries.lookup]
  | cons entry rest ih =>
    obtain ⟨key, component⟩ := entry
    simp only [Entries.lookup, List.map_cons, List.flatMap_cons, List.length_append]
    by_cases h : ref.component = key
    · have := List.length_filter_le (fun delegation => delegation.outer == ref.port)
        component.delegations
      simp only [if_pos h, List.length_map]
      omega
    · rw [if_neg h]
      omega

/-- A bound on the ports still to be met from pending ones, given the hops to each of them. -/
def pendingWeight (model : Model) (limit : Nat) : List (PortRef × Nat) → Nat
  | [] => 0
  | (_, hops) :: rest =>
      Nat.pow (model.delegationCount + 1) (limit + 1 - hops) + model.pendingWeight limit rest

theorem pendingWeight_append_map (model : Model) (limit hops : Nat) (inner : List PortRef)
    (rest : List (PortRef × Nat)) :
    model.pendingWeight limit (inner.map (·, hops + 1) ++ rest) =
      inner.length * Nat.pow (model.delegationCount + 1) (limit - hops) +
        model.pendingWeight limit rest := by
  induction inner with
  | nil => simp
  | cons ref inner ih =>
    simp only [pendingWeight, List.map_cons, List.cons_append, List.length_cons, Nat.succ_mul, ih]
    rw [show limit + 1 - (hops + 1) = limit - hops by omega]
    omega

/-- Replacing a pending port by those it delegates to leaves less to do. -/
theorem pendingWeight_delegates_lt (model : Model) (limit hops : Nat) (ref : PortRef)
    (rest : List (PortRef × Nat)) (h : hops ≤ limit) :
    model.pendingWeight limit ((model.delegates ref).map (·, hops + 1) ++ rest) <
      model.pendingWeight limit ((ref, hops) :: rest) := by
  have hpos : 0 < Nat.pow (model.delegationCount + 1) (limit - hops) := Nat.pow_pos (Nat.succ_pos _)
  have hmul := Nat.mul_lt_mul_of_pos_right (Nat.lt_succ_of_le (model.length_delegates_le ref)) hpos
  have hpow : Nat.pow (model.delegationCount + 1) (limit - hops + 1) =
      Nat.pow (model.delegationCount + 1) (limit - hops) * (model.delegationCount + 1) := rfl
  rw [pendingWeight_append_map, pendingWeight, show limit + 1 - hops = limit - hops + 1 by omega,
    hpow, Nat.mul_comm (Nat.pow _ _)]
  exact Nat.add_lt_add_right hmul _

/-- Work through the ports that are still to accept a value, the topmost first, and put the ports
each one delegates to on top. The ports that accept it are collected in the order they are met. -/
def receiveLoop (model : Model) (limit : Nat) (value : Value) (targets : List PortRef)
    (pending : List (PortRef × Nat)) : Except Fault (List PortRef) :=
  match pending with
  | [] => .ok targets
  | (ref, hops) :: rest =>
      if h : limit < hops then .error (.cascadeLimitExceeded limit)
      else
        match model.checkReceive ref value with
        | .error fault => .error fault
        | .ok () =>
            have := model.pendingWeight_delegates_lt limit hops ref rest (Nat.le_of_not_lt h)
            model.receiveLoop limit value (targets ++ [ref])
              ((model.delegates ref).map (·, hops + 1) ++ rest)
termination_by model.pendingWeight limit pending

/-- All ports that a value reaches when a port receives it. -/
def receiveTargets (model : Model) (limit : Nat) (ref : PortRef) (value : Value) :
    Except Fault (List PortRef) :=
  model.receiveLoop limit value [] [(ref, 0)]

end Model

/-- Note that a value arrived on a port. A wake-up of the same component at the same depth that is
still waiting is extended. -/
def Wakeup.enqueue (port : PortRef) (depth : Nat) : List Wakeup → List Wakeup
  | [] => [⟨port.component, [port.port], depth⟩]
  | wakeup :: rest =>
      if wakeup.component == port.component && wakeup.depth == depth then
        let ports := if wakeup.ports.contains port.port then wakeup.ports
          else wakeup.ports ++ [port.port]
        { wakeup with ports } :: rest
      else wakeup :: enqueue port depth rest

namespace Simulation

/-- Let a value arrive on a port: the port and the state of its component take it, and the component
is woken up if it has activities. -/
def land (sim : Simulation) (value : Value) (port : PortRef) : Simulation :=
  let model := (sim.model.setPort port value).setState port.component port.port value
  let sim := { sim with model }.record port.text .port none (some value)
  if (sim.realization.activitiesOf port.component).isEmpty then sim
  else { sim with wakeups := Wakeup.enqueue port sim.depth sim.wakeups }

/-- Let a port receive a value. If some port that it would reach refuses it, nothing changes. -/
def receive (sim : Simulation) (port : PortRef) (value : Value) : Except Fault Unit × Simulation :=
  match sim.model.receiveTargets sim.limit port value with
  | .error fault => (.error fault, sim)
  | .ok targets => (.ok (), targets.foldl (fun sim target => sim.land value target) sim)

end Simulation
end Archflow
