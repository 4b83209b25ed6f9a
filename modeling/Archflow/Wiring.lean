import Archflow.Channel
import Archflow.Model

/-!
The wiring of a model: every flow between two ports as a link, the links that leave each port, and
the channel each link delivers over. All links of a connector share one channel, so values that pass
through the connector are delivered in the order they were sent.
-/
namespace Archflow

structure Link where
  source : PortRef
  target : PortRef
  connector : Option String
  type : TypeRef
  channel : String
deriving DecidableEq, Repr

/-- The link of a flow. Without a connector it has a channel of its own. -/
def Link.ofFlow (flow : Flow) (connector : Option String) : Link where
  source := flow.source
  target := flow.target
  connector := connector
  type := flow.type
  channel := connector.getD (flow.source.text ++ "->" ++ flow.target.text)

structure Wiring where
  links : List Link := []
  /-- For each port the indices of the links that leave it. -/
  outgoing : List (PortRef × List Nat) := []
  channels : Table Channel := ∅
  /-- The links that are served when a run propagates values, in order. -/
  schedule : List Nat := []

namespace Wiring

/-- File an index under a port, behind those filed there before. -/
def file (port : PortRef) (index : Nat) : List (PortRef × List Nat) → List (PortRef × List Nat)
  | [] => [(port, [index])]
  | (key, indices) :: rest =>
      if key = port then (key, indices ++ [index]) :: rest else (key, indices) :: file port index rest

def channel (wiring : Wiring) (name : String) : Channel := (wiring.channels.get? name).getD {}

def putChannel (wiring : Wiring) (name : String) (channel : Channel) : Wiring :=
  { wiring with channels := wiring.channels.insert name channel }

/-- Append a link, and open its channel unless that is open. -/
def addLink (wiring : Wiring) (link : Link) : Wiring :=
  { wiring with
    links := wiring.links ++ [link]
    outgoing := file link.source wiring.links.length wiring.outgoing
    channels := wiring.channels.insert link.channel (wiring.channel link.channel) }

def linkBetween? (wiring : Wiring) (source target : PortRef) : Option Nat :=
  wiring.links.findIdx? fun link => link.source == source && link.target == target

/-- Schedule a flow over the link between its ports, which is added if there is none. -/
def addFlow (wiring : Wiring) (flow : Flow) : Wiring :=
  match wiring.linkBetween? flow.source flow.target with
  | some index => { wiring with schedule := wiring.schedule ++ [index] }
  | none =>
      { wiring.addLink (.ofFlow flow none) with schedule := wiring.schedule ++ [wiring.links.length] }

/-- The links of all connectors, in order of the connectors and of their flows. -/
def connectorLinks (model : Model) : List Link :=
  model.connectors.items.flatMap fun connector =>
    connector.flows.map fun flow => .ofFlow flow (some connector.name)

/-- Wire up a model. The declared flows fix the schedule; without any, all links are served. -/
def ofModel (model : Model) : Wiring :=
  let wiring := (connectorLinks model).foldl addLink {}
  if model.flows.isEmpty then { wiring with schedule := List.range wiring.links.length }
  else model.flows.foldl addFlow wiring

/-- The links that leave a port, in increasing order. -/
def linksFrom (wiring : Wiring) (port : PortRef) : List Nat :=
  match wiring.outgoing.find? fun entry => entry.1 == port with
  | some entry => entry.2
  | none => []

def abortAll (wiring : Wiring) : Wiring :=
  { wiring with channels := wiring.channels.map fun _ channel => channel.abort }

/-- How many links there are, how many connectors they belong to, how many belong to none, and how
many are scheduled. -/
structure Stats where
  links : Nat
  connectors : Nat
  direct : Nat
  scheduled : Nat
deriving DecidableEq, Repr

def stats (wiring : Wiring) : Stats where
  links := wiring.links.length
  connectors := (wiring.links.filterMap Link.connector).eraseDups.length
  direct := wiring.links.countP fun link => link.connector.isNone
  scheduled := wiring.schedule.length

end Wiring
end Archflow
