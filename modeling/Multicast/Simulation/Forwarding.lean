import Multicast.Refresh.Driver

/-!
What nodes do with packets. A handler looks at the forwarding state and tells what happens to the
packet as a list of effects, in order; it changes nothing itself.
-/

namespace Multicast

inductive SimulationError where
  | refresh (error : RefreshError)
  | route (error : RouteError)
  | bier (error : BierError)
  | header (error : HeaderError)
  | unknownRequest (request : RequestId)
  | missingBierTable (node : NodeId)
deriving DecidableEq

def SimulationError.message : SimulationError → String
  | .refresh error => error.message
  | .route error => error.message
  | .bier error => error.message
  | .header error => s!"undecodable forwarding header: {error.message}"
  | .unknownRequest request => s!"event references unknown request {request}"
  | .missingBierTable node => s!"node {node} has no BIER table"

inductive Effect where
  /-- The node is a destination and takes the packet. -/
  | deliver
  /-- A copy goes to a neighbour, which receives it on the interface. -/
  | copy (receiver : NodeId) (interface : InterfaceId) (packet : Packet)
  /-- No route: the packet is dropped. -/
  | noRoute
  /-- The hop limit is spent: a copy is dropped. -/
  | expired
  /-- Nobody stands behind an interface: a copy is dropped. -/
  | unresolved
deriving DecidableEq

namespace RefreshDriver
variable {σ : Type}

/-- The request with the given number; of several, the last one listed. -/
def request? (driver : RefreshDriver σ) (id : RequestId) : Option Request :=
  (driver.requests.filter (·.id = id)).getLast?

def neighbor? (driver : RefreshDriver σ) (node : NodeId) (interface : InterfaceId) :
    Option (NodeId × InterfaceId) :=
  driver.snapshot.bind fun snapshot =>
    (snapshot.interfaces.neighborOn? node interface).bind fun neighbor =>
      (snapshot.interfaces.interfaceTo? neighbor node).map fun inInterface => (neighbor, inInterface)

/-- Who receives frames of a group that a node sends on an interface: the bound receivers on a
shared channel, and otherwise the only neighbour. -/
def listeners (driver : RefreshDriver σ) (group : GroupAddress) (node : NodeId)
    (interface : InterfaceId) : List (NodeId × InterfaceId) :=
  match driver.bindings.receivers group node interface with
  | [] => (driver.neighbor? node interface).toList
  | receivers => receivers

def transmit (driver : RefreshDriver σ) (node : NodeId) (interface : InterfaceId)
    (packet : Packet) : List Effect :=
  match driver.listeners packet.group node interface with
  | [] => [.unresolved]
  | listeners => listeners.map fun listener => .copy listener.1 listener.2 packet

def sendTo (driver : RefreshDriver σ) (node neighbor : NodeId) (packet : Packet) : Effect :=
  match driver.snapshot.bind fun snapshot => snapshot.interfaces.interfaceTo? neighbor node with
  | none => .unresolved
  | some interface => .copy neighbor interface packet

def routedPacket (request : Request) (hopLimit sequence : Nat) (interface : InterfaceId) : Packet where
  request := request.id
  source := request.source
  origin := ⟨request.source, interface⟩
  group := request.group .routeBase
  hopLimit
  header := PacketHeader.encode ⟨UInt64.ofNat request.id, UInt64.ofNat sequence⟩

def emitRouted (driver : RefreshDriver σ) (request : Request) (hopLimit sequence : Nat) :
    Except SimulationError (List Effect) :=
  match driver.routing.arbitrate request.source request.source ⟨request.source, noInterface⟩
      (request.group .routeBase) with
  | .error error => .error (.route error)
  | .ok (.outbound interface) =>
    .ok (driver.transmit request.source interface (routedPacket request hopLimit sequence interface))
  | .ok _ => .ok [.noRoute]

/-- The packet that a source sends with a bitstring. Its origin names the interface of the first
copy. -/
def bierPacket (request : Request) (hopLimit : Nat) (header : BierHeader)
    (replicas : List Replica) : Packet where
  request := request.id
  source := request.source
  origin := ⟨request.source, (replicas.head?.map Replica.outInterface).getD noInterface⟩
  group := .bierMarker
  hopLimit
  header := header.encode

def emitBier (driver : RefreshDriver σ) (request : Request) (hopLimit sequence : Nat) :
    Except SimulationError (List Effect) :=
  match driver.positions.bitstringFor request.destinations.toList with
  | .error error => .error (.bier error)
  | .ok bitstring =>
    match driver.bierTable? request.source with
    | none => .error (.missingBierTable request.source)
    | some table =>
      match table.process bitstring with
      | .error error => .error (.bier error)
      | .ok decision =>
        let header : BierHeader := ⟨UInt64.ofNat request.id, UInt64.ofNat sequence, bitstring⟩
        let packet := bierPacket request hopLimit header decision.replicas
        .ok (decision.replicas.map fun replica => driver.sendTo request.source replica.nextHop
          { packet with header := (header.withBitstring replica.bitstring).encode })

def emit (driver : RefreshDriver σ) (request : Request) (hopLimit sequence : Nat) :
    Except SimulationError (List Effect) :=
  match driver.config.forwarding with
  | .routeTable => driver.emitRouted request hopLimit sequence
  | .bier => driver.emitBier request hopLimit sequence

def relay (driver : RefreshDriver σ) (node : NodeId) (packet : Packet) (interface : InterfaceId) :
    List Effect :=
  match packet.forwarded? packet.header with
  | none => [.expired]
  | some copy => driver.transmit node interface copy

def receiveRouted (driver : RefreshDriver σ) (node : NodeId) (packet : Packet)
    (isDestination : Bool) : Except SimulationError (List Effect) :=
  match PacketHeader.decode packet.header with
  | .error error => .error (.header error)
  | .ok _ =>
    match driver.routing.arbitrate node packet.source packet.origin packet.group with
    | .error error => .error (.route error)
    | .ok (.forward interfaces) =>
      .ok ((if isDestination then [.deliver] else []) ++
        interfaces.flatMap (driver.relay node packet))
    | .ok _ => .ok [.noRoute]

def relayReplica (driver : RefreshDriver σ) (node : NodeId) (packet : Packet)
    (header : BierHeader) (replica : Replica) : Effect :=
  match packet.forwarded? (header.withBitstring replica.bitstring).encode with
  | none => .expired
  | some copy => driver.sendTo node replica.nextHop copy

def receiveBier (driver : RefreshDriver σ) (node : NodeId) (packet : Packet)
    (isDestination : Bool) : Except SimulationError (List Effect) :=
  match BierHeader.decode packet.header with
  | .error error => .error (.header error)
  | .ok (header, _) =>
    match driver.bierTable? node with
    | none => .error (.missingBierTable node)
    | some table =>
      match table.process header.bitstring with
      | .error error => .error (.bier error)
      | .ok decision =>
        .ok ((if decision.deliverLocally && isDestination then [.deliver] else []) ++
          decision.replicas.map (driver.relayReplica node packet header))

def receive (driver : RefreshDriver σ) (node : NodeId) (packet : Packet) :
    Except SimulationError (List Effect) :=
  match driver.request? packet.request with
  | none => .error (.unknownRequest packet.request)
  | some request =>
    let isDestination := request.destinations.contains node
    match driver.config.forwarding with
    | .routeTable => driver.receiveRouted node packet isDestination
    | .bier => driver.receiveBier node packet isDestination

end RefreshDriver
end Multicast
