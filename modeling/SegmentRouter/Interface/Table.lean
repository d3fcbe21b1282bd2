import SegmentRouter.Dhcp.Client
import SegmentRouter.Domain.Tree

/-!
# Interface/Table — the attached interfaces

Interfaces sit in slots. A new interface takes the first slot that is free, and a slot counts how
often it was vacated, so an id finds exactly the interface that it was given to.
-/

namespace SegmentRouter

/-- An attached interface. Its id is not stored in it: an interface stays in the slot that it was put
in (`InterfaceTable.place`), and the slot keeps its generation until the interface leaves
(`InterfaceTable.vacate`), so a stored id would always be the slot and its generation. These are what
an interface is listed with (`InterfaceTable.toList`). -/
structure Interface where
  /-- The name of the domain that the interface is meant for. -/
  policy : String
  /-- That domain, if the configuration has it. -/
  domain : Option DomainId := none
  /-- The client that leases the domain's addresses, if they are leased. -/
  client : Option DhcpClient := none
  rxBytes : Nat := 0
  txBytes : Nat := 0
deriving DecidableEq, Repr

namespace Interface

/-- The interface after `n` bytes arrived on it. -/
def received (i : Interface) (n : Nat) : Interface :=
  { i with rxBytes := i.rxBytes + n }

/-- The interface after `n` bytes were sent through it. -/
def sent (i : Interface) (n : Nat) : Interface :=
  { i with txBytes := i.txBytes + n }

/-- The interface in another domain, or in none, with the client that it needs there. -/
def inDomain (i : Interface) (domain : Option DomainId) (client : Option DhcpClient) : Interface :=
  { i with domain, client }

/-- The interface after its client changed. -/
def withClient (i : Interface) (client : DhcpClient) : Interface :=
  { i with client := some client }

end Interface

/-- A place for an interface. -/
structure Slot where
  /-- How often the place was vacated, modulo 2³². -/
  generation : UInt32 := 0
  occupant : Option Interface := none
deriving DecidableEq, Repr

/-- The attached interfaces by their slots. -/
structure InterfaceTable where
  slots : List Slot := []
deriving DecidableEq, Repr

namespace InterfaceTable

/-- The occupant of a slot if its generation is the given one. -/
def occupant? (generation : UInt32) (slot : Slot) : Option Interface :=
  if slot.generation = generation then slot.occupant else none

/-- The interface with an id. -/
def get? (t : InterfaceTable) (id : InterfaceId) : Option Interface :=
  (t.slots[id.index]?).bind (occupant? id.generation)

/-- The slots with an interface in the first free one, counted from `index`, and its id. -/
def place (i : Interface) (index : Nat) : List Slot → InterfaceId × List Slot
  | [] => (⟨index, 0⟩, [{ occupant := some i }])
  | slot :: rest =>
    if slot.occupant.isNone then
      (⟨index, slot.generation⟩, { slot with occupant := some i } :: rest)
    else
      let (id, placed) := place i (index + 1) rest
      (id, slot :: placed)

/-- The table with an interface attached, and its id. -/
def insert (t : InterfaceTable) (i : Interface) : InterfaceId × InterfaceTable :=
  let (id, slots) := place i 0 t.slots
  (id, ⟨slots⟩)

/-- The slot with its occupant changed, if its generation is the given one. -/
def changeOccupant (generation : UInt32) (f : Interface → Interface) (slot : Slot) : Slot :=
  if slot.generation = generation then { slot with occupant := slot.occupant.map f } else slot

/-- The table with the interface of an id changed. -/
def modify (t : InterfaceTable) (id : InterfaceId) (f : Interface → Interface) : InterfaceTable :=
  ⟨t.slots.modify id.index (changeOccupant id.generation f)⟩

/-- The slot after its occupant left. -/
def vacate (slot : Slot) : Slot :=
  { generation := slot.generation + 1 }

/-- The interface with an id, and the table without it. -/
def remove? (t : InterfaceTable) (id : InterfaceId) : Option (Interface × InterfaceTable) :=
  (t.get? id).map fun i => (i, ⟨t.slots.modify id.index vacate⟩)

/-- The interfaces of slots that are counted from `index`, with their ids. -/
def entriesFrom (index : Nat) : List Slot → List (InterfaceId × Interface)
  | [] => []
  | slot :: rest =>
    (slot.occupant.toList.map fun i => (⟨index, slot.generation⟩, i)) ++
      entriesFrom (index + 1) rest

/-- The interfaces with their ids, in the order of their slots. -/
def toList (t : InterfaceTable) : List (InterfaceId × Interface) :=
  entriesFrom 0 t.slots

/-- The ids of the interfaces, in the order of their slots. -/
def ids (t : InterfaceTable) : List InterfaceId :=
  t.toList.map (·.1)

/-- The number of interfaces. -/
def size (t : InterfaceTable) : Nat :=
  t.toList.length

end InterfaceTable

end SegmentRouter
