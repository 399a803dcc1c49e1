import Hopline.Event
import Hopline.Text.Record

/-! The registry of a bus: which handlers listen at which address. It does not keep
a handler alive, so every question is asked together with the set of handlers that
are. The earliest live registration of an address wins. -/

namespace Hopline

/-- A handler, by the order in which handlers came into being. -/
abbrev HandlerId := Nat

structure Registration where
  address : Address
  handler : HandlerId
deriving DecidableEq, Inhabited

structure Registry where
  entries : List Registration
deriving DecidableEq, Inhabited

namespace Registry

def empty : Registry := ⟨[]⟩

def live (registry : Registry) (alive : HandlerId → Bool) : List Registration :=
  registry.entries.filter fun entry => alive entry.handler

/-- Appends a registration and forgets those of dead handlers. The event tells
whether the address was taken. -/
def register (registry : Registry) (alive : HandlerId → Bool) (address : Address)
    (handler : HandlerId) : Registry × List Event :=
  let kept := registry.live alive
  let taken := kept.any fun entry => entry.address == address
  (⟨kept ++ [⟨address, handler⟩]⟩,
    [if taken then .addressShadowed address else .nodeRegistered address])

def resolve (registry : Registry) (alive : HandlerId → Bool) (address : Address) :
    Option HandlerId :=
  (registry.entries.find? fun entry => entry.address == address && alive entry.handler).map
    Registration.handler

def addresses (registry : Registry) (alive : HandlerId → Bool) : List Address :=
  (registry.live alive).map Registration.address

def dedupNeighbours : List Address → List Address
  | [] => []
  | [address] => [address]
  | first :: second :: rest =>
    if first = second then dedupNeighbours (second :: rest)
    else first :: dedupNeighbours (second :: rest)

def repeated (sorted : List Address) : List Address :=
  ((sorted.zip sorted.tail).filter fun pair => pair.1 == pair.2).map Prod.fst

def duplicates (registry : Registry) (alive : HandlerId → Bool) : List Address :=
  dedupNeighbours (repeated ((registry.addresses alive).mergeSort fun a b => a ≤ b))

def length (registry : Registry) (alive : HandlerId → Bool) : Nat :=
  (registry.addresses alive).length

def isEmpty (registry : Registry) (alive : HandlerId → Bool) : Bool := registry.length alive == 0

def describe (registry : Registry) (alive : HandlerId → Bool) : String :=
  Text.record "Registry"
    [⟨"addresses",
      Text.sequence ((registry.addresses alive).map fun address => toString address.toNat)⟩] false

end Registry

end Hopline
