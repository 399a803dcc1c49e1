import Hopline.Bus.Error
import Hopline.Bus.Registry
import Hopline.Bus.Stats
import Hopline.Receive.Window
import Hopline.Transmit.Queue

/-! The bus of one device: its registry, its transmit queue, its receive window,
its counters, and the slot from which the drainer takes the line. -/

namespace Hopline

structure BusConfig where
  defaultTtl : UInt8
  hooks : FrameHooks
  sync : SyncPolicy
deriving Inhabited

def BusConfig.standard : BusConfig :=
  { defaultTtl := Hopline.defaultTtl, hooks := .checksum, sync := .headOnly }

structure Bus where
  config : BusConfig
  registry : Registry
  queue : TransmitQueue
  /-- True while the line is in its slot, false while a drainer holds it. -/
  lineHome : Bool
  window : Window
  counters : Counters
deriving Inhabited

namespace Bus

def ofConfig (config : BusConfig) : Bus :=
  { config
    registry := Registry.empty
    queue := TransmitQueue.empty config.hooks
    lineHome := true
    window := Window.empty config.hooks config.sync
    counters := Counters.zero }

def stats (bus : Bus) : BusStats :=
  { bus.counters with
    rejected := bus.window.stats.rejected
    overflowed := bus.window.stats.overflowed }

def register (bus : Bus) (alive : HandlerId → Bool) (address : Address) (handler : HandlerId) :
    Bus × List Event :=
  let (registry, events) := bus.registry.register alive address handler
  ({ bus with registry }, events)

def resetWindow (bus : Bus) : Bus × List Event :=
  let (window, events) := bus.window.reset
  ({ bus with window }, events)

end Bus

end Hopline
