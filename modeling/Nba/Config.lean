import Nba.Basic

/-!
# Configuration and platform

The build's limits, what the platform reports, and what `load_config` (not in
src/) leaves; `SysConf` carries as fields that every queue a thread names exists.
-/

namespace Nba

/-- `NBA_MAX_NODES`, `NBA_MAX_PORTS` and `NBA_MAX_QUEUES_PER_PORT`. -/
structure Limits where
  maxNodes : Nat
  maxPorts : Nat
  maxQueuesPerPort : Nat

/-- What the platform reports; `main` keeps nodes `unsigned`, so a `-1` node
or socket arrives as `2^32 - 1`. -/
structure Machine where
  numNodes : Nat
  numLcores : Nat
  numPorts : Nat
  nodeOfCpu : Nat → Nat
  socketOfPort : Nat → Nat
  maxRxQueues : Nat → Nat
  maxTxQueues : Nat → Nat

/-- `is_numa_disabled` (line 240). -/
def Machine.isNumaDisabled (m : Machine) : Bool := m.numNodes == 1

/-- `enum queue_template` (not in src/), numbered in its order. -/
inductive QueueTemplate where
  | swrxq | taskinq | taskoutq
  deriving DecidableEq, Repr

def QueueTemplate.toNat : QueueTemplate → Nat
  | .swrxq => 0
  | .taskinq => 1
  | .taskoutq => 2

/-- The fields of a `queue_conf` that lines 447-471 read. -/
structure QueueConf where
  nodeId : UInt32
  template : QueueTemplate
  deriving DecidableEq, Repr

/-- The task queue lengths of `system_params`, as the `unsigned` they are stored in. -/
structure QueueParams where
  inputqLength : UInt32
  completionqLength : UInt32

structure CoprocThreadConf where
  coreId : Nat
  deviceId : Nat
  taskinqIdx : Nat
  deriving DecidableEq, Repr

structure CompThreadConf where
  coreId : Nat
  swrxqIdx : Nat
  taskinqIdx : Nat
  taskoutqIdx : Nat
  deriving DecidableEq, Repr

structure HwRxq where
  ifindex : Nat
  qidx : Nat
  deriving DecidableEq, Repr

structure IoThreadConf where
  coreId : Nat
  swrxqIdx : Nat
  attachedRxqs : List HwRxq
  deriving DecidableEq, Repr

structure SysConf where
  queueConfs : List QueueConf
  queueParams : QueueParams
  ioThreadConfs : List IoThreadConf
  compThreadConfs : List CompThreadConf
  coprocThreadConfs : List CoprocThreadConf
  numRxqPerPort : Nat
  coprocCtxPerCompthread : Nat
  coproc_lt : ∀ t ∈ coprocThreadConfs, t.taskinqIdx < queueConfs.length
  comp_lt : ∀ t ∈ compThreadConfs, t.swrxqIdx < queueConfs.length ∧
    t.taskinqIdx < queueConfs.length ∧ t.taskoutqIdx < queueConfs.length
  io_lt : ∀ t ∈ ioThreadConfs, t.swrxqIdx < queueConfs.length

/-- Every configured core of `c` sits on a node below `m.numNodes`. -/
def CoresOnNodes (m : Machine) (c : SysConf) : Prop :=
  (∀ t ∈ c.coprocThreadConfs, m.nodeOfCpu t.coreId < m.numNodes) ∧
  (∀ t ∈ c.compThreadConfs, m.nodeOfCpu t.coreId < m.numNodes) ∧
  (∀ t ∈ c.ioThreadConfs, m.nodeOfCpu t.coreId < m.numNodes)

end Nba
