import Nba.Nic
import Nba.Phases

/-!
# Wiring the I/O threads

Lines 790-929 of `main`.  The per-node loop makes the shared objects of each
node and counts its I/O threads; the per-thread loop numbers the I/O threads
of each node, makes the first the node master, creates the thread's rings,
reads the mempools of its RX queues, and pairs it with the computation
context in `queue_privs[swrxq_idx]`.  `wireIo_spec` gives what the loop
leaves (`IoInv`).
-/

namespace Nba

/-- What the per-node loop (lines 801-834) makes for node `n`: the objects
`node_stats[n]`, `init_done_flags[n]`, `init_conds[n]`, `node_stat_watchers[n]`
and `node_master_flags[n]`, each allocated for `n` alone and so named by `n`,
and `node_stats[n]->num_threads`. -/
structure IoNode where
  node : Nat
  numThreads : Nat
  deriving DecidableEq, Repr

/-- The fields of `io_thread_context` that `main` sets and later reads. -/
structure IoCtx where
  coreId : Nat
  localThreadIdx : Nat
  nodeId : Nat
  globalThreadIdx : Nat
  /-- `node_master_ctx`, by global index -/
  nodeMasterCtx : Nat
  /-- `node_stat`, `init_done`, `init_cond`, `node_stat_watcher` and `node_master_flag` -/
  shared : IoNode
  rxQueue : Nat
  /-- `comp_ctx`, by position in `comp_thread_ctxs` -/
  compCtx : Nat
  deriving DecidableEq, Repr

/-- What the per-thread loop has built so far. -/
structure IoBoot where
  /-- `per_node_counts[NBA_MAX_NODES]` -/
  perNodeCounts : List Nat
  /-- `node_master_ctxs[num_nodes]` -/
  nodeMasterCtxs : List (Option Nat)
  /-- `io_threads[i].io_ctx` -/
  ctxs : List IoCtx
  /-- `comp_thread_ctxs`, whose `io_ctx` the loop sets -/
  comps : List CompCtx

/-- The number of threads of `ts` on node `n`. -/
def nodeCount (m : Machine) (ts : List IoThreadConf) (n : Nat) : Nat :=
  (ts.filter fun t => m.nodeOfCpu t.coreId == n).length

/-! ## Algorithm -/

/-- Lines 801-834: the objects of every node below `num_nodes`. -/
def ioNodes (m : Machine) (c : SysConf) : List IoNode :=
  (List.range m.numNodes).map fun n => ⟨n, nodeCount m c.ioThreadConfs n⟩

/-- Lines 852-855: the first thread of a node becomes its master; every
thread takes its node's master. -/
def setNodeMaster (masters : List (Option Nat)) (node idx i : Nat) :
    Except Stop (List (Option Nat) × Nat) := do
  let masters ← if idx = 0 then Arr.set .nodeMasterCtxs masters node (some i) else pure masters
  match ← Arr.get .nodeMasterCtxs masters node with
  | some g => pure (masters, g)
  | none => throw (.assertFail "ctx->node_master_ctx != nullptr")

/-- Lines 921-926: the context in `queue_privs[q]`, taken for a computation
context. -/
def pairComp (privs : Nat → Option Priv) (q : Nat) : Except Stop Nat :=
  match privs q with
  | none => throw (.assertFail "comp_ctx != NULL")
  | some (.coproc _) => throw (.undefined (.mistyped q))
  | some (.comp j) => pure j

/-- Lines 884-903: the drop queue, a TX queue per port with its water mark, and
the new-packet request ring of thread `idx` of node `node` on core `core`. -/
def createIoRings (dev : EthDev) (numPorts node idx core : Nat) : Except Stop Unit := do
  cAssert (dev.ringCreate (.dropq node idx core)) "NULL != ctx->drop_queue"
  forEach (fun k _ => do
      cAssert (dev.ringCreate (.txq k node idx core)) "NULL != ctx->tx_queues[k]"
      cAssert (dev.ringSetWaterMark (.txq k node idx core))
        "0 == rte_ring_set_water_mark(ctx->tx_queues[k], (8 * NBA_MAX_COMP_BATCH_SIZE) - 16)")
    (List.range numPorts) ()
  cAssert (dev.ringCreate (.reqring node idx core)) "NULL != ctx->new_packet_request_ring"

/-- Lines 908-913: `rx_pools[k] = rx_mempools[ifindex][qidx]` for each attached RX queue. -/
def readRxPools (lim : Limits) (rxqs : List HwRxq) : Except Stop Unit :=
  forEach (fun q _ => mempoolAt lim q.ifindex q.qidx) rxqs ()

/-- Lines 843-928, one I/O thread, with `num_ports` ports and `num_io_threads` threads. -/
def wireIoThread (lim : Limits) (m : Machine) (dev : EthDev) (numPorts numIoThreads : Nat)
    (nodes : List IoNode) (privs : Nat → Option Priv) (t : IoThreadConf) (s : IoBoot) :
    Except Stop IoBoot := do
  let node := m.nodeOfCpu t.coreId
  let (idx, counts) ← Arr.postInc .perNodeCounts s.perNodeCounts node
  let i := s.ctxs.length
  let (masters, master) ← setNodeMaster s.nodeMasterCtxs node idx i
  let shared ← Arr.get .nodeStats nodes node
  createIoRings dev numPorts node idx t.coreId
  readRxPools lim t.attachedRxqs
  cAssert (i < numIoThreads) "i < num_io_threads"
  let j ← pairComp privs t.swrxqIdx
  pure { perNodeCounts := counts, nodeMasterCtxs := masters
         ctxs := s.ctxs ++ [⟨t.coreId, idx, node, i, master, shared, t.swrxqIdx, j⟩]
         comps := s.comps.modify (fun x => { x with io := some i }) j }

/-- Lines 790-929, after the computation contexts `cp` are created. -/
def wireIo (lim : Limits) (m : Machine) (dev : EthDev) (c : SysConf) (cp : CompBoot) :
    Except Stop IoBoot :=
  forEach (wireIoThread lim m dev (min m.numPorts lim.maxPorts) c.ioThreadConfs.length
      (ioNodes m c) cp.queuePrivs) c.ioThreadConfs
    ⟨List.replicate lim.maxNodes 0, List.replicate m.numNodes none, [], cp.ctxs⟩

/-- What `load_config` is trusted to give for line 912: every attached RX queue
names an entry of `rx_mempools`. -/
def RxqsInRange (lim : Limits) (c : SysConf) : Prop :=
  ∀ t ∈ c.ioThreadConfs, ∀ q ∈ t.attachedRxqs, q.ifindex < lim.maxPorts ∧ q.qidx < lim.maxQueuesPerPort

instance (lim : Limits) (c : SysConf) : Decidable (RxqsInRange lim c) :=
  inferInstanceAs (Decidable (∀ t ∈ c.ioThreadConfs, ∀ q ∈ t.attachedRxqs, _ ∧ _))

/-! ## Lemmas -/

@[simp] theorem nodeCount_nil (m : Machine) (n : Nat) : nodeCount m [] n = 0 := rfl

@[simp] theorem nodeCount_append_singleton (m : Machine) (ts : List IoThreadConf)
    (t : IoThreadConf) (n : Nat) :
    nodeCount m (ts ++ [t]) n = nodeCount m ts n + if m.nodeOfCpu t.coreId = n then 1 else 0 := by
  by_cases h : m.nodeOfCpu t.coreId = n <;> simp [nodeCount, h]

theorem getElem?_ioNodes {m : Machine} {c : SysConf} {n : Nat} (hn : n < m.numNodes) :
    (ioNodes m c)[n]? = some ⟨n, nodeCount m c.ioThreadConfs n⟩ := by
  simp [ioNodes, hn]

theorem setNodeMaster_first {masters : List (Option Nat)} {node : Nat} (i : Nat)
    (h : node < masters.length) :
    setNodeMaster masters node 0 i = .ok (masters.set node (some i), i) := by
  simp [setNodeMaster, Arr.set_of_lt _ _ h, Arr.get_eq_ok.2 (List.getElem?_set_self h)]

theorem setNodeMaster_later {masters : List (Option Nat)} {node idx g : Nat} (i : Nat)
    (hidx : idx ≠ 0) (hg : masters[node]? = some (some g)) :
    setNodeMaster masters node idx i = .ok (masters, g) := by
  simp [setNodeMaster, hidx, Arr.get_eq_ok.2 hg]

theorem pairComp_eq_ok {privs : Nat → Option Priv} {q j : Nat} :
    pairComp privs q = .ok j ↔ privs q = some (.comp j) := by
  unfold pairComp
  split <;> simp_all

theorem createIoRings_ok {dev : EthDev} (hdev : dev.RingsSucceed) (numPorts node idx core : Nat) :
    createIoRings dev numPorts node idx core = .ok () := by
  simp [createIoRings, hdev.ringCreate, hdev.ringSetWaterMark, forEach_eq_ok_self]

theorem readRxPools_ok {lim : Limits} {rxqs : List HwRxq}
    (h : ∀ q ∈ rxqs, q.ifindex < lim.maxPorts ∧ q.qidx < lim.maxQueuesPerPort) :
    readRxPools lim rxqs = .ok () :=
  forEach_eq_ok_self fun q hq => mempoolAt_eq_ok.2 (h q hq)

theorem createIoRings_nodeSafe (dev : EthDev) (numPorts node idx core : Nat) :
    NodeSafe (createIoRings dev numPorts node idx core) :=
  nodeSafe_bind (nodeSafe_cAssert _ _) fun _ _ => nodeSafe_bind (forEach_nodeSafe_of_step
    (fun _ _ => nodeSafe_bind (nodeSafe_cAssert _ _) fun _ _ => nodeSafe_cAssert _ _) _ _)
    fun _ _ => nodeSafe_cAssert _ _

theorem readRxPools_nodeSafe (lim : Limits) (rxqs : List HwRxq) : NodeSafe (readRxPools lim rxqs) :=
  forEach_nodeSafe_of_step (fun _ _ => mempoolAt_nodeSafe _ _ _) _ _

/-- What the per-thread loop keeps after the threads `done`, from the
computation contexts `cp`. -/
structure IoInv (lim : Limits) (m : Machine) (c : SysConf) (cp : CompBoot)
    (done : List IoThreadConf) (s : IoBoot) : Prop where
  nodes : s.ctxs.map IoCtx.nodeId = done.map fun t => m.nodeOfCpu t.coreId
  globals : s.ctxs.map IoCtx.globalThreadIdx = List.range done.length
  rxQueues : s.ctxs.map IoCtx.rxQueue = done.map IoThreadConf.swrxqIdx
  counts_length : s.perNodeCounts.length = lim.maxNodes
  counts : ∀ n < lim.maxNodes, s.perNodeCounts[n]? = some (nodeCount m done n)
  /-- the threads of node `n` are numbered `0, 1, ...` in configuration order -/
  locals : ∀ n, (s.ctxs.filter fun x => x.nodeId == n).map IoCtx.localThreadIdx =
    List.range (nodeCount m done n)
  masters_length : s.nodeMasterCtxs.length = m.numNodes
  /-- `node_master_ctxs[n]` is null until node `n` has a thread, and then its
  thread numbered `0` -/
  masters : ∀ n < m.numNodes, (s.nodeMasterCtxs[n]? = some none ↔ nodeCount m done n = 0) ∧
    ∀ g, s.nodeMasterCtxs[n]? = some (some g) →
      ∃ y, s.ctxs[g]? = some y ∧ y.nodeId = n ∧ y.localThreadIdx = 0
  master : ∀ x ∈ s.ctxs, ∃ y, s.ctxs[x.nodeMasterCtx]? = some y ∧ y.nodeId = x.nodeId ∧
    y.localThreadIdx = 0
  shared : ∀ x ∈ s.ctxs, x.shared = ⟨x.nodeId, nodeCount m c.ioThreadConfs x.nodeId⟩
  compCtx : ∀ x ∈ s.ctxs, cp.queuePrivs x.rxQueue = some (.comp x.compCtx)
  comps_length : s.comps.length = cp.ctxs.length
  /-- `io_ctx` of computation context `j`: the last I/O thread that found `j` -/
  comps : ∀ j, s.comps[j]? = cp.ctxs[j]?.map fun (y : CompCtx) =>
    { y with io := (lastIdx (fun (t : IoThreadConf) =>
      decide (cp.queuePrivs t.swrxqIdx = some (Priv.comp j))) done).or y.io }

section Wire
variable {lim : Limits} {m : Machine} {dev : EthDev} {c : SysConf} {cp : CompBoot}
  {numPorts numIoThreads : Nat}

theorem IoInv.init :
    IoInv lim m c cp [] ⟨List.replicate lim.maxNodes 0, List.replicate m.numNodes none, [], cp.ctxs⟩ where
  nodes := rfl
  globals := rfl
  rxQueues := rfl
  counts_length := by simp
  counts n hn := by simp [hn]
  locals n := by simp
  masters_length := by simp
  masters n hn := by simp [hn]
  master := by simp
  shared := by simp
  compCtx := by simp
  comps_length := rfl
  comps j := by cases cp.ctxs[j]? <;> simp [lastIdx]

/-- A lookup in the contexts built so far survives one more context. -/
theorem getElem?_append_of_getElem? {α : Type} {l : List α} {g : Nat} {y : α} (a : α)
    (h : l[g]? = some y) : (l ++ [a])[g]? = some y := by
  rw [List.getElem?_append_left (List.getElem?_eq_some_iff.1 h).1, h]

/-- **One I/O thread keeps `IoInv`** when its rings are made, its attached RX
queues name entries of `rx_mempools`, it is not past `num_io_threads`, its node
is below `num_nodes ≤ NBA_MAX_NODES` and its RX queue holds computation context `j`. -/
theorem wireIoThread_inv {done : List IoThreadConf} {t : IoThreadConf} {s : IoBoot} {j : Nat}
    (hdev : dev.RingsSucceed)
    (hrxq : ∀ q ∈ t.attachedRxqs, q.ifindex < lim.maxPorts ∧ q.qidx < lim.maxQueuesPerPort)
    (hlt : done.length < numIoThreads) (hn : m.nodeOfCpu t.coreId < m.numNodes)
    (hN : m.numNodes ≤ lim.maxNodes) (hp : cp.queuePrivs t.swrxqIdx = some (.comp j))
    (hi : IoInv lim m c cp done s) :
    ∃ s', wireIoThread lim m dev numPorts numIoThreads (ioNodes m c) cp.queuePrivs t s = .ok s' ∧
      IoInv lim m c cp (done ++ [t]) s' := by
  set node := m.nodeOfCpu t.coreId with hnode
  have hlen : s.ctxs.length = done.length := by simpa using congrArg List.length hi.globals
  have hc : node < s.perNodeCounts.length := by rw [hi.counts_length]; omega
  have hcnt : s.perNodeCounts[node] = nodeCount m done node := by
    simpa [List.getElem?_eq_getElem hc] using hi.counts node (by omega)
  have hml : node < s.nodeMasterCtxs.length := by rw [hi.masters_length]; exact hn
  -- the master the thread takes, and the masters array afterwards
  obtain ⟨masters, g, hsm, hmast, hg, hmy⟩ : ∃ masters g,
      setNodeMaster s.nodeMasterCtxs node s.perNodeCounts[node] s.ctxs.length = .ok (masters, g) ∧
      masters.length = m.numNodes ∧ masters[node]? = some (some g) ∧
      (∀ n < m.numNodes, (masters[n]? = some none ↔ nodeCount m (done ++ [t]) n = 0) ∧
        ∀ g', masters[n]? = some (some g') → ∃ y,
          (s.ctxs ++ [IoCtx.mk t.coreId s.perNodeCounts[node] node s.ctxs.length g
            ⟨node, nodeCount m c.ioThreadConfs node⟩ t.swrxqIdx j])[g']? = some y ∧
          y.nodeId = n ∧ y.localThreadIdx = 0) := by
    by_cases h0 : s.perNodeCounts[node] = 0
    · refine ⟨_, s.ctxs.length, by rw [h0]; exact setNodeMaster_first _ hml,
        by simp [hi.masters_length], List.getElem?_set_self hml, fun n hn' => ?_⟩
      by_cases e : node = n
      · subst e
        refine ⟨by simp [List.getElem?_set_self hml], fun g' hg' => ?_⟩
        rw [List.getElem?_set_self hml] at hg'
        cases hg'
        simp [List.getElem?_append_right, h0]
      · obtain ⟨h1, h2⟩ := hi.masters n hn'
        refine ⟨by simpa [List.getElem?_set_ne e, e] using h1, fun g' hg' => ?_⟩
        obtain ⟨y, hy, hy'⟩ := h2 g' (by rwa [List.getElem?_set_ne e] at hg')
        exact ⟨y, getElem?_append_of_getElem? _ hy, hy'⟩
    · obtain ⟨h1, h2⟩ := hi.masters node hn
      obtain ⟨g, hg⟩ : ∃ g, s.nodeMasterCtxs[node]? = some (some g) := by
        cases hv : s.nodeMasterCtxs[node]? with
        | none => simp [List.getElem?_eq_none_iff] at hv; omega
        | some v => cases v with
          | none => exact absurd (h1.1 hv) (by rwa [← hcnt])
          | some g => exact ⟨g, rfl⟩
      refine ⟨_, _, setNodeMaster_later _ h0 hg, hi.masters_length, hg, fun n hn' => ?_⟩
      obtain ⟨h1', h2'⟩ := hi.masters n hn'
      refine ⟨?_, fun g' hg' => ?_⟩
      · by_cases e : node = n
        · subst e; simp [hg, ← hcnt, h0]
        · simpa [e] using h1'
      · obtain ⟨y, hy, hy'⟩ := h2' g' hg'
        exact ⟨y, getElem?_append_of_getElem? _ hy, hy'⟩
  refine ⟨_, by
    simp only [wireIoThread, ← hnode, Arr.postInc_of_lt _ hc, ok_bind, hsm,
      Arr.get_eq_ok.2 (getElem?_ioNodes (c := c) hn), createIoRings_ok hdev, readRxPools_ok hrxq,
      cAssert_of (hlen ▸ hlt : s.ctxs.length < numIoThreads), pairComp_eq_ok.2 hp, pure_eq_ok]; rfl, ?_⟩
  refine ⟨by simp [hi.nodes], by simp [hi.globals, hlen, List.range_succ], by simp [hi.rxQueues],
    by simp [hi.counts_length], fun n hn' => ?_, fun n => ?_, hmast, hmy, fun x hx => ?_,
    fun x hx => ?_, fun x hx => ?_, by simp [hi.comps_length], fun j' => ?_⟩
  · by_cases e : node = n
    · subst e; simp [List.getElem?_set_self hc, hcnt]
    · simp [List.getElem?_set_ne e, hi.counts n hn', e]
  · by_cases e : node = n
    · subst e; simp [List.filter_append, hi.locals, hcnt, List.range_succ]
    · simp [List.filter_append, hi.locals, e]
  · rcases List.mem_append.1 hx with hx | hx
    · obtain ⟨y, hy, hy'⟩ := hi.master x hx
      exact ⟨y, getElem?_append_of_getElem? _ hy, hy'⟩
    · simp only [List.mem_singleton] at hx
      subst hx
      exact hmy node hn |>.2 g hg
  · rcases List.mem_append.1 hx with hx | hx
    · exact hi.shared x hx
    · simp only [List.mem_singleton] at hx; subst hx; rfl
  · rcases List.mem_append.1 hx with hx | hx
    · exact hi.compCtx x hx
    · simp only [List.mem_singleton] at hx; subst hx; exact hp
  · rw [List.getElem?_modify, hi.comps, lastIdx_append_singleton]
    by_cases e : j = j'
    · subst e; cases cp.ctxs[j]? <;> simp [hp, hlen]
    · cases cp.ctxs[j']? <;> simp [hp, e]

/-- **What the per-thread loop leaves**, when the rings are made, the attached
RX queues name entries of `rx_mempools`, and every I/O thread sits on a node
below `num_nodes ≤ NBA_MAX_NODES` with its RX queue holding a computation context. -/
theorem wireIo_spec (hdev : dev.RingsSucceed) (hrxq : RxqsInRange lim c)
    (hN : m.numNodes ≤ lim.maxNodes)
    (hn : ∀ t ∈ c.ioThreadConfs, m.nodeOfCpu t.coreId < m.numNodes)
    (hq : ∀ t ∈ c.ioThreadConfs, ∃ j, cp.queuePrivs t.swrxqIdx = some (.comp j)) :
    ∃ s, wireIo lim m dev c cp = .ok s ∧ IoInv lim m c cp c.ioThreadConfs s := by
  obtain ⟨s, h, hi⟩ := forEach_inv (IoInv lim m c cp)
    (fun done t => (∀ q ∈ t.attachedRxqs, q.ifindex < lim.maxPorts ∧ q.qidx < lim.maxQueuesPerPort) ∧
      done.length < c.ioThreadConfs.length ∧ m.nodeOfCpu t.coreId < m.numNodes ∧
      ∃ j, cp.queuePrivs t.swrxqIdx = some (.comp j))
    (fun _ _ _ ⟨hr, hl, hn, j, hp⟩ hi => wireIoThread_inv hdev hr hl hn hN hp hi) c.ioThreadConfs [] _
    (fun _ _ _ e => ⟨hrxq _ (mem_of_eq_append_cons e), by rw [e]; simp,
      hn _ (mem_of_eq_append_cons e), hq _ (mem_of_eq_append_cons e)⟩) IoInv.init
  exact ⟨s, h, by simpa using hi⟩

theorem pairComp_nodeSafe (privs : Nat → Option Priv) (q : Nat) : NodeSafe (pairComp privs q) := by
  unfold pairComp; split <;> simp

theorem setNodeMaster_nodeSafe {masters : List (Option Nat)} {node : Nat} (idx i : Nat)
    (h : node < masters.length) :
    NodeSafe (setNodeMaster masters node idx i) ∧
      ∀ r, setNodeMaster masters node idx i = .ok r → r.1.length = masters.length := by
  unfold setNodeMaster
  split_ifs with h0
  · have hl : node < (masters.set node (some i)).length := by simp [h]
    simp only [Arr.set_of_lt _ _ h, ok_bind, Arr.get_of_lt _ hl, List.getElem_set_self, pure_eq_ok]
    exact ⟨nodeSafe_ok _, fun r e => by cases e; simp⟩
  · simp only [pure_eq_ok, ok_bind, Arr.get_of_lt _ h]
    split
    · exact ⟨nodeSafe_ok _, fun r e => by cases e; rfl⟩
    · exact ⟨by simp, fun r e => by cases e⟩

/-- The array sizes the per-thread loop keeps: `per_node_counts` has
`NBA_MAX_NODES` entries and `node_master_ctxs` `num_nodes`. -/
def IoLengths (lim : Limits) (m : Machine) (s : IoBoot) : Prop :=
  s.perNodeCounts.length = lim.maxNodes ∧ s.nodeMasterCtxs.length = m.numNodes

/-- One I/O thread on a node below `num_nodes ≤ NBA_MAX_NODES` makes no
out-of-range node access and keeps the array sizes. -/
theorem wireIoThread_nodeSafe {privs : Nat → Option Priv} {t : IoThreadConf} {s : IoBoot}
    (hn : m.nodeOfCpu t.coreId < m.numNodes) (hN : m.numNodes ≤ lim.maxNodes)
    (hl : IoLengths lim m s) :
    NodeSafe (wireIoThread lim m dev numPorts numIoThreads (ioNodes m c) privs t s) ∧
      ∀ s', wireIoThread lim m dev numPorts numIoThreads (ioNodes m c) privs t s = .ok s' →
        IoLengths lim m s' := by
  have hc : m.nodeOfCpu t.coreId < s.perNodeCounts.length := by rw [hl.1]; omega
  obtain ⟨hs, hk⟩ := setNodeMaster_nodeSafe s.perNodeCounts[m.nodeOfCpu t.coreId]
    s.ctxs.length (show m.nodeOfCpu t.coreId < s.nodeMasterCtxs.length by rw [hl.2]; exact hn)
  simp only [wireIoThread, Arr.postInc_of_lt _ hc, ok_bind, Arr.get_eq_ok.2 (getElem?_ioNodes hn)]
  refine ⟨nodeSafe_bind hs fun _ _ => nodeSafe_bind (createIoRings_nodeSafe _ _ _ _ _) fun _ _ =>
    nodeSafe_bind (readRxPools_nodeSafe _ _) fun _ _ => nodeSafe_bind (nodeSafe_cAssert _ _) fun _ _ =>
    nodeSafe_bind (pairComp_nodeSafe _ _) fun _ _ => by simp, fun s' h => ?_⟩
  simp only [bind_eq_ok] at h
  obtain ⟨⟨ms, g⟩, hm, -, -, -, -, -, -, j, -, h⟩ := h
  cases h
  exact ⟨by simp [hl.1], (hk _ hm).trans hl.2⟩

/-- **The I/O wiring makes no out-of-range node access** when every I/O
thread sits on a node below `num_nodes ≤ NBA_MAX_NODES`: `per_node_counts`,
`node_master_ctxs` and the per-node objects are indexed in range. -/
theorem wireIo_nodeSafe (hN : m.numNodes ≤ lim.maxNodes)
    (hn : ∀ t ∈ c.ioThreadConfs, m.nodeOfCpu t.coreId < m.numNodes) :
    NodeSafe (wireIo lim m dev c cp) :=
  forEach_nodeSafe (fun _ s => IoLengths lim m s) (fun _ t => m.nodeOfCpu t.coreId < m.numNodes)
    (fun _ _ _ hn' hl => wireIoThread_nodeSafe hn' hN hl) c.ioThreadConfs [] _
    (fun _ _ _ e => hn _ (mem_of_eq_append_cons e)) ⟨by simp, by simp⟩

/-- An I/O context sits at its global index, with the RX queue of its thread. -/
theorem IoInv.getElem_ctxs {done : List IoThreadConf} {s : IoBoot}
    (hi : IoInv lim m c cp done s) {x : IoCtx} (hx : x ∈ s.ctxs) :
    ∃ h : x.globalThreadIdx < done.length, s.ctxs[x.globalThreadIdx]? = some x ∧
      x.rxQueue = done[x.globalThreadIdx].swrxqIdx := by
  have hlen : s.ctxs.length = done.length := by simpa using congrArg List.length hi.globals
  obtain ⟨i, hi', rfl⟩ := List.getElem_of_mem hx
  have hg : s.ctxs[i].globalThreadIdx = i := by
    simpa [hi', hlen ▸ hi'] using congrArg (·[i]?) hi.globals
  have hr : s.ctxs[i].rxQueue = done[i].swrxqIdx := by
    simpa [hi', hlen ▸ hi'] using congrArg (·[i]?) hi.rxQueues
  rw [hg]
  exact ⟨hlen ▸ hi', List.getElem?_eq_getElem hi', hr⟩

end Wire

/-- `queue_privs[q]` holds computation context `j` after line 717 exactly when
`j` is the last computation thread with RX queue `q`. -/
theorem queuePrivs_eq_comp {lim : Limits} {m : Machine} {c : SysConf} {co : CoprocBoot}
    {cp : CompBoot} (hco : CoprocInv lim m c.coprocThreadConfs co)
    (hi : CompInv lim m c co c.compThreadConfs cp) {q j : Nat} :
    cp.queuePrivs q = some (.comp j) ↔
      lastIdx (fun u => u.swrxqIdx == q) c.compThreadConfs = some j := by
  rw [hi.privs, hco.privs]
  cases lastIdx (fun u => u.swrxqIdx == q) c.compThreadConfs <;>
    cases lastIdx (fun t => t.taskinqIdx == q) c.coprocThreadConfs <;> simp

/-- An RX queue some computation thread produces into holds a computation
context after line 717. -/
theorem queuePrivs_comp_of_mem {lim : Limits} {m : Machine} {c : SysConf} {co : CoprocBoot}
    {cp : CompBoot} (hco : CoprocInv lim m c.coprocThreadConfs co)
    (hi : CompInv lim m c co c.compThreadConfs cp) {q : Nat}
    (h : ∃ u ∈ c.compThreadConfs, u.swrxqIdx = q) : ∃ j, cp.queuePrivs q = some (.comp j) := by
  obtain ⟨u, hu, e⟩ := h
  simp only [queuePrivs_eq_comp hco hi]
  cases hl : lastIdx (fun u => u.swrxqIdx == q) c.compThreadConfs with
  | none => simpa [e] using lastIdx_eq_none.1 hl u hu
  | some j => exact ⟨j, rfl⟩

/-- **I/O numbering and node masters.**  The wiring gets through, numbers the
contexts of each node `0, 1, ...` up to `num_threads`, gives each its node's
context `0` as master, and lets exactly the contexts of a node share its objects. -/
theorem ioWiring_numbering (lim : Limits) (m : Machine) (dev : EthDev) (c : SysConf)
    (so : SetOrder) (co : CoprocBoot) (cp : CompBoot) (calls : List InitCall)
    (h : spawnAndInit lim m c so = .ok (co, cp, calls)) (hdev : dev.RingsSucceed)
    (hrxq : RxqsInRange lim c) (hio : ∀ t ∈ c.ioThreadConfs, m.nodeOfCpu t.coreId < m.numNodes)
    (hq : ∀ t ∈ c.ioThreadConfs, ∃ u ∈ c.compThreadConfs, u.swrxqIdx = t.swrxqIdx) :
    ∃ s, wireIo lim m dev c cp = .ok s ∧
      (∀ n < m.numNodes, ∃ st, (ioNodes m c)[n]? = some st ∧
        (s.ctxs.filter fun x => x.nodeId == n).map IoCtx.localThreadIdx =
          List.range st.numThreads) ∧
      s.ctxs.map IoCtx.globalThreadIdx = List.range c.ioThreadConfs.length ∧
      (∀ x ∈ s.ctxs, ∃ y, s.ctxs[x.nodeMasterCtx]? = some y ∧ y.nodeId = x.nodeId ∧
        y.localThreadIdx = 0) ∧
      (∀ x ∈ s.ctxs, ∀ y ∈ s.ctxs, x.shared = y.shared ↔ x.nodeId = y.nodeId) := by
  obtain ⟨hco, hi, hN⟩ := spawnAndInit_ok h
  obtain ⟨s, hs, hinv⟩ :=
    wireIo_spec hdev hrxq hN hio fun t ht => queuePrivs_comp_of_mem hco hi (hq t ht)
  refine ⟨s, hs, fun n hn => ⟨_, getElem?_ioNodes hn, hinv.locals n⟩, hinv.globals, hinv.master,
    fun x hx y hy => ?_⟩
  rw [hinv.shared x hx, hinv.shared y hy]
  exact ⟨fun e => (IoNode.mk.inj e).1, fun e => by rw [e]⟩

theorem ioWiring_numbering_covered :
    ∃ co cp calls, spawnAndInit ⟨2, 1, 1⟩ twoNodes coveredConf SetOrder.dedup = .ok (co, cp, calls) ∧
      ∃ s, wireIo ⟨2, 1, 1⟩ twoNodes EthDev.allOk coveredConf cp = .ok s ∧
        s.ctxs.map IoCtx.globalThreadIdx = List.range 2 := by
  obtain ⟨co, cp, calls, h⟩ : ∃ co cp calls,
      spawnAndInit ⟨2, 1, 1⟩ twoNodes coveredConf SetOrder.dedup = .ok (co, cp, calls) :=
    ⟨_, _, _, rfl⟩
  obtain ⟨s, hs, -, hg, -⟩ := ioWiring_numbering _ _ _ _ _ co cp calls h
    EthDev.allOk_succeeds.rings (by decide) (by decide) (by decide)
  exact ⟨co, cp, calls, h, s, hs, hg⟩

/-- `coveredConf` with the I/O threads `io`. -/
def withIo (io : List IoThreadConf) (h : ∀ t ∈ io, t.swrxqIdx < 5) : SysConf :=
  ⟨coveredConf.queueConfs, ⟨64, 64⟩, io, coveredConf.compThreadConfs,
    coveredConf.coprocThreadConfs, 1, 1, by decide, by decide, h⟩

/-- An I/O thread on an RX queue of no computation thread: the loop stops at
the assertion of line 923, and node 1 gets none of its `num_threads = 1`
contexts.  An attached RX queue past `NBA_MAX_QUEUES_PER_PORT`: line 912 reads
past `rx_mempools`. -/
theorem ioWiring_numbering_fails :
    (∃ co cp calls, spawnAndInit ⟨2, 1, 1⟩ twoNodes (withIo [⟨0, 0, []⟩, ⟨1, 4, []⟩] (by decide))
        SetOrder.dedup = .ok (co, cp, calls) ∧
      wireIo ⟨2, 1, 1⟩ twoNodes EthDev.allOk (withIo [⟨0, 0, []⟩, ⟨1, 4, []⟩] (by decide)) cp =
        .error (.assertFail "comp_ctx != NULL") ∧
      (ioNodes twoNodes (withIo [⟨0, 0, []⟩, ⟨1, 4, []⟩] (by decide))).map IoNode.numThreads =
        [1, 1]) ∧
    ∃ co cp calls, spawnAndInit ⟨2, 1, 1⟩ twoNodes (withIo [⟨0, 0, [⟨0, 1⟩]⟩] (by decide))
        SetOrder.dedup = .ok (co, cp, calls) ∧
      wireIo ⟨2, 1, 1⟩ twoNodes EthDev.allOk (withIo [⟨0, 0, [⟨0, 1⟩]⟩] (by decide)) cp =
        .error (.undefined (.index .rxMempools 1 1)) :=
  ⟨⟨_, _, _, rfl, rfl, rfl⟩, _, _, _, rfl, rfl⟩

/-- **I/O and computation contexts paired one to one** when both kinds of
thread name the same RX queues, each once: `comp_ctx` and `io_ctx` are
inverse, on the same RX queue. -/
theorem ioWiring_bijection (lim : Limits) (m : Machine) (dev : EthDev) (c : SysConf)
    (so : SetOrder) (co : CoprocBoot) (cp : CompBoot) (calls : List InitCall)
    (h : spawnAndInit lim m c so = .ok (co, cp, calls)) (hdev : dev.RingsSucceed)
    (hrxq : RxqsInRange lim c) (hio : ∀ t ∈ c.ioThreadConfs, m.nodeOfCpu t.coreId < m.numNodes)
    (hcd : (c.compThreadConfs.map CompThreadConf.swrxqIdx).Nodup)
    (hid : (c.ioThreadConfs.map IoThreadConf.swrxqIdx).Nodup)
    (hsame : ∀ q, q ∈ c.compThreadConfs.map CompThreadConf.swrxqIdx ↔
      q ∈ c.ioThreadConfs.map IoThreadConf.swrxqIdx) :
    ∃ s, wireIo lim m dev c cp = .ok s ∧
      (∀ x ∈ s.ctxs, ∃ y, s.comps[x.compCtx]? = some y ∧ y.io = some x.globalThreadIdx ∧
        y.rxQueue = x.rxQueue) ∧
      (∀ (j : Nat) (y : CompCtx), s.comps[j]? = some y → ∃ x : IoCtx, y.io = some x.globalThreadIdx ∧
        s.ctxs[x.globalThreadIdx]? = some x ∧ x.compCtx = j) := by
  obtain ⟨hco, hi, hN⟩ := spawnAndInit_ok h
  have hpriv : ∀ q j, cp.queuePrivs q = some (.comp j) ↔
      ∃ h : j < c.compThreadConfs.length, c.compThreadConfs[j].swrxqIdx = q := fun q j => by
    rw [queuePrivs_eq_comp hco hi]; exact lastIdx_eq_some_iff hcd
  have hclen : cp.ctxs.length = c.compThreadConfs.length := by
    simpa using congrArg List.length hi.rxQueues
  -- the I/O thread that finds computation context `j` is the one on its RX queue
  have hio_of : ∀ j (hj : j < c.compThreadConfs.length),
      ∃ i, ∃ h : i < c.ioThreadConfs.length,
        c.ioThreadConfs[i].swrxqIdx = c.compThreadConfs[j].swrxqIdx ∧
        lastIdx (fun t => decide (cp.queuePrivs t.swrxqIdx = some (.comp j))) c.ioThreadConfs =
          some i := fun j hj => by
    obtain ⟨t, ht, e⟩ := List.mem_map.1 ((hsame _).1 (List.mem_map_of_mem _ (List.getElem_mem hj)))
    obtain ⟨i, hi', rfl⟩ := List.getElem_of_mem ht
    refine ⟨i, hi', e, ?_⟩
    rw [lastIdx_congr (q := fun t => t.swrxqIdx == c.compThreadConfs[j].swrxqIdx) fun t _ => by
      rw [Bool.eq_iff_iff, decide_eq_true_iff, beq_iff_eq, hpriv]
      exact ⟨fun ⟨_, e'⟩ => e'.symm, fun e' => ⟨hj, e'.symm⟩⟩]
    exact (lastIdx_eq_some_iff hid).2 ⟨hi', e⟩
  have hq : ∀ t ∈ c.ioThreadConfs, ∃ j, cp.queuePrivs t.swrxqIdx = some (.comp j) := fun t ht => by
    obtain ⟨u, hu, e⟩ := List.mem_map.1 ((hsame _).2 (List.mem_map_of_mem _ ht))
    obtain ⟨j, hj, rfl⟩ := List.getElem_of_mem hu
    exact ⟨j, (hpriv _ _).2 ⟨hj, e⟩⟩
  obtain ⟨s, hs, hinv⟩ := wireIo_spec hdev hrxq hN hio hq
  refine ⟨s, hs, fun x hx => ?_, fun j y hy => ?_⟩
  · obtain ⟨hg, hxg, hxr⟩ := hinv.getElem_ctxs hx
    obtain ⟨hj, hsw⟩ := (hpriv _ _).1 (hinv.compCtx x hx)
    obtain ⟨i, hi', e, hl⟩ := hio_of _ hj
    have hi'' : i < (c.ioThreadConfs.map IoThreadConf.swrxqIdx).length := by simpa using hi'
    have hg' : x.globalThreadIdx < (c.ioThreadConfs.map IoThreadConf.swrxqIdx).length := by
      simpa using hg
    have e2 : (c.ioThreadConfs.map IoThreadConf.swrxqIdx)[i] =
        (c.ioThreadConfs.map IoThreadConf.swrxqIdx)[x.globalThreadIdx] := by
      simp only [List.getElem_map]; rw [e, hsw, hxr]
    have hix : i = x.globalThreadIdx := hid.getElem_inj_iff.1 e2
    have hcr : cp.ctxs[x.compCtx]?.map CompCtx.rxQueue = some x.rxQueue := by
      rw [← List.getElem?_map, hi.rxQueues, List.getElem?_map, List.getElem?_eq_getElem hj]
      exact congrArg some hsw
    obtain ⟨y0, hy0, hr⟩ := Option.map_eq_some'.1 hcr
    refine ⟨{ y0 with io := some x.globalThreadIdx }, ?_, rfl, hr⟩
    rw [hinv.comps, hy0, Option.map_some', hl, hix]
    rfl
  · have hj : j < c.compThreadConfs.length := by
      rw [← hclen, ← hinv.comps_length]; exact (List.getElem?_eq_some_iff.1 hy).1
    obtain ⟨i, hi', e, hl⟩ := hio_of j hj
    have hlen : s.ctxs.length = c.ioThreadConfs.length := by
      simpa using congrArg List.length hinv.globals
    have hx := List.getElem_mem (hlen ▸ hi' : i < s.ctxs.length)
    obtain ⟨hg, hxg, hxr⟩ := hinv.getElem_ctxs hx
    have hgi : s.ctxs[i].globalThreadIdx = i := by
      simpa [hlen ▸ hi', hi'] using congrArg (·[i]?) hinv.globals
    rw [hinv.comps] at hy
    obtain ⟨y0, -, rfl⟩ := Option.map_eq_some'.1 hy
    refine ⟨s.ctxs[i], by simp [hl, hgi], hxg, ?_⟩
    have := (hpriv s.ctxs[i].rxQueue j).2 ⟨hj, by simp only [hxr, hgi, e]⟩
    rw [hinv.compCtx _ hx] at this
    simpa using this

theorem ioWiring_bijection_covered :
    ∃ co cp calls, spawnAndInit ⟨2, 1, 1⟩ twoNodes coveredConf SetOrder.dedup = .ok (co, cp, calls) ∧
      ∃ s, wireIo ⟨2, 1, 1⟩ twoNodes EthDev.allOk coveredConf cp = .ok s ∧
        ∀ x ∈ s.ctxs, ∃ y, s.comps[x.compCtx]? = some y ∧ y.io = some x.globalThreadIdx := by
  obtain ⟨co, cp, calls, h⟩ : ∃ co cp calls,
      spawnAndInit ⟨2, 1, 1⟩ twoNodes coveredConf SetOrder.dedup = .ok (co, cp, calls) :=
    ⟨_, _, _, rfl⟩
  obtain ⟨s, hs, hx, -⟩ := ioWiring_bijection _ _ _ _ _ co cp calls h EthDev.allOk_succeeds.rings
    (by decide) (by decide) (by decide) (by decide) fun q => by simp [coveredConf]
  exact ⟨co, cp, calls, h, s, hs, fun x hm => (hx x hm).imp fun _ h => ⟨h.1, h.2.1⟩⟩

/-- Two I/O threads on one RX queue: both take computation context 0, whose
`io_ctx` is the second, and computation context 1 keeps a null `io_ctx`;
nothing exits.  An I/O thread on queue 2, a coprocessor's task-input queue:
line 922 reads a coprocessor context as a computation context. -/
theorem ioWiring_bijection_fails :
    (∃ co cp calls, spawnAndInit ⟨2, 1, 1⟩ twoNodes (withIo [⟨0, 0, []⟩, ⟨1, 0, []⟩] (by decide))
        SetOrder.dedup = .ok (co, cp, calls) ∧
      ∃ s, wireIo ⟨2, 1, 1⟩ twoNodes EthDev.allOk
          (withIo [⟨0, 0, []⟩, ⟨1, 0, []⟩] (by decide)) cp = .ok s ∧
        s.ctxs.map IoCtx.compCtx = [0, 0] ∧ s.comps.map CompCtx.io = [some 1, none]) ∧
    ∃ co cp calls, spawnAndInit ⟨2, 1, 1⟩ twoNodes (withIo [⟨0, 2, []⟩] (by decide))
        SetOrder.dedup = .ok (co, cp, calls) ∧
      wireIo ⟨2, 1, 1⟩ twoNodes EthDev.allOk (withIo [⟨0, 2, []⟩] (by decide)) cp =
        .error (.undefined (.mistyped 2)) :=
  ⟨⟨_, _, _, rfl, _, rfl, rfl, rfl⟩, ⟨_, _, _, rfl, rfl⟩⟩

end Nba
