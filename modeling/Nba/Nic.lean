import Nba.Config

/-!
# NIC queues and per-node ports

Lines 343-435 of `main`: zero `node_ports`, then for every port check the
queue counts against the device, register the port on its node, and set up
its TX and RX queues.  The port loop and both queue loops count with a
`uint8_t` (line 125) against an `unsigned` bound; `u8Loop` is that loop.
Each RX queue creates three mempools named by node, port and queue, and DPDK
refuses a name it already holds, so the NIC loop carries the pools made so
far.  `portLoop_nodeSafe` keeps every `node_ports` access in range from the
invariant `PortsInv`; `nicSetup_exact` gives `node_ports` in closed form
(`nodePortsAfter`) when every call succeeds.
-/

namespace Nba

/-- The rings of an I/O thread (lines 882-903), by what their names
`dropq.%u:%u@%u`, `txq%u.%u:%u@%u` and `reqring.%u:%u@%u` print. -/
inductive IoRing where
  | dropq (node localIdx core : Nat)
  | txq (port node localIdx core : Nat)
  | reqring (node localIdx core : Nat)
  deriving DecidableEq, Repr

/-- What the DPDK calls of `main` report (`true`: success); a mempool call
also fails on a name already taken (`createPool`). -/
structure EthDev where
  devConfigure : Nat → Bool
  txQueueSetup : Nat → Nat → Bool
  pktbufPoolCreate : Nat → Nat → Bool
  rxQueueSetup : Nat → Nat → Bool
  newbufPoolCreate : Nat → Nat → Bool
  reqbufPoolCreate : Nat → Nat → Bool
  devStart : Nat → Bool
  ringCreate : IoRing → Bool
  ringSetWaterMark : IoRing → Bool

/-- Every `rte_ring_create` and `rte_ring_set_water_mark` of the I/O wiring succeeds. -/
structure EthDev.RingsSucceed (dev : EthDev) : Prop where
  ringCreate : ∀ r, dev.ringCreate r = true
  ringSetWaterMark : ∀ r, dev.ringSetWaterMark r = true

/-- Every DPDK call succeeds. -/
structure EthDev.Succeeds (dev : EthDev) : Prop where
  devConfigure : ∀ p, dev.devConfigure p = true
  txQueueSetup : ∀ p q, dev.txQueueSetup p q = true
  pktbufPoolCreate : ∀ p q, dev.pktbufPoolCreate p q = true
  rxQueueSetup : ∀ p q, dev.rxQueueSetup p q = true
  newbufPoolCreate : ∀ p q, dev.newbufPoolCreate p q = true
  reqbufPoolCreate : ∀ p q, dev.reqbufPoolCreate p q = true
  devStart : ∀ p, dev.devStart p = true
  rings : dev.RingsSucceed

inductive PoolKind where
  | pktbuf | newbuf | reqbuf
  deriving DecidableEq, Repr

/-- A mempool by its name `pktbuf_n%u_d%u_r%u` (or `newbuf_`, `reqbuf_`): at
most 28 bytes for a `uint8_t` port and queue, so `snprintf` never cuts it. -/
structure PoolName where
  kind : PoolKind
  node : Nat
  port : Nat
  ring : Nat
  deriving DecidableEq, Repr

/-- `node_ports[n]`: the RX ports registered on node `n` (their addresses left out). -/
structure NodePorts where
  rxPorts : List Nat
  numRxPorts : Nat

/-! ## Algorithm -/

/-- `for (i = start; i < bound; i++) s = body(i, s)` with `uint8_t i`: the
indices `body` ran on, and the last state. -/
def u8Loop {σ : Type} (body : Nat → σ → Except Stop σ) (bound : Nat) :
    Nat → UInt8 → σ → Except Stop (List Nat × σ)
  | 0, _, _ => .error .noFuel
  | fuel + 1, i, s =>
    if i.toNat < bound then do
      let s ← body i.toNat s
      let (is, s) ← u8Loop body bound fuel (i + 1) s
      pure (i.toNat :: is, s)
    else .ok ([], s)

/-- `rx_mempools[p][q]` on the `NBA_MAX_PORTS × NBA_MAX_QUEUES_PER_PORT` array,
stored at line 396 (with `newpkt_mempools` and `req_mempools`) and read at 910. -/
def mempoolAt (lim : Limits) (p q : Nat) : Except Stop Unit :=
  if p < lim.maxPorts then
    if q < lim.maxQueuesPerPort then .ok ()
    else .error (.undefined (.index .rxMempools q lim.maxQueuesPerPort))
  else .error (.undefined (.index .rxMempools p lim.maxPorts))

/-- Lines 378-381: one TX queue. -/
def setupTxQueue (dev : EthDev) (p q : Nat) : Except Stop Unit :=
  if dev.txQueueSetup p q then .ok ()
  else .error (.exit "rte_eth_tx_queue_setup: err=%d, port=%d, qidx=%d\n")

/-- `rte_pktmbuf_pool_create` or `rte_mempool_create` (DPDK, not in src/):
`NULL` without memory or when a pool of that name exists, and then `rte_exit`. -/
def createPool (ok : Bool) (msg : String) (name : PoolName) (pools : List PoolName) :
    Except Stop (List PoolName) :=
  if ok = true ∧ name ∉ pools then .ok (pools ++ [name]) else .error (.exit msg)

/-- Lines 384-420: one RX queue, its three pools and the stores of them. -/
def setupRxQueue (lim : Limits) (dev : EthDev) (node p q : Nat) (pools : List PoolName) :
    Except Stop (List PoolName) := do
  let pools ← createPool (dev.pktbufPoolCreate p q)
    "cannot allocate memory pool for rxq %u:%u@%u.\n" ⟨.pktbuf, node, p, q⟩ pools
  if !dev.rxQueueSetup p q then throw (.exit "rte_eth_rx_queue_setup: err=%d, port=%d, qidx=%d\n")
  mempoolAt lim p q
  let pools ← createPool (dev.newbufPoolCreate p q)
    "cannot allocate new pool for rxq %u:%u@%u.\n" ⟨.newbuf, node, p, q⟩ pools
  createPool (dev.reqbufPoolCreate p q)
    "cannot allocate new pool for rxq %u:%u@%u.\n" ⟨.reqbuf, node, p, q⟩ pools

/-- Lines 377-382. -/
def txQueueLoop (dev : EthDev) (p numTxq fuel : Nat) : Except Stop (List Nat) := do
  let (qs, _) ← u8Loop (fun q _ => setupTxQueue dev p q) numTxq fuel 0 ()
  pure qs

/-- Lines 383-421, on port `p` of node `node`, with the pools made before. -/
def rxQueueLoop (lim : Limits) (dev : EthDev) (node p numRxq fuel : Nat) (pools : List PoolName) :
    Except Stop (List Nat × List PoolName) :=
  u8Loop (setupRxQueue lim dev node p) numRxq fuel 0 pools

/-- `memzero(&node_ports[n], 1)`. -/
def NodePorts.zero (lim : Limits) : NodePorts := ⟨List.replicate lim.maxPorts 0, 0⟩

/-- Line 343, `memzero(node_ports, num_nodes)` on the `NBA_MAX_NODES` entries;
the entries past `num_nodes` stay indeterminate. -/
def zeroNodePorts (lim : Limits) (numNodes : Nat) : Except Stop (List (Option NodePorts)) :=
  if numNodes ≤ lim.maxNodes then
    .ok (List.replicate numNodes (some (NodePorts.zero lim)) ++
      List.replicate (lim.maxNodes - numNodes) none)
  else .error (.undefined (.index .nodePorts lim.maxNodes lim.maxNodes))

/-- Lines 373-376: append port `p` to `node_ports[node]`. -/
def registerPort (np : List (Option NodePorts)) (node p : Nat) :
    Except Stop (List (Option NodePorts)) := do
  let e ← Arr.read .nodePorts np node
  let rx ← Arr.set .rxPorts e.rxPorts e.numRxPorts p
  Arr.set .nodePorts np node (some ⟨rx, e.numRxPorts + 1⟩)

/-- `node_idx` of port `p` (lines 370-372). -/
def portNode (m : Machine) (p : Nat) : Nat := if m.isNumaDisabled then 0 else m.socketOfPort p

/-- What the NIC loop did for one port. -/
structure PortSetup where
  port : Nat
  node : Nat
  txQueues : List Nat
  rxQueues : List Nat

/-- Lines 356-434, one port. -/
def setupPort (lim : Limits) (m : Machine) (dev : EthDev) (numRxq numTxq fuel p : Nat)
    (np : List (Option NodePorts)) (pools : List PoolName) :
    Except Stop (List (Option NodePorts) × List PoolName × PortSetup) := do
  if numRxq > m.maxRxQueues p then
    throw (.exit "port (%u, %s) does not support request number of rxq (%u).\n")
  if numTxq > m.maxTxQueues p then
    throw (.exit "port (%u, %s) does not support request number of txq (%u).\n")
  if !dev.devConfigure p then
    throw (.assertFail "0 == rte_eth_dev_configure(port_idx, num_rxq_per_port, num_txq_per_port, &port_conf)")
  let node := portNode m p
  let np ← registerPort np node p
  let tx ← txQueueLoop dev p numTxq fuel
  let (rx, pools) ← rxQueueLoop lim dev node p numRxq fuel pools
  if !dev.devStart p then throw (.assertFail "0 == rte_eth_dev_start(port_idx)")
  pure (np, pools, ⟨p, node, tx, rx⟩)

/-- Lines 349-435: `for (port_idx = 0; port_idx < num_ports; port_idx++)`, `uint8_t port_idx`. -/
def portLoop (lim : Limits) (m : Machine) (dev : EthDev) (numPorts numRxq numTxq : Nat) :
    Nat → UInt8 → List (Option NodePorts) → List PoolName →
      Except Stop (List (Option NodePorts) × List PortSetup)
  | 0, _, _, _ => .error .noFuel
  | fuel + 1, p, np, pools =>
    if p.toNat < numPorts then do
      let (np, pools, s) ← setupPort lim m dev numRxq numTxq fuel p.toNat np pools
      let (np, ss) ← portLoop lim m dev numPorts numRxq numTxq fuel (p + 1) np pools
      pure (np, s :: ss)
    else .ok (np, [])

/-- Lines 343-435; `num_ports` is already capped at `NBA_MAX_PORTS` and
`num_txq_per_port` is `num_lcores`. -/
def nicSetup (lim : Limits) (m : Machine) (dev : EthDev) (numPorts numRxq fuel : Nat) :
    Except Stop (List (Option NodePorts) × List PortSetup) := do
  let np ← zeroNodePorts lim m.numNodes
  portLoop lim m dev numPorts numRxq m.numLcores fuel 0 np []

/-! ## Specification -/

/-- The ports below `k` on node `n`, in port order. -/
def portsOn (m : Machine) (k n : Nat) : List Nat := (List.range k).filter fun p => portNode m p = n

/-- `node_ports[n]` once ports `0..k-1` are registered: the ports on node `n`,
then the zeros `memzero` left. -/
def NodePorts.after (lim : Limits) (m : Machine) (k n : Nat) : NodePorts :=
  ⟨portsOn m k n ++ List.replicate (lim.maxPorts - (portsOn m k n).length) 0, (portsOn m k n).length⟩

/-- All of `node_ports` once ports `0..k-1` are registered; the entries past
`num_nodes` stay indeterminate. -/
def nodePortsAfter (lim : Limits) (m : Machine) (k : Nat) : List (Option NodePorts) :=
  (List.range m.numNodes).map (fun n => some (NodePorts.after lim m k n)) ++
    List.replicate (lim.maxNodes - m.numNodes) none

/-- Port `p` set up on its node with every TX and every RX queue. -/
def portSetup (m : Machine) (numRxq numTxq p : Nat) : PortSetup :=
  ⟨p, portNode m p, List.range numTxq, List.range numRxq⟩

/-- The queue counts the NIC loop asks of port `p` pass the device check, fit
a row of `rx_mempools` and the `uint8_t` queue counters. -/
structure QueuesFit (lim : Limits) (m : Machine) (numRxq numTxq p : Nat) : Prop where
  rxDev : numRxq ≤ m.maxRxQueues p
  txDev : numTxq ≤ m.maxTxQueues p
  rxStore : numRxq ≤ lim.maxQueuesPerPort
  rxU8 : numRxq < 256
  txU8 : numTxq < 256

/-- The pools of RX queue `q` of port `p` on `node`, in the order lines 386-414
create them. -/
def rxPools (node p q : Nat) : List PoolName :=
  [⟨.pktbuf, node, p, q⟩, ⟨.newbuf, node, p, q⟩, ⟨.reqbuf, node, p, q⟩]

/-! ## Lemmas -/

theorem u8_succ_toNat {i : UInt8} (h : i.toNat < 255) : (i + 1).toNat = i.toNat + 1 := by
  show (i.toNat + 1) % 256 = _; omega

section U8Loop
variable {σ : Type} {body : Nat → σ → Except Stop σ} {bound : Nat}

/-- **A bound below 256 is counted to, each index once**, when every index
keeps `inv`. -/
theorem u8Loop_eq_range (hb : bound < 256) (inv : Nat → σ → Prop)
    (hok : ∀ q < bound, ∀ s, inv q s → ∃ s', body q s = .ok s' ∧ inv (q + 1) s') :
    ∀ (fuel : Nat) (i : UInt8) (s : σ), i.toNat ≤ bound → bound - i.toNat < fuel → inv i.toNat s →
      ∃ s', u8Loop body bound fuel i s = .ok (List.range' i.toNat (bound - i.toNat), s') ∧
        inv bound s' := by
  intro fuel
  induction fuel with
  | zero => intro _ _ _ h; omega
  | succ fuel ih =>
    intro i s hi hf hs
    rw [u8Loop]
    by_cases h : i.toNat < bound
    · have hs1 := u8_succ_toNat (i := i) (by omega)
      obtain ⟨s1, hb1, hinv1⟩ := hok _ h s hs
      obtain ⟨s2, hl, hinv2⟩ := ih (i + 1) s1 (by omega) (by omega) (by rwa [hs1])
      refine ⟨s2, ?_, hinv2⟩
      rw [if_pos h, hb1, ok_bind, hl, ok_bind, hs1,
        show bound - i.toNat = (bound - (i.toNat + 1)) + 1 by omega, List.range'_succ]
      rfl
    · rw [if_neg h, show bound - i.toNat = 0 by omega, show bound = i.toNat by omega]
      exact ⟨s, rfl, hs⟩

/-- **A bound of 256 or more is never reached**: the `uint8_t` counter wraps. -/
theorem u8Loop_noFuel (hb : 256 ≤ bound) (hok : ∀ q < 256, ∀ s, ∃ s', body q s = .ok s') :
    ∀ (fuel : Nat) (i : UInt8) (s : σ), u8Loop body bound fuel i s = .error .noFuel := by
  intro fuel
  induction fuel with
  | zero => intro _ _; rfl
  | succ fuel ih =>
    intro i s
    have hi : i.toNat < 256 := i.toNat_lt_size
    obtain ⟨s', h⟩ := hok _ hi s
    rw [u8Loop, if_pos (by omega), h, ok_bind, ih, error_bind]

/-- **The first index whose body stops stops the loop**, when the bound is
above it and every index before it goes through keeping `inv`. -/
theorem u8Loop_error_at {k : Nat} {e : Stop} (inv : Nat → σ → Prop) (hk : k < bound) (hk8 : k < 256)
    (hok : ∀ q < k, ∀ s, inv q s → ∃ s', body q s = .ok s' ∧ inv (q + 1) s')
    (he : ∀ s, inv k s → body k s = .error e) :
    ∀ (fuel : Nat) (i : UInt8) (s : σ), i.toNat ≤ k → k - i.toNat < fuel → inv i.toNat s →
      u8Loop body bound fuel i s = .error e := by
  intro fuel
  induction fuel with
  | zero => intro _ _ _ h; omega
  | succ fuel ih =>
    intro i s hi hf hs
    rw [u8Loop, if_pos (by omega)]
    by_cases hik : i.toNat = k
    · rw [hik, he s (hik ▸ hs), error_bind]
    · have hs1 := u8_succ_toNat (i := i) (by omega)
      obtain ⟨s1, hb1, hinv1⟩ := hok _ (by omega) s hs
      rw [hb1, ok_bind, ih (i + 1) s1 (by omega) (by omega) (by rwa [hs1]), error_bind]

/-- **The 257th pass stops the loop** when the bound is 256 or more, each of
the first 256 passes keeps `inv`, and index `0` stops once all 256 are done:
`i` wraps round to `0`. -/
theorem u8Loop_wrap {e : Stop} (inv : Nat → σ → Prop) (hb : 256 ≤ bound)
    (hok : ∀ q < 256, ∀ s, inv q s → ∃ s', body q s = .ok s' ∧ inv (q + 1) s')
    (he : ∀ s, inv 256 s → body 0 s = .error e) (fuel : Nat) (s : σ) (hf : 256 < fuel)
    (hs : inv 0 s) : u8Loop body bound fuel 0 s = .error e := by
  have key : ∀ n, n ≤ 256 → ∀ (fuel : Nat) (i : UInt8) (s : σ), n < fuel →
      i.toNat = (256 - n) % 256 → inv (256 - n) s → u8Loop body bound fuel i s = .error e := by
    intro n
    induction n with
    | zero =>
      rintro - (_ | fuel) i s hf hi hs
      · omega
      · rw [u8Loop, if_pos (by omega), show i.toNat = 0 by simpa using hi, he s hs, error_bind]
    | succ n ih =>
      rintro hn (_ | fuel) i s hf hi hs
      · omega
      · have hi' : i.toNat = 255 - n := by omega
        obtain ⟨s1, hb1, hinv1⟩ := hok (255 - n) (by omega) s
          (by rwa [show 255 - n = 256 - (n + 1) by omega])
        have hs1 : (i + 1).toNat = (256 - n) % 256 := by
          show (i.toNat + 1) % 256 = _; rw [hi']; congr 1; omega
        rw [u8Loop, if_pos (by omega), hi', hb1, ok_bind,
          ih (by omega) fuel (i + 1) s1 (by omega) hs1 (by rwa [show 256 - n = 255 - n + 1 by omega]),
          error_bind]
  exact key 256 le_rfl fuel 0 s hf rfl hs

theorem u8Loop_error {e : Stop} :
    ∀ {fuel : Nat} {i : UInt8} {s : σ}, u8Loop body bound fuel i s = .error e →
      e = .noFuel ∨ ∃ q s', body q s' = .error e := by
  intro fuel
  induction fuel with
  | zero => intro _ _ h; cases h; exact .inl rfl
  | succ fuel ih =>
    intro i s h
    rw [u8Loop] at h
    split at h
    · rcases bind_eq_error.1 h with h | ⟨_, _, h⟩
      · exact .inr ⟨_, _, h⟩
      · rcases bind_eq_error.1 h with h | ⟨_, _, h⟩
        · exact ih h
        · cases h
    · cases h

theorem nodeSafe_u8Loop (fuel : Nat) (i : UInt8) (s : σ) (hb : ∀ q s, NodeSafe (body q s)) :
    NodeSafe (u8Loop body bound fuel i s) := by
  intro h e
  rcases u8Loop_error e with e' | ⟨q, s', hq⟩
  · cases e'
  · exact hb q s' h hq

end U8Loop

theorem mempoolAt_eq_ok {lim : Limits} {p q : Nat} :
    mempoolAt lim p q = .ok () ↔ p < lim.maxPorts ∧ q < lim.maxQueuesPerPort := by
  unfold mempoolAt; split_ifs <;> simp_all

/-- A device whose every call succeeds. -/
def EthDev.allOk : EthDev :=
  ⟨fun _ => true, fun _ _ => true, fun _ _ => true, fun _ _ => true, fun _ _ => true,
    fun _ _ => true, fun _ => true, fun _ => true, fun _ => true⟩

theorem EthDev.allOk_succeeds : EthDev.allOk.Succeeds :=
  ⟨fun _ => rfl, fun _ _ => rfl, fun _ _ => rfl, fun _ _ => rfl, fun _ _ => rfl, fun _ _ => rfl,
    fun _ => rfl, ⟨fun _ => rfl, fun _ => rfl⟩⟩

section Queues
variable {lim : Limits} {dev : EthDev}

theorem setupTxQueue_succeeds (hdev : dev.Succeeds) (p q : Nat) : setupTxQueue dev p q = .ok () := by
  simp [setupTxQueue, hdev.txQueueSetup]

/-- With every DPDK call succeeding and none of the queue's names taken, an
RX queue's setup is its stores into `rx_mempools`, and it adds its pools. -/
theorem setupRxQueue_fresh (hdev : dev.Succeeds) {node p q : Nat} {pools : List PoolName}
    (hf : ∀ x ∈ pools, x.port = p → x.ring ≠ q) :
    setupRxQueue lim dev node p q pools =
      (mempoolAt lim p q >>= fun _ => .ok (pools ++ rxPools node p q)) := by
  have hk : ∀ k, (⟨k, node, p, q⟩ : PoolName) ∉ pools := fun _ h => hf _ h rfl rfl
  cases hm : mempoolAt lim p q <;>
    simp [setupRxQueue, createPool, hdev.pktbufPoolCreate, hdev.rxQueueSetup,
      hdev.newbufPoolCreate, hdev.reqbufPoolCreate, hk, hm, rxPools]

/-- A pool name already taken stops the RX queue's setup at line 391. -/
theorem setupRxQueue_taken {node p q : Nat} {pools : List PoolName}
    (h : (⟨.pktbuf, node, p, q⟩ : PoolName) ∈ pools) :
    setupRxQueue lim dev node p q pools = .error (.exit "cannot allocate memory pool for rxq %u:%u@%u.\n") := by
  simp [setupRxQueue, createPool, h]

theorem txQueueLoop_range (hdev : dev.Succeeds) (p : Nat) {numTxq fuel : Nat} (hq : numTxq < 256)
    (hf : numTxq < fuel) : txQueueLoop dev p numTxq fuel = .ok (List.range numTxq) := by
  obtain ⟨_, h, -⟩ := u8Loop_eq_range hq (fun _ _ => True)
    (fun q _ _ _ => ⟨(), setupTxQueue_succeeds hdev p q, trivial⟩) fuel 0 () (by simp) (by simpa) trivial
  simp [txQueueLoop, h, List.range_eq_range']

/-- The pools after RX queues `0..q-1` of port `p`, on pools of other ports. -/
def RxPoolsAfter (pools : List PoolName) (node p q : Nat) (s : List PoolName) : Prop :=
  s = pools ++ (List.range q).flatMap (rxPools node p)

/-- The pools of the RX queues before `q` name none of queue `q`. -/
theorem RxPoolsAfter.fresh {node p q : Nat} {pools s : List PoolName}
    (hfresh : ∀ x ∈ pools, x.port ≠ p) (hs : RxPoolsAfter pools node p q s) :
    ∀ x ∈ s, x.port = p → x.ring ≠ q := by
  intro x hx hxp
  rw [hs, List.mem_append, List.mem_flatMap] at hx
  rcases hx with hx | ⟨r, hr, hx⟩
  · exact absurd hxp (hfresh x hx)
  · simp only [rxPools, List.mem_cons, List.mem_singleton, List.not_mem_nil, or_false] at hx
    rcases hx with rfl | rfl | rfl <;> simpa using (List.mem_range.1 hr).ne

/-- One RX queue, set up on the pools of the queues before it. -/
theorem setupRxQueue_after (hdev : dev.Succeeds) {node p q : Nat} {pools s : List PoolName}
    (hfresh : ∀ x ∈ pools, x.port ≠ p) (hs : RxPoolsAfter pools node p q s)
    (hm : mempoolAt lim p q = .ok ()) :
    ∃ s', setupRxQueue lim dev node p q s = .ok s' ∧ RxPoolsAfter pools node p (q + 1) s' :=
  ⟨_, by rw [setupRxQueue_fresh hdev (hs.fresh hfresh), hm, ok_bind],
    by rw [show s = _ from hs]; simp [RxPoolsAfter, List.range_succ, List.flatMap_append]⟩

theorem rxQueueLoop_range (hdev : dev.Succeeds) {node p numRxq fuel : Nat} {pools : List PoolName}
    (hp : p < lim.maxPorts) (hq : numRxq < 256) (hm : numRxq ≤ lim.maxQueuesPerPort)
    (hf : numRxq < fuel) (hfresh : ∀ x ∈ pools, x.port ≠ p) :
    rxQueueLoop lim dev node p numRxq fuel pools =
      .ok (List.range numRxq, pools ++ (List.range numRxq).flatMap (rxPools node p)) := by
  obtain ⟨s, h, hs⟩ := u8Loop_eq_range hq (RxPoolsAfter pools node p)
    (fun q hq' s hs => setupRxQueue_after hdev hfresh hs (mempoolAt_eq_ok.2 ⟨hp, by omega⟩))
    fuel 0 pools (by simp) (by simpa) (by simp [RxPoolsAfter])
  rw [rxQueueLoop, h, hs]
  simp [List.range_eq_range']

/-- **The `uint8_t` queue counters.**  From 256 TX queues the loop never ends;
past `NBA_MAX_QUEUES_PER_PORT` RX queues it writes past `rx_mempools[p]`; and
from 256 of both it exits at line 391 when `ring_idx` wraps to a taken name. -/
theorem queueLoops_u8_counter (hdev : dev.Succeeds) {p : Nat} (hp : p < lim.maxPorts) :
    (∀ numTxq fuel, 256 ≤ numTxq → txQueueLoop dev p numTxq fuel = .error .noFuel) ∧
    (∀ node numRxq fuel (pools : List PoolName), (∀ x ∈ pools, x.port ≠ p) →
      lim.maxQueuesPerPort < numRxq → lim.maxQueuesPerPort < 256 → lim.maxQueuesPerPort < fuel →
      rxQueueLoop lim dev node p numRxq fuel pools =
        .error (.undefined (.index .rxMempools lim.maxQueuesPerPort lim.maxQueuesPerPort))) ∧
    (∀ node numRxq fuel (pools : List PoolName), (∀ x ∈ pools, x.port ≠ p) →
      256 ≤ numRxq → 256 ≤ lim.maxQueuesPerPort → 256 < fuel →
      rxQueueLoop lim dev node p numRxq fuel pools =
        .error (.exit "cannot allocate memory pool for rxq %u:%u@%u.\n")) := by
  refine ⟨fun _ fuel hq => ?_, fun node _ fuel pools hfresh hq h8 hf => ?_,
    fun node _ fuel pools hfresh hq hm hf => ?_⟩
  · simp [txQueueLoop, u8Loop_noFuel hq (fun q _ _ => ⟨(), setupTxQueue_succeeds hdev p q⟩) fuel 0 ()]
  · exact u8Loop_error_at (RxPoolsAfter pools node p) hq h8
      (fun q hq' s hs => setupRxQueue_after hdev hfresh hs (mempoolAt_eq_ok.2 ⟨hp, hq'⟩))
      (fun s hs => by
        rw [setupRxQueue_fresh hdev (hs.fresh hfresh)]; simp [mempoolAt, hp, Except.bind])
      fuel 0 pools (by simp) (by simpa) (by simp [RxPoolsAfter])
  · exact u8Loop_wrap (RxPoolsAfter pools node p) hq
      (fun q hq' s hs => setupRxQueue_after hdev hfresh hs (mempoolAt_eq_ok.2 ⟨hp, by omega⟩))
      (fun s hs => setupRxQueue_taken (by rw [hs]; simp [rxPools]))
      fuel pools hf (by simp [RxPoolsAfter])

theorem queueLoops_u8_counter_allOk :
    0 < (⟨1, 1, 4⟩ : Limits).maxPorts ∧
      txQueueLoop EthDev.allOk 0 256 1000 = .error .noFuel ∧
      rxQueueLoop ⟨1, 1, 4⟩ EthDev.allOk 0 0 5 10 [] = .error (.undefined (.index .rxMempools 4 4)) :=
  let h := @queueLoops_u8_counter ⟨1, 1, 4⟩ EthDev.allOk EthDev.allOk_succeeds 0 (by decide)
  ⟨by decide, h.1 256 1000 (by decide), h.2.1 0 5 10 [] (by simp) (by decide) (by decide) (by decide)⟩

end Queues

/-- `rx_mempools` is not indexed by a node. -/
theorem mempoolAt_nodeSafe (lim : Limits) (p q : Nat) : NodeSafe (mempoolAt lim p q) := by
  unfold mempoolAt; split_ifs <;> simp [NodeSafe, Hazard.nodeAccess, CArr.nodeIndexed]

theorem setupRxQueue_nodeSafe (lim : Limits) (dev : EthDev) (node p q : Nat) (pools : List PoolName) :
    NodeSafe (setupRxQueue lim dev node p q pools) := by
  have hc : ∀ ok msg name (ps : List PoolName), NodeSafe (createPool ok msg name ps) := by
    intro ok msg name ps; unfold createPool; split_ifs <;> simp
  simp only [setupRxQueue, pure_eq_ok, ok_bind, throw_eq_error, error_bind]
  exact nodeSafe_bind (hc _ _ _ _) fun _ _ => nodeSafe_ite _ (nodeSafe_exit _) <|
    nodeSafe_bind (mempoolAt_nodeSafe _ _ _) fun _ _ => nodeSafe_bind (hc _ _ _ _) fun _ _ => hc _ _ _ _

/-- Registered ports of a `node_ports` entry (none while indeterminate). -/
def portCount : Option NodePorts → Nat
  | some e => e.numRxPorts
  | none => 0

/-- What the NIC loop keeps of `node_ports` after `done` ports: the first
`numNodes` entries are zeroed or written, and the counters sum to `done`. -/
structure PortsInv (lim : Limits) (numNodes done : Nat) (np : List (Option NodePorts)) :
    Prop where
  length : np.length = lim.maxNodes
  zeroed : ∀ n < numNodes, ∃ e, np[n]? = some (some e) ∧ e.rxPorts.length = lim.maxPorts
  sum : (np.map portCount).sum = done

theorem sum_set_succ : ∀ (L : List Nat) (i : Nat) (h : i < L.length),
    (L.set i (L[i] + 1)).sum = L.sum + 1
  | [], _, h => by simp at h
  | _ :: _, 0, _ => by simp; omega
  | a :: L, i + 1, h => by
    simp only [List.set_cons_succ, List.sum_cons, List.getElem_cons_succ]
    rw [sum_set_succ L i (by simpa using h)]; omega

theorem zeroNodePorts_inv (lim : Limits) {numNodes : Nat} (h : numNodes ≤ lim.maxNodes) :
    ∃ np, zeroNodePorts lim numNodes = .ok np ∧ PortsInv lim numNodes 0 np := by
  refine ⟨_, if_pos h, ⟨by simp; omega, fun n hn => ⟨NodePorts.zero lim, ?_, by simp [NodePorts.zero]⟩, ?_⟩⟩
  · rw [List.getElem?_append_left (by simpa using hn)]; simp [hn]
  · simp [List.sum_replicate, portCount, NodePorts.zero]

/-- Registering port `p` on a node whose entry has room appends it. -/
theorem registerPort_eq {np : List (Option NodePorts)} {node p : Nat} {e : NodePorts}
    (he : np[node]? = some (some e)) (hc : e.numRxPorts < e.rxPorts.length) :
    registerPort np node p =
      .ok (np.set node (some ⟨e.rxPorts.set e.numRxPorts p, e.numRxPorts + 1⟩)) := by
  have hnl : node < np.length := (List.getElem?_eq_some_iff.1 he).1
  simp [registerPort, Arr.read_eq_ok.2 he, Arr.set_of_lt _ _ hc, Arr.set_of_lt _ _ hnl]

/-- **Registering one more port keeps `node_ports` in range.** -/
theorem registerPort_inv {lim : Limits} {numNodes done node : Nat} {np : List (Option NodePorts)}
    (hi : PortsInv lim numNodes done np) (hn : node < numNodes) (hN : numNodes ≤ lim.maxNodes)
    (hd : done < lim.maxPorts) (p : Nat) :
    ∃ np', registerPort np node p = .ok np' ∧ PortsInv lim numNodes (done + 1) np' := by
  obtain ⟨e, he, hlen⟩ := hi.zeroed node hn
  have hnl : node < np.length := by rw [hi.length]; omega
  have hmem : e.numRxPorts ≤ done := by
    rw [← hi.sum]
    exact List.le_sum_of_mem (List.mem_map.2 ⟨some e, List.mem_iff_getElem?.2 ⟨_, he⟩, rfl⟩)
  have hc : np[node] = some e := by simpa [List.getElem?_eq_getElem hnl] using he
  refine ⟨_, registerPort_eq he (by omega), ?_⟩
  refine ⟨by simp [hi.length], fun n hn' => ?_, ?_⟩
  · by_cases hnn : n = node
    · subst hnn
      exact ⟨⟨e.rxPorts.set e.numRxPorts p, e.numRxPorts + 1⟩, by simp [List.getElem?_set_self hnl],
        by simp [hlen]⟩
    · rw [List.getElem?_set_ne (Ne.symm hnn)]; exact hi.zeroed n hn'
  · have hl : node < (np.map portCount).length := by simpa using hnl
    have h1 := sum_set_succ (np.map portCount) node hl
    simp only [List.getElem_map, hc, portCount] at h1
    rw [List.map_set, ← hi.sum, ← h1]
    rfl

theorem portsOn_succ (m : Machine) (k n : Nat) :
    portsOn m (k + 1) n = portsOn m k n ++ if portNode m k = n then [k] else [] := by
  by_cases h : portNode m k = n <;> simp [portsOn, List.range_succ, h]

theorem portsOn_length_le (m : Machine) (k n : Nat) : (portsOn m k n).length ≤ k :=
  (List.length_filter_le _ _).trans (by simp)

section After
variable {lim : Limits} {m : Machine} {k : Nat}

theorem zeroNodePorts_after (h : m.numNodes ≤ lim.maxNodes) :
    zeroNodePorts lim m.numNodes = .ok (nodePortsAfter lim m 0) := by
  simp [zeroNodePorts, h, nodePortsAfter, NodePorts.after, portsOn, NodePorts.zero, List.map_const']

theorem NodePorts.after_succ_self (hk : k < lim.maxPorts) :
    NodePorts.after lim m (k + 1) (portNode m k) =
      ⟨(NodePorts.after lim m k (portNode m k)).rxPorts.set (portsOn m k (portNode m k)).length k,
        (portsOn m k (portNode m k)).length + 1⟩ := by
  have hl := portsOn_length_le m k (portNode m k)
  obtain ⟨r, hr⟩ : ∃ r, lim.maxPorts - (portsOn m k (portNode m k)).length = r + 1 :=
    ⟨_, (Nat.succ_pred_eq_of_pos (by omega)).symm⟩
  simp [NodePorts.after, portsOn_succ, hr, List.replicate_succ]
  omega

theorem NodePorts.after_succ_ne {n : Nat} (h : portNode m k ≠ n) :
    NodePorts.after lim m (k + 1) n = NodePorts.after lim m k n := by
  simp [NodePorts.after, portsOn_succ, h]

/-- **Registering port `k` takes `node_ports` from its closed form after `k`
ports to its closed form after `k + 1`.** -/
theorem registerPort_after (hn : portNode m k < m.numNodes) (hk : k < lim.maxPorts) :
    registerPort (nodePortsAfter lim m k) (portNode m k) k = .ok (nodePortsAfter lim m (k + 1)) := by
  have hl := portsOn_length_le m k (portNode m k)
  rw [registerPort_eq (e := NodePorts.after lim m k (portNode m k))
    (by simp [nodePortsAfter, List.getElem?_append_left, hn]) (by simp [NodePorts.after]; omega),
    nodePortsAfter, nodePortsAfter, List.set_append_left _ _ (by simpa using hn)]
  congr 2
  refine List.ext_getElem (by simp) fun n _ _ => ?_
  simp only [List.getElem_set, List.getElem_map, List.getElem_range]
  split_ifs with hnn
  · subst hnn; rw [NodePorts.after_succ_self hk]; rfl
  · rw [NodePorts.after_succ_ne hnn]

end After

theorem setupTxQueue_nodeSafe (dev : EthDev) (p q : Nat) : NodeSafe (setupTxQueue dev p q) := by
  unfold setupTxQueue; split <;> simp

section PortLoop
variable {lim : Limits} {m : Machine} {dev : EthDev} {numPorts numRxq numTxq : Nat}

/-- The `node_ports` a port's setup returns is its registration's. -/
theorem setupPort_ok {fuel p : Nat} {np : List (Option NodePorts)} {pools : List PoolName} {r}
    (h : setupPort lim m dev numRxq numTxq fuel p np pools = .ok r) :
    registerPort np (portNode m p) p = .ok r.1 := by
  simp only [setupPort, pure_eq_ok, ok_bind, throw_eq_error, error_bind] at h
  split_ifs at h
  all_goals
    obtain ⟨np', hreg, h⟩ := bind_eq_ok.1 h
    obtain ⟨_, -, h⟩ := bind_eq_ok.1 h
    obtain ⟨_, -, h⟩ := bind_eq_ok.1 h
    cases h
  exact hreg

theorem setupPort_nodeSafe {fuel p : Nat} {np : List (Option NodePorts)} {pools : List PoolName}
    (hreg : NodeSafe (registerPort np (portNode m p) p)) :
    NodeSafe (setupPort lim m dev numRxq numTxq fuel p np pools) := by
  have htx : NodeSafe (txQueueLoop dev p numTxq fuel) :=
    nodeSafe_bind (nodeSafe_u8Loop fuel 0 () fun q _ => setupTxQueue_nodeSafe dev p q)
      fun _ _ => nodeSafe_ok _
  have hrx : NodeSafe (rxQueueLoop lim dev (portNode m p) p numRxq fuel pools) :=
    nodeSafe_u8Loop fuel 0 pools (setupRxQueue_nodeSafe lim dev (portNode m p) p)
  simp only [setupPort, pure_eq_ok, ok_bind, throw_eq_error, error_bind]
  exact nodeSafe_ite _ (nodeSafe_exit _) <| nodeSafe_ite _ (nodeSafe_exit _) <|
    nodeSafe_ite _ (nodeSafe_assertFail _) <| nodeSafe_bind hreg fun _ _ =>
    nodeSafe_bind htx fun _ _ => nodeSafe_bind hrx fun _ _ =>
    nodeSafe_ite _ (nodeSafe_assertFail _) (nodeSafe_ok _)

/-- **The NIC loop keeps every `node_ports` access in range** when each port's
socket is a node below `num_nodes ≤ NBA_MAX_NODES` and the port count fits the
`uint8_t` counter. -/
theorem portLoop_nodeSafe (hN : m.numNodes ≤ lim.maxNodes)
    (hs : ∀ p < numPorts, portNode m p < m.numNodes) (hP : numPorts ≤ lim.maxPorts)
    (h256 : numPorts < 256) :
    ∀ (fuel : Nat) (p : UInt8) (np : List (Option NodePorts)) (pools : List PoolName),
      p.toNat ≤ numPorts → PortsInv lim m.numNodes p.toNat np →
        NodeSafe (portLoop lim m dev numPorts numRxq numTxq fuel p np pools) := by
  intro fuel
  induction fuel with
  | zero => intro _ _ _ _ _; simp [portLoop]
  | succ fuel ih =>
    intro p np pools hp hi
    rw [portLoop]
    split
    · rename_i hlt
      obtain ⟨np', hreg, hinv⟩ := registerPort_inv hi (hs _ hlt) hN (by omega) p.toNat
      refine nodeSafe_bind (setupPort_nodeSafe (by rw [hreg]; exact nodeSafe_ok _))
        fun ⟨np1, pools1, _⟩ hr => nodeSafe_bind ?_ fun _ _ => nodeSafe_ok _
      have hnp : np' = np1 := by simpa [hreg] using setupPort_ok hr
      have hs1 := u8_succ_toNat (i := p) (by omega)
      exact ih (p + 1) np1 pools1 (by omega) (hs1 ▸ hnp ▸ hinv)
    · exact nodeSafe_ok _

/-- With every DPDK call succeeding, the queue counts fitting and no pool of
port `p` made before, a port's setup is its registration on its node and all
of its queues. -/
theorem setupPort_eq (hdev : dev.Succeeds) {fuel p : Nat} {np : List (Option NodePorts)}
    {pools : List PoolName} (hp : p < lim.maxPorts) (hq : QueuesFit lim m numRxq numTxq p)
    (hfr : numRxq < fuel) (hft : numTxq < fuel) (hfresh : ∀ x ∈ pools, x.port ≠ p) :
    setupPort lim m dev numRxq numTxq fuel p np pools =
      (registerPort np (portNode m p) p).bind fun np' =>
        .ok (np', pools ++ (List.range numRxq).flatMap (rxPools (portNode m p) p),
          portSetup m numRxq numTxq p) := by
  simp only [setupPort, pure_eq_ok, ok_bind, throw_eq_error, error_bind, if_neg (not_lt.2 hq.rxDev),
    if_neg (not_lt.2 hq.txDev), hdev.devConfigure, hdev.devStart, Bool.not_true, if_false,
    txQueueLoop_range hdev p hq.txU8 hft, rxQueueLoop_range hdev hp hq.rxU8 hq.rxStore hfr hfresh]
  cases registerPort np (portNode m p) p <;> rfl

/-- **The port loop from port `p` on**: it registers every remaining port on
its node and sets up all of its queues. -/
theorem portLoop_after (hdev : dev.Succeeds) (hs : ∀ p < numPorts, portNode m p < m.numNodes)
    (hP : numPorts ≤ lim.maxPorts) (h256 : numPorts < 256)
    (hq : ∀ p < numPorts, QueuesFit lim m numRxq numTxq p) :
    ∀ (fuel : Nat) (p : UInt8) (pools : List PoolName), p.toNat ≤ numPorts →
      numPorts - p.toNat + max numRxq numTxq < fuel → (∀ x ∈ pools, x.port < p.toNat) →
      portLoop lim m dev numPorts numRxq numTxq fuel p (nodePortsAfter lim m p.toNat) pools =
        .ok (nodePortsAfter lim m numPorts,
          (List.range' p.toNat (numPorts - p.toNat)).map (portSetup m numRxq numTxq)) := by
  intro fuel
  induction fuel with
  | zero => intro _ _ _ h; omega
  | succ fuel ih =>
    intro p pools hp hf hpools
    rw [portLoop]
    split
    · rename_i hlt
      have hs1 := u8_succ_toNat (i := p) (by omega)
      have hr : numPorts - p.toNat = (numPorts - (p.toNat + 1)) + 1 := by omega
      rw [setupPort_eq hdev (by omega) (hq _ hlt) (by omega) (by omega)
          fun x hx => (hpools x hx).ne, registerPort_after (hs _ hlt) (by omega)]
      simp only [Except.bind, ok_bind]
      rw [← hs1, ih (p + 1) _ (by omega) (by omega) fun x hx => ?_, hs1, hr, List.range'_succ]
      · rfl
      · rw [hs1]
        rcases List.mem_append.1 hx with hx | hx
        · exact Nat.lt_succ_of_lt (hpools x hx)
        · obtain ⟨r, -, hx⟩ := List.mem_flatMap.1 hx
          simp only [rxPools, List.mem_cons, List.mem_singleton, List.not_mem_nil, or_false] at hx
          rcases hx with rfl | rfl | rfl <;> exact Nat.lt_succ_self _
    · rw [show numPorts - p.toNat = 0 by omega, show p.toNat = numPorts by omega]
      rfl

/-- **What the NIC loop builds** when every call succeeds: each port once, in
order, on its node with all its queues, and `node_ports[n]` listing the ports
of node `n`. -/
theorem nicSetup_exact (hdev : dev.Succeeds) (hN : m.numNodes ≤ lim.maxNodes)
    (hs : ∀ p < numPorts, portNode m p < m.numNodes) (hP : numPorts ≤ lim.maxPorts)
    (h256 : numPorts < 256) (hq : ∀ p < numPorts, QueuesFit lim m numRxq m.numLcores p)
    {fuel : Nat} (hfuel : numPorts + max numRxq m.numLcores < fuel) :
    nicSetup lim m dev numPorts numRxq fuel =
      .ok (nodePortsAfter lim m numPorts, (List.range numPorts).map (portSetup m numRxq m.numLcores)) := by
  simpa [nicSetup, zeroNodePorts_after hN, List.range_eq_range'] using
    portLoop_after hdev hs hP h256 hq fuel 0 [] (by simp) (by simpa) (by simp)

theorem nicSetup_exact_twoPorts :
    nicSetup ⟨2, 2, 1⟩ ⟨2, 4, 2, id, id, fun _ => 16, fun _ => 16⟩ EthDev.allOk 2 1 7 =
      .ok (nodePortsAfter ⟨2, 2, 1⟩ ⟨2, 4, 2, id, id, fun _ => 16, fun _ => 16⟩ 2,
        (List.range 2).map (portSetup ⟨2, 4, 2, id, id, fun _ => 16, fun _ => 16⟩ 1 4)) :=
  nicSetup_exact EthDev.allOk_succeeds (by decide) (by decide) (by decide) (by decide)
    (fun _ _ => ⟨by simp, by simp, by decide, by decide, by decide⟩) (by decide)

/-- Port `i` on node `i`: each node lists its own port, then a zero. -/
example : nodePortsAfter ⟨2, 2, 1⟩ ⟨2, 4, 2, id, id, fun _ => 16, fun _ => 16⟩ 2 =
    [some ⟨[0, 0], 1⟩, some ⟨[1, 0], 1⟩] := rfl

theorem nicSetup_nodeSafe (hN : m.numNodes ≤ lim.maxNodes)
    (hs : ∀ p < numPorts, portNode m p < m.numNodes) (hP : numPorts ≤ lim.maxPorts)
    (h256 : numPorts < 256) (fuel : Nat) :
    NodeSafe (nicSetup lim m dev numPorts numRxq fuel) := by
  obtain ⟨np, hz, hi⟩ := zeroNodePorts_inv lim hN
  simp only [nicSetup, hz, ok_bind]
  exact portLoop_nodeSafe hN hs hP h256 fuel 0 np [] (by simp) hi

end PortLoop

end Nba
