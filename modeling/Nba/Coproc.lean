import Nba.Config

/-!
# Spawning the coprocessor threads

Lines 522-602 of `main`: each coprocessor context goes to the slot of its
node in `coprocessor_threads` and to `queue_privs[taskinq_idx]`, so a slot
holds the last context spawned on its node (`spawnCoprocs_spec`).
-/

namespace Nba

/-- The fields of `coproc_thread_context` that `main` sets and later reads;
the device (`ctx->device`) is the context's own. -/
structure CoprocCtx where
  nodeId : Nat
  localThreadIdx : Nat
  coreId : Nat
  taskinqIdx : Nat
  deviceId : Nat
  numCompThreadsPerNode : Nat
  deriving DecidableEq, Repr

/-- What a `queue_privs` entry points to: the `k`-th coprocessor or the `j`-th
computation context. -/
inductive Priv where
  | coproc (k : Nat)
  | comp (j : Nat)
  deriving DecidableEq, Repr

/-- What the spawn loop has built so far. -/
structure CoprocBoot where
  /-- `coprocessor_threads[n].coproc_ctx` for the `num_nodes` slots -/
  coprocessorThreads : List (Option Nat)
  /-- `per_node_counts[NBA_MAX_NODES]` -/
  perNodeCounts : List Nat
  ctxs : List CoprocCtx
  queuePrivs : Nat → Option Priv

/-- `node_id` of a coprocessor thread on `core` (lines 534-536). -/
def coprocNode (m : Machine) (core : Nat) : Nat :=
  if m.isNumaDisabled then 0 else m.nodeOfCpu core

/-- `num_comp_threads_per_node` of a coprocessor on node `n` (lines 555-560). -/
def compThreadsOn (m : Machine) (c : SysConf) (n : Nat) : Nat :=
  (c.compThreadConfs.filter fun u => m.nodeOfCpu u.coreId == n).length

/-! ## Algorithm -/

/-- Lines 533-600, one coprocessor thread. -/
def spawnCoproc (m : Machine) (c : SysConf) (t : CoprocThreadConf) (s : CoprocBoot) :
    Except Stop CoprocBoot := do
  let node := coprocNode m t.coreId
  let (idx, counts) ← Arr.postInc .perNodeCounts s.perNodeCounts node
  let k := s.ctxs.length
  let slots ← Arr.set .coprocessorThreads s.coprocessorThreads node (some k)
  pure { coprocessorThreads := slots
         perNodeCounts := counts
         ctxs := s.ctxs ++ [⟨node, idx, t.coreId, t.taskinqIdx, t.deviceId, compThreadsOn m c node⟩]
         queuePrivs := Function.update s.queuePrivs t.taskinqIdx (some (.coproc k)) }

/-- Lines 524-602, from the `queue_privs` the queue setup zeroed. -/
def spawnCoprocs (lim : Limits) (m : Machine) (c : SysConf) : Except Stop CoprocBoot :=
  forEach (spawnCoproc m c) c.coprocThreadConfs
    ⟨List.replicate m.numNodes none, List.replicate lim.maxNodes 0, [], fun _ => none⟩

/-! ## Lemmas -/

/-- The slot of node `n` after the coprocessor threads `done`. -/
def slotOf (m : Machine) (done : List CoprocThreadConf) (n : Nat) : Option Nat :=
  lastIdx (fun t => coprocNode m t.coreId == n) done

/-- What the spawn loop keeps after the threads `done`. -/
structure CoprocInv (lim : Limits) (m : Machine) (done : List CoprocThreadConf)
    (s : CoprocBoot) : Prop where
  nodes : s.ctxs.map CoprocCtx.nodeId = done.map fun t => coprocNode m t.coreId
  taskinqs : s.ctxs.map CoprocCtx.taskinqIdx = done.map CoprocThreadConf.taskinqIdx
  slots_length : s.coprocessorThreads.length = m.numNodes
  slots : ∀ n < m.numNodes, s.coprocessorThreads[n]? = some (slotOf m done n)
  counts_length : s.perNodeCounts.length = lim.maxNodes
  privs : ∀ q, s.queuePrivs q = (lastIdx (fun t => t.taskinqIdx == q) done).map .coproc
  counts : ∀ n < lim.maxNodes, s.perNodeCounts[n]? = some (countOn (fun t => coprocNode m t.coreId) done n)
  /-- the threads of node `n` are numbered `0, 1, ...` in spawn order -/
  locals : ∀ n, (s.ctxs.filter fun x => x.nodeId == n).map CoprocCtx.localThreadIdx =
    List.range (countOn (fun t => coprocNode m t.coreId) done n)

section Spawn
variable {lim : Limits} {m : Machine} {c : SysConf}

theorem coprocInv_init :
    CoprocInv lim m [] ⟨List.replicate m.numNodes none, List.replicate lim.maxNodes 0, [], fun _ => none⟩ :=
  ⟨rfl, rfl, by simp, fun n hn => by simp [hn, slotOf, lastIdx], by simp, fun _ => rfl,
    fun n hn => by simp [hn], fun n => by simp⟩

/-- **One spawn keeps `CoprocInv`** when the thread's node is below `num_nodes`
and `NBA_MAX_NODES`. -/
theorem spawnCoproc_inv {done : List CoprocThreadConf} {t : CoprocThreadConf} {s : CoprocBoot}
    (hn : coprocNode m t.coreId < m.numNodes) (hN : coprocNode m t.coreId < lim.maxNodes)
    (hi : CoprocInv lim m done s) :
    ∃ s', spawnCoproc m c t s = .ok s' ∧ CoprocInv lim m (done ++ [t]) s' := by
  have hlen : s.ctxs.length = done.length := by simpa using congrArg List.length hi.nodes
  have hc : coprocNode m t.coreId < s.perNodeCounts.length := by rw [hi.counts_length]; omega
  have hcnt : s.perNodeCounts[coprocNode m t.coreId] =
      countOn (fun t => coprocNode m t.coreId) done (coprocNode m t.coreId) := by
    simpa [List.getElem?_eq_getElem hc] using hi.counts _ hN
  refine ⟨_, by
    simp only [spawnCoproc, Arr.postInc_of_lt _ hc, ok_bind,
      Arr.set_of_lt _ _ (show coprocNode m t.coreId < s.coprocessorThreads.length
      by rw [hi.slots_length]; omega), pure_eq_ok]; rfl, ?_⟩
  refine ⟨by simp [hi.nodes], by simp [hi.taskinqs], by simp [hi.slots_length], fun n hn' => ?_,
    by simp [hi.counts_length], fun q => ?_, fun n hn' => ?_, fun n => ?_⟩
  · rw [slotOf, lastIdx_append_singleton, List.getElem?_set]
    by_cases h : coprocNode m t.coreId = n
    · subst h; simp [hi.slots_length, hn, hlen]
    · simp [h, hi.slots n hn', slotOf]
  · rw [lastIdx_append_singleton]
    by_cases h : t.taskinqIdx = q
    · subst h; simp [hlen]
    · simp [h, Function.update_noteq (Ne.symm h), hi.privs q]
  · by_cases e : coprocNode m t.coreId = n
    · subst e; simp [List.getElem?_set_self hc, hcnt]
    · simp [List.getElem?_set_ne e, hi.counts n hn', e]
  · rw [countOn_append_singleton]
    exact numbering_append CoprocCtx.nodeId CoprocCtx.localThreadIdx (hi.locals n)
      fun e => e ▸ hcnt

/-- **What the spawn loop leaves**, when every coprocessor thread sits on a
node below `num_nodes ≤ NBA_MAX_NODES`. -/
theorem spawnCoprocs_spec (hn : ∀ t ∈ c.coprocThreadConfs, coprocNode m t.coreId < m.numNodes)
    (hN : m.numNodes ≤ lim.maxNodes) :
    ∃ s, spawnCoprocs lim m c = .ok s ∧ CoprocInv lim m c.coprocThreadConfs s := by
  obtain ⟨s, h, hi⟩ := forEach_inv (CoprocInv lim m)
    (fun _ t => coprocNode m t.coreId < m.numNodes)
    (fun _ _ _ ht hi => spawnCoproc_inv ht (ht.trans_le hN) hi) c.coprocThreadConfs [] _
    (fun _ _ _ e => hn _ (mem_of_eq_append_cons e)) coprocInv_init
  exact ⟨s, h, by simpa using hi⟩

/-- A spawn that got through had its node below both array sizes. -/
theorem spawnCoproc_ok_lt {t : CoprocThreadConf} {s s' : CoprocBoot}
    (h : spawnCoproc m c t s = .ok s') :
    coprocNode m t.coreId < s.perNodeCounts.length ∧
      coprocNode m t.coreId < s.coprocessorThreads.length := by
  unfold spawnCoproc at h
  by_cases h1 : coprocNode m t.coreId < s.perNodeCounts.length
  · by_cases h2 : coprocNode m t.coreId < s.coprocessorThreads.length
    · exact ⟨h1, h2⟩
    · simp [Arr.postInc_of_lt _ h1, Arr.set_of_le _ _ (not_lt.1 h2)] at h
  · simp [Arr.postInc_of_le _ (not_lt.1 h1)] at h

/-- **What a spawn loop that got through leaves.** -/
theorem spawnCoprocs_ok_inv {co : CoprocBoot} (h : spawnCoprocs lim m c = .ok co) :
    CoprocInv lim m c.coprocThreadConfs co := by
  simpa using forEach_ok_inv (CoprocInv lim m) (fun done t s s' hi hs => by
    obtain ⟨h1, h2⟩ := spawnCoproc_ok_lt hs
    obtain ⟨s'', hs'', hi''⟩ := spawnCoproc_inv (c := c) (by rwa [← hi.slots_length])
      (by rwa [← hi.counts_length]) hi
    exact (Except.ok.inj (hs''.symm.trans hs)) ▸ hi'') c.coprocThreadConfs [] _ co coprocInv_init h

/-- Each coprocessor context counts the computation threads of its node. -/
theorem spawnCoprocs_numComp {co : CoprocBoot} (h : spawnCoprocs lim m c = .ok co) :
    ∀ x ∈ co.ctxs, x.numCompThreadsPerNode = compThreadsOn m c x.nodeId := by
  simpa using forEach_ok_inv
    (fun _ (s : CoprocBoot) => ∀ x ∈ s.ctxs, x.numCompThreadsPerNode = compThreadsOn m c x.nodeId)
    (fun done t s s' hi hs x hx => by
      simp only [spawnCoproc, pure_eq_ok] at hs
      obtain ⟨_, -, hs⟩ := bind_eq_ok.1 hs
      obtain ⟨_, -, hs⟩ := bind_eq_ok.1 hs
      cases hs
      rcases List.mem_append.1 hx with hx | hx
      · exact hi x hx
      · simp only [List.mem_singleton] at hx; subst hx; rfl)
    c.coprocThreadConfs [] _ co (by simp) h

end Spawn

end Nba
