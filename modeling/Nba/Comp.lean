import Nba.Coproc

/-!
# Creating the computation contexts

Lines 605-723 of `main`.  A computation thread on node `n` takes `nls[n]`,
creating it if null; with coprocessor threads it takes the context in
`queue_privs[taskinq_idx]` as its coprocessor and draws
`COPROC_CTX_PER_COMPTHREAD` compute contexts from its device; it writes
itself to `queue_privs[swrxq_idx]`.  `createCompCtxs_spec` gives what the
loop leaves (`CompInv`).
-/

namespace Nba

/-- The fields of `comp_thread_context` that `main` sets and later reads. -/
structure CompCtx where
  coreId : Nat
  localThreadIdx : Nat
  nodeId : Nat
  /-- `node_local_storage`: which `NodeLocalStorage`, by creation order -/
  nls : Option Nat
  /-- `coproc_ctx` -/
  coproc : Option Nat
  /-- `offload_devices`, each by the coprocessor context that owns it -/
  offloadDevices : List Nat
  /-- `offload_input_queues[0]` -/
  offloadInputQueue : Option Nat
  taskCompletionQueue : Option Nat
  rxQueue : Nat
  /-- `io_ctx`, set when the I/O threads are wired -/
  io : Option Nat
  deriving DecidableEq, Repr

/-- What the creation loop has built so far. -/
structure CompBoot where
  /-- `nls[NBA_MAX_NODES]`, null entries `none` -/
  nls : List (Option Nat)
  /-- storages created so far -/
  numNls : Nat
  perNodeCounts : List Nat
  ctxs : List CompCtx
  queuePrivs : Nat → Option Priv
  /-- the compute contexts each coprocessor's device has handed out -/
  devCtxsTaken : Nat → Nat

/-- `ComputeContext::state` (not in src/). -/
inductive CtxState where
  | ready | preparing | running | finished
  deriving DecidableEq, Repr

/-! ## Algorithm -/

/-- `device->get_available_context()` (`ComputeDevice`, not in src/): a context the
device has not handed out, `READY`, or `nullptr` once all are out. -/
def getAvailableContext (numContexts taken : Nat) : Option CtxState :=
  if taken < numContexts then some .ready else none

/-- Lines 698-704: `k_max` contexts taken from a device that has handed out
`taken` of its `numContexts`. -/
def takeContexts (numContexts kMax taken : Nat) : Except Stop Nat :=
  forEach (fun _ taken => match getAvailableContext numContexts taken with
    | none => throw (.assertFail "cctx != nullptr")
    | some st => if st = .ready then pure (taken + 1)
      else throw (.assertFail "cctx->state == ComputeContext::READY"))
    (List.range kMax) taken

/-- The contexts of coprocessor `k`'s device: the coprocessor thread (not in
src/) makes them for `num_comp_threads_per_node` threads, `ctxPer` each. -/
def devContexts (ctxPer : Nat) (coprocs : List CoprocCtx) (k : Nat) : Nat :=
  (coprocs[k]?.map CoprocCtx.numCompThreadsPerNode).getD 0 * ctxPer

/-- Lines 665-713: the coprocessor context taken from `queue_privs[taskinq_idx]`,
with the assertion of line 674 on its task-input watcher, and the contexts
drawn from its device. -/
def pairCoproc (numCoprocThreads ctxPer : Nat) (coprocs : List CoprocCtx)
    (privs : Nat → Option Priv) (taken : Nat → Nat) (t : CompThreadConf) :
    Except Stop (Option Nat × (Nat → Nat)) :=
  if numCoprocThreads > 0 then
    match privs t.taskinqIdx with
    | none => pure (none, taken)
    | some (.comp _) => throw (.undefined (.mistyped t.taskinqIdx))
    | some (.coproc k) =>
      if (coprocs[k]?.map CoprocCtx.taskinqIdx) = some t.taskinqIdx then do
        let n ← takeContexts (devContexts ctxPer coprocs k) ctxPer (taken k)
        pure (some k, Function.update taken k n)
      else throw (.assertFail "coproc_ctx->task_input_watcher == device->input_watcher")
  else pure (none, taken)

/-- Lines 625-721, one computation thread. -/
def createCompCtx (m : Machine) (numCoprocThreads ctxPer : Nat) (coprocs : List CoprocCtx)
    (t : CompThreadConf) (s : CompBoot) : Except Stop CompBoot := do
  let node := m.nodeOfCpu t.coreId
  let (nlsArr, numNls) ← match ← Arr.get .nls s.nls node with
    | some _ => pure (s.nls, s.numNls)
    | none => do pure (← Arr.set .nls s.nls node (some s.numNls), s.numNls + 1)
  let (idx, counts) ← Arr.postInc .perNodeCounts s.perNodeCounts node
  let storage ← Arr.get .nls nlsArr node
  let (coproc, taken) ← pairCoproc numCoprocThreads ctxPer coprocs s.queuePrivs s.devCtxsTaken t
  let ctx : CompCtx :=
    { coreId := t.coreId, localThreadIdx := idx, nodeId := node, nls := storage, coproc
      offloadDevices := coproc.toList
      offloadInputQueue := coproc.map fun _ => t.taskinqIdx
      taskCompletionQueue := coproc.map fun _ => t.taskoutqIdx
      rxQueue := t.swrxqIdx, io := none }
  pure { nls := nlsArr, numNls, perNodeCounts := counts, ctxs := s.ctxs ++ [ctx]
         queuePrivs := Function.update s.queuePrivs t.swrxqIdx (some (.comp s.ctxs.length))
         devCtxsTaken := taken }

/-- Lines 612-723, after the coprocessor threads `co` are spawned. -/
def createCompCtxs (lim : Limits) (m : Machine) (c : SysConf) (co : CoprocBoot) :
    Except Stop CompBoot :=
  forEach (createCompCtx m c.coprocThreadConfs.length c.coprocCtxPerCompthread co.ctxs)
    c.compThreadConfs
    ⟨List.replicate lim.maxNodes none, 0, List.replicate lim.maxNodes 0, [], co.queuePrivs, fun _ => 0⟩

/-! ## Lemmas -/

/-- The coprocessor a computation thread is paired with: the last coprocessor
thread spawned with its task-input queue. -/
def pairedCoproc (c : SysConf) (t : CompThreadConf) : Option Nat :=
  lastIdx (fun u => u.taskinqIdx == t.taskinqIdx) c.coprocThreadConfs

/-- The contexts each device has handed out once a thread paired with `k?`
took its `ctxPer`. -/
def drawCtxs (ctxPer : Nat) (k? : Option Nat) (taken : Nat → Nat) : Nat → Nat :=
  match k? with
  | some k => Function.update taken k (taken k + ctxPer)
  | none => taken

/-- The computation threads of `done` paired with coprocessor `k`. -/
def pairedCount (c : SysConf) (done : List CompThreadConf) (k : Nat) : Nat :=
  (done.filter fun t => pairedCoproc c t == some k).length

theorem pairedCount_append (c : SysConf) (l₁ l₂ : List CompThreadConf) (k : Nat) :
    pairedCount c (l₁ ++ l₂) k = pairedCount c l₁ k + pairedCount c l₂ k := by
  simp [pairedCount, List.filter_append]

theorem pairedCount_singleton (c : SysConf) (t : CompThreadConf) (k : Nat) :
    pairedCount c [t] k = if pairedCoproc c t = some k then 1 else 0 := by
  by_cases h : pairedCoproc c t = some k <;> simp [pairedCount, List.filter_cons, h]

/-- A device hands out `k_max` contexts while it has them. -/
theorem takeContexts_eq (numContexts kMax taken : Nat) :
    takeContexts numContexts kMax taken =
      if kMax = 0 ∨ taken + kMax ≤ numContexts then .ok (taken + kMax)
      else .error (.assertFail "cctx != nullptr") := by
  induction kMax with
  | zero => simp [takeContexts]
  | succ k ih =>
    rw [takeContexts, List.range_succ, forEach_append, ← takeContexts, ih]
    by_cases h : taken + k < numContexts
    · rw [if_pos (.inr h.le), if_pos (.inr (by omega))]
      simp [getAvailableContext, h, Nat.add_assoc]
    · rw [if_neg (by omega : ¬(k + 1 = 0 ∨ taken + (k + 1) ≤ numContexts))]
      split_ifs
      · simp [getAvailableContext, h]
      · rfl

/-- `nls[]` and the storage count once a context on `node` took its storage:
`nls[node]`, created first if null. -/
def nlsAfter (arr : List (Option Nat)) (count node : Nat) : List (Option Nat) × Nat :=
  match arr[node]? with
  | some (some _) => (arr, count)
  | _ => (arr.set node (some count), count + 1)

/-- `nls[]` after contexts on the nodes `ns` took their storage: null exactly
off `ns`, and no storage on two nodes. -/
structure NlsInv (lim : Limits) (ns : List Nat) (arr : List (Option Nat)) (count : Nat) :
    Prop where
  length : arr.length = lim.maxNodes
  null : ∀ n < lim.maxNodes, arr[n]? = some none ↔ n ∉ ns
  inj : ∀ (n n' x : Nat), arr[n]? = some (some x) → arr[n']? = some (some x) → n = n'
  fresh : ∀ (n x : Nat), arr[n]? = some (some x) → x < count

/-- **Lines 628-630 keep `NlsInv`**: node `node` has a storage afterwards, and
every entry that was not null is unchanged. -/
theorem nlsAfter_spec {lim : Limits} {ns : List Nat} {arr : List (Option Nat)} {count node : Nat}
    (h : NlsInv lim ns arr count) (hn : node < lim.maxNodes) :
    NlsInv lim (ns ++ [node]) (nlsAfter arr count node).1 (nlsAfter arr count node).2 ∧
      (∃ v, (nlsAfter arr count node).1[node]? = some (some v)) ∧
      ∀ n : Nat, arr[n]? ≠ some none → (nlsAfter arr count node).1[n]? = arr[n]? := by
  have hl : node < arr.length := by rw [h.length]; exact hn
  cases hv : arr[node]? with
  | none => simp [List.getElem?_eq_none_iff] at hv; omega
  | some v =>
    cases v with
    | some x =>
      rw [show nlsAfter arr count node = (arr, count) by simp [nlsAfter, hv]]
      refine ⟨⟨h.length, fun n hn' => ?_, h.inj, h.fresh⟩, ⟨x, hv⟩, fun _ _ => rfl⟩
      rw [h.null n hn']
      by_cases e : n = node
      · subst e; simp [hv, (h.null n hn').not.1 (by simp [hv])]
      · simp [e]
    | none =>
      rw [show nlsAfter arr count node = (arr.set node (some count), count + 1) by
        simp [nlsAfter, hv]]
      have hnot : node ∉ ns := (h.null node hn).1 hv
      refine ⟨⟨by simp [h.length], fun n hn' => ?_, fun n n' x h1 h2 => ?_, fun n x h1 => ?_⟩,
        ⟨count, List.getElem?_set_self hl⟩, fun n hne => ?_⟩
      · by_cases e : node = n
        · subst e; simp [List.getElem?_set_self hl]
        · rw [List.getElem?_set_ne e, h.null n hn']; simp [Ne.symm e]
      · by_cases e1 : node = n <;> by_cases e2 : node = n'
        · exact e1 ▸ e2
        · subst e1; rw [List.getElem?_set_self hl] at h1; rw [List.getElem?_set_ne e2] at h2
          cases h1; exact absurd (h.fresh _ _ h2) (lt_irrefl _)
        · subst e2; rw [List.getElem?_set_self hl] at h2; rw [List.getElem?_set_ne e1] at h1
          cases h2; exact absurd (h.fresh _ _ h1) (lt_irrefl _)
        · rw [List.getElem?_set_ne e1] at h1; rw [List.getElem?_set_ne e2] at h2
          exact h.inj n n' x h1 h2
      · by_cases e : node = n
        · subst e; rw [List.getElem?_set_self hl] at h1; cases h1; omega
        · rw [List.getElem?_set_ne e] at h1; have := h.fresh n x h1; omega
      · by_cases e : node = n
        · subst e; exact absurd hv hne
        · exact List.getElem?_set_ne e

/-- What the creation loop keeps after the threads `done`. -/
structure CompInv (lim : Limits) (m : Machine) (c : SysConf) (co : CoprocBoot)
    (done : List CompThreadConf) (s : CompBoot) : Prop where
  nodes : s.ctxs.map CompCtx.nodeId = done.map fun t => m.nodeOfCpu t.coreId
  coprocs : s.ctxs.map CompCtx.coproc = done.map (pairedCoproc c)
  rxQueues : s.ctxs.map CompCtx.rxQueue = done.map CompThreadConf.swrxqIdx
  nls : NlsInv lim (done.map fun t => m.nodeOfCpu t.coreId) s.nls s.numNls
  ctx_nls : ∀ x ∈ s.ctxs, ∃ v, s.nls[x.nodeId]? = some (some v) ∧ x.nls = some v
  ctx_thread : ∀ x ∈ s.ctxs, ∃ t ∈ done, x.nodeId = m.nodeOfCpu t.coreId ∧
    x.coproc = pairedCoproc c t ∧ x.offloadDevices = x.coproc.toList ∧
    x.offloadInputQueue = x.coproc.map fun _ => t.taskinqIdx
  counts_length : s.perNodeCounts.length = lim.maxNodes
  privs : ∀ q, s.queuePrivs q =
    ((lastIdx (fun t => t.swrxqIdx == q) done).map .comp).or (co.queuePrivs q)
  counts : ∀ n < lim.maxNodes, s.perNodeCounts[n]? = some (countOn (fun t => m.nodeOfCpu t.coreId) done n)
  /-- the threads of node `n` are numbered `0, 1, ...` in configuration order -/
  locals : ∀ n, (s.ctxs.filter fun x => x.nodeId == n).map CompCtx.localThreadIdx =
    List.range (countOn (fun t => m.nodeOfCpu t.coreId) done n)
  taken : ∀ k, s.devCtxsTaken k = c.coprocCtxPerCompthread * pairedCount c done k

section Create
variable {lim : Limits} {m : Machine} {c : SysConf} {co : CoprocBoot}

/-- `pairCoproc` takes `pairedCoproc` and draws its contexts, or stops on a
computation context in the task-input queue or a device out of contexts. -/
theorem pairCoproc_spec (hco : CoprocInv lim m c.coprocThreadConfs co) (taken : Nat → Nat)
    {privs : Nat → Option Priv} {done : List CompThreadConf} {t : CompThreadConf}
    (hp : privs t.taskinqIdx =
      ((lastIdx (fun u => u.swrxqIdx == t.taskinqIdx) done).map .comp).or
        (co.queuePrivs t.taskinqIdx)) :
    (∀ r, pairCoproc c.coprocThreadConfs.length c.coprocCtxPerCompthread co.ctxs privs taken t =
        .ok r → r = (pairedCoproc c t, drawCtxs c.coprocCtxPerCompthread (pairedCoproc c t) taken)) ∧
    (∀ e, pairCoproc c.coprocThreadConfs.length c.coprocCtxPerCompthread co.ctxs privs taken t =
        .error e → e = .undefined (.mistyped t.taskinqIdx) ∨ e = .assertFail "cctx != nullptr") ∧
    ((c.coprocThreadConfs.length = 0 ∨ ∀ u ∈ done, u.swrxqIdx ≠ t.taskinqIdx) →
      (∀ k, pairedCoproc c t = some k →
        taken k + c.coprocCtxPerCompthread ≤ devContexts c.coprocCtxPerCompthread co.ctxs k) →
      pairCoproc c.coprocThreadConfs.length c.coprocCtxPerCompthread co.ctxs privs taken t =
        .ok (pairedCoproc c t, drawCtxs c.coprocCtxPerCompthread (pairedCoproc c t) taken)) := by
  have hk : ∀ k, co.queuePrivs t.taskinqIdx = some (.coproc k) →
      co.ctxs[k]?.map CoprocCtx.taskinqIdx = some t.taskinqIdx := by
    intro k hk
    rw [hco.privs] at hk
    obtain ⟨i, hi, he⟩ := Option.map_eq_some'.1 hk
    cases he
    obtain ⟨hlt, hpk⟩ := lastIdx_eq_some hi
    rw [← List.getElem?_map, hco.taskinqs, List.getElem?_map, List.getElem?_eq_getElem hlt]
    simpa using hpk
  have hpaired : co.queuePrivs t.taskinqIdx = (pairedCoproc c t).map .coproc := by
    rw [hco.privs]; rfl
  unfold pairCoproc
  by_cases h0 : c.coprocThreadConfs.length > 0
  · rw [if_pos h0, hp]
    cases hl : lastIdx (fun u => u.swrxqIdx == t.taskinqIdx) done with
    | some j =>
      obtain ⟨hj, hsw⟩ := lastIdx_eq_some hl
      refine ⟨by simp, by simp, fun hg _ => ?_⟩
      rcases hg with hg | hg
      · omega
      · exact absurd (by simpa using hsw) (hg _ (List.getElem_mem hj))
    | none =>
      simp only [Option.map_none', Option.none_or, hpaired]
      cases hc : pairedCoproc c t with
      | none => simp [drawCtxs]
      | some k =>
        simp only [Option.map_some', hk k (by rw [hpaired, hc]; rfl), if_true, takeContexts_eq]
        split_ifs with hcap
        · simp [drawCtxs]
        · exact ⟨by simp, by simp, fun _ h => absurd (.inr (h k rfl)) hcap⟩
  · have : c.coprocThreadConfs = [] := List.eq_nil_of_length_eq_zero (by omega)
    simp [if_neg h0, pairedCoproc, this, lastIdx, drawCtxs]

/-- `createCompCtx` once the storage is settled: what is left is the pairing. -/
theorem createCompCtx_eq {N ctxPer : Nat} {coprocs : List CoprocCtx} {t : CompThreadConf}
    {s : CompBoot} (hn : m.nodeOfCpu t.coreId < s.nls.length)
    (hc : m.nodeOfCpu t.coreId < s.perNodeCounts.length) :
    createCompCtx m N ctxPer coprocs t s =
      pairCoproc N ctxPer coprocs s.queuePrivs s.devCtxsTaken t >>= fun r =>
      .ok { nls := (nlsAfter s.nls s.numNls (m.nodeOfCpu t.coreId)).1
            numNls := (nlsAfter s.nls s.numNls (m.nodeOfCpu t.coreId)).2
            perNodeCounts := s.perNodeCounts.set (m.nodeOfCpu t.coreId)
              (s.perNodeCounts[m.nodeOfCpu t.coreId] + 1)
            ctxs := s.ctxs ++ [{ coreId := t.coreId
                                 localThreadIdx := s.perNodeCounts[m.nodeOfCpu t.coreId]
                                 nodeId := m.nodeOfCpu t.coreId
                                 nls := (nlsAfter s.nls s.numNls (m.nodeOfCpu t.coreId)).1[m.nodeOfCpu t.coreId]?.join
                                 coproc := r.1, offloadDevices := r.1.toList
                                 offloadInputQueue := r.1.map fun _ => t.taskinqIdx
                                 taskCompletionQueue := r.1.map fun _ => t.taskoutqIdx
                                 rxQueue := t.swrxqIdx, io := none }]
            queuePrivs := Function.update s.queuePrivs t.swrxqIdx (some (.comp s.ctxs.length))
            devCtxsTaken := r.2 } := by
  have hv := List.getElem?_eq_getElem hn
  simp only [createCompCtx, nlsAfter, Arr.get_of_lt _ hn, ok_bind]
  cases h : s.nls[m.nodeOfCpu t.coreId] with
  | some v =>
    simp only [hv, h, Arr.postInc_of_lt _ hc, ok_bind, Arr.get_of_lt _ hn, pure_eq_ok]
    rfl
  | none =>
    simp only [hv, h, pure_eq_ok, Arr.set_of_lt _ _ hn, ok_bind, Arr.postInc_of_lt _ hc,
      Arr.get_of_lt _ (show m.nodeOfCpu t.coreId < (s.nls.set _ _).length by simpa using hn),
      List.getElem_set_self, List.getElem?_set_self hn, Option.join]
    rfl

/-- The contexts handed out after one more thread: its coprocessor's `ctxPer`. -/
theorem drawCtxs_pairedCount {ctxPer : Nat} {done : List CompThreadConf} {t : CompThreadConf}
    {taken : Nat → Nat} (h : ∀ k, taken k = ctxPer * pairedCount c done k) (k : Nat) :
    drawCtxs ctxPer (pairedCoproc c t) taken k = ctxPer * pairedCount c (done ++ [t]) k := by
  rw [pairedCount_append, pairedCount_singleton, Nat.mul_add]
  cases hk0 : pairedCoproc c t with
  | none => simp [drawCtxs, h]
  | some k0 =>
    by_cases e : k = k0
    · subst e; simp [drawCtxs, h]
    · simp [drawCtxs, Function.update_noteq e, Ne.symm e, h]

/-- **One computation thread keeps `CompInv`**; it stops only on a computation
context in its task-input queue or on a device out of contexts, and goes
through when neither happens. -/
theorem createCompCtx_spec (hco : CoprocInv lim m c.coprocThreadConfs co)
    {done : List CompThreadConf} {t : CompThreadConf} {s : CompBoot}
    (hn : m.nodeOfCpu t.coreId < lim.maxNodes) (hi : CompInv lim m c co done s) :
    (∀ e, createCompCtx m c.coprocThreadConfs.length c.coprocCtxPerCompthread co.ctxs t s = .error e →
      e = .undefined (.mistyped t.taskinqIdx) ∨ e = .assertFail "cctx != nullptr") ∧
    (∀ s', createCompCtx m c.coprocThreadConfs.length c.coprocCtxPerCompthread co.ctxs t s = .ok s' →
      CompInv lim m c co (done ++ [t]) s') ∧
    ((c.coprocThreadConfs.length = 0 ∨ ∀ u ∈ done, u.swrxqIdx ≠ t.taskinqIdx) →
      (∀ k, pairedCoproc c t = some k → c.coprocCtxPerCompthread * (pairedCount c done k + 1) ≤
        devContexts c.coprocCtxPerCompthread co.ctxs k) →
      ∃ s', createCompCtx m c.coprocThreadConfs.length c.coprocCtxPerCompthread co.ctxs t s =
        .ok s') := by
  obtain ⟨hok, herr, hgood⟩ := pairCoproc_spec hco s.devCtxsTaken (hi.privs t.taskinqIdx)
  have hlen : s.ctxs.length = done.length := by simpa using congrArg List.length hi.nodes
  have hcl : m.nodeOfCpu t.coreId < s.perNodeCounts.length := by rw [hi.counts_length]; exact hn
  have hcnt : s.perNodeCounts[m.nodeOfCpu t.coreId] =
      countOn (fun t => m.nodeOfCpu t.coreId) done (m.nodeOfCpu t.coreId) := by
    simpa [List.getElem?_eq_getElem hcl] using hi.counts _ hn
  rw [createCompCtx_eq (by rw [hi.nls.length]; exact hn) hcl]
  refine ⟨fun e he => ?_, fun s' hs' => ?_, fun hg hcap => ?_⟩
  · rcases bind_eq_error.1 he with he | ⟨_, _, he⟩
    · exact herr e he
    · cases he
  · obtain ⟨r, hc, hs'⟩ := bind_eq_ok.1 hs'
    cases hs'
    cases hok _ hc
    obtain ⟨hnls, ⟨v, hv⟩, hkeep⟩ := nlsAfter_spec hi.nls hn
    refine ⟨by simp [hi.nodes], by simp [hi.coprocs], by simp [hi.rxQueues], by simpa using hnls,
      fun x hx => ?_, fun x hx => ?_, by simp [hi.counts_length], fun q => ?_, fun n hn' => ?_,
      fun n => ?_, drawCtxs_pairedCount hi.taken⟩
    · rcases List.mem_append.1 hx with hx | hx
      · obtain ⟨w, hw, hxw⟩ := hi.ctx_nls x hx
        exact ⟨w, by rw [hkeep _ (by rw [hw]; simp), hw], hxw⟩
      · simp only [List.mem_singleton] at hx
        subst hx
        exact ⟨v, hv, by simp [hv]⟩
    · rcases List.mem_append.1 hx with hx | hx
      · obtain ⟨u, hu, h⟩ := hi.ctx_thread x hx
        exact ⟨u, List.mem_append_left _ hu, h⟩
      · simp only [List.mem_singleton] at hx
        subst hx
        exact ⟨t, by simp, rfl, rfl, rfl, rfl⟩
    · rw [lastIdx_append_singleton]
      by_cases h : t.swrxqIdx = q
      · subst h; simp [hlen]
      · simp [h, Function.update_noteq (Ne.symm h), hi.privs q]
    · by_cases e : m.nodeOfCpu t.coreId = n
      · subst e; simp [List.getElem?_set_self hcl, hcnt]
      · simp [List.getElem?_set_ne e, hi.counts n hn', e]
    · rw [countOn_append_singleton]
      exact numbering_append CompCtx.nodeId CompCtx.localThreadIdx (hi.locals n)
        fun e => e ▸ hcnt
  · exact ⟨_, by rw [hgood hg fun k hk => by rw [hi.taken, ← Nat.mul_succ]; exact hcap k hk]; rfl⟩

theorem compInv_init (co : CoprocBoot) :
    CompInv lim m c co [] ⟨List.replicate lim.maxNodes none, 0, List.replicate lim.maxNodes 0, [],
      co.queuePrivs, fun _ => 0⟩ :=
  ⟨rfl, rfl, rfl, ⟨by simp, fun n hn => by simp [hn],
    fun n _ x h _ => by simp [List.getElem?_replicate] at h,
    fun n x h => by simp [List.getElem?_replicate] at h⟩, by simp, by simp, by simp,
    fun q => by simp [lastIdx], fun n hn => by simp [hn], fun n => by simp,
    fun k => by simp [pairedCount]⟩

/-- With coprocessor threads, no computation thread's task-input queue is an
earlier computation thread's RX queue. -/
def TaskinqClear (c : SysConf) : Prop :=
  c.coprocThreadConfs.length = 0 ∨
    c.compThreadConfs.Pairwise fun u t => u.swrxqIdx ≠ t.taskinqIdx

/-- **What the creation loop leaves**, when every computation thread sits on a
node below `NBA_MAX_NODES`, no task-input queue is taken by an RX queue, and
every device has contexts for the threads paired with it. -/
theorem createCompCtxs_spec (hco : CoprocInv lim m c.coprocThreadConfs co)
    (hn : ∀ t ∈ c.compThreadConfs, m.nodeOfCpu t.coreId < lim.maxNodes) (hw : TaskinqClear c)
    (hcap : ∀ k, c.coprocCtxPerCompthread * pairedCount c c.compThreadConfs k ≤
      devContexts c.coprocCtxPerCompthread co.ctxs k) :
    ∃ s, createCompCtxs lim m c co = .ok s ∧ CompInv lim m c co c.compThreadConfs s := by
  obtain ⟨s, h, hi⟩ := forEach_inv (CompInv lim m c co)
    (fun done t => m.nodeOfCpu t.coreId < lim.maxNodes ∧
      (c.coprocThreadConfs.length = 0 ∨ ∀ u ∈ done, u.swrxqIdx ≠ t.taskinqIdx) ∧
      ∀ k, pairedCoproc c t = some k → c.coprocCtxPerCompthread * (pairedCount c done k + 1) ≤
        devContexts c.coprocCtxPerCompthread co.ctxs k)
    (fun _ _ _ hg hi => (createCompCtx_spec hco hg.1 hi).2.2 hg.2.1 hg.2.2 |>.imp fun _ h =>
      ⟨h, (createCompCtx_spec hco hg.1 hi).2.1 _ h⟩)
    c.compThreadConfs [] _ (fun l₁ t l₂ e => ⟨hn t (mem_of_eq_append_cons e), hw.imp id fun hp => by
      rw [e, List.pairwise_append] at hp
      simpa using fun u hu => hp.2.2 u hu t (List.mem_cons_self _ _), fun k hk => by
      have := hcap k
      rw [e, ← List.singleton_append, pairedCount_append, pairedCount_append, pairedCount_singleton,
        if_pos hk] at this
      exact le_trans (Nat.mul_le_mul_left _ (by simp)) this⟩) (compInv_init co)
  exact ⟨s, h, by simpa using hi⟩

/-- A creation step that got through had its node below `NBA_MAX_NODES`. -/
theorem createCompCtx_ok_lt {N ctxPer : Nat} {coprocs : List CoprocCtx} {t : CompThreadConf}
    {s s' : CompBoot} (h : createCompCtx m N ctxPer coprocs t s = .ok s') :
    m.nodeOfCpu t.coreId < s.nls.length := by
  by_contra hn
  simp [createCompCtx, Arr.get_of_le _ (not_lt.1 hn)] at h

/-- **What a creation loop that got through leaves.** -/
theorem createCompCtxs_ok_inv (hco : CoprocInv lim m c.coprocThreadConfs co) {cp : CompBoot}
    (h : createCompCtxs lim m c co = .ok cp) : CompInv lim m c co c.compThreadConfs cp := by
  simpa using forEach_ok_inv (CompInv lim m c co) (fun _ _ _ s' hi hs =>
    (createCompCtx_spec hco (hi.nls.length ▸ createCompCtx_ok_lt hs) hi).2.1 s' hs)
    c.compThreadConfs [] _ cp (compInv_init co) h

/-- The creation loop makes no out-of-range node access. -/
theorem createCompCtxs_nodeSafe (hco : CoprocInv lim m c.coprocThreadConfs co)
    (hn : ∀ t ∈ c.compThreadConfs, m.nodeOfCpu t.coreId < lim.maxNodes) :
    NodeSafe (createCompCtxs lim m c co) :=
  forEach_nodeSafe (CompInv lim m c co) (fun _ t => m.nodeOfCpu t.coreId < lim.maxNodes)
    (fun _ _ _ hg hi => ⟨fun h e => by
      rcases (createCompCtx_spec hco hg hi).1 _ e with h' | h' <;> cases h'; rfl,
      (createCompCtx_spec hco hg hi).2.1⟩)
    c.compThreadConfs [] _ (fun _ _ _ e => hn _ (mem_of_eq_append_cons e)) (compInv_init co)

/-- **Threads numbered per node.**  The contexts of each kind are in
configuration order, on the nodes of their cores, and numbered `0, 1, ...`
on each node. -/
theorem threads_numbered_per_node (hco : spawnCoprocs lim m c = .ok co) {cp : CompBoot}
    (hcp : createCompCtxs lim m c co = .ok cp) :
    co.ctxs.map CoprocCtx.nodeId = c.coprocThreadConfs.map (fun t => coprocNode m t.coreId) ∧
    cp.ctxs.map CompCtx.nodeId = c.compThreadConfs.map (fun t => m.nodeOfCpu t.coreId) ∧
    ∀ n, (co.ctxs.filter fun x => x.nodeId == n).map CoprocCtx.localThreadIdx =
        List.range (countOn (fun t => coprocNode m t.coreId) c.coprocThreadConfs n) ∧
      (cp.ctxs.filter fun x => x.nodeId == n).map CompCtx.localThreadIdx =
        List.range (countOn (fun t => m.nodeOfCpu t.coreId) c.compThreadConfs n) :=
  have hci := spawnCoprocs_ok_inv hco
  have hi := createCompCtxs_ok_inv hci hcp
  ⟨hci.nodes, hi.nodes, fun n => ⟨hci.locals n, hi.locals n⟩⟩

end Create

/-- Two computation threads on node `0` (cores `0` and `2`) and one on node `1`. -/
def threeComps : SysConf :=
  ⟨List.replicate 3 ⟨0, .swrxq⟩, ⟨64, 64⟩, [], [⟨0, 0, 0, 0⟩, ⟨1, 1, 0, 0⟩, ⟨2, 2, 0, 0⟩], [], 1, 1,
    by decide, by decide, by decide⟩

theorem threads_numbered_per_node_threeComps :
    ∃ co cp, spawnCoprocs ⟨2, 1, 1⟩ ⟨2, 4, 1, fun k => k % 2, fun _ => 0, fun _ => 16, fun _ => 16⟩
        threeComps = .ok co ∧
      createCompCtxs ⟨2, 1, 1⟩ ⟨2, 4, 1, fun k => k % 2, fun _ => 0, fun _ => 16, fun _ => 16⟩
        threeComps co = .ok cp ∧
      (cp.ctxs.filter fun x => x.nodeId == 0).map CompCtx.localThreadIdx = [0, 1] := by
  obtain ⟨co, hco⟩ : ∃ co, spawnCoprocs ⟨2, 1, 1⟩
      ⟨2, 4, 1, fun k => k % 2, fun _ => 0, fun _ => 16, fun _ => 16⟩ threeComps = .ok co :=
    ⟨_, rfl⟩
  obtain ⟨cp, hcp⟩ : ∃ cp, createCompCtxs ⟨2, 1, 1⟩
      ⟨2, 4, 1, fun k => k % 2, fun _ => 0, fun _ => 16, fun _ => 16⟩ threeComps co = .ok cp := by
    cases Except.ok.inj (hco.symm.trans rfl); exact ⟨_, rfl⟩
  exact ⟨co, cp, hco, hcp, ((threads_numbered_per_node hco hcp).2.2 0).2⟩

end Nba
