import Nba.Phases

/-!
# Coprocessor barriers, pairing and termination

Lines 755-788 of `main` and `handle_signal` (lines 961-986) reach a
coprocessor only through the slot of its node, so they reach every
coprocessor once when the coprocessors sit on different nodes
(`coprocs_reached_once`).  A computation context finds its coprocessor
through `queue_privs[taskinq_idx]` (line 666), whatever its node
(`coproc_matches_slot`).
-/

namespace Nba

/-- What `handle_signal` notifies: coprocessor context `k`, or I/O thread `i`. -/
inductive Notified where
  | coproc (k : Nat)
  | io (i : Nat)
  deriving DecidableEq, Repr

/-- The coprocessor a notification goes to. -/
def Notified.coprocOf : Notified → Option Nat
  | .coproc k => some k
  | .io _ => none

/-! ## Algorithm -/

/-- Lines 967-972, slot `i` of `coprocessor_threads`. -/
def notifyCoproc (slots : List (Option Nat)) (i : Nat) (sent : List Notified) :
    Except Stop (List Notified) := do
  match ← Arr.get .coprocessorThreads slots i with
  | some k => pure (sent ++ [.coproc k])
  | none => pure sent

/-- Lines 961-986: on the main thread, notify the coprocessor in every slot,
then every I/O thread. -/
def handleSignal (onMainThread : Bool) (numNodes numIoThreads : Nat)
    (slots : List (Option Nat)) : Except Stop (List Notified) :=
  if onMainThread then do
    let sent ← forEach (notifyCoproc slots) (List.range numNodes) []
    pure (sent ++ (List.range numIoThreads).map .io)
  else pure []

/-! ## Lemmas -/

theorem forEach_notifyCoproc {slots : List (Option Nat)} :
    ∀ (ns : List Nat) (sent : List Notified), (∀ i ∈ ns, i < slots.length) →
      forEach (notifyCoproc slots) ns sent =
        .ok (sent ++ (ns.filterMap fun i => slots[i]?.join).map .coproc)
  | [], _, _ => by simp
  | i :: ns, sent, h => by
    have ih := fun s => forEach_notifyCoproc ns s fun j hj => h j (List.mem_cons_of_mem _ hj)
    have hi := h i (List.mem_cons_self _ _)
    rw [forEach_cons, notifyCoproc, Arr.get_of_lt _ hi, ok_bind]
    cases hs : slots[i] <;> simp [ih, List.getElem?_eq_getElem hi, hs]

/-- On the main thread `handle_signal` notifies the coprocessors in the slots,
in node order, and then the I/O threads. -/
theorem handleSignal_eq {numNodes : Nat} (numIoThreads : Nat) {slots : List (Option Nat)}
    (h : slots.length = numNodes) :
    handleSignal true numNodes numIoThreads slots =
      .ok (((List.range numNodes).filterMap fun i => slots[i]?.join).map .coproc ++
        (List.range numIoThreads).map .io) := by
  rw [handleSignal, if_pos rfl, forEach_notifyCoproc _ _ fun i hi => h ▸ List.mem_range.1 hi]
  rfl

section Slots
variable {lim : Limits} {m : Machine} {cs : List CoprocThreadConf} {co : CoprocBoot}

/-- With the coprocessor threads on pairwise different nodes, a slot holds the
coprocessor of its node. -/
theorem slot_join_eq_some (hco : CoprocInv lim m cs co)
    (hdist : (cs.map fun u => coprocNode m u.coreId).Nodup)
    (hlt : ∀ u ∈ cs, coprocNode m u.coreId < m.numNodes) (n k : Nat) :
    co.coprocessorThreads[n]?.join = some k ↔ ∃ h : k < cs.length, coprocNode m cs[k].coreId = n := by
  by_cases hn : n < m.numNodes
  · rw [Option.join_eq_some, hco.slots n hn, Option.some.injEq, slotOf]
    exact lastIdx_eq_some_iff hdist
  · rw [List.getElem?_eq_none (by rw [hco.slots_length]; omega)]
    simp only [Option.join_eq_some, reduceCtorEq, false_iff, not_exists]
    exact fun hk e => hn (e ▸ hlt _ (List.getElem_mem hk))

theorem slotVal_of_lt (hco : CoprocInv lim m cs co)
    (hdist : (cs.map fun u => coprocNode m u.coreId).Nodup)
    (hlt : ∀ u ∈ cs, coprocNode m u.coreId < m.numNodes) {k : Nat} (hk : k < cs.length) :
    slotVal co.coprocessorThreads (coprocNode m cs[k].coreId) = k := by
  unfold slotVal
  rw [(slot_join_eq_some hco hdist hlt _ k).2 ⟨hk, rfl⟩]
  rfl

/-- The coprocessors in the slots of the nodes `ns`, listed without repeats,
are every coprocessor once, when `ns` are the coprocessors' nodes. -/
theorem map_slotVal_perm (hco : CoprocInv lim m cs co)
    (hdist : (cs.map fun u => coprocNode m u.coreId).Nodup)
    (hlt : ∀ u ∈ cs, coprocNode m u.coreId < m.numNodes) {ns : List Nat} (hns : ns.Nodup)
    (hmem : ∀ n, n ∈ ns ↔ ∃ u ∈ cs, coprocNode m u.coreId = n) :
    (ns.map (slotVal co.coprocessorThreads)).Perm (List.range cs.length) := by
  have key : ∀ n ∈ ns, ∃ h : slotVal co.coprocessorThreads n < cs.length,
      coprocNode m cs[slotVal co.coprocessorThreads n].coreId = n := fun n hn => by
    obtain ⟨u, hu, rfl⟩ := (hmem n).1 hn
    obtain ⟨k, hk, rfl⟩ := List.getElem_of_mem hu
    simpa [slotVal_of_lt hco hdist hlt hk] using hk
  refine (List.perm_ext_iff_of_nodup (hns.map_on fun x hx y hy e => ?_) (List.nodup_range _)).2
    fun k => ?_
  · obtain ⟨_, ex⟩ := key x hx
    obtain ⟨_, ey⟩ := key y hy
    simp only [e] at ex
    exact ex.symm.trans ey
  · simp only [List.mem_map, List.mem_range]
    refine ⟨?_, fun hk => ⟨_, (hmem _).2 ⟨_, List.getElem_mem hk, rfl⟩,
      slotVal_of_lt hco hdist hlt hk⟩⟩
    rintro ⟨n, hn, rfl⟩
    exact (key n hn).1

/-- The coprocessors in the slots, in node order, are every coprocessor once. -/
theorem slots_filterMap_perm (hco : CoprocInv lim m cs co)
    (hdist : (cs.map fun u => coprocNode m u.coreId).Nodup)
    (hlt : ∀ u ∈ cs, coprocNode m u.coreId < m.numNodes) :
    ((List.range m.numNodes).filterMap fun i => co.coprocessorThreads[i]?.join).Perm
      (List.range cs.length) := by
  have key := slot_join_eq_some hco hdist hlt
  refine (List.perm_ext_iff_of_nodup ((List.nodup_range _).filterMap fun a a' k ha ha' => ?_)
    (List.nodup_range _)).2 fun k => ?_
  · obtain ⟨_, rfl⟩ := (key a k).1 ha
    obtain ⟨_, rfl⟩ := (key a' k).1 ha'
    rfl
  · simp only [List.mem_filterMap, List.mem_range, key]
    exact ⟨fun ⟨_, _, hk, _⟩ => hk, fun hk => ⟨_, hlt _ (List.getElem_mem hk), hk, rfl⟩⟩

end Slots

/-- `main`'s offloadable-init and loop-start calls are on the coprocessors in the
slots of the nodes of `existing_nodes`. -/
theorem phaseCalls_offloadable_mem {N : Nat} {slots : List (Option Nat)} {ctxs : List CompCtx}
    {order : List Nat} (h0 : N > 0) {n : Nat} (hn : n ∈ order) :
    InitCall.offloadable (slotVal slots n) (firstOn ctxs n) ∈ phaseCalls N slots ctxs order := by
  simp only [phaseCalls, if_pos h0, List.mem_append, List.mem_map]
  exact .inl (.inl (.inr ⟨n, hn, rfl⟩))

/-- **Every coprocessor reached once** when the coprocessors sit on different
nodes, each with a computation thread: both barriers of each are proceeded
once, and `handle_signal` notifies each once. -/
theorem coprocs_reached_once (lim : Limits) (m : Machine) (c : SysConf) (so : SetOrder)
    (hne : c.compThreadConfs ≠ [])
    (hcomp : ∀ t ∈ c.compThreadConfs, m.nodeOfCpu t.coreId < m.numNodes)
    (hN : m.numNodes ≤ lim.maxNodes)
    (hcop : ∀ t ∈ c.coprocThreadConfs, coprocNode m t.coreId < m.numNodes)
    (hcov : CoprocCovers m c) (hw : TaskinqClear c) (hctx : CtxsSuffice m c)
    (hdist : (c.coprocThreadConfs.map fun u => coprocNode m u.coreId).Nodup)
    (hhost : ∀ u ∈ c.coprocThreadConfs, ∃ t ∈ c.compThreadConfs,
      m.nodeOfCpu t.coreId = coprocNode m u.coreId) :
    ∃ co cp calls, spawnAndInit lim m c so = .ok (co, cp, calls) ∧
      (calls.filterMap InitCall.offloadableOf).Perm (List.range c.coprocThreadConfs.length) ∧
      (calls.filterMap InitCall.loopStartOf).Perm (List.range c.coprocThreadConfs.length) ∧
      ∀ numIoThreads, ∃ sent,
        handleSignal true m.numNodes numIoThreads co.coprocessorThreads = .ok sent ∧
        (sent.filterMap Notified.coprocOf).Perm (List.range c.coprocThreadConfs.length) := by
  obtain ⟨co, cp, hco, hi, -, h⟩ := spawnAndInit_eq so hne hcomp hN hcop hcov hw hctx
  have hall : c.coprocThreadConfs.length > 0 →
      ((so.enum (cp.ctxs.map CompCtx.nodeId)).map (slotVal co.coprocessorThreads)).Perm
        (List.range c.coprocThreadConfs.length) := fun h0 =>
    map_slotVal_perm hco hdist hcop ((so.perm _).nodup_iff.2 (List.nodup_dedup _)) fun n => by
      rw [(so.perm _).mem_iff, List.mem_dedup, hi.nodes, List.mem_map]
      constructor
      · rintro ⟨t, ht, rfl⟩
        exact hcov (List.ne_nil_of_length_pos h0) t ht
      · rintro ⟨u, hu, rfl⟩
        exact hhost u hu
  refine ⟨co, cp, _, h, ?_, ?_, fun nio => ⟨_, handleSignal_eq nio hco.slots_length, ?_⟩⟩
  · rw [phaseCalls_offloadables]
    split_ifs with h0
    exacts [hall h0, by simp [Nat.eq_zero_of_not_pos h0]]
  · rw [phaseCalls_loopStarts]
    split_ifs with h0
    exacts [hall h0, by simp [Nat.eq_zero_of_not_pos h0]]
  · simpa [List.filterMap_append, List.filterMap_map, Notified.coprocOf, Function.comp_def]
      using slots_filterMap_perm hco hdist hcop

theorem coprocs_reached_once_covered :
    ∃ co cp calls, spawnAndInit ⟨2, 1, 1⟩ twoNodes coveredConf SetOrder.dedup = .ok (co, cp, calls) ∧
      (calls.filterMap InitCall.offloadableOf).Perm (List.range 2) :=
  let ⟨co, cp, calls, h, ho, _⟩ := coprocs_reached_once ⟨2, 1, 1⟩ twoNodes coveredConf
    SetOrder.dedup (by decide) (by decide) (by decide) (by decide)
    (by unfold CoprocCovers; decide) (by unfold TaskinqClear; decide) (by decide) (by decide)
    (by decide)
  ⟨co, cp, calls, h, ho⟩

/-- Two coprocessor threads on node 0: the first is left out of the slot, and
neither of its barriers is proceeded nor is it notified.  A computation thread
on node 1, which hosts no coprocessor: line 766 dereferences a null
`coproc_ctx`. -/
theorem coprocs_reached_once_fails :
    (∃ co cp calls,
      spawnAndInit ⟨2, 1, 1⟩ twoNodes
        ⟨rxQueues 3, ⟨64, 64⟩, [], [⟨0, 0, 1, 2⟩], [⟨0, 0, 1⟩, ⟨0, 0, 2⟩], 1, 1,
          by decide, by decide, by decide⟩ SetOrder.dedup = .ok (co, cp, calls) ∧
      calls.filterMap InitCall.offloadableOf = [1] ∧ calls.filterMap InitCall.loopStartOf = [1] ∧
      handleSignal true 2 0 co.coprocessorThreads = .ok [.coproc 1]) ∧
    spawnAndInit ⟨2, 1, 1⟩ twoNodes
        ⟨rxQueues 2, ⟨64, 64⟩, [], [⟨1, 0, 0, 1⟩], [⟨0, 0, 1⟩], 1, 1, by decide, by decide, by decide⟩
        SetOrder.dedup = .error (.undefined (.null "coprocessor_threads[node_id].coproc_ctx")) :=
  ⟨⟨_, _, _, rfl, rfl, rfl, rfl⟩, rfl⟩

/-- **Pairing agrees with the slots** when each computation thread's
task-input queue is served on its own node: a context paired with `k` offloads
to `k`'s device, `k` sits in its node's slot, and `k` ran the offloadable init
for a context sharing its storage. -/
theorem coproc_matches_slot (lim : Limits) (m : Machine) (c : SysConf) (so : SetOrder)
    (hne : c.compThreadConfs ≠ [])
    (hcomp : ∀ t ∈ c.compThreadConfs, m.nodeOfCpu t.coreId < m.numNodes)
    (hN : m.numNodes ≤ lim.maxNodes)
    (hcop : ∀ t ∈ c.coprocThreadConfs, coprocNode m t.coreId < m.numNodes)
    (hcov : CoprocCovers m c) (hw : TaskinqClear c)
    (hdist : (c.coprocThreadConfs.map fun u => coprocNode m u.coreId).Nodup)
    (hlocal : ∀ t ∈ c.compThreadConfs, ∀ u ∈ c.coprocThreadConfs,
      u.taskinqIdx = t.taskinqIdx → coprocNode m u.coreId = m.nodeOfCpu t.coreId) :
    ∃ co cp calls, spawnAndInit lim m c so = .ok (co, cp, calls) ∧
      ∀ x ∈ cp.ctxs, ∀ k, x.coproc = some k →
        (∃ q, x.offloadInputQueue = some q ∧ co.queuePrivs q = some (.coproc k) ∧
          co.ctxs[k]?.map CoprocCtx.taskinqIdx = some q) ∧
        x.offloadDevices = [k] ∧
        co.coprocessorThreads[x.nodeId]? = some (some k) ∧
        ∃ j y, InitCall.offloadable k j ∈ calls ∧ cp.ctxs[j]? = some y ∧ y.nls = x.nls := by
  obtain ⟨co, cp, hco, hi, hnodes, h⟩ :=
    spawnAndInit_eq so hne hcomp hN hcop hcov hw (ctxsSuffice_of_local hlocal)
  refine ⟨co, cp, _, h, fun x hx k hk => ?_⟩
  obtain ⟨t, ht, hnode, hpair, hdev, hq⟩ := hi.ctx_thread x hx
  rw [hk] at hpair
  obtain ⟨hlen, hp⟩ := lastIdx_eq_some hpair.symm
  have htq : c.coprocThreadConfs[k].taskinqIdx = t.taskinqIdx := by simpa using hp
  have hslot : co.coprocessorThreads[x.nodeId]? = some (some k) := by
    rw [← Option.join_eq_some, slot_join_eq_some hco hdist hcop, hnode]
    exact ⟨hlen, hlocal t ht _ (List.getElem_mem hlen) htq⟩
  obtain ⟨sid, -, hxs, hfs⟩ := hi.firstOn_nls hx
  obtain ⟨y, hy, hys⟩ := Option.bind_eq_some.1 hfs
  refine ⟨⟨t.taskinqIdx, by simp [hq, hk], by
    rw [hco.privs]; show (pairedCoproc c t).map Priv.coproc = _; rw [← hpair]; rfl, ?_⟩, by simp [hdev, hk],
    hslot, _, y, ?_, hy, hys.trans hxs.symm⟩
  · rw [← List.getElem?_map, hco.taskinqs, List.getElem?_map, List.getElem?_eq_getElem hlen]
    exact congrArg some htq
  · have hval : slotVal co.coprocessorThreads x.nodeId = k := by simp [slotVal, hslot]
    rw [← hval]
    exact phaseCalls_offloadable_mem (by omega)
      ((so.perm _).mem_iff.2 (List.mem_dedup.2 (List.mem_map_of_mem _ hx)))

theorem coproc_matches_slot_covered :
    ∃ co cp calls, spawnAndInit ⟨2, 1, 1⟩ twoNodes coveredConf SetOrder.dedup = .ok (co, cp, calls) ∧
      ∀ x ∈ cp.ctxs, ∀ k, x.coproc = some k → co.coprocessorThreads[x.nodeId]? = some (some k) :=
  let ⟨co, cp, calls, h, hx⟩ := coproc_matches_slot ⟨2, 1, 1⟩ twoNodes coveredConf
    SetOrder.dedup (by decide) (by decide) (by decide) (by decide)
    (by unfold CoprocCovers; decide) (by unfold TaskinqClear; decide) (by decide) (by decide)
  ⟨co, cp, calls, h, fun x hm k hk => (hx x hm k hk).2.2.1⟩

/-- Each node's thread sending to the other node's coprocessor gets through,
yet offloads elsewhere than its node's slot; an RX queue that is a later
thread's task-input queue makes line 666 read a computation context. -/
theorem coproc_matches_slot_fails :
    (∃ co cp calls,
      spawnAndInit ⟨2, 1, 1⟩ twoNodes
        ⟨rxQueues 6, ⟨64, 64⟩, [], [⟨0, 0, 3, 4⟩, ⟨1, 1, 2, 5⟩], [⟨0, 0, 2⟩, ⟨1, 0, 3⟩], 1, 1,
          by decide, by decide, by decide⟩ SetOrder.dedup = .ok (co, cp, calls) ∧
      cp.ctxs.map CompCtx.coproc = [some 1, some 0] ∧ co.coprocessorThreads = [some 0, some 1] ∧
      calls.filterMap InitCall.offloadableOf = [0, 1]) ∧
    spawnAndInit ⟨2, 1, 1⟩ twoNodes
        ⟨rxQueues 4, ⟨64, 64⟩, [], [⟨0, 2, 1, 3⟩, ⟨0, 0, 2, 3⟩], [⟨0, 0, 1⟩], 1, 1,
          by decide, by decide, by decide⟩ SetOrder.dedup = .error (.undefined (.mistyped 2)) :=
  ⟨⟨_, _, _, rfl, rfl, rfl, rfl⟩, rfl⟩

end Nba
