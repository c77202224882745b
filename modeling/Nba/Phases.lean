import Nba.Comp

/-!
# Initialisation phases

Lines 725-788 of `main`: the global, per-node, offloadable-element and
per-thread inits and the start of the coprocessor loops.  `existing_nodes` is
an `unordered_set`, so its order is any permutation (`SetOrder`); both node
loops are `firstOnNodeLoop`, as `node_initialized[n]` lets only the first
context of node `n` through.  `initPhases_eq` gives the calls in closed form
(`phaseCalls`).
-/

namespace Nba

/-- What `main` asks of the element graphs and the coprocessor threads. -/
inductive InitCall where
  /-- `initialize_graph_global()` of computation context `j` -/
  | global (j : Nat)
  | perNode (j : Nat)
  /-- coprocessor context `k` initialises the offloadable elements of
  computation context `j` (`comp_ctx_to_init_offloadable`, then
  `offloadable_init_barrier->proceed()`) -/
  | offloadable (k j : Nat)
  | perThread (j : Nat)
  /-- `loopstart_barrier->proceed()` of coprocessor context `k` -/
  | loopStart (k : Nat)
  deriving DecidableEq, Repr

/-- The context of a `perNode` call. -/
def InitCall.perNodeOf : InitCall → Option Nat
  | .perNode j => some j
  | _ => none

/-- The context of a `perThread` call. -/
def InitCall.perThreadOf : InitCall → Option Nat
  | .perThread j => some j
  | _ => none

/-- The context of a `global` call. -/
def InitCall.globalOf : InitCall → Option Nat
  | .global j => some j
  | _ => none

/-- The coprocessor of an `offloadable` call. -/
def InitCall.offloadableOf : InitCall → Option Nat
  | .offloadable k _ => some k
  | _ => none

/-- The coprocessor of a `loopStart` call. -/
def InitCall.loopStartOf : InitCall → Option Nat
  | .loopStart k => some k
  | _ => none

/-- An iteration order of `unordered_set<unsigned>`: the keys inserted, each
once, in an order of the hash table's choosing. -/
structure SetOrder where
  enum : List Nat → List Nat
  perm : ∀ l, (enum l).Perm l.dedup

/-- The order `List.dedup` gives. -/
def SetOrder.dedup : SetOrder := ⟨List.dedup, fun _ => List.Perm.refl _⟩

/-! ## Algorithm -/

/-- Lines 742-744 and 757-759: `node_initialized[n] = false` for `n < num_nodes`. -/
def clearFlags (numNodes : Nat) (flags : List (Option Bool)) : Except Stop (List (Option Bool)) :=
  forEach (fun n f => Arr.set .nodeInitialized f n (some false)) (List.range numNodes) flags

/-- `coprocessor_threads[n].coproc_ctx`, dereferenced. -/
def slotCoproc (slots : List (Option Nat)) (n : Nat) : Except Stop Nat := do
  match ← Arr.get .coprocessorThreads slots n with
  | some k => pure k
  | none => throw (.undefined (.null "coprocessor_threads[node_id].coproc_ctx"))

/-- Lines 747-751 and 764-772: context `(j, ctx)` in the loop over node `n`;
if `ctx` is on `n` and `node_initialized[n]` is false, `act n j` runs and the
flag is set. -/
def firstOnNodeStep (act : Nat → Nat → Except Stop InitCall) (n : Nat) (jc : Nat × CompCtx)
    (st : List (Option Bool) × List InitCall) : Except Stop (List (Option Bool) × List InitCall) :=
  if jc.2.nodeId = n then do
    if ← Arr.read .nodeInitialized st.1 n then pure st
    else do
      let call ← act n jc.1
      let flags ← Arr.set .nodeInitialized st.1 n (some true)
      pure (flags, st.2 ++ [call])
  else pure st

/-- `for (node_id : existing_nodes) for (ctx : comp_thread_ctxs) firstOnNodeStep`. -/
def firstOnNodeLoop (act : Nat → Nat → Except Stop InitCall) (ctxs : List CompCtx)
    (order : List Nat) (st : List (Option Bool) × List InitCall) :
    Except Stop (List (Option Bool) × List InitCall) :=
  forEach (fun n => forEach (firstOnNodeStep act n) ctxs.enum) order st

/-- Lines 745-753. -/
def initPerNode (ctxs : List CompCtx) (order : List Nat) (st : List (Option Bool) × List InitCall) :
    Except Stop (List (Option Bool) × List InitCall) :=
  firstOnNodeLoop (fun _ j => pure (.perNode j)) ctxs order st

/-- Lines 760-774. -/
def initOffloadables (slots : List (Option Nat)) (ctxs : List CompCtx) (order : List Nat)
    (st : List (Option Bool) × List InitCall) : Except Stop (List (Option Bool) × List InitCall) :=
  firstOnNodeLoop (fun n j => do pure (.offloadable (← slotCoproc slots n) j)) ctxs order st

/-- Lines 785-788. -/
def startCoprocLoops (slots : List (Option Nat)) (order : List Nat) (calls : List InitCall) :
    Except Stop (List InitCall) :=
  forEach (fun n calls => do pure (calls ++ [.loopStart (← slotCoproc slots n)])) order calls

/-- Lines 725-788: the calls `main` makes, from the computation contexts, the
coprocessor slots and the number of coprocessor threads. -/
def initPhases (lim : Limits) (numNodes numCoprocs : Nat) (slots : List (Option Nat))
    (ctxs : List CompCtx) (so : SetOrder) : Except Stop (List InitCall) := do
  if ctxs.isEmpty then throw (.undefined .emptyBegin)
  let order := so.enum (ctxs.map CompCtx.nodeId)
  let flags ← clearFlags numNodes (List.replicate lim.maxNodes none)
  let (flags, calls) ← initPerNode ctxs order (flags, [.global 0])
  let calls ← if numCoprocs > 0 then do
      let flags ← clearFlags numNodes flags
      let (_, calls) ← initOffloadables slots ctxs order (flags, calls)
      pure calls
    else pure calls
  let calls := calls ++ (List.range ctxs.length).map .perThread
  if numCoprocs > 0 then startCoprocLoops slots order calls else pure calls

/-- Lines 522-788: spawn the coprocessor threads, create the computation
contexts, and run the initialisation phases. -/
def spawnAndInit (lim : Limits) (m : Machine) (c : SysConf) (so : SetOrder) :
    Except Stop (CoprocBoot × CompBoot × List InitCall) := do
  let co ← spawnCoprocs lim m c
  let cp ← createCompCtxs lim m c co
  let calls ← initPhases lim m.numNodes c.coprocThreadConfs.length co.coprocessorThreads cp.ctxs so
  pure (co, cp, calls)

/-! ## Lemmas -/

/-- The first computation context on node `n`. -/
def firstOn (ctxs : List CompCtx) (n : Nat) : Nat := ctxs.findIdx fun x => x.nodeId == n

/-- The coprocessor context in slot `n`. -/
def slotVal (slots : List (Option Nat)) (n : Nat) : Nat := (slots[n]?.join).getD 0

/-- The calls of lines 725-788 when nothing stops. -/
def phaseCalls (numCoprocs : Nat) (slots : List (Option Nat)) (ctxs : List CompCtx)
    (order : List Nat) : List InitCall :=
  [.global 0] ++ order.map (fun n => .perNode (firstOn ctxs n)) ++
    (if numCoprocs > 0 then order.map fun n => .offloadable (slotVal slots n) (firstOn ctxs n)
     else []) ++
    (List.range ctxs.length).map .perThread ++
    (if numCoprocs > 0 then order.map fun n => .loopStart (slotVal slots n) else [])

/-- The first context on the node of `x` is on that node. -/
theorem firstOn_spec {ctxs : List CompCtx} {x : CompCtx} (hx : x ∈ ctxs) :
    ∃ y, ctxs[firstOn ctxs x.nodeId]? = some y ∧ y.nodeId = x.nodeId := by
  have h := List.findIdx_lt_length_of_exists (p := fun y => y.nodeId == x.nodeId) ⟨x, hx, by simp⟩
  exact ⟨_, List.getElem?_eq_getElem h, by simpa using List.findIdx_getElem (w := h)⟩

/-- The first context on the node of `x` shares the storage `nls[n]` of `x`. -/
theorem CompInv.firstOn_nls {lim : Limits} {m : Machine} {c : SysConf} {co : CoprocBoot}
    {done : List CompThreadConf} {cp : CompBoot} (hi : CompInv lim m c co done cp) {x : CompCtx}
    (hx : x ∈ cp.ctxs) :
    ∃ sid, cp.nls[x.nodeId]? = some (some sid) ∧ x.nls = some sid ∧
      (cp.ctxs[firstOn cp.ctxs x.nodeId]?).bind CompCtx.nls = some sid := by
  obtain ⟨y, hy, hyn⟩ := firstOn_spec hx
  obtain ⟨v, hv, hxv⟩ := hi.ctx_nls x hx
  obtain ⟨w, hw, hyw⟩ := hi.ctx_nls y (List.getElem?_mem hy)
  rw [hyn, hv, Option.some.injEq, Option.some.injEq] at hw
  exact ⟨v, hv, hxv, by simp [hy, hyw, hw]⟩

theorem clearFlags_ok (numNodes : Nat) (flags : List (Option Bool)) (h : numNodes ≤ flags.length) :
    ∃ f, clearFlags numNodes flags = .ok f ∧ f.length = flags.length ∧
      ∀ n, f[n]? = if n < numNodes then some (some false) else flags[n]? := by
  have step : ∀ (done : List Nat) (n : Nat) (f : List (Option Bool)), n < numNodes →
      f.length = flags.length ∧ (∀ n', f[n']? = if n' ∈ done then some (some false) else flags[n']?) →
      ∃ f', Arr.set .nodeInitialized f n (some false) = .ok f' ∧ f'.length = flags.length ∧
        ∀ n', f'[n']? = if n' ∈ done ++ [n] then some (some false) else flags[n']? := by
    intro done n f hn ⟨hl, hv⟩
    refine ⟨_, Arr.set_of_lt _ _ (by rw [hl]; omega), by simp [hl], fun n' => ?_⟩
    by_cases e : n = n'
    · subst e; simp [List.getElem?_set_self (show n < f.length by rw [hl]; omega)]
    · rw [List.getElem?_set_ne e, hv n']; simp [Ne.symm e]
  obtain ⟨f, hf, hl, hv⟩ := forEach_inv
    (fun done (f : List (Option Bool)) => f.length = flags.length ∧
      ∀ n', f[n']? = if n' ∈ done then some (some false) else flags[n']?)
    (fun _ n => n < numNodes) step
    (List.range numNodes) [] flags (fun _ _ _ e => List.mem_range.1 (mem_of_eq_append_cons e))
    ⟨rfl, by simp⟩
  exact ⟨f, hf, hl, fun n => by simpa using hv n⟩

/-- Clearing the flags of `num_nodes` nodes gets through only inside the array. -/
theorem clearFlags_ok_le {numNodes : Nat} {flags f : List (Option Bool)}
    (h : clearFlags numNodes flags = .ok f) : numNodes ≤ flags.length := by
  have := forEach_ok_inv (fun done (f : List (Option Bool)) => f.length = flags.length ∧
      ∀ n ∈ done, n < flags.length)
    (fun _ n f f' ⟨hl, hv⟩ hs => by
      obtain ⟨hn, rfl⟩ := Arr.set_eq_ok.1 hs
      refine ⟨by simp [hl], fun n' hn' => ?_⟩
      rcases List.mem_append.1 hn' with h' | h'
      exacts [hv n' h', by simp at h'; omega])
    (List.range numNodes) [] flags f ⟨rfl, by simp⟩ h
  cases numNodes with
  | zero => omega
  | succ n => exact this.2 n (by simp)

theorem slotCoproc_of {slots : List (Option Nat)} {n k : Nat} (h : slots[n]? = some (some k)) :
    slotCoproc slots n = .ok k := by
  simp [slotCoproc, Arr.get_eq_ok.2 h]

theorem slotCoproc_ok {slots : List (Option Nat)} {n k : Nat} (h : slotCoproc slots n = .ok k) :
    slots[n]? = some (some k) := by
  obtain ⟨v, hv, h⟩ := bind_eq_ok.1 h
  cases v with
  | some k' => exact (Except.ok.inj h) ▸ Arr.get_eq_ok.1 hv
  | none => cases h

section FirstOnNode
variable {act : Nat → Nat → Except Stop InitCall} {n : Nat}

/-- Once `node_initialized[n]` is set, the loop over node `n` does nothing. -/
theorem firstOnNode_done {flags : List (Option Bool)} (hf : flags[n]? = some (some true)) :
    ∀ (L : List (Nat × CompCtx)) (calls : List InitCall),
      forEach (firstOnNodeStep act n) L (flags, calls) = .ok (flags, calls) := by
  intro L
  induction L with
  | nil => intro _; rfl
  | cons x L ih =>
    intro calls
    rw [forEach_cons, firstOnNodeStep]
    split <;> simp [Arr.read_eq_ok.2 hf, ih]

/-- **The first context of node `n` runs `act`**, and no other does. -/
theorem firstOnNode_first {g : Nat → InitCall} (hact : ∀ j, act n j = .ok (g j))
    {flags : List (Option Bool)} (hl : n < flags.length) (hf : flags[n]? = some (some false)) :
    ∀ (l : List CompCtx) (k : Nat) (calls : List InitCall), (∃ x ∈ l, x.nodeId = n) →
      forEach (firstOnNodeStep act n) (l.enumFrom k) (flags, calls) =
        .ok (flags.set n (some true), calls ++ [g (k + l.findIdx fun x => x.nodeId == n)]) := by
  intro l
  induction l with
  | nil => intro _ _ h; simp at h
  | cons x l ih =>
    intro k calls hx
    rw [List.enumFrom_cons, forEach_cons, firstOnNodeStep]
    by_cases e : x.nodeId = n
    · simp [e, Arr.read_eq_ok.2 hf, hact, Arr.set_of_lt _ _ hl,
        firstOnNode_done (List.getElem?_set_self hl), List.findIdx_cons]
    · have hb : (x.nodeId == n) = false := by simpa using e
      have hx' : ∃ y ∈ l, y.nodeId = n := by
        obtain ⟨y, hy, hyn⟩ := hx
        exact ⟨y, (List.mem_cons.1 hy).resolve_left (by rintro rfl; exact e hyn), hyn⟩
      simp [e, ih (k + 1) calls hx', List.findIdx_cons, hb, Nat.add_assoc, Nat.add_comm 1]

/-- **A loop over node `n` that got through**, with a context on `n`, read
`node_initialized[n]`; if that was false, it ran `act` on the first context
of `n` and set the flag. -/
theorem firstOnNode_ok : ∀ (l : List CompCtx) (k : Nat) (flags : List (Option Bool))
    (calls : List InitCall) (r : List (Option Bool) × List InitCall), (∃ x ∈ l, x.nodeId = n) →
    forEach (firstOnNodeStep act n) (l.enumFrom k) (flags, calls) = .ok r →
    ∃ b, flags[n]? = some (some b) ∧ (b = false → ∃ c,
      act n (k + l.findIdx fun x => x.nodeId == n) = .ok c ∧
        r = (flags.set n (some true), calls ++ [c]))
  | [], _, _, _, _, hx, _ => by simp at hx
  | x :: l, k, flags, calls, r, hx, h => by
    rw [List.enumFrom_cons, forEach_cons, firstOnNodeStep] at h
    obtain ⟨s1, h1, h2⟩ := bind_eq_ok.1 h
    by_cases e : x.nodeId = n
    · rw [if_pos e] at h1
      obtain ⟨b, hb, h1⟩ := bind_eq_ok.1 h1
      refine ⟨b, Arr.read_eq_ok.1 hb, fun hb0 => ?_⟩
      subst hb0
      simp only [Bool.false_eq_true, if_false] at h1
      obtain ⟨c, hc, h1⟩ := bind_eq_ok.1 h1
      obtain ⟨f, hf, h1⟩ := bind_eq_ok.1 h1
      obtain ⟨hl, rfl⟩ := Arr.set_eq_ok.1 hf
      cases h1
      rw [firstOnNode_done (List.getElem?_set_self hl)] at h2
      exact ⟨c, by simpa [List.findIdx_cons, e] using hc, (Except.ok.inj h2).symm⟩
    · rw [if_neg e] at h1
      cases h1
      obtain ⟨y, hy, hyn⟩ := hx
      obtain ⟨b, hb, hr⟩ := firstOnNode_ok l (k + 1) flags calls r
        ⟨y, (List.mem_cons.1 hy).resolve_left (by rintro rfl; exact e hyn), hyn⟩ h2
      refine ⟨b, hb, fun hb0 => ?_⟩
      obtain ⟨c, hc, rfl⟩ := hr hb0
      have hb' : (x.nodeId == n) = false := by simpa using e
      exact ⟨c, by simpa [List.findIdx_cons, hb', Nat.add_assoc, Nat.add_comm 1] using hc, rfl⟩

end FirstOnNode

/-- **The node loops run `act` once per node of `order`, on its first context.** -/
theorem firstOnNodeLoop_eq (act : Nat → Nat → Except Stop InitCall) {g : Nat → Nat → InitCall}
    {ctxs : List CompCtx} {order : List Nat} {numNodes : Nat} (hnd : order.Nodup)
    (hord : ∀ n ∈ order, n < numNodes ∧ ∃ x ∈ ctxs, x.nodeId = n)
    (hact : ∀ n ∈ order, ∀ j, act n j = .ok (g n j))
    {flags : List (Option Bool)} (hl : numNodes ≤ flags.length)
    (hf : ∀ n < numNodes, flags[n]? = some (some false)) (calls : List InitCall) :
    ∃ flags', firstOnNodeLoop act ctxs order (flags, calls) =
      .ok (flags', calls ++ order.map fun n => g n (firstOn ctxs n)) ∧
        flags'.length = flags.length := by
  obtain ⟨⟨f, cs⟩, h, hi⟩ := @forEach_inv _ _ (fun n => forEach (firstOnNodeStep act n) ctxs.enum)
    (fun done (st : List (Option Bool) × List InitCall) => st.1.length = flags.length ∧
      (∀ n < numNodes, st.1[n]? = some (some (decide (n ∈ done)))) ∧
      st.2 = calls ++ done.map fun n => g n (firstOn ctxs n))
    (fun done n => n < numNodes ∧ (∃ x ∈ ctxs, x.nodeId = n) ∧ n ∉ done ∧
      ∀ j, act n j = .ok (g n j))
    (fun done n ⟨f, cs⟩ ⟨hn, hx, hnd, ha⟩ ⟨hfl, hfv, hcs⟩ => by
      simp only at hfl hfv hcs
      have hlt : n < f.length := by rw [hfl]; omega
      refine ⟨_, by
        rw [List.enum_eq_enumFrom]
        exact firstOnNode_first ha hlt (by simpa [hnd] using hfv n hn) ctxs 0 cs hx, ?_⟩
      refine ⟨by simp [hfl], fun n' hn' => ?_, by simp [hcs, firstOn]⟩
      by_cases e : n = n'
      · subst e; simp [List.getElem?_set_self hlt]
      · simp [List.getElem?_set_ne e, hfv n' hn', Ne.symm e])
    order [] (flags, calls)
    (fun l₁ n l₂ e => by
      have hm := mem_of_eq_append_cons e
      rw [e] at hnd
      exact ⟨(hord n hm).1, (hord n hm).2, fun h => (List.nodup_append.1 hnd).2.2 h
        (List.mem_cons_self _ _), hact n hm⟩)
    ⟨rfl, fun n hn => by simp [hf n hn], by simp⟩
  simp only [List.nil_append] at hi
  exact ⟨f, by rw [firstOnNodeLoop, h, hi.2.2], hi.1⟩

/-- **A node loop that got through** ran `act` once per node of `order`, on its
first context, when `node_initialized` held `false` at every node of `order`
below `num_nodes` and nothing at the others; so every node of `order` is below
`num_nodes`. -/
theorem firstOnNodeLoop_ok {act : Nat → Nat → Except Stop InitCall} {g : Nat → Nat → InitCall}
    (hact : ∀ n j c, act n j = .ok c → c = g n j) {ctxs : List CompCtx} {numNodes : Nat} :
    ∀ (order : List Nat) (flags : List (Option Bool)) (calls : List InitCall)
      (r : List (Option Bool) × List InitCall), order.Nodup →
      (∀ n ∈ order, ∃ x ∈ ctxs, x.nodeId = n) →
      (∀ n ∈ order, ∀ b, flags[n]? = some (some b) → n < numNodes ∧ b = false) →
      firstOnNodeLoop act ctxs order (flags, calls) = .ok r →
      (∀ n ∈ order, n < numNodes) ∧ r.2 = calls ++ order.map fun n => g n (firstOn ctxs n)
  | [], _, _, r, _, _, _, h => by cases h; simp
  | n :: order, flags, calls, r, hnd, hx, hf, h => by
    rw [firstOnNodeLoop, forEach_cons, List.enum_eq_enumFrom] at h
    obtain ⟨s1, h1, h2⟩ := bind_eq_ok.1 h
    obtain ⟨b, hb, hr⟩ := firstOnNode_ok ctxs 0 flags calls s1 (hx n (List.mem_cons_self _ _)) h1
    obtain ⟨hn, rfl⟩ := hf n (List.mem_cons_self _ _) b hb
    obtain ⟨c, hc, rfl⟩ := hr rfl
    obtain ⟨hnn, hnd⟩ := List.nodup_cons.1 hnd
    obtain ⟨ho, hr2⟩ := firstOnNodeLoop_ok hact order _ _ r hnd
      (fun n' h' => hx n' (List.mem_cons_of_mem _ h'))
      (fun n' h' b' hb' => hf n' (List.mem_cons_of_mem _ h') b'
        (by rwa [List.getElem?_set_ne (by rintro rfl; exact hnn h')] at hb')) h2
    refine ⟨List.forall_mem_cons.2 ⟨hn, ho⟩, ?_⟩
    rw [hr2, hact _ _ _ hc]
    simp [firstOn]

theorem startCoprocLoops_eq {slots : List (Option Nat)} :
    ∀ (order : List Nat) (calls : List InitCall), (∀ n ∈ order, ∃ k, slots[n]? = some (some k)) →
      startCoprocLoops slots order calls =
        .ok (calls ++ order.map fun n => .loopStart (slotVal slots n))
  | [], _, _ => by simp [startCoprocLoops]
  | n :: order, calls, h => by
    obtain ⟨k, hk⟩ := h n (List.mem_cons_self _ _)
    have ih := startCoprocLoops_eq order (calls ++ [.loopStart k])
      fun n' hn' => h n' (List.mem_cons_of_mem _ hn')
    rw [startCoprocLoops, forEach_cons, slotCoproc_of hk, ok_bind, pure_eq_ok, ok_bind,
      ← startCoprocLoops, ih]
    simp [slotVal, hk]

/-- A loop-start loop that got through found a coprocessor in every slot. -/
theorem startCoprocLoops_ok {slots : List (Option Nat)} :
    ∀ (order : List Nat) (calls r : List InitCall), startCoprocLoops slots order calls = .ok r →
      ∀ n ∈ order, ∃ k, slots[n]? = some (some k)
  | [], _, _, _ => by simp
  | n :: order, calls, r, h => by
    rw [startCoprocLoops, forEach_cons] at h
    obtain ⟨s1, h1, h2⟩ := bind_eq_ok.1 h
    obtain ⟨k, hk, -⟩ := bind_eq_ok.1 h1
    exact List.forall_mem_cons.2 ⟨⟨k, slotCoproc_ok hk⟩, startCoprocLoops_ok order s1 r h2⟩

/-- **The phases in closed form.** With the computation contexts on nodes below
`num_nodes ≤ NBA_MAX_NODES` and, when there are coprocessor threads, a
coprocessor in the slot of each of their nodes, `main` makes the calls
`phaseCalls`. -/
theorem initPhases_eq {lim : Limits} {numNodes N : Nat} {slots : List (Option Nat)}
    {ctxs : List CompCtx} (so : SetOrder) (hne : ctxs ≠ []) (hN : numNodes ≤ lim.maxNodes)
    (hnodes : ∀ x ∈ ctxs, x.nodeId < numNodes)
    (hslots : N > 0 → ∀ x ∈ ctxs, ∃ k, slots[x.nodeId]? = some (some k)) :
    initPhases lim numNodes N slots ctxs so =
      .ok (phaseCalls N slots ctxs (so.enum (ctxs.map CompCtx.nodeId))) := by
  have hperm := so.perm (ctxs.map CompCtx.nodeId)
  have hnd := hperm.nodup_iff.2 (List.nodup_dedup _)
  have hmem : ∀ n ∈ so.enum (ctxs.map CompCtx.nodeId), ∃ x ∈ ctxs, x.nodeId = n :=
    fun n hn => by simpa using hperm.mem_iff.1 hn
  have hord : ∀ n ∈ so.enum (ctxs.map CompCtx.nodeId), n < numNodes ∧ ∃ x ∈ ctxs, x.nodeId = n :=
    fun n hn => let ⟨x, hx, e⟩ := hmem n hn; ⟨e ▸ hnodes x hx, x, hx, e⟩
  obtain ⟨f1, hc1, hl1, hv1⟩ := clearFlags_ok numNodes (List.replicate lim.maxNodes none)
    (by simpa using hN)
  obtain ⟨f2, hp, hl2⟩ := firstOnNodeLoop_eq (fun _ j => pure (.perNode j))
    (g := fun _ j => .perNode j) hnd hord (fun _ _ _ => rfl)
    (show numNodes ≤ f1.length by simpa [hl1] using hN)
    (fun n hn => by rw [hv1, if_pos hn]) [.global 0]
  have hemp : ctxs.isEmpty = false := List.isEmpty_eq_false.2 hne
  simp only [initPhases, hemp, Bool.false_eq_true, if_false, hc1, ok_bind, initPerNode, hp]
  by_cases h0 : N > 0
  · have hsl : ∀ n ∈ so.enum (ctxs.map CompCtx.nodeId), ∃ k, slots[n]? = some (some k) :=
      fun n hn => let ⟨x, hx, e⟩ := hmem n hn; e ▸ hslots h0 x hx
    obtain ⟨f3, hc3, hl3, hv3⟩ := clearFlags_ok numNodes f2
      (by rw [hl2, hl1]; simpa using hN)
    obtain ⟨f4, ho, -⟩ := firstOnNodeLoop_eq
      (fun n j => do pure (.offloadable (← slotCoproc slots n) j))
      (g := fun n j => .offloadable (slotVal slots n) j) hnd hord
      (fun n hn j => by obtain ⟨k, hk⟩ := hsl n hn; simp [slotCoproc_of hk, slotVal, hk])
      (show numNodes ≤ f3.length by rw [hl3, hl2, hl1]; simpa using hN)
      (fun n hn => by rw [hv3, if_pos hn])
      ([.global 0] ++ (so.enum (ctxs.map CompCtx.nodeId)).map fun n => .perNode (firstOn ctxs n))
    simp only [h0, if_true, hc3, ok_bind, initOffloadables]
    rw [ho]
    simp [h0, startCoprocLoops_eq _ _ hsl, phaseCalls]
  · simp [h0, phaseCalls]

/-- **A run of the phases that got through made the calls `phaseCalls`**, with
every context on a node below `num_nodes` and, with coprocessor threads, a
coprocessor in the slot of each of their nodes. -/
theorem initPhases_ok {lim : Limits} {numNodes N : Nat} {slots : List (Option Nat)}
    {ctxs : List CompCtx} {so : SetOrder} {calls : List InitCall}
    (h : initPhases lim numNodes N slots ctxs so = .ok calls) :
    ctxs ≠ [] ∧ (∀ x ∈ ctxs, x.nodeId < numNodes) ∧
      (N > 0 → ∀ x ∈ ctxs, ∃ k, slots[x.nodeId]? = some (some k)) ∧
      calls = phaseCalls N slots ctxs (so.enum (ctxs.map CompCtx.nodeId)) := by
  have hperm := so.perm (ctxs.map CompCtx.nodeId)
  have hmem : ∀ n ∈ so.enum (ctxs.map CompCtx.nodeId), ∃ x ∈ ctxs, x.nodeId = n :=
    fun n hn => by simpa using hperm.mem_iff.1 hn
  have hin : ∀ x ∈ ctxs, x.nodeId ∈ so.enum (ctxs.map CompCtx.nodeId) :=
    fun x hx => hperm.mem_iff.2 (List.mem_dedup.2 (List.mem_map_of_mem _ hx))
  have h₀ := h
  cases hemp : ctxs.isEmpty
  · simp only [initPhases, hemp, Bool.false_eq_true, if_false, pure_eq_ok, ok_bind] at h
    obtain ⟨f1, hc1, h⟩ := bind_eq_ok.1 h
    have hN : numNodes ≤ lim.maxNodes := by simpa using clearFlags_ok_le hc1
    obtain ⟨f, hf, -, hv⟩ := clearFlags_ok numNodes _ (clearFlags_ok_le hc1)
    cases hc1.symm.trans hf
    obtain ⟨⟨f2, cs2⟩, hp, h⟩ := bind_eq_ok.1 h
    have hnodes : ∀ x ∈ ctxs, x.nodeId < numNodes := fun x hx =>
      (firstOnNodeLoop_ok (g := fun _ j => .perNode j) (fun _ _ _ e => (Except.ok.inj e).symm)
        _ _ _ _ (hperm.nodup_iff.2 (List.nodup_dedup _)) hmem (fun n _ b hb => by
          rw [hv] at hb
          split_ifs at hb with hlt
          · exact ⟨hlt, (Option.some.inj (Option.some.inj hb)).symm⟩
          · simp [List.getElem?_replicate] at hb) hp).1 _ (hin x hx)
    have hslots : N > 0 → ∀ x ∈ ctxs, ∃ k, slots[x.nodeId]? = some (some k) := fun h0 x hx => by
      simp only [h0, if_true] at h
      obtain ⟨f3, -, h⟩ := bind_eq_ok.1 h
      obtain ⟨cs3, -, h⟩ := bind_eq_ok.1 h
      exact startCoprocLoops_ok _ _ _ h _ (hin x hx)
    have hne : ctxs ≠ [] := fun e => by simp [e] at hemp
    exact ⟨hne, hnodes, hslots,
      Except.ok.inj (h₀.symm.trans (initPhases_eq so hne hN hnodes hslots))⟩
  · simp [initPhases, hemp] at h

/-! ### Node accesses of the phases -/

/-- `node_initialized` (`len` entries) holds a value at every node below
`num_nodes`. -/
def FlagsSet (numNodes len : Nat) (flags : List (Option Bool)) : Prop :=
  flags.length = len ∧ ∀ n < numNodes, ∃ b, flags[n]? = some (some b)

theorem FlagsSet.set {numNodes len n : Nat} {flags : List (Option Bool)}
    (hf : FlagsSet numNodes len flags) (hl : n < flags.length) (b : Bool) :
    FlagsSet numNodes len (flags.set n (some b)) := by
  refine ⟨by simp [hf.1], fun n' hn' => ?_⟩
  by_cases e : n = n'
  · subst e; exact ⟨b, List.getElem?_set_self hl⟩
  · rw [List.getElem?_set_ne e]; exact hf.2 n' hn'

section FlagsSet
variable {act : Nat → Nat → Except Stop InitCall} {numNodes len n : Nat}

/-- A step that got through keeps the flags set. -/
theorem firstOnNodeStep_flags {jc : Nat × CompCtx} {st st' : List (Option Bool) × List InitCall}
    (hf : FlagsSet numNodes len st.1) (h : firstOnNodeStep act n jc st = .ok st') :
    FlagsSet numNodes len st'.1 := by
  unfold firstOnNodeStep at h
  split_ifs at h
  · obtain ⟨b, -, h⟩ := bind_eq_ok.1 h
    cases b
    · simp only [Bool.false_eq_true, if_false] at h
      obtain ⟨c, -, h⟩ := bind_eq_ok.1 h
      obtain ⟨f, hs, h⟩ := bind_eq_ok.1 h
      obtain ⟨hl, rfl⟩ := Arr.set_eq_ok.1 hs
      cases h
      exact hf.set hl true
    · cases h; exact hf
  · cases h; exact hf

theorem firstOnNodeStep_nodeSafe (hact : ∀ n < numNodes, ∀ j, NodeSafe (act n j)) (hn : n < numNodes)
    (hlen : numNodes ≤ len) (jc : Nat × CompCtx) {st : List (Option Bool) × List InitCall}
    (hf : FlagsSet numNodes len st.1) : NodeSafe (firstOnNodeStep act n jc st) := by
  obtain ⟨b, hb⟩ := hf.2 n hn
  have hl : n < st.1.length := by rw [hf.1]; omega
  unfold firstOnNodeStep
  split_ifs
  · rw [Arr.read_eq_ok.2 hb, ok_bind]
    cases b
    · exact nodeSafe_bind (hact n hn jc.1) fun c _ => by simp [Arr.set_of_lt _ _ hl]
    · exact nodeSafe_ok _
  · exact nodeSafe_ok _

/-- A loop over a node that got through keeps the flags set. -/
theorem firstOnNode_flags (L : List (Nat × CompCtx)) {st st' : List (Option Bool) × List InitCall}
    (hf : FlagsSet numNodes len st.1) (h : forEach (firstOnNodeStep act n) L st = .ok st') :
    FlagsSet numNodes len st'.1 :=
  forEach_ok_inv (fun _ st => FlagsSet numNodes len st.1)
    (fun _ _ _ _ hi hs => firstOnNodeStep_flags hi hs) L [] st st' hf h

end FlagsSet

/-- **A node loop reads `node_initialized` only where it was set** and makes
no out-of-range node access, when the nodes of `order` are below `num_nodes`;
one that got through keeps the flags set. -/
theorem firstOnNodeLoop_nodeSafe (act : Nat → Nat → Except Stop InitCall) {numNodes len : Nat}
    (hact : ∀ n < numNodes, ∀ j, NodeSafe (act n j)) (ctxs : List CompCtx) {order : List Nat}
    (hord : ∀ n ∈ order, n < numNodes) (hlen : numNodes ≤ len)
    (st : List (Option Bool) × List InitCall) (hf : FlagsSet numNodes len st.1) :
    NodeSafe (firstOnNodeLoop act ctxs order st) ∧
      ∀ st', firstOnNodeLoop act ctxs order st = .ok st' → FlagsSet numNodes len st'.1 :=
  ⟨forEach_nodeSafe (fun _ st => FlagsSet numNodes len st.1) (fun _ n => n < numNodes)
      (fun _ _ _ hn hi => ⟨forEach_nodeSafe (fun _ st => FlagsSet numNodes len st.1)
        (fun _ _ => True) (fun _ jc _ _ hi => ⟨firstOnNodeStep_nodeSafe hact hn hlen jc hi,
          fun _ h => firstOnNodeStep_flags hi h⟩) ctxs.enum [] _ (fun _ _ _ _ => trivial) hi,
        fun _ h => firstOnNode_flags ctxs.enum hi h⟩) order [] st
      (fun _ _ _ e => hord _ (mem_of_eq_append_cons e)) hf,
   fun st' h => forEach_ok_inv (fun _ st => FlagsSet numNodes len st.1)
      (fun _ _ _ _ hi hs => firstOnNode_flags ctxs.enum hi hs) order [] st st' hf h⟩

theorem slotCoproc_nodeSafe {slots : List (Option Nat)} {n : Nat} (h : n < slots.length) :
    NodeSafe (slotCoproc slots n) := by
  unfold slotCoproc
  rw [Arr.get_of_lt _ h, ok_bind]
  split <;> simp

theorem startCoprocLoops_nodeSafe {slots : List (Option Nat)} {order : List Nat}
    (hord : ∀ n ∈ order, n < slots.length) (calls : List InitCall) :
    NodeSafe (startCoprocLoops slots order calls) :=
  forEach_nodeSafe (fun _ _ => True) (fun _ n => n < slots.length)
    (fun _ _ _ hn _ => ⟨nodeSafe_bind (slotCoproc_nodeSafe hn) fun _ _ => nodeSafe_ok _,
      fun _ _ => trivial⟩) order [] calls (fun _ _ _ e => hord _ (mem_of_eq_append_cons e)) trivial

/-- **The phases make no out-of-range or indeterminate node access** when the
computation contexts are on nodes below `num_nodes ≤ NBA_MAX_NODES` and there
is one: `node_initialized` is read only where it was cleared, and
`coprocessor_threads` (`num_nodes` slots) is indexed in range. -/
theorem initPhases_nodeSafe {lim : Limits} {numNodes N : Nat} {slots : List (Option Nat)}
    {ctxs : List CompCtx} (so : SetOrder) (hne : ctxs ≠ []) (hN : numNodes ≤ lim.maxNodes)
    (hslots : slots.length = numNodes) (hnodes : ∀ x ∈ ctxs, x.nodeId < numNodes) :
    NodeSafe (initPhases lim numNodes N slots ctxs so) := by
  have hord : ∀ n ∈ so.enum (ctxs.map CompCtx.nodeId), n < numNodes := fun n hn => by
    obtain ⟨x, hx, rfl⟩ := List.mem_map.1 (List.mem_dedup.1 ((so.perm _).mem_iff.1 hn))
    exact hnodes x hx
  have hemp : ctxs.isEmpty = false := List.isEmpty_eq_false.2 hne
  obtain ⟨f1, hc1, hl1, hv1⟩ := clearFlags_ok numNodes (List.replicate lim.maxNodes none)
    (by simpa using hN)
  simp only [initPhases, hemp, Bool.false_eq_true, if_false, pure_eq_ok, ok_bind, hc1, initPerNode]
  obtain ⟨hs2, hk2⟩ := firstOnNodeLoop_nodeSafe (fun _ j => pure (.perNode j))
    (fun _ _ _ => nodeSafe_ok _) ctxs hord hN (f1, [.global 0])
    ⟨by simpa using hl1, fun n hn => ⟨false, by rw [hv1, if_pos hn]⟩⟩
  refine nodeSafe_bind hs2 fun ⟨f2, cs2⟩ h2 => ?_
  have hf2 := hk2 _ h2
  split_ifs with h0
  · obtain ⟨f3, hc3, hl3, hv3⟩ := clearFlags_ok numNodes f2 (by rw [hf2.1]; exact hN)
    simp only [hc3, ok_bind]
    obtain ⟨hs4, -⟩ := firstOnNodeLoop_nodeSafe
      (fun n j => do pure (.offloadable (← slotCoproc slots n) j))
      (fun n hn _ => nodeSafe_bind (slotCoproc_nodeSafe (hslots ▸ hn)) fun _ _ => nodeSafe_ok _)
      ctxs hord hN (f3, cs2)
      ⟨by rw [hl3, hf2.1], fun n hn => ⟨false, by rw [hv3, if_pos hn]⟩⟩
    exact nodeSafe_bind hs4 fun _ _ => startCoprocLoops_nodeSafe (hslots ▸ hord) _
  · exact nodeSafe_ok _

@[simp] theorem phaseCalls_globals (N : Nat) (slots : List (Option Nat)) (ctxs : List CompCtx)
    (order : List Nat) : (phaseCalls N slots ctxs order).filterMap InitCall.globalOf = [0] := by
  unfold phaseCalls; split_ifs <;> simp [List.filterMap_map, InitCall.globalOf, Function.comp_def]

@[simp] theorem phaseCalls_perNodes (N : Nat) (slots : List (Option Nat)) (ctxs : List CompCtx)
    (order : List Nat) :
    (phaseCalls N slots ctxs order).filterMap InitCall.perNodeOf = order.map (firstOn ctxs) := by
  unfold phaseCalls
  split_ifs <;> simp [List.filterMap_map, InitCall.perNodeOf, Function.comp_def]

@[simp] theorem phaseCalls_perThreads (N : Nat) (slots : List (Option Nat)) (ctxs : List CompCtx)
    (order : List Nat) :
    (phaseCalls N slots ctxs order).filterMap InitCall.perThreadOf = List.range ctxs.length := by
  unfold phaseCalls
  split_ifs <;> simp [List.filterMap_map, InitCall.perThreadOf, Function.comp_def]

@[simp] theorem phaseCalls_offloadables (N : Nat) (slots : List (Option Nat))
    (ctxs : List CompCtx) (order : List Nat) :
    (phaseCalls N slots ctxs order).filterMap InitCall.offloadableOf =
      if N > 0 then order.map (slotVal slots) else [] := by
  unfold phaseCalls
  split_ifs <;> simp [List.filterMap_map, InitCall.offloadableOf, Function.comp_def]

@[simp] theorem phaseCalls_loopStarts (N : Nat) (slots : List (Option Nat))
    (ctxs : List CompCtx) (order : List Nat) :
    (phaseCalls N slots ctxs order).filterMap InitCall.loopStartOf =
      if N > 0 then order.map (slotVal slots) else [] := by
  unfold phaseCalls
  split_ifs <;> simp [List.filterMap_map, InitCall.loopStartOf, Function.comp_def]

/-- Every `perNode` call of `phaseCalls` comes before every `perThread` call. -/
theorem phaseCalls_split (N : Nat) (slots : List (Option Nat)) (ctxs : List CompCtx)
    (order : List Nat) :
    ∃ l₁ l₂, phaseCalls N slots ctxs order = l₁ ++ l₂ ∧
      l₁.filterMap InitCall.perThreadOf = [] ∧ l₂.filterMap InitCall.perNodeOf = [] := by
  refine ⟨[.global 0] ++ order.map (fun n => .perNode (firstOn ctxs n)) ++
    (if N > 0 then order.map fun n => .offloadable (slotVal slots n) (firstOn ctxs n) else []),
    (List.range ctxs.length).map .perThread ++
      (if N > 0 then order.map fun n => .loopStart (slotVal slots n) else []),
    by simp [phaseCalls], ?_, ?_⟩ <;>
  split_ifs <;> simp [List.filterMap_map, InitCall.perThreadOf, InitCall.perNodeOf,
    Function.comp_def]

/-! ## From the coprocessor spawn to the per-thread init -/

/-- With coprocessor threads, every node hosting a computation thread hosts a
coprocessor thread. -/
def CoprocCovers (m : Machine) (c : SysConf) : Prop :=
  c.coprocThreadConfs ≠ [] → ∀ t ∈ c.compThreadConfs, ∃ u ∈ c.coprocThreadConfs,
    coprocNode m u.coreId = m.nodeOfCpu t.coreId

/-- Every coprocessor's device has `COPROC_CTX_PER_COMPTHREAD` contexts for
each computation thread paired with it; it is made with them for each
computation thread of its node (lines 555-560). -/
def CtxsSuffice (m : Machine) (c : SysConf) : Prop :=
  ∀ ku ∈ c.coprocThreadConfs.enum, c.coprocCtxPerCompthread * pairedCount c c.compThreadConfs ku.1 ≤
    compThreadsOn m c (coprocNode m ku.2.coreId) * c.coprocCtxPerCompthread

instance (m : Machine) (c : SysConf) : Decidable (CtxsSuffice m c) :=
  inferInstanceAs (Decidable (∀ ku ∈ c.coprocThreadConfs.enum, _ ≤ _))

/-- After the spawn loop, the devices have the contexts `CtxsSuffice` counts. -/
theorem devContexts_of_suffice {lim : Limits} {m : Machine} {c : SysConf} {co : CoprocBoot}
    (hco : spawnCoprocs lim m c = .ok co) (h : CtxsSuffice m c) (k : Nat) :
    c.coprocCtxPerCompthread * pairedCount c c.compThreadConfs k ≤
      devContexts c.coprocCtxPerCompthread co.ctxs k := by
  by_cases hk : k < c.coprocThreadConfs.length
  · have hn : co.ctxs[k]?.map CoprocCtx.nodeId = some (coprocNode m c.coprocThreadConfs[k].coreId) := by
      rw [← List.getElem?_map, (spawnCoprocs_ok_inv hco).nodes, List.getElem?_map,
        List.getElem?_eq_getElem hk]; rfl
    obtain ⟨x, hx, hxn⟩ := Option.map_eq_some'.1 hn
    rw [devContexts, hx, Option.map_some', Option.getD_some,
      spawnCoprocs_numComp hco x (List.getElem?_mem hx), hxn]
    exact h (k, c.coprocThreadConfs[k]) (List.mem_enum_iff_getElem?.2 (List.getElem?_eq_getElem hk))
  · have : pairedCount c c.compThreadConfs k = 0 := by
      rw [pairedCount, ← List.countP_eq_length_filter, List.countP_eq_zero]
      intro t _ ht
      exact hk (lastIdx_eq_some (beq_iff_eq.1 ht)).1
    simp [this]

/-- A coprocessor on the node of every computation thread it serves has the
contexts that thread draws. -/
theorem ctxsSuffice_of_local {m : Machine} {c : SysConf}
    (hlocal : ∀ t ∈ c.compThreadConfs, ∀ u ∈ c.coprocThreadConfs,
      u.taskinqIdx = t.taskinqIdx → coprocNode m u.coreId = m.nodeOfCpu t.coreId) :
    CtxsSuffice m c := by
  rintro ⟨k, u⟩ hku
  have hu := List.mem_enum_iff_getElem?.1 hku
  rw [Nat.mul_comm (compThreadsOn m c _)]
  refine Nat.mul_le_mul_left _ ?_
  simp only [pairedCount, compThreadsOn, ← List.countP_eq_length_filter]
  refine List.countP_mono_left fun t ht hp => ?_
  obtain ⟨hlt, htq⟩ := lastIdx_eq_some (beq_iff_eq.1 hp)
  have e : c.coprocThreadConfs[k] = u := by simpa [List.getElem?_eq_getElem hlt] using hu
  rw [beq_iff_eq, ← hlocal t ht u (e ▸ List.getElem_mem hlt) (by rw [← e]; simpa using htq)]

/-- A covered node has a coprocessor context in its slot. -/
theorem slot_of_covered {lim : Limits} {m : Machine} {cs : List CoprocThreadConf}
    {co : CoprocBoot} (hco : CoprocInv lim m cs co) {n : Nat} (hn : n < m.numNodes)
    (hu : ∃ u ∈ cs, coprocNode m u.coreId = n) : ∃ k, co.coprocessorThreads[n]? = some (some k) := by
  rw [hco.slots n hn, slotOf]
  cases h : lastIdx (fun t => coprocNode m t.coreId == n) cs with
  | some k => exact ⟨k, rfl⟩
  | none =>
    obtain ⟨u, hu, e⟩ := hu
    simpa [e] using lastIdx_eq_none.1 h u hu

/-- **What a run that got through line 788 leaves**: both loops' invariants,
and `num_nodes ≤ NBA_MAX_NODES` (lines 742-744 would index `node_initialized`
out of range otherwise). -/
theorem spawnAndInit_ok {lim : Limits} {m : Machine} {c : SysConf} {so : SetOrder}
    {co : CoprocBoot} {cp : CompBoot} {calls : List InitCall}
    (h : spawnAndInit lim m c so = .ok (co, cp, calls)) :
    CoprocInv lim m c.coprocThreadConfs co ∧ CompInv lim m c co c.compThreadConfs cp ∧
      m.numNodes ≤ lim.maxNodes := by
  obtain ⟨co', hco, h⟩ := bind_eq_ok.1 h
  obtain ⟨cp', hcp, h⟩ := bind_eq_ok.1 h
  obtain ⟨calls', hph, h⟩ := bind_eq_ok.1 h
  cases h
  have hci := spawnCoprocs_ok_inv hco
  refine ⟨hci, createCompCtxs_ok_inv hci hcp, ?_⟩
  cases hemp : cp.ctxs.isEmpty
  · simp only [initPhases, hemp, Bool.false_eq_true, if_false, pure_eq_ok, ok_bind] at hph
    obtain ⟨f, hf, -⟩ := bind_eq_ok.1 hph
    simpa using clearFlags_ok_le hf
  · simp [initPhases, hemp] at hph

/-- **A run that got through line 788 made the calls `phaseCalls`**, on
computation contexts all below `num_nodes`, with a coprocessor in the slot of
each of their nodes when there are coprocessor threads. -/
theorem spawnAndInit_ok_calls {lim : Limits} {m : Machine} {c : SysConf} {so : SetOrder}
    {co : CoprocBoot} {cp : CompBoot} {calls : List InitCall}
    (h : spawnAndInit lim m c so = .ok (co, cp, calls)) :
    cp.ctxs ≠ [] ∧ (∀ x ∈ cp.ctxs, x.nodeId < m.numNodes) ∧
      (c.coprocThreadConfs.length > 0 → ∀ x ∈ cp.ctxs,
        ∃ k, co.coprocessorThreads[x.nodeId]? = some (some k)) ∧
      calls = phaseCalls c.coprocThreadConfs.length co.coprocessorThreads cp.ctxs
        (so.enum (cp.ctxs.map CompCtx.nodeId)) := by
  obtain ⟨co', -, h⟩ := bind_eq_ok.1 h
  obtain ⟨cp', -, h⟩ := bind_eq_ok.1 h
  obtain ⟨calls', hph, h⟩ := bind_eq_ok.1 h
  cases h
  exact initPhases_ok hph

/-- **Lines 522-788 make no out-of-range or indeterminate node access** when
there is a computation thread and every coprocessor and computation thread
sits on a node below `num_nodes ≤ NBA_MAX_NODES`. -/
theorem spawnAndInit_nodeSafe {lim : Limits} {m : Machine} {c : SysConf} (so : SetOrder)
    (hN : m.numNodes ≤ lim.maxNodes)
    (hcop : ∀ t ∈ c.coprocThreadConfs, coprocNode m t.coreId < m.numNodes)
    (hcomp : ∀ t ∈ c.compThreadConfs, m.nodeOfCpu t.coreId < m.numNodes)
    (hne : c.compThreadConfs ≠ []) : NodeSafe (spawnAndInit lim m c so) := by
  obtain ⟨co, hco, hci⟩ := spawnCoprocs_spec hcop hN
  simp only [spawnAndInit, hco, ok_bind]
  refine nodeSafe_bind (createCompCtxs_nodeSafe hci fun t ht => (hcomp t ht).trans_le hN)
    fun cp hcp => ?_
  have hi := createCompCtxs_ok_inv hci hcp
  have hlen : cp.ctxs.length = c.compThreadConfs.length := by
    simpa using congrArg List.length hi.nodes
  refine nodeSafe_bind (initPhases_nodeSafe so (fun h => hne (List.eq_nil_of_length_eq_zero
    (by rw [← hlen, h]; rfl))) hN hci.slots_length fun x hx => ?_) fun _ _ => nodeSafe_ok _
  obtain ⟨t, ht, e, -⟩ := hi.ctx_thread x hx
  exact e ▸ hcomp t ht

/-- Lines 522-788 under the premises of `initPhases_once`: both loops keep
their invariants and the phases make the calls `phaseCalls`. -/
theorem spawnAndInit_eq {lim : Limits} {m : Machine} {c : SysConf} (so : SetOrder)
    (hne : c.compThreadConfs ≠ [])
    (hcomp : ∀ t ∈ c.compThreadConfs, m.nodeOfCpu t.coreId < m.numNodes)
    (hN : m.numNodes ≤ lim.maxNodes)
    (hcop : ∀ t ∈ c.coprocThreadConfs, coprocNode m t.coreId < m.numNodes)
    (hcov : CoprocCovers m c) (hw : TaskinqClear c) (hctx : CtxsSuffice m c) :
    ∃ co cp, CoprocInv lim m c.coprocThreadConfs co ∧ CompInv lim m c co c.compThreadConfs cp ∧
      (∀ x ∈ cp.ctxs, x.nodeId < m.numNodes) ∧
      spawnAndInit lim m c so = .ok (co, cp, phaseCalls c.coprocThreadConfs.length
        co.coprocessorThreads cp.ctxs (so.enum (cp.ctxs.map CompCtx.nodeId))) := by
  obtain ⟨co, hco, hci⟩ := spawnCoprocs_spec hcop hN
  obtain ⟨cp, hcp, hi⟩ := createCompCtxs_spec hci (fun t ht => (hcomp t ht).trans_le hN) hw
    (devContexts_of_suffice hco hctx)
  have hlen : cp.ctxs.length = c.compThreadConfs.length := by
    simpa using congrArg List.length hi.nodes
  have hnodes : ∀ x ∈ cp.ctxs, x.nodeId < m.numNodes := fun x hx => by
    obtain ⟨t, ht, e, -⟩ := hi.ctx_thread x hx; exact e ▸ hcomp t ht
  have hslots : c.coprocThreadConfs.length > 0 → ∀ x ∈ cp.ctxs,
      ∃ k, co.coprocessorThreads[x.nodeId]? = some (some k) := fun h0 x hx => by
    obtain ⟨t, ht, e, -⟩ := hi.ctx_thread x hx
    exact slot_of_covered hci (hnodes x hx) (e ▸ hcov (List.ne_nil_of_length_pos h0) t ht)
  have hne' : cp.ctxs ≠ [] := fun h => hne (List.eq_nil_of_length_eq_zero (by simp [← hlen, h]))
  exact ⟨co, cp, hci, hi, hnodes,
    by simp [spawnAndInit, hco, hcp, initPhases_eq so hne' hN hnodes hslots]⟩

/-- **Initialisation phases.**  The global init runs once, on the first
context; the per-node init once per node with contexts, on its first; the
per-thread init once per context, after them; and exactly the contexts of a
node share `nls[n]`. -/
theorem initPhases_once (lim : Limits) (m : Machine) (c : SysConf) (so : SetOrder)
    (hne : c.compThreadConfs ≠ [])
    (hcomp : ∀ t ∈ c.compThreadConfs, m.nodeOfCpu t.coreId < m.numNodes)
    (hN : m.numNodes ≤ lim.maxNodes)
    (hcop : ∀ t ∈ c.coprocThreadConfs, coprocNode m t.coreId < m.numNodes)
    (hcov : CoprocCovers m c) (hw : TaskinqClear c) (hctx : CtxsSuffice m c) :
    ∃ co cp calls, spawnAndInit lim m c so = .ok (co, cp, calls) ∧
      calls.filterMap InitCall.globalOf = [0] ∧
      (calls.filterMap InitCall.perNodeOf).Perm
        ((cp.ctxs.map CompCtx.nodeId).dedup.map (firstOn cp.ctxs)) ∧
      calls.filterMap InitCall.perThreadOf = List.range cp.ctxs.length ∧
      (∃ l₁ l₂, calls = l₁ ++ l₂ ∧ l₁.filterMap InitCall.perThreadOf = [] ∧
        l₂.filterMap InitCall.perNodeOf = []) ∧
      (∀ x ∈ cp.ctxs, cp.nls[x.nodeId]? = some x.nls ∧ x.nls.isSome) ∧
      (∀ x ∈ cp.ctxs, ∀ y ∈ cp.ctxs, x.nls = y.nls ↔ x.nodeId = y.nodeId) := by
  obtain ⟨co, cp, -, hi, -, h⟩ := spawnAndInit_eq so hne hcomp hN hcop hcov hw hctx
  refine ⟨co, cp, _, h, by simp, by simpa using (so.perm _).map (firstOn cp.ctxs), by simp,
    phaseCalls_split _ _ _ _, fun x hx => ?_, fun x hx y hy => ?_⟩
  · obtain ⟨v, hv, e⟩ := hi.ctx_nls x hx
    simp [hv, e]
  · obtain ⟨v, hv, ex⟩ := hi.ctx_nls x hx
    obtain ⟨w, hw, ey⟩ := hi.ctx_nls y hy
    rw [ex, ey, Option.some.injEq]
    exact ⟨fun e => hi.nls.inj _ _ _ hv (e ▸ hw), fun e => by rw [e] at hv; simpa [hv] using hw⟩

/-- A two-node machine: core `i` on node `i`, one port with 16 queues each way. -/
def twoNodes : Machine := ⟨2, 4, 1, id, fun _ => 0, fun _ => 16, fun _ => 16⟩

/-- One I/O, one computation and one coprocessor thread on each node; each
computation thread takes its task-input queue from its node's coprocessor and
its RX queue from its node's I/O thread. -/
def coveredConf : SysConf :=
  ⟨[⟨0, .swrxq⟩, ⟨1, .swrxq⟩, ⟨0, .taskinq⟩, ⟨1, .taskinq⟩, ⟨0, .taskoutq⟩], ⟨64, 64⟩,
    [⟨0, 0, [⟨0, 0⟩]⟩, ⟨1, 1, []⟩], [⟨0, 0, 2, 4⟩, ⟨1, 1, 3, 4⟩], [⟨0, 0, 2⟩, ⟨1, 0, 3⟩], 1, 1,
    by decide, by decide, by decide⟩

theorem initPhases_once_covered :
    ∃ co cp calls, spawnAndInit ⟨2, 1, 1⟩ twoNodes coveredConf SetOrder.dedup = .ok (co, cp, calls) ∧
      calls.filterMap InitCall.globalOf = [0] ∧
      calls.filterMap InitCall.perThreadOf = List.range cp.ctxs.length :=
  let ⟨co, cp, calls, h, hg, _, ht, _⟩ := initPhases_once ⟨2, 1, 1⟩ twoNodes coveredConf
    SetOrder.dedup (by decide) (by decide) (by decide) (by decide)
    (by unfold CoprocCovers; decide) (by unfold TaskinqClear; decide) (by decide)
  ⟨co, cp, calls, h, hg, ht⟩

/-- `n` queues, all RX queues of node 0. -/
def rxQueues (n : Nat) : List QueueConf := List.replicate n ⟨0, .swrxq⟩

/-- Computation threads on nodes 0 and 1 both sending to the coprocessor of
node 1, whose device has contexts for node 1's thread alone. -/
def crossConf : SysConf :=
  ⟨rxQueues 5, ⟨64, 64⟩, [], [⟨0, 0, 2, 4⟩, ⟨1, 1, 2, 4⟩], [⟨0, 0, 3⟩, ⟨1, 0, 2⟩], 1, 1,
    by decide, by decide, by decide⟩

/-- Each premise of `initPhases_once` is needed: without one, `main` reaches
undefined behaviour, or the assertion of line 701 when two threads draw on a
device made for one. -/
theorem spawnAndInit_premises_needed :
    spawnAndInit ⟨1, 1, 1⟩ twoNodes
        ⟨rxQueues 1, ⟨64, 64⟩, [], [⟨1, 0, 0, 0⟩], [], 1, 1, by decide, by decide, by decide⟩
        SetOrder.dedup = .error (.undefined (.index .nls 1 1)) ∧
    spawnAndInit ⟨2, 1, 1⟩ twoNodes
        ⟨rxQueues 2, ⟨64, 64⟩, [], [⟨1, 0, 0, 1⟩], [⟨0, 0, 1⟩], 1, 1, by decide, by decide, by decide⟩
        SetOrder.dedup = .error (.undefined (.null "coprocessor_threads[node_id].coproc_ctx")) ∧
    spawnAndInit ⟨2, 1, 1⟩ twoNodes
        ⟨rxQueues 3, ⟨64, 64⟩, [], [⟨0, 0, 1, 1⟩, ⟨0, 2, 0, 1⟩], [⟨0, 0, 1⟩], 1, 1,
          by decide, by decide, by decide⟩ SetOrder.dedup =
      .error (.undefined (.mistyped 0)) ∧
    spawnAndInit ⟨4, 1, 1⟩ twoNodes
        ⟨rxQueues 2, ⟨64, 64⟩, [], [⟨0, 0, 1, 1⟩], [⟨2, 0, 1⟩], 1, 1, by decide, by decide, by decide⟩
        SetOrder.dedup = .error (.undefined (.index .coprocessorThreads 2 2)) ∧
    spawnAndInit ⟨2, 1, 1⟩ twoNodes crossConf SetOrder.dedup = .error (.assertFail "cctx != nullptr") :=
  ⟨rfl, rfl, rfl, rfl, rfl⟩

end Nba
