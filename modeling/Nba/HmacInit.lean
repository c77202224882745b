import Nba.Phases
import Nba.HmacSha1

/-!
# The element's initialisation over the bootstrap

`hmacInit` runs `IPsecAuthHMACSHA1`'s part of the calls of lines 725-788
(`InitCall`), each on the node-local storage of its context.  With
`spawnAndInit_ok_calls` it gives `hmacInit_lifecycle`: in every run of `main`
that gets through line 788 the element's initialisation gets through, frees
the key array once, and leaves each context pointing to its node's copies.
-/

namespace Nba

/-- The element's side of the bootstrap: its globals and the node-local
storages, and its instance in the graph of each computation context. -/
structure HmacBoot where
  g : HmacState
  elems : List HmacElem

/-- An element as constructed: all its pointers null. -/
def HmacElem.null : HmacElem := ⟨none, none, none⟩

/-- The pointers `initialize` takes from storage `sid`. -/
def HmacElem.ofStorage (sid : Nat) : HmacElem :=
  ⟨some ⟨sid, "h_hmac_sa_table"⟩, some ⟨sid, "h_hmac_flows"⟩, some ⟨sid, "d_hmac_flows_ptr"⟩⟩

/-! ## Algorithm -/

/-- `ctx->node_local_storage` of computation context `j`, dereferenced. -/
def ctxStorage (ctxs : List CompCtx) (j : Nat) : Except Stop Nat :=
  match ctxs[j]?.bind CompCtx.nls with
  | some sid => .ok sid
  | none => .error (.undefined (.null "ctx->node_local_storage"))

/-- What the call `call` of lines 725-788 does to the element, with
`num_tunnels = N`. -/
def hmacCall (N : Nat) (ctxs : List CompCtx) (call : InitCall) (s : HmacBoot) :
    Except Stop HmacBoot :=
  match call with
  | .global _ => do
    let g ← initializeGlobal N s.g
    pure { s with g }
  | .perNode j => do
    let g ← initializePerNode N (← ctxStorage ctxs j) s.g
    pure { s with g }
  | .offloadable k j => do
    let (g, e) ← accelInitHandler k (← ctxStorage ctxs j) s.g (s.elems.getD j .null)
    pure ⟨g, s.elems.set j e⟩
  | .perThread j => do
    let (g, e) := initializeThread (← ctxStorage ctxs j) s.g
    pure ⟨g, s.elems.set j e⟩
  | .loopStart _ => pure s

/-- The element's part of lines 725-788, from the zeroed globals
(`hmac_sa_entry_array` null, `hmac_sa_table` empty) and empty storages. -/
def hmacInit (N : Nat) (ctxs : List CompCtx) (calls : List InitCall) : Except Stop HmacBoot :=
  forEach (hmacCall N ctxs) calls ⟨⟨none, [], 0, fun _ _ => none⟩, List.replicate ctxs.length .null⟩

/-! ## Lemmas -/

/-- Storage `sid` holds a node's copies: the table `tab`, the key array `arr`,
and the device-pointer slot. -/
structure NodeCopy (tab : List (IpPair × Nat)) (arr : List (Option SaEntry))
    (nls : Nat → String → Option Region) (sid : Nat) : Prop where
  table : nls sid "h_hmac_sa_table" = some (.saTable tab)
  flows : nls sid "h_hmac_flows" = some (.flows arr)
  devPtr : ∃ d, nls sid "d_hmac_flows_ptr" = some (.devPtr d)

section Copies
variable {tab : List (IpPair × Nat)} {arr : List (Option SaEntry)}
  {nls : Nat → String → Option Region}

/-- The allocations of `initialize_per_node` make a copy at `sid` and keep
every copy of the same contents. -/
theorem nodeCopy_perNode {sid : Nat} (sid' : Nat) (h : sid' = sid ∨ NodeCopy tab arr nls sid') :
    NodeCopy tab arr (perNodeNls nls sid tab arr) sid' := by
  by_cases e : sid' = sid
  · subst e; exact ⟨by simp [perNodeNls], by simp [perNodeNls], none, by simp [perNodeNls]⟩
  · obtain ⟨h1, h2, d, h3⟩ := h.resolve_left e
    exact ⟨by simp [perNodeNls, e, h1], by simp [perNodeNls, e, h2], d, by simp [perNodeNls, e, h3]⟩

/-- Writing a device pointer keeps every copy. -/
theorem nodeCopy_devPtr {sid sid' : Nat} {d : Option Nat} (h : NodeCopy tab arr nls sid') :
    NodeCopy tab arr (nlsAlloc nls sid "d_hmac_flows_ptr" (.devPtr d)) sid' := by
  obtain ⟨h1, h2, d', h3⟩ := h
  by_cases e : sid' = sid
  · subst e; exact ⟨by simp [h1], by simp [h2], d, by simp⟩
  · exact ⟨by simp [e, h1], by simp [e, h2], d', by simp [e, h3]⟩

/-- `accel_init_handler` on a storage with a copy records coprocessor `k`'s
buffer there and points the element's `flows` and `flows_d` into it. -/
theorem accelInitHandler_eq {k sid : Nat} {g : HmacState} {e : HmacElem}
    (hc : NodeCopy tab arr g.nls sid) :
    accelInitHandler k sid g e = .ok (
      { g with nls := nlsAlloc g.nls sid "d_hmac_flows_ptr" (.devPtr (some k)) },
      { e with flows := some ⟨sid, "h_hmac_flows"⟩, flowsD := some ⟨sid, "d_hmac_flows_ptr"⟩ }) := by
  obtain ⟨d, hd⟩ := hc.devPtr
  simp [accelInitHandler, nlsGetAlloc, hd, hc.flows]

/-- `initialize` on a storage with a copy takes its three pointers there and
frees the key array if it is still allocated. -/
theorem initializeThread_eq {sid : Nat} {g : HmacState} (hc : NodeCopy tab arr g.nls sid) :
    initializeThread sid g = (
      { g with entryArray := none, frees := g.frees + if g.entryArray.isSome then 1 else 0 },
      .ofStorage sid) := by
  obtain ⟨h1, h2, d, h3⟩ := hc
  rcases g with ⟨_ | a, t, f, n⟩ <;> simp_all [initializeThread, nlsGetAlloc, HmacElem.ofStorage]

end Copies

theorem ctxStorage_eq_ok {ctxs : List CompCtx} {j sid : Nat} :
    ctxStorage ctxs j = .ok sid ↔ ctxs[j]?.bind CompCtx.nls = some sid := by
  unfold ctxStorage; split <;> rename_i h <;> simp [h]

/-- A call of `accel_init_handler` that got through wrote coprocessor `k`'s
device buffer into the storage of its context. -/
theorem hmacCall_offloadable_ok {N : Nat} {ctxs : List CompCtx} {k j : Nat} {b b' : HmacBoot}
    (h : hmacCall N ctxs (.offloadable k j) b = .ok b') :
    ∃ sid, ctxStorage ctxs j = .ok sid ∧
      b'.g.nls = nlsAlloc b.g.nls sid "d_hmac_flows_ptr" (.devPtr (some k)) := by
  obtain ⟨sid, hs, h⟩ := bind_eq_ok.1 h
  obtain ⟨⟨g, e⟩, ha, h⟩ := bind_eq_ok.1 h
  cases h
  refine ⟨sid, hs, ?_⟩
  simp only [accelInitHandler, nlsGetAlloc] at ha
  cases hd : b.g.nls sid "d_hmac_flows_ptr" <;> cases hf : b.g.nls sid "h_hmac_flows" <;>
    simp [hd, hf] at ha
  exact congrArg HmacState.nls ha.1.symm

section Phases
variable (N : Nat) (ctxs : List CompCtx)

/-- The per-node phase puts a copy of the table and of the key array in the
storage of each of its contexts, and keeps every copy already made. -/
theorem perNodes_eq {arr : List (Option SaEntry)} (hl : arr.length = N) :
    ∀ (cs : List InitCall) (g : HmacState) (es : List HmacElem), g.entryArray = some arr →
      (∀ c ∈ cs, ∃ j sid, c = .perNode j ∧ ctxStorage ctxs j = .ok sid) →
      ∃ nls, forEach (hmacCall N ctxs) cs ⟨g, es⟩ = .ok ⟨{ g with nls }, es⟩ ∧
        ∀ sid, ((∃ j, .perNode j ∈ cs ∧ ctxStorage ctxs j = .ok sid) ∨
          NodeCopy (copyTable g.hmacSaTable) arr g.nls sid) →
          NodeCopy (copyTable g.hmacSaTable) arr nls sid
  | [], g, _, _, _ => ⟨g.nls, rfl, fun _ h => h.resolve_left (by simp)⟩
  | c :: cs, g, es, he, hcs => by
    obtain ⟨j, sid₀, rfl, hj⟩ := hcs _ (List.mem_cons_self _ _)
    obtain ⟨nls, h, hc⟩ := perNodes_eq hl cs
      { g with nls := perNodeNls g.nls sid₀ (copyTable g.hmacSaTable) arr } es he
      fun c hc => hcs c (List.mem_cons_of_mem _ hc)
    refine ⟨nls, ?_, fun sid hs => hc sid ?_⟩
    · rw [forEach_cons, hmacCall]
      simp only [hj, ok_bind, initializePerNode_eq he hl, pure_eq_ok]
      exact h
    · rcases hs with ⟨j', hj', hs⟩ | hs
      · rcases List.mem_cons.1 hj' with e | hj'
        · cases e
          exact .inr (nodeCopy_perNode sid (.inl (Except.ok.inj (hs.symm.trans hj))))
        · exact .inl ⟨j', hj', hs⟩
      · exact .inr (nodeCopy_perNode sid (.inr hs))

/-- The offload phase, on storages with copies, keeps the key array, the
number of frees, the number of elements and every copy. -/
theorem offloadables_eq {tab : List (IpPair × Nat)} {arr : List (Option SaEntry)} :
    ∀ (cs : List InitCall) (b : HmacBoot),
      (∀ c ∈ cs, ∃ k j sid, c = .offloadable k j ∧ ctxStorage ctxs j = .ok sid ∧
        NodeCopy tab arr b.g.nls sid) →
      ∃ b', forEach (hmacCall N ctxs) cs b = .ok b' ∧ b'.g.entryArray = b.g.entryArray ∧
        b'.g.frees = b.g.frees ∧ b'.elems.length = b.elems.length ∧
        ∀ sid, NodeCopy tab arr b.g.nls sid → NodeCopy tab arr b'.g.nls sid
  | [], b, _ => ⟨b, rfl, rfl, rfl, rfl, fun _ h => h⟩
  | c :: cs, b, hcs => by
    obtain ⟨k, j, sid₀, rfl, hj, hc₀⟩ := hcs _ (List.mem_cons_self _ _)
    obtain ⟨b', h, he, hf, hl, hc⟩ := offloadables_eq cs
      ⟨{ b.g with nls := nlsAlloc b.g.nls sid₀ "d_hmac_flows_ptr" (.devPtr (some k)) },
        b.elems.set j
          { b.elems.getD j .null with
            flows := some ⟨sid₀, "h_hmac_flows"⟩, flowsD := some ⟨sid₀, "d_hmac_flows_ptr"⟩ }⟩
      fun c hc => by
        obtain ⟨k', j', sid, e, hs, hcp⟩ := hcs c (List.mem_cons_of_mem _ hc)
        exact ⟨k', j', sid, e, hs, nodeCopy_devPtr hcp⟩
    refine ⟨b', ?_, he, hf, by simpa using hl, fun sid hs => hc sid (nodeCopy_devPtr hs)⟩
    rw [forEach_cons, hmacCall]
    simp only [hj, ok_bind, accelInitHandler_eq hc₀]
    exact h

/-- **The device pointer of a storage after the offload phase**: unchanged if
no call was on that storage, and otherwise the buffer of the coprocessor of
one of the calls on it. -/
theorem offloadables_devPtr (sid : Nat) : ∀ (cs : List InitCall) (b b' : HmacBoot),
    (∀ c ∈ cs, ∃ k j, c = .offloadable k j) → forEach (hmacCall N ctxs) cs b = .ok b' →
      (b'.g.nls sid "d_hmac_flows_ptr" = b.g.nls sid "d_hmac_flows_ptr" ∧
        ∀ k j, .offloadable k j ∈ cs → ctxStorage ctxs j ≠ .ok sid) ∨
      ∃ k j, .offloadable k j ∈ cs ∧ ctxStorage ctxs j = .ok sid ∧
        b'.g.nls sid "d_hmac_flows_ptr" = some (.devPtr (some k))
  | [], b, b', _, h => .inl ⟨by cases h; rfl, by simp⟩
  | c :: cs, b, b', hcs, h => by
    obtain ⟨k₀, j₀, rfl⟩ := hcs _ (List.mem_cons_self _ _)
    rw [forEach_cons] at h
    obtain ⟨b₁, h₁, h⟩ := bind_eq_ok.1 h
    obtain ⟨sid₀, hs₀, hn₁⟩ := hmacCall_offloadable_ok h₁
    rcases offloadables_devPtr sid cs b₁ b' (fun c hc => hcs c (List.mem_cons_of_mem _ hc)) h with
      ⟨he, hno⟩ | ⟨k, j, hm, hs, hv⟩
    · by_cases e : sid = sid₀
      · subst e
        exact .inr ⟨k₀, j₀, List.mem_cons_self _ _, hs₀, by simp [he, hn₁]⟩
      · refine .inl ⟨by simp [he, hn₁, e], fun k j hm hs => ?_⟩
        rcases List.mem_cons.1 hm with hm | hm
        · cases hm; exact e (Except.ok.inj (hs.symm.trans hs₀))
        · exact hno k j hm hs
    · exact .inr ⟨k, j, List.mem_cons_of_mem _ hm, hs, hv⟩

/-- The per-thread phase over the first `k` contexts: the first frees the key
array, the others find it freed, and each element points into its context's
storage. -/
theorem perThreads_eq {tab : List (IpPair × Nat)} {arr : List (Option SaEntry)} {b : HmacBoot}
    (he : b.g.entryArray = some arr) (hf : b.g.frees = 0)
    (hst : ∀ j < ctxs.length, ∃ sid, ctxStorage ctxs j = .ok sid ∧ NodeCopy tab arr b.g.nls sid)
    (hl : b.elems.length = ctxs.length) :
    ∀ k ≤ ctxs.length, ∃ b', forEach (hmacCall N ctxs) ((List.range k).map .perThread) b = .ok b' ∧
      b'.g.nls = b.g.nls ∧ b'.g.entryArray = (if k = 0 then some arr else none) ∧
      b'.g.frees = (if k = 0 then 0 else 1) ∧ b'.elems.length = ctxs.length ∧
      ∀ j < k, ∃ sid, ctxStorage ctxs j = .ok sid ∧ b'.elems[j]? = some (.ofStorage sid)
  | 0, _ => ⟨b, rfl, rfl, by simp [he], by simp [hf], hl, by simp⟩
  | k + 1, hk => by
    obtain ⟨b', h, hn, he', hf', hl', hv⟩ := perThreads_eq he hf hst hl k (by omega)
    obtain ⟨sid, hs, hc⟩ := hst k (by omega)
    refine ⟨⟨(initializeThread sid b'.g).1, b'.elems.set k (.ofStorage sid)⟩, ?_,
      by rw [initializeThread_eq (hn ▸ hc), hn], by rw [initializeThread_eq (hn ▸ hc)]; rfl, ?_,
      by simp [hl'], fun j hj => ?_⟩
    · rw [List.range_succ, List.map_append, forEach_append, h, ok_bind, List.map_singleton,
        forEach_cons, hmacCall]
      simp only [hs, ok_bind, initializeThread_eq (hn ▸ hc)]
      rfl
    · rw [initializeThread_eq (hn ▸ hc)]
      cases k <;> simp [he', hf']
    · by_cases e : k = j
      · subst e; exact ⟨sid, hs, List.getElem?_set_self (by omega)⟩
      · obtain ⟨sid', hs', hv'⟩ := hv j (by omega)
        exact ⟨sid', hs', by rw [List.getElem?_set_ne e, hv']⟩

/-- The loop-start phase leaves the element alone. -/
theorem loopStarts_eq : ∀ (cs : List InitCall) (b : HmacBoot), (∀ c ∈ cs, ∃ k, c = .loopStart k) →
    forEach (hmacCall N ctxs) cs b = .ok b
  | [], _, _ => rfl
  | c :: cs, b, hcs => by
    obtain ⟨k, rfl⟩ := hcs _ (List.mem_cons_self _ _)
    exact loopStarts_eq cs b fun c hc => hcs c (List.mem_cons_of_mem _ hc)

/-- **The element over the phases.**  For `0 < num_tunnels < 2^25` the calls
`phaseCalls` get through, free the key array once, and leave each element
pointing into its context's storage, which holds the table, the keys and its
coprocessor's device buffer. -/
theorem hmacInit_phaseCalls (numCoprocs : Nat) (slots : List (Option Nat)) (order : List Nat)
    (h0 : 0 < N) (hN : N < 2 ^ 25) (hne : ctxs ≠ [])
    (hord : ∀ n ∈ order, ∃ sid, ctxStorage ctxs (firstOn ctxs n) = .ok sid)
    (hst : ∀ j < ctxs.length, ∃ sid, ctxStorage ctxs j = .ok sid ∧
      ∃ n ∈ order, ctxStorage ctxs (firstOn ctxs n) = .ok sid) :
    ∃ b arr, hmacInit N ctxs (phaseCalls numCoprocs slots ctxs order) = .ok b ∧
      b.g.frees = 1 ∧ b.g.entryArray = none ∧
      (∀ i < N, arr[i]? = some (some ⟨i, hmacKeyBytes⟩)) ∧
      (numCoprocs > 0 → (∀ n ∈ order, ∀ n' ∈ order, ∀ sid, ctxStorage ctxs (firstOn ctxs n) = .ok sid →
          ctxStorage ctxs (firstOn ctxs n') = .ok sid → n = n') →
        ∀ n ∈ order, ∀ sid, ctxStorage ctxs (firstOn ctxs n) = .ok sid →
          b.g.nls sid "d_hmac_flows_ptr" = some (.devPtr (some (slotVal slots n)))) ∧
      ∀ j < ctxs.length, ∃ sid, ctxStorage ctxs j = .ok sid ∧
        b.elems[j]? = some (.ofStorage sid) ∧ NodeCopy (tunnels N) arr b.g.nls sid := by
  obtain ⟨arr, hg, hl, hv⟩ := initializeGlobal_eq h0 hN (g := ⟨none, [], 0, fun _ _ => none⟩) rfl
  -- the global init
  have h1 : forEach (hmacCall N ctxs) [.global 0]
      ⟨⟨none, [], 0, fun _ _ => none⟩, List.replicate ctxs.length .null⟩ =
      .ok ⟨⟨some arr, tunnels N, 0, fun _ _ => none⟩, List.replicate ctxs.length .null⟩ := by
    simp only [forEach_cons, hmacCall, hg, ok_bind, pure_eq_ok]; rfl
  -- the per-node phase
  obtain ⟨nls, h2, hc2⟩ := perNodes_eq N ctxs hl
    (order.map fun n => .perNode (firstOn ctxs n)) ⟨some arr, tunnels N, 0, fun _ _ => none⟩
    (List.replicate ctxs.length .null) rfl (fun c hc => by
      obtain ⟨n, hn, rfl⟩ := List.mem_map.1 hc
      obtain ⟨sid, hs⟩ := hord n hn
      exact ⟨_, sid, rfl, hs⟩)
  rw [copyTable_eq (tunnels_nodup hN)] at hc2
  have hcopy : ∀ n ∈ order, ∀ sid, ctxStorage ctxs (firstOn ctxs n) = .ok sid →
      NodeCopy (tunnels N) arr nls sid := fun n hn sid hs =>
    hc2 sid (.inl ⟨_, List.mem_map_of_mem (fun n => InitCall.perNode (firstOn ctxs n)) hn, hs⟩)
  -- the offload phase
  obtain ⟨b3, h3, he3, hf3, hl3, hc3⟩ := offloadables_eq N ctxs
    (if numCoprocs > 0 then order.map fun n => .offloadable (slotVal slots n) (firstOn ctxs n)
      else []) ⟨{ entryArray := some arr, hmacSaTable := tunnels N, frees := 0, nls },
        List.replicate ctxs.length .null⟩ (fun c hc => by
      split_ifs at hc
      · obtain ⟨n, hn, rfl⟩ := List.mem_map.1 hc
        obtain ⟨sid, hs⟩ := hord n hn
        exact ⟨_, _, sid, rfl, hs, hcopy n hn sid hs⟩
      · simp at hc)
  -- the per-thread phase
  obtain ⟨b4, h4, hn4, he4, hf4, -, hv4⟩ := perThreads_eq N ctxs he3 hf3 (fun j hj => by
      obtain ⟨sid, hs, n, hn, hs'⟩ := hst j hj
      exact ⟨sid, hs, hc3 sid (hcopy n hn sid hs')⟩) (by simpa using hl3) ctxs.length le_rfl
  -- the loop starts
  have h5 := loopStarts_eq N ctxs
    (if numCoprocs > 0 then order.map fun n => .loopStart (slotVal slots n) else []) b4
    (fun c hc => by split_ifs at hc <;> simp at hc; obtain ⟨n, -, rfl⟩ := hc; exact ⟨_, rfl⟩)
  have hlen : ctxs.length ≠ 0 := fun e => hne (List.eq_nil_of_length_eq_zero e)
  refine ⟨b4, arr, ?_, by simp [hf4, hlen], by simp [he4, hlen], hv,
    fun h0 hinj n hn sid hs => ?_, fun j hj => ?_⟩
  · rw [hmacInit, phaseCalls, forEach_append, forEach_append, forEach_append, forEach_append, h1,
      ok_bind, h2, ok_bind, h3, ok_bind, h4, ok_bind, h5]
  · -- the pointer the offload call of node `n` wrote, the only call on its storage
    rw [hn4]
    rw [if_pos h0] at h3
    rcases offloadables_devPtr N ctxs sid _ _ _ (fun c hc => by
        obtain ⟨n, -, rfl⟩ := List.mem_map.1 hc; exact ⟨_, _, rfl⟩) h3 with
      ⟨-, hno⟩ | ⟨k, j, hm, hs', hv⟩
    · exact absurd hs (hno _ _ (List.mem_map_of_mem
        (fun n => InitCall.offloadable (slotVal slots n) (firstOn ctxs n)) hn))
    · obtain ⟨n', hn', e⟩ := List.mem_map.1 hm
      cases e
      rwa [hinj n' hn' n hn sid hs' hs] at hv
  · obtain ⟨sid, hs, n, hn, hs'⟩ := hst j hj
    obtain ⟨sid', hs'', he⟩ := hv4 j hj
    cases Except.ok.inj (hs.symm.trans hs'')
    exact ⟨sid, hs, he, hn4 ▸ hc3 sid (hcopy n hn sid hs')⟩

end Phases

/-- The element's initialisation over a run of `main` that got through line
788: the key array freed once, and each context's element pointing into the
storage `nls[n]` of its node, which holds the copies and, with coprocessor
threads, the buffer of the coprocessor in the node's slot. -/
theorem hmacInit_run {lim : Limits} {m : Machine} {c : SysConf} {so : SetOrder}
    {co : CoprocBoot} {cp : CompBoot} {calls : List InitCall}
    (h : spawnAndInit lim m c so = .ok (co, cp, calls)) :
    ∃ b arr, hmacInit configure cp.ctxs calls = .ok b ∧ b.g.frees = 1 ∧ b.g.entryArray = none ∧
      (∀ i < configure, arr[i]? = some (some ⟨i, hmacKeyBytes⟩)) ∧
      ∀ (j : Nat) (x : CompCtx), cp.ctxs[j]? = some x → ∃ sid,
        cp.nls[x.nodeId]? = some (some sid) ∧ x.nls = some sid ∧
        b.elems[j]? = some (HmacElem.ofStorage sid) ∧ NodeCopy (tunnels configure) arr b.g.nls sid ∧
        (c.coprocThreadConfs ≠ [] → ∃ k, co.coprocessorThreads[x.nodeId]? = some (some k) ∧
          b.g.nls sid "d_hmac_flows_ptr" = some (.devPtr (some k))) := by
  obtain ⟨-, hi, -⟩ := spawnAndInit_ok h
  obtain ⟨hne, -, hslot, rfl⟩ := spawnAndInit_ok_calls h
  have hperm := so.perm (cp.ctxs.map CompCtx.nodeId)
  have hord : ∀ n ∈ so.enum (cp.ctxs.map CompCtx.nodeId), ∃ x ∈ cp.ctxs, x.nodeId = n :=
    fun n hn => by simpa using hperm.mem_iff.1 hn
  have hin : ∀ x ∈ cp.ctxs, x.nodeId ∈ so.enum (cp.ctxs.map CompCtx.nodeId) :=
    fun x hx => hperm.mem_iff.2 (List.mem_dedup.2 (List.mem_map_of_mem _ hx))
  -- the storage of a node's first context is the node's
  have hfirst : ∀ x ∈ cp.ctxs, ∃ sid, cp.nls[x.nodeId]? = some (some sid) ∧
      ctxStorage cp.ctxs (firstOn cp.ctxs x.nodeId) = .ok sid :=
    fun x hx => let ⟨sid, hn, _, hf⟩ := hi.firstOn_nls hx; ⟨sid, hn, ctxStorage_eq_ok.2 hf⟩
  have hnode : ∀ n ∈ so.enum (cp.ctxs.map CompCtx.nodeId), ∀ sid,
      ctxStorage cp.ctxs (firstOn cp.ctxs n) = .ok sid → cp.nls[n]? = some (some sid) :=
    fun n hn sid hs => by
      obtain ⟨x, hx, rfl⟩ := hord n hn
      obtain ⟨sid', hn', hs'⟩ := hfirst x hx
      rwa [Except.ok.inj (hs'.symm.trans hs)] at hn'
  obtain ⟨b, arr, hb, hf, he, hv, hdev, hj⟩ := hmacInit_phaseCalls configure cp.ctxs
    c.coprocThreadConfs.length co.coprocessorThreads (so.enum (cp.ctxs.map CompCtx.nodeId))
    (by decide) (by decide) hne
    (fun n hn => by
      obtain ⟨x, hx, rfl⟩ := hord n hn
      exact (hfirst x hx).imp fun _ => And.right)
    (fun j hj => by
      have hx := List.getElem_mem hj
      obtain ⟨sid, -, hxs, hfs⟩ := hi.firstOn_nls hx
      exact ⟨sid, ctxStorage_eq_ok.2 (by simp [List.getElem?_eq_getElem hj, hxs]),
        _, hin _ hx, ctxStorage_eq_ok.2 hfs⟩)
  refine ⟨b, arr, hb, hf, he, hv, fun j x hx => ?_⟩
  obtain ⟨hjl, rfl⟩ := List.getElem?_eq_some_iff.1 hx
  have hxm := List.getElem_mem hjl
  obtain ⟨sid, hn, hxs, hfs⟩ := hi.firstOn_nls hxm
  obtain ⟨sid', hs, hel, hc⟩ := hj j hjl
  obtain rfl : sid = sid' := by simpa [hx, hxs] using ctxStorage_eq_ok.1 hs
  refine ⟨sid, hn, hxs, hel, hc, fun hcop => ?_⟩
  have h0 : c.coprocThreadConfs.length > 0 := List.length_pos.2 hcop
  obtain ⟨k, hk⟩ := hslot h0 _ hxm
  refine ⟨k, hk, ?_⟩
  -- the nodes of `existing_nodes` have pairwise different storages
  have hd := hdev h0 (fun n hn n' hn' sid hs hs' =>
    hi.nls.inj n n' sid (hnode n hn sid hs) (hnode n' hn' sid hs')) _ (hin _ hxm)
    _ (ctxStorage_eq_ok.2 hfs)
  simpa [slotVal, hk] using hd

/-- **The element's initialisation in every run of `main`** gets through,
frees the key array once, and leaves each element pointing to `nls[n]` of its
node, which maps tunnel `i` to entry `i` with the key of line 94. -/
theorem hmacInit_lifecycle {lim : Limits} {m : Machine} {c : SysConf} {so : SetOrder}
    {co : CoprocBoot} {cp : CompBoot} {calls : List InitCall}
    (h : spawnAndInit lim m c so = .ok (co, cp, calls)) :
    ∃ b, hmacInit configure cp.ctxs calls = .ok b ∧ b.g.frees = 1 ∧ b.g.entryArray = none ∧
      ∀ (j : Nat) (x : CompCtx), cp.ctxs[j]? = some x → ∃ sid,
        cp.nls[x.nodeId]? = some (some sid) ∧ x.nls = some sid ∧
        b.elems[j]? = some (HmacElem.ofStorage sid) ∧
        (∃ es, b.g.nls sid "h_hmac_flows" = some (.flows es) ∧
          ∀ i < configure, es[i]? = some (some ⟨i, hmacKeyBytes⟩)) ∧
        ∃ t, b.g.nls sid "h_hmac_sa_table" = some (.saTable t) ∧
          ∀ i < configure, t.lookup (tunnelPair i) = some i := by
  obtain ⟨b, arr, hb, hf, he, hv, hj⟩ := hmacInit_run h
  refine ⟨b, hb, hf, he, fun j x hx => ?_⟩
  obtain ⟨sid, hn, hxs, hel, hc, -⟩ := hj j x hx
  refine ⟨sid, hn, hxs, hel, ⟨arr, hc.flows, hv⟩, tunnels configure, hc.table, fun i hi => ?_⟩
  have hi' : i < 1024 := hi
  rw [lookup_tunnels (by omega) configure (by decide), if_pos hi]

/-- `coveredConf` gets through line 788 (`SetOrder.dedup` order), and the
element's initialisation with it. -/
theorem hmacInit_lifecycle_covered :
    ∃ co cp calls, spawnAndInit ⟨2, 1, 1⟩ twoNodes coveredConf SetOrder.dedup = .ok (co, cp, calls) ∧
      ∃ b, hmacInit configure cp.ctxs calls = .ok b ∧ b.g.frees = 1 ∧ b.g.entryArray = none := by
  obtain ⟨co, cp, calls, h⟩ : ∃ co cp calls,
      spawnAndInit ⟨2, 1, 1⟩ twoNodes coveredConf SetOrder.dedup = .ok (co, cp, calls) :=
    ⟨_, _, _, rfl⟩
  obtain ⟨b, hb, hf, he, -⟩ := hmacInit_lifecycle h
  exact ⟨co, cp, calls, h, b, hb, hf, he⟩

/-- **Each context offloads from its node's device buffer**: `flows_d` points
into `nls[n]`, where `accel_init_handler` recorded the buffer of
`coprocessor_threads[n].coproc_ctx`. -/
theorem hmacInit_flowsD {lim : Limits} {m : Machine} {c : SysConf} {so : SetOrder}
    {co : CoprocBoot} {cp : CompBoot} {calls : List InitCall}
    (h : spawnAndInit lim m c so = .ok (co, cp, calls)) (hcop : c.coprocThreadConfs ≠ []) :
    ∃ b, hmacInit configure cp.ctxs calls = .ok b ∧
      ∀ (j : Nat) (x : CompCtx), cp.ctxs[j]? = some x → ∃ sid k,
        x.nls = some sid ∧ co.coprocessorThreads[x.nodeId]? = some (some k) ∧
        b.elems[j]? = some (HmacElem.ofStorage sid) ∧
        b.g.nls sid "d_hmac_flows_ptr" = some (.devPtr (some k)) := by
  obtain ⟨b, _, hb, -, -, -, hj⟩ := hmacInit_run h
  refine ⟨b, hb, fun j x hx => ?_⟩
  obtain ⟨sid, -, hxs, hel, -, hd⟩ := hj j x hx
  obtain ⟨k, hk, hv⟩ := hd hcop
  exact ⟨sid, k, hxs, hk, hel, hv⟩

theorem hmacInit_flowsD_covered :
    ∃ co cp calls, spawnAndInit ⟨2, 1, 1⟩ twoNodes coveredConf SetOrder.dedup = .ok (co, cp, calls) ∧
      coveredConf.coprocThreadConfs ≠ [] ∧ ∃ b, hmacInit configure cp.ctxs calls = .ok b := by
  obtain ⟨co, cp, calls, h⟩ : ∃ co cp calls,
      spawnAndInit ⟨2, 1, 1⟩ twoNodes coveredConf SetOrder.dedup = .ok (co, cp, calls) :=
    ⟨_, _, _, rfl⟩
  obtain ⟨b, hb, -⟩ := hmacInit_flowsD h (by decide)
  exact ⟨co, cp, calls, h, by decide, b, hb⟩

end Nba
