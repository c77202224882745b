import Mathlib.Data.List.Dedup
import Mathlib.Algebra.Order.BigOperators.Group.List
import Mathlib.Algebra.Order.Ring.Nat

/-!
# Stops, hazards and C arrays

`main` (src/src/main.cc) leaves the path that ends in `running...` in three
ways: `rte_exit` with a message, a failed `assert`, or an access to which C++
gives no meaning.  Each part of `main` is modelled in `Except Stop`; a loop
whose counter can wrap is run on fuel, and `Stop.noFuel` is what a run that
has not finished yet returns.

A C array of `n` elements is a `List` of length `n`.  `Arr.get` and `Arr.set`
stop with `Hazard.index` past its end; `Arr.read` also stops on an element
nothing was stored to (`none`).
-/

namespace Nba

/-- The arrays of `main` that are indexed by a node, a port or a queue. -/
inductive CArr where
  | nodePorts | rxPorts | perNodeCounts | nls | nodeInitialized
  | coprocessorThreads | nodeStats | nodeMasterCtxs | queuePrivs | rxMempools
  /-- `flows`, `hmac_sa_entry_array`, `hmac_buf` and the packet buffer of
  `IPsecAuthHMACSHA1` -/
  | flows | hmacEntries | hmacBuf | packet
  deriving DecidableEq, Repr

/-- An access with no defined meaning in C++. -/
inductive Hazard where
  /-- `a[i]` where `a` has `size` elements and `size ≤ i`. -/
  | index (a : CArr) (i size : Nat)
  /-- `a[i]` read before anything was stored there. -/
  | indeterminate (a : CArr) (i : Nat)
  /-- `p->f` with `p == nullptr`. -/
  | null (p : String)
  /-- A `queue_privs` entry read as the other kind of thread context. -/
  | mistyped (qidx : Nat)
  /-- `*v.begin()` on an empty vector. -/
  | emptyBegin
  deriving DecidableEq, Repr

/-- How a part of `main` leaves its normal path. -/
inductive Stop where
  /-- `rte_exit(EXIT_FAILURE, msg)`. -/
  | exit (msg : String)
  /-- `assert(cond)` with `cond` false. -/
  | assertFail (cond : String)
  | undefined (h : Hazard)
  /-- The fuel ran out before the loop ended. -/
  | noFuel
  deriving DecidableEq, Repr

/-- The arrays whose index is a node, and `rx_ports` inside `node_ports`. -/
def CArr.nodeIndexed : CArr → Bool
  | .queuePrivs | .rxMempools | .flows | .hmacEntries | .hmacBuf | .packet => false
  | _ => true

/-- A node-indexed access out of range or on indeterminate data, or
`*comp_thread_ctxs.begin()` on an empty vector. -/
def Hazard.nodeAccess : Hazard → Bool
  | .index a _ _ => a.nodeIndexed
  | .indeterminate _ _ | .emptyBegin => true
  | .null _ | .mistyped _ => false

section Except
variable {α β : Type}

@[simp] theorem ok_bind (a : α) (f : α → Except Stop β) : (Except.ok a >>= f) = f a := rfl

@[simp] theorem error_bind (e : Stop) (f : α → Except Stop β) :
    (Except.error e >>= f) = Except.error e := rfl

@[simp] theorem pure_eq_ok (a : α) : (pure a : Except Stop α) = .ok a := rfl

@[simp] theorem throw_eq_error (e : Stop) : (throw e : Except Stop α) = .error e := rfl

theorem bind_eq_ok {x : Except Stop α} {f : α → Except Stop β} {b : β} :
    (x >>= f) = .ok b ↔ ∃ a, x = .ok a ∧ f a = .ok b := by
  cases x <;> simp

theorem bind_eq_error {x : Except Stop α} {f : α → Except Stop β} {e : Stop} :
    (x >>= f) = .error e ↔ x = .error e ∨ ∃ a, x = .ok a ∧ f a = .error e := by
  cases x <;> simp

/-- The run did not stop at a `Hazard.nodeAccess`. -/
def NodeSafe (r : Except Stop α) : Prop :=
  ∀ h, r = .error (.undefined h) → h.nodeAccess = false

@[simp] theorem nodeSafe_ok (a : α) : NodeSafe (.ok a : Except Stop α) := by
  simp [NodeSafe]

@[simp] theorem nodeSafe_exit (msg : String) : NodeSafe (.error (.exit msg) : Except Stop α) := by
  simp [NodeSafe]

@[simp] theorem nodeSafe_assertFail (c : String) :
    NodeSafe (.error (.assertFail c) : Except Stop α) := by
  simp [NodeSafe]

@[simp] theorem nodeSafe_noFuel : NodeSafe (.error .noFuel : Except Stop α) := by
  simp [NodeSafe]

@[simp] theorem nodeSafe_null (p : String) :
    NodeSafe (.error (.undefined (.null p)) : Except Stop α) := by
  simp [NodeSafe, Hazard.nodeAccess]

@[simp] theorem nodeSafe_mistyped (q : Nat) :
    NodeSafe (.error (.undefined (.mistyped q)) : Except Stop α) := by
  simp [NodeSafe, Hazard.nodeAccess]

theorem nodeSafe_ite (c : Prop) [Decidable c] {a b : Except Stop α} (ha : NodeSafe a)
    (hb : NodeSafe b) : NodeSafe (if c then a else b) := by
  split <;> assumption

/-- `assert(c)`, where `cond` is the text of `c`. -/
def cAssert (c : Prop) [Decidable c] (cond : String) : Except Stop Unit :=
  if c then .ok () else .error (.assertFail cond)

@[simp] theorem cAssert_of {c : Prop} [Decidable c] (h : c) (cond : String) :
    cAssert c cond = .ok () := if_pos h

@[simp] theorem nodeSafe_cAssert (c : Prop) [Decidable c] (cond : String) :
    NodeSafe (cAssert c cond) :=
  nodeSafe_ite c (nodeSafe_ok _) (nodeSafe_assertFail _)

theorem nodeSafe_bind {x : Except Stop α} {f : α → Except Stop β} (hx : NodeSafe x)
    (hf : ∀ a, x = .ok a → NodeSafe (f a)) : NodeSafe (x >>= f) := by
  intro h e
  rcases bind_eq_error.1 e with e | ⟨a, ha, e⟩
  · exact hx h e
  · exact hf a ha h e

end Except

/-! ## Loops -/

section ForEach
variable {β S : Type} {step : β → S → Except Stop S}

/-- `for (t : ts) s = step(t, s);`, ending at the first stop. -/
def forEach (step : β → S → Except Stop S) : List β → S → Except Stop S
  | [], s => .ok s
  | t :: ts, s => step t s >>= forEach step ts

@[simp] theorem forEach_nil (s : S) : forEach step [] s = .ok s := rfl

@[simp] theorem forEach_cons (t : β) (ts : List β) (s : S) :
    forEach step (t :: ts) s = step t s >>= forEach step ts := rfl

theorem forEach_append (l₁ l₂ : List β) (s : S) :
    forEach step (l₁ ++ l₂) s = forEach step l₁ s >>= forEach step l₂ := by
  induction l₁ generalizing s with
  | nil => rfl
  | cons t l₁ ih =>
    simp only [List.cons_append, forEach_cons]
    cases step t s <;> simp [ih]

/-- **Loop invariant.** A step on `t` from a state that satisfies `Inv` of the
elements done so far succeeds and satisfies `Inv` of one more, provided `t` is
`good` after them; so does the loop. -/
theorem forEach_inv (Inv : List β → S → Prop) (good : List β → β → Prop)
    (hstep : ∀ done t s, good done t → Inv done s →
      ∃ s', step t s = .ok s' ∧ Inv (done ++ [t]) s') :
    ∀ (ts done : List β) (s : S), (∀ l₁ t l₂, ts = l₁ ++ t :: l₂ → good (done ++ l₁) t) →
      Inv done s → ∃ s', forEach step ts s = .ok s' ∧ Inv (done ++ ts) s' := by
  intro ts
  induction ts with
  | nil => intro done s _ h; exact ⟨s, rfl, by simpa using h⟩
  | cons t ts ih =>
    intro done s hg h
    obtain ⟨s1, h1, hi1⟩ := hstep done t s (by simpa using hg [] t ts rfl) h
    obtain ⟨s2, h2, hi2⟩ := ih (done ++ [t]) s1
      (fun l₁ u l₂ e => by simpa using hg (t :: l₁) u l₂ (by rw [e]; rfl)) hi1
    exact ⟨s2, by simp [h1, h2], by simpa using hi2⟩

/-- `forEach_inv` for a loop that may stop, only never at a `Hazard.nodeAccess`. -/
theorem forEach_nodeSafe (Inv : List β → S → Prop) (good : List β → β → Prop)
    (hstep : ∀ done t s, good done t → Inv done s →
      NodeSafe (step t s) ∧ ∀ s', step t s = .ok s' → Inv (done ++ [t]) s') :
    ∀ (ts done : List β) (s : S), (∀ l₁ t l₂, ts = l₁ ++ t :: l₂ → good (done ++ l₁) t) →
      Inv done s → NodeSafe (forEach step ts s) := by
  intro ts
  induction ts with
  | nil => intro _ _ _ _; exact nodeSafe_ok _
  | cons t ts ih =>
    intro done s hg h
    obtain ⟨hsafe, hnext⟩ := hstep done t s (by simpa using hg [] t ts rfl) h
    exact nodeSafe_bind hsafe fun s1 h1 => ih (done ++ [t]) s1
      (fun l₁ u l₂ e => by simpa using hg (t :: l₁) u l₂ (by rw [e]; rfl)) (hnext s1 h1)

/-- **Run lemma for a run that got through**: what every successful step
keeps holds after the whole loop. -/
theorem forEach_ok_inv (Inv : List β → S → Prop)
    (hstep : ∀ done t s s', Inv done s → step t s = .ok s' → Inv (done ++ [t]) s') :
    ∀ (ts done : List β) (s s' : S), Inv done s → forEach step ts s = .ok s' →
      Inv (done ++ ts) s' := by
  intro ts
  induction ts with
  | nil => intro done s s' h e; cases e; simpa using h
  | cons t ts ih =>
    intro done s s' h e
    obtain ⟨s1, h1, e⟩ := bind_eq_ok.1 e
    simpa using ih (done ++ [t]) s1 s' (hstep done t s s1 h h1) e

theorem mem_of_eq_append_cons {l l₁ l₂ : List β} {t : β} (h : l = l₁ ++ t :: l₂) : t ∈ l := by
  simp [h]

/-- A loop of checks that all pass. -/
theorem forEach_eq_ok_self {ts : List β} {s : S} (h : ∀ t ∈ ts, step t s = .ok s) :
    forEach step ts s = .ok s := by
  induction ts with
  | nil => rfl
  | cons t ts ih => simp [h t (.head _), ih fun u hu => h u (.tail _ hu)]

theorem forEach_nodeSafe_of_step (h : ∀ t s, NodeSafe (step t s)) (ts : List β) (s : S) :
    NodeSafe (forEach step ts s) :=
  forEach_nodeSafe (fun _ _ => True) (fun _ _ => True) (fun _ t s _ _ => ⟨h t s, fun _ _ => trivial⟩)
    ts [] s (fun _ _ _ _ => trivial) trivial

end ForEach

@[simp] theorem filterMap_fun_some {α γ : Type} (f : α → γ) (l : List α) :
    l.filterMap (fun a => some (f a)) = l.map f := List.filterMap_eq_map f ▸ rfl

@[simp] theorem filterMap_fun_none {α γ : Type} (l : List α) :
    l.filterMap (fun _ => (none : Option γ)) = [] := List.filterMap_eq_nil_iff.2 fun _ _ => rfl

/-- The position of the last element of `l` that satisfies `p`. -/
def lastIdx {α : Type} (p : α → Bool) : List α → Option Nat
  | [] => none
  | a :: l =>
    match lastIdx p l with
    | some i => some (i + 1)
    | none => if p a then some 0 else none

theorem lastIdx_append_singleton {α : Type} (p : α → Bool) (l : List α) (a : α) :
    lastIdx p (l ++ [a]) = if p a then some l.length else lastIdx p l := by
  induction l with
  | nil => by_cases h : p a <;> simp [lastIdx, h]
  | cons b l ih =>
    rw [List.cons_append, lastIdx, ih, lastIdx]
    by_cases h : p a <;> simp [h]

theorem lastIdx_eq_some {α : Type} {p : α → Bool} :
    ∀ {l : List α} {i : Nat}, lastIdx p l = some i → ∃ h : i < l.length, p l[i] = true
  | [], _, h => by cases h
  | a :: l, i, h => by
    unfold lastIdx at h
    cases hl : lastIdx p l with
    | some i' =>
      rw [hl] at h; cases h
      obtain ⟨hi, hp⟩ := lastIdx_eq_some hl
      exact ⟨by simpa using hi, by simpa using hp⟩
    | none =>
      simp only [hl] at h
      split at h
      · cases h; exact ⟨by simp, by simpa⟩
      · cases h

theorem lastIdx_eq_none {α : Type} {p : α → Bool} :
    ∀ {l : List α}, lastIdx p l = none ↔ ∀ a ∈ l, p a = false
  | [] => by simp [lastIdx]
  | a :: l => by
    unfold lastIdx
    cases hl : lastIdx p l with
    | some i =>
      obtain ⟨hi, hp⟩ := lastIdx_eq_some hl
      simp only [reduceCtorEq, false_iff, not_forall]
      exact ⟨l[i], List.mem_cons_of_mem _ (List.getElem_mem hi), by simp [hp]⟩
    | none =>
      have := (lastIdx_eq_none (p := p) (l := l)).1 hl
      by_cases h : p a <;> simp_all

theorem lastIdx_congr {α : Type} {p q : α → Bool} :
    ∀ {l : List α}, (∀ a ∈ l, p a = q a) → lastIdx p l = lastIdx q l
  | [], _ => rfl
  | a :: l, h => by
    simp only [lastIdx, lastIdx_congr fun b hb => h b (List.mem_cons_of_mem _ hb),
      h a (List.mem_cons_self _ _)]

/-- When `f` is injective on `l`, the last element with `f a = b` is the only one. -/
theorem lastIdx_eq_some_iff {α β : Type} [BEq β] [LawfulBEq β] {f : α → β} {l : List α}
    (hnd : (l.map f).Nodup) {b : β} {i : Nat} :
    lastIdx (fun a => f a == b) l = some i ↔ ∃ h : i < l.length, f l[i] = b := by
  constructor
  · intro h
    obtain ⟨hi, hp⟩ := lastIdx_eq_some h
    exact ⟨hi, by simpa using hp⟩
  · rintro ⟨hi, rfl⟩
    cases hl : lastIdx (fun a => f a == f l[i]) l with
    | none => simpa using lastIdx_eq_none.1 hl _ (List.getElem_mem hi)
    | some j =>
      obtain ⟨hj, hp⟩ := lastIdx_eq_some hl
      have hj' : j < (l.map f).length := by simpa using hj
      have hi' : i < (l.map f).length := by simpa using hi
      have e : (l.map f)[j] = (l.map f)[i] := by simpa using hp
      rw [hnd.getElem_inj_iff.1 e]

/-! ## Per-node numbering -/

/-- The number of elements of `ts` on node `n`, `node` giving each one's node. -/
def countOn {α : Type} (node : α → Nat) (ts : List α) (n : Nat) : Nat :=
  (ts.filter fun t => node t == n).length

@[simp] theorem countOn_nil {α : Type} (node : α → Nat) (n : Nat) : countOn node [] n = 0 := rfl

@[simp] theorem countOn_append_singleton {α : Type} (node : α → Nat) (ts : List α) (t : α) (n : Nat) :
    countOn node (ts ++ [t]) n = countOn node ts n + if node t = n then 1 else 0 := by
  by_cases h : node t = n <;> simp [countOn, h]

/-- `local_thread_idx = per_node_counts[node_id]++` numbers the contexts of
each node `0, 1, ...`: a context that takes the count of its node keeps the
numbering. -/
theorem numbering_append {β : Type} (nodeOf idx : β → Nat) {xs : List β} {x : β} {n k : Nat}
    (h : (xs.filter fun y => nodeOf y == n).map idx = List.range k)
    (hx : nodeOf x = n → idx x = k) :
    ((xs ++ [x]).filter fun y => nodeOf y == n).map idx =
      List.range (k + if nodeOf x = n then 1 else 0) := by
  by_cases e : nodeOf x = n
  · simp [List.filter_append, h, e, hx e, List.range_succ]
  · simp [List.filter_append, h, e]

namespace Arr
variable {α : Type}

/-- `a[i]`. -/
def get (name : CArr) (a : List α) (i : Nat) : Except Stop α :=
  match a[i]? with
  | some x => .ok x
  | none => .error (.undefined (.index name i a.length))

/-- `a[i] = x`. -/
def set (name : CArr) (a : List α) (i : Nat) (x : α) : Except Stop (List α) :=
  if i < a.length then .ok (a.set i x) else .error (.undefined (.index name i a.length))

/-- `a[i]` on an array whose elements start indeterminate. -/
def read (name : CArr) (a : List (Option α)) (i : Nat) : Except Stop α := do
  match ← get name a i with
  | some x => pure x
  | none => throw (.undefined (.indeterminate name i))

/-- `a[i]++` on an array of counters: the old value and the new array. -/
def postInc (name : CArr) (a : List Nat) (i : Nat) : Except Stop (Nat × List Nat) := do
  let v ← get name a i
  let a' ← set name a i (v + 1)
  pure (v, a')

/-- `memcpy(dst, &a[lo], n)`: the `n` elements from `lo`. -/
def slice (name : CArr) (a : List α) (lo n : Nat) : Except Stop (List α) :=
  if n = 0 ∨ lo + n ≤ a.length then .ok ((a.drop lo).take n)
  else .error (.undefined (.index name (lo + n - 1) a.length))

/-- `memcpy(&a[lo], xs, xs.size())`. -/
def write (name : CArr) (a : List α) (lo : Nat) (xs : List α) : Except Stop (List α) :=
  if xs.isEmpty ∨ lo + xs.length ≤ a.length then .ok (a.take lo ++ xs ++ a.drop (lo + xs.length))
  else .error (.undefined (.index name (lo + xs.length - 1) a.length))

theorem get_eq_ok {name : CArr} {a : List α} {i : Nat} {x : α} :
    get name a i = .ok x ↔ a[i]? = some x := by
  unfold get; split <;> rename_i h <;> simp [h]

theorem get_of_lt (name : CArr) {a : List α} {i : Nat} (h : i < a.length) :
    get name a i = .ok a[i] := get_eq_ok.2 (List.getElem?_eq_getElem h)

theorem get_of_le (name : CArr) {a : List α} {i : Nat} (h : a.length ≤ i) :
    get name a i = .error (.undefined (.index name i a.length)) := by
  simp [get, List.getElem?_eq_none h]

theorem set_of_lt (name : CArr) {a : List α} {i : Nat} (x : α) (h : i < a.length) :
    set name a i x = .ok (a.set i x) := if_pos h

theorem set_of_le (name : CArr) {a : List α} {i : Nat} (x : α) (h : a.length ≤ i) :
    set name a i x = .error (.undefined (.index name i a.length)) := if_neg (by omega)

theorem set_eq_ok {name : CArr} {a a' : List α} {i : Nat} {x : α} :
    set name a i x = .ok a' ↔ i < a.length ∧ a' = a.set i x := by
  unfold set; split <;> simp_all [eq_comm]

theorem read_eq_ok {name : CArr} {a : List (Option α)} {i : Nat} {x : α} :
    read name a i = .ok x ↔ a[i]? = some (some x) := by
  unfold read
  cases h : get name a i with
  | error e =>
      simp only [error_bind, reduceCtorEq, false_iff]
      intro h'
      simp [get_eq_ok.2 h'] at h
  | ok y => cases y <;> simp_all [get_eq_ok]

theorem postInc_of_lt (name : CArr) {a : List Nat} {i : Nat} (h : i < a.length) :
    postInc name a i = .ok (a[i], a.set i (a[i] + 1)) := by
  simp [postInc, get_of_lt name h, set_of_lt name _ h]

theorem postInc_of_le (name : CArr) {a : List Nat} {i : Nat} (h : a.length ≤ i) :
    postInc name a i = .error (.undefined (.index name i a.length)) := by
  simp [postInc, get_of_le name h]

end Arr

end Nba
