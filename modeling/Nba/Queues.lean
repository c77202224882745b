import Mathlib.Data.Nat.Digits
import Mathlib.Data.Nat.Bitwise
import Nba.Config
import Nba.Args

/-!
# The software queues

Lines 436-474 of `main` (src/src/main.cc): for every entry of `queue_confs` a
ring named `queue%u@%u/%u`, its water mark `queue_length - 8`, and a watcher.
The ring calls are DPDK's (not in src/), modelled from their documented
behaviour: `rte_ring_create` needs a `POWEROF2` count up to
`RTE_RING_SZ_MASK`, a free memzone name `RG_<name>` and memory, and
`rte_ring_set_water_mark` a count below the size.
-/

namespace Nba

/-! ## Queue lengths -/

/-- `queue_length` (lines 449-461). -/
def queueLength (params : QueueParams) : QueueTemplate → Nat
  | .swrxq => 32
  | .taskinq => params.inputqLength.toNat
  | .taskoutq => params.completionqLength.toNat

/-! ## `%u` and the ring names -/

/-- The ASCII byte of decimal digit `d`. -/
def digitByte (d : Nat) : UInt8 := UInt8.ofNat (48 + d)

/-- `isdigit`: bytes 48 (`0`) to 57 (`9`). -/
def isDigit (b : UInt8) : Bool := 48 ≤ b.toNat && b.toNat ≤ 57

/-- `%u` of `n`: its decimal digits, most significant first, `0` for zero. -/
def decimal (n : Nat) : List UInt8 :=
  if n = 0 then [digitByte 0] else (Nat.digits 10 n).reverse.map digitByte

/-- The number at the front of `bs`, from its longest run of digits (at least
one), and what follows it. -/
def readDecimal (bs : List UInt8) : Option (Nat × List UInt8) :=
  match bs.takeWhile isDigit with
  | [] => none
  | ds => some (ds.foldl (fun a b => 10 * a + (b.toNat - 48)) 0, bs.dropWhile isDigit)

/-- `bs` past its first byte, if that byte is `b`. -/
def expectByte (b : UInt8) : List UInt8 → Option (List UInt8)
  | c :: r => if c = b then some r else none
  | [] => none

/-- `RTE_RING_NAMESIZE` (rte_ring.h). -/
def rteRingNamesize : Nat := 32

/-- `RTE_MEMZONE_NAMESIZE` (rte_memzone.h). -/
def rteMemzoneNamesize : Nat := 32

/-- `"queue%u@%u/%u"` of queue `q` on node `n` with template `t`. -/
def ringText (q n t : Nat) : List UInt8 :=
  (CStr.ofString "queue").bytes ++ decimal q ++ [64] ++ decimal n ++ [47] ++ decimal t

/-- `snprintf(ring_name, RTE_RING_NAMESIZE, "queue%u@%u/%u", qidx, conf.node_id,
conf.template_)` (lines 462-463). -/
def ringName (qidx : Nat) (node : UInt32) (t : QueueTemplate) : List UInt8 :=
  (ringText qidx node.toNat t.toNat).take (rteRingNamesize - 1)

/-- The memzone a ring lives in: `RTE_RING_MZ_PREFIX` (`RG_`) and its name,
as `snprintf` into `RTE_MEMZONE_NAMESIZE` bytes leaves it. -/
def ringZone (name : List UInt8) : List UInt8 :=
  ((CStr.ofString "RG_").bytes ++ name).take (rteMemzoneNamesize - 1)

/-- The queue index, node and template a ring name spells. -/
def parseRingName (bs : List UInt8) : Option (Nat × Nat × Nat) :=
  if (CStr.ofString "queue").bytes.isPrefixOf bs then
    (readDecimal (bs.drop 5)).bind fun (q, r) =>
    (expectByte 64 r).bind fun r =>
    (readDecimal r).bind fun (n, r) =>
    (expectByte 47 r).bind fun r =>
    (readDecimal r).bind fun (t, r) =>
    if r = [] then some (q, n, t) else none
  else none

/-! ## The ring calls -/

/-- `RTE_RING_SZ_MASK` (rte_ring.h). -/
def rteRingSzMask : Nat := 0x0fffffff

/-- `POWEROF2(x)` (rte_common.h): `((x - 1) & x) == 0`.  At `x = 0` the
`unsigned` `x - 1` wraps, and the mask is 0 either way. -/
def powerOf2 (x : Nat) : Bool := ((x - 1) &&& x) == 0

/-- `a - b` on `unsigned`. -/
def u32Sub (a b : Nat) : Nat := (a + 2 ^ 32 - b) % 2 ^ 32

/-- A ring of DPDK's ring list: its name, `prod.size`, socket and `prod.watermark`. -/
structure Ring where
  name : List UInt8
  size : Nat
  socket : Nat
  watermark : Nat
  deriving DecidableEq

/-- `rte_ring_create(name, count, socket_id, 0)` (rte_ring.c), with the memzones
`zones` reserved before: `NULL` when `count` is not `POWEROF2` or exceeds
`RTE_RING_SZ_MASK` (`EINVAL`), when the ring's memzone name is taken
(`EEXIST`), or when there is no memory (`mem`, `ENOMEM`). -/
def ringCreate (zones : List (List UInt8)) (name : List UInt8) (count socket : Nat) (mem : Bool) :
    Option Ring :=
  if powerOf2 count ∧ count ≤ rteRingSzMask ∧ ringZone name ∉ zones ∧ mem then
    some ⟨name, count, socket, count⟩
  else none

/-- `rte_ring_set_water_mark(r, count)` (rte_ring.c): `-EINVAL` (`none`) unless
`count` is below the size; a count of 0 turns the mark off (it becomes the size). -/
def setWaterMark (r : Ring) (count : Nat) : Option Ring :=
  if count < r.size then some { r with watermark := if count = 0 then r.size else count } else none

/-! ## Algorithm -/

/-- Whether the allocations of queue `qidx` find memory: its ring (`rte_ring_create`)
and its watcher (`rte_malloc_socket`). -/
structure QueueMem where
  ring : Nat → Bool
  watcher : Nat → Bool

/-- Memory for every ring and watcher. -/
def QueueMem.allOk : QueueMem := ⟨fun _ => true, fun _ => true⟩

/-- `qidx`, the memzones reserved, and `queues[0..qidx)`. -/
structure QueueState where
  qidx : Nat
  zones : List (List UInt8)
  queues : List Ring
  deriving DecidableEq

/-- Lines 448-472: one entry of `queue_confs`; `queues[qidx]` is the next
entry of `queues`, as `qidx` counts the entries done. -/
def prepareQueue (params : QueueParams) (mem : QueueMem) (conf : QueueConf) (s : QueueState) :
    Except Stop QueueState :=
  let len := queueLength params conf.template
  let name := ringName s.qidx conf.nodeId conf.template
  match ringCreate s.zones name len conf.nodeId.toNat (mem.ring s.qidx) with
  | none => .error (.assertFail "queues[qidx] != NULL")
  | some r =>
    match setWaterMark r (u32Sub len 8) with
    | none => .error (.assertFail "0 == rte_ring_set_water_mark(queues[qidx], queue_length - 8)")
    | some r =>
      if mem.watcher s.qidx then .ok ⟨(s.qidx + 1) % 2 ^ 32, s.zones ++ [ringZone name], s.queues ++ [r]⟩
      else .error (.assertFail "qwatchers[qidx] != NULL")

/-- Lines 440-474, after the memzones `zones`. -/
def prepareQueues (params : QueueParams) (mem : QueueMem) (zones : List (List UInt8))
    (confs : List QueueConf) : Except Stop QueueState :=
  forEach (prepareQueue params mem) confs ⟨0, zones, []⟩

/-! ## Specification -/

/-- The lengths a queue can have: `2^3, 2^4, …, 2^27`. -/
def ValidLength (len : Nat) : Prop := ∃ k ∈ List.range' 3 25, len = 2 ^ k

instance : DecidablePred ValidLength := fun len =>
  inferInstanceAs (Decidable (∃ k ∈ List.range' 3 25, len = 2 ^ k))

/-- Ring `i` as the loop leaves it. -/
def queueRing (params : QueueParams) (i : Nat) (conf : QueueConf) : Ring :=
  let len := queueLength params conf.template
  ⟨ringName i conf.nodeId conf.template, len, conf.nodeId.toNat, if len = 8 then len else len - 8⟩

/-- The memzone of ring `i`. -/
def queueZone (i : Nat) (conf : QueueConf) : List UInt8 := ringZone (ringName i conf.nodeId conf.template)

/-- What the loop leaves after `confs`, from the memzones `zones`. -/
def queuesAfter (params : QueueParams) (zones : List (List UInt8)) (confs : List QueueConf) :
    QueueState :=
  ⟨confs.length % 2 ^ 32, zones ++ confs.mapIdx queueZone, confs.mapIdx (queueRing params)⟩

/-! ## Lemmas: `%u` -/

theorem digitByte_toNat {d : Nat} (h : d < 10) : (digitByte d).toNat = 48 + d :=
  UInt8.toNat_ofNat_of_lt (by unfold UInt8.size; omega)

theorem isDigit_digitByte {d : Nat} (h : d < 10) : isDigit (digitByte d) := by
  simp [isDigit, digitByte_toNat h]; omega

theorem decimal_isDigit (n : Nat) : ∀ b ∈ decimal n, isDigit b := by
  unfold decimal
  split_ifs
  · simpa using isDigit_digitByte (by norm_num)
  · simp only [List.mem_map, List.mem_reverse]
    rintro _ ⟨d, hd, rfl⟩
    exact isDigit_digitByte (Nat.digits_lt_base (by norm_num) hd)

theorem decimal_ne_nil (n : Nat) : decimal n ≠ [] := by
  unfold decimal
  split_ifs with h
  · simp
  · simpa using Nat.digits_ne_nil_iff_ne_zero.2 h

/-- Reading digits back, most significant first, is `ofDigits` of the digits. -/
theorem foldl_digitBytes : ∀ l : List Nat, (∀ d ∈ l, d < 10) →
    (l.reverse.map digitByte).foldl (fun a b => 10 * a + (b.toNat - 48)) 0 = Nat.ofDigits 10 l
  | [], _ => rfl
  | d :: l, h => by
    rw [List.reverse_cons, List.map_append, List.foldl_append,
      foldl_digitBytes l fun e he => h e (List.mem_cons_of_mem _ he)]
    simp [digitByte_toNat (h d (List.mem_cons_self _ _)), Nat.ofDigits_cons]
    ring

theorem readDecimal_decimal (n : Nat) (rest : List UInt8) (h : ∀ b ∈ rest.head?, isDigit b = false) :
    readDecimal (decimal n ++ rest) = some (n, rest) := by
  have hrest : rest.takeWhile isDigit = [] ∧ rest.dropWhile isDigit = rest := by
    cases rest with
    | nil => simp
    | cons b r => simp [List.takeWhile_cons, List.dropWhile_cons, h b rfl]
  unfold readDecimal
  rw [List.takeWhile_append_of_pos (decimal_isDigit n), hrest.1, List.append_nil,
    List.dropWhile_append_of_pos (decimal_isDigit n), hrest.2]
  split
  · exact absurd ‹_› (decimal_ne_nil n)
  · congr
    unfold decimal
    split_ifs with h0
    · simp [h0, digitByte_toNat]
    · rw [foldl_digitBytes _ fun d hd => Nat.digits_lt_base (by norm_num) hd, Nat.ofDigits_digits]

theorem decimal_length_le {n : Nat} (h : n < 2 ^ 32) : (decimal n).length ≤ 10 := by
  unfold decimal
  split_ifs with h0
  · simp
  · rw [List.length_map, List.length_reverse, Nat.digits_len 10 n (by norm_num) h0]
    have := Nat.log_lt_of_lt_pow h0 (lt_trans h (by norm_num) : n < 10 ^ 10)
    omega

/-! ## Ring names -/

theorem QueueTemplate.toNat_lt (t : QueueTemplate) : t.toNat < 10 := by cases t <;> decide

theorem QueueTemplate.toNat_inj {t t' : QueueTemplate} (h : t.toNat = t'.toNat) : t = t' := by
  cases t <;> cases t' <;> first | rfl | cases h

theorem ringText_length_le {q n t : Nat} (hq : q < 2 ^ 32) (hn : n < 2 ^ 32) (ht : t < 10) :
    (ringText q n t).length ≤ 28 := by
  have h1 := decimal_length_le hq
  have h2 := decimal_length_le hn
  have h3 : (decimal t).length = 1 := by
    unfold decimal; split_ifs with h0
    · rfl
    · rw [List.length_map, List.length_reverse, Nat.digits_of_lt 10 t h0 ht]; rfl
  simp only [ringText, List.length_append, List.length_singleton, h3]
  change 5 + _ + 1 + _ + 1 + 1 ≤ 28
  omega

/-- `snprintf` never cuts a ring name: it is `ringText`, at most 28 bytes. -/
theorem ringName_eq {q : Nat} (hq : q < 2 ^ 32) (n : UInt32) (t : QueueTemplate) :
    ringName q n t = ringText q n.toNat t.toNat ∧ (ringName q n t).length ≤ 28 := by
  have h := ringText_length_le hq n.toNat_lt_size t.toNat_lt
  rw [ringName, List.take_of_length_le (by unfold rteRingNamesize; omega)]
  exact ⟨rfl, h⟩

theorem parseRingName_ringText (q n t : Nat) :
    parseRingName (ringText q n t) = some (q, n, t) := by
  have hs : ∀ b : UInt8, b = 64 ∨ b = 47 → isDigit b = false := by
    rintro b (rfl | rfl) <;> rfl
  have hp : (CStr.ofString "queue").bytes.isPrefixOf (ringText q n t) := by
    simp [ringText, List.append_assoc]
  have hd : (ringText q n t).drop 5 = decimal q ++ 64 :: (decimal n ++ 47 :: (decimal t ++ [])) := by
    simp [ringText, List.append_assoc]; rfl
  rw [parseRingName, if_pos hp, hd, readDecimal_decimal q _ (by simp [hs])]
  simp only [Option.some_bind, expectByte, if_true]
  rw [readDecimal_decimal n _ (by simp [hs])]
  simp only [Option.some_bind, expectByte, if_true]
  rw [readDecimal_decimal t _ (by simp)]
  rfl

/-- The memzone of a ring is `RG_` and the whole name. -/
theorem ringZone_ringName {q : Nat} (hq : q < 2 ^ 32) (n : UInt32) (t : QueueTemplate) :
    ringZone (ringName q n t) = (CStr.ofString "RG_").bytes ++ ringText q n.toNat t.toNat := by
  obtain ⟨e, hl⟩ := ringName_eq hq n t
  rw [ringZone, List.take_of_length_le, e]
  rw [List.length_append, show (CStr.ofString "RG_").bytes.length = 3 from rfl]
  unfold rteMemzoneNamesize
  omega

theorem ringZone_ringName_inj {q q' : Nat} (hq : q < 2 ^ 32) (hq' : q' < 2 ^ 32) {n n' : UInt32}
    {t t' : QueueTemplate} (h : ringZone (ringName q n t) = ringZone (ringName q' n' t')) :
    q = q' ∧ n = n' ∧ t = t' := by
  rw [ringZone_ringName hq, ringZone_ringName hq'] at h
  have e := congrArg parseRingName (List.append_cancel_left h)
  simp only [parseRingName_ringText, Option.some.injEq, Prod.mk.injEq] at e
  exact ⟨e.1, UInt32.toNat.inj e.2.1, QueueTemplate.toNat_inj e.2.2⟩

/-- **Ring names.**  For every `unsigned` queue index and node and every
template, the name `snprintf` writes takes at most 28 bytes, so it is not cut;
it spells the three; and rings of different index, node or template never
share a memzone name. -/
theorem parseRingName_ringName {q q' : Nat} (hq : q < 2 ^ 32) (hq' : q' < 2 ^ 32) (n n' : UInt32)
    (t t' : QueueTemplate) :
    (ringName q n t).length ≤ 28 ∧ parseRingName (ringName q n t) = some (q, n.toNat, t.toNat) ∧
      (ringZone (ringName q n t) = ringZone (ringName q' n' t') ↔ q = q' ∧ n = n' ∧ t = t') :=
  ⟨(ringName_eq hq n t).2, by rw [(ringName_eq hq n t).1, parseRingName_ringText],
    ⟨ringZone_ringName_inj hq hq', by rintro ⟨rfl, rfl, rfl⟩; rfl⟩⟩

theorem parseRingName_ringName_max :
    (4294967295 : Nat) < 2 ^ 32 ∧ (0 : Nat) < 2 ^ 32 ∧
      (ringName 4294967295 4294967295 .taskoutq).length ≤ 28 ∧
      parseRingName (ringName 4294967295 4294967295 .taskoutq) = some (4294967295, 4294967295, 2) ∧
      (ringZone (ringName 4294967295 4294967295 .taskoutq) = ringZone (ringName 0 4294967295 .taskoutq) ↔
        4294967295 = 0 ∧ (4294967295 : UInt32) = 4294967295 ∧ QueueTemplate.taskoutq = .taskoutq) :=
  ⟨by norm_num, by norm_num,
    parseRingName_ringName (by norm_num) (by norm_num) 4294967295 4294967295 .taskoutq .taskoutq⟩

example : ringName 12 1 .taskinq = (CStr.ofString "queue12@1/1").bytes := by
  simp [ringName, ringText, decimal, rteRingNamesize, QueueTemplate.toNat]
  rfl

/-- The memzone of a ring of the loop is `RG_` and the whole name. -/
theorem queueZone_eq {i : Nat} (hi : i < 2 ^ 32) (conf : QueueConf) :
    queueZone i conf =
      (CStr.ofString "RG_").bytes ++ ringText i conf.nodeId.toNat conf.template.toNat :=
  ringZone_ringName hi _ _

theorem queueZone_inj {i j : Nat} (hi : i < 2 ^ 32) (hj : j < 2 ^ 32) {c d : QueueConf}
    (h : queueZone i c = queueZone j d) : i = j :=
  (ringZone_ringName_inj hi hj h).1

theorem queueZone_startsWith_rgQueue {i : Nat} (hi : i < 2 ^ 32) (conf : QueueConf) :
    (CStr.ofString "RG_queue").bytes <+: queueZone i conf := by
  rw [queueZone_eq hi, show (CStr.ofString "RG_queue").bytes =
    (CStr.ofString "RG_").bytes ++ (CStr.ofString "queue").bytes from rfl, ringText]
  simp only [List.append_assoc]
  exact List.prefix_append_right_inj _ |>.2 (List.prefix_append _ _)

/-! ## Lengths and ring calls -/

theorem powerOf2_iff (x : Nat) : powerOf2 x ↔ x = 0 ∨ ∃ k, x = 2 ^ k := by
  rw [powerOf2, beq_iff_eq]
  refine ⟨fun h => ?_, ?_⟩
  · induction x using Nat.binaryRec with
    | z => exact .inl rfl
    | f b n ih =>
      cases b with
      | false =>
        rcases n with _ | m
        · exact .inl rfl
        · rw [show Nat.bit false (m + 1) - 1 = Nat.bit true m by simp [Nat.bit_val]; omega,
            Nat.land_bit, Nat.bit_eq_zero_iff] at h
          rcases ih h.1 with h0 | ⟨k, hk⟩
          · omega
          · exact .inr ⟨k + 1, by rw [hk, Nat.bit_val, pow_succ, mul_comm]; rfl⟩
      | true =>
        rw [show Nat.bit true n - 1 = Nat.bit false n by simp [Nat.bit_val], Nat.land_bit,
          Nat.bit_eq_zero_iff, Nat.and_self] at h
        exact .inr ⟨0, by rw [h.1]; rfl⟩
  · rintro (rfl | ⟨k, rfl⟩)
    · rfl
    · rw [Nat.and_comm, Nat.and_pow_two_sub_one_eq_mod, Nat.mod_self]

theorem queueLength_lt (params : QueueParams) (t : QueueTemplate) : queueLength params t < 2 ^ 32 := by
  cases t
  · show 32 < 2 ^ 32
    norm_num
  · exact UInt32.toNat_lt_size _
  · exact UInt32.toNat_lt_size _

theorem validLength_iff {len : Nat} (h : len < 2 ^ 32) :
    ValidLength len ↔ powerOf2 len ∧ len ≤ rteRingSzMask ∧ u32Sub len 8 < len := by
  have h8 : u32Sub len 8 < len ↔ 8 ≤ len := by unfold u32Sub; omega
  simp only [ValidLength, List.mem_range'_1, h8, powerOf2_iff, rteRingSzMask]
  constructor
  · rintro ⟨k, hk, rfl⟩
    have h3 : 2 ^ 3 ≤ 2 ^ k := Nat.pow_le_pow_right (by norm_num) hk.1
    have h27 : 2 ^ k ≤ 2 ^ 27 := Nat.pow_le_pow_right (by norm_num) (by omega)
    exact ⟨.inr ⟨k, rfl⟩, by omega, by omega⟩
  · rintro ⟨h0 | ⟨k, rfl⟩, hm, h3⟩
    · omega
    · exact ⟨k, ⟨(Nat.pow_le_pow_iff_right (by norm_num : 1 < 2)).1 (h3 : 2 ^ 3 ≤ 2 ^ k),
        (Nat.pow_lt_pow_iff_right (by norm_num : 1 < 2)).1 (by omega : 2 ^ k < 2 ^ 28)⟩, rfl⟩

theorem ringCreate_eq {zones : List (List UInt8)} {name : List UInt8} {count : Nat} (socket : Nat)
    {mem : Bool} (hp : powerOf2 count) (hm : count ≤ rteRingSzMask) (hz : ringZone name ∉ zones)
    (hmem : mem = true) :
    ringCreate zones name count socket mem = some ⟨name, count, socket, count⟩ :=
  if_pos ⟨hp, hm, hz, hmem⟩

theorem ringCreate_some {zones : List (List UInt8)} {name : List UInt8} {count socket : Nat}
    {mem : Bool} {r : Ring} (h : ringCreate zones name count socket mem = some r) :
    powerOf2 count ∧ count ≤ rteRingSzMask ∧ r.size = count := by
  unfold ringCreate at h
  split_ifs at h with hc
  cases h
  exact ⟨hc.1, hc.2.1, rfl⟩

theorem setWaterMark_some {r r' : Ring} {count : Nat} (h : setWaterMark r count = some r') :
    count < r.size := by
  unfold setWaterMark at h
  by_contra hc
  rw [if_neg hc] at h
  cases h

/-! ## The loop -/

/-- One entry of `queue_confs` takes the loop's closed form one entry further. -/
theorem prepareQueue_after {params : QueueParams} {mem : QueueMem} {zones : List (List UInt8)}
    {done : List QueueConf} {conf : QueueConf}
    (hz : ∀ z ∈ zones, ¬ (CStr.ofString "RG_queue").bytes <+: z) (hn : done.length < 2 ^ 32)
    (hv : ValidLength (queueLength params conf.template))
    (hr : mem.ring done.length) (hw : mem.watcher done.length) :
    prepareQueue params mem conf (queuesAfter params zones done) =
      .ok (queuesAfter params zones (done ++ [conf])) := by
  obtain ⟨hp, hm, h8⟩ := (validLength_iff (queueLength_lt params conf.template)).1 hv
  have hq : done.length % 2 ^ 32 = done.length := Nat.mod_eq_of_lt hn
  have hfresh : ringZone (ringName done.length conf.nodeId conf.template) ∉
      zones ++ done.mapIdx queueZone := by
    rw [List.mem_append, List.mem_mapIdx]
    rintro (hzm | ⟨j, hj, e⟩)
    · exact hz _ hzm (queueZone_startsWith_rgQueue hn conf)
    · exact absurd (queueZone_inj (by omega) hn e) (by omega)
  have hwm : setWaterMark ⟨ringName done.length conf.nodeId conf.template,
      queueLength params conf.template, conf.nodeId.toNat, queueLength params conf.template⟩
      (u32Sub (queueLength params conf.template) 8) = some (queueRing params done.length conf) := by
    have := queueLength_lt params conf.template
    rw [setWaterMark, if_pos h8, queueRing]
    unfold u32Sub at h8 ⊢
    simp only [Option.some.injEq, Ring.mk.injEq, true_and]
    split_ifs <;> omega
  simp only [prepareQueue, queuesAfter, hq]
  rw [ringCreate_eq _ hp hm hfresh hr]
  simp only [hwm, hw, if_true, List.length_append, List.length_singleton, List.mapIdx_concat,
    List.append_assoc, queueZone]

/-- A step that gets through had a length the ring calls accept. -/
theorem prepareQueue_valid {params : QueueParams} {mem : QueueMem} {conf : QueueConf}
    {s s' : QueueState} (h : prepareQueue params mem conf s = .ok s') :
    ValidLength (queueLength params conf.template) := by
  rw [validLength_iff (queueLength_lt params conf.template)]
  unfold prepareQueue at h
  dsimp only at h
  cases hc : ringCreate s.zones (ringName s.qidx conf.nodeId conf.template)
    (queueLength params conf.template) conf.nodeId.toNat (mem.ring s.qidx) with
  | none => rw [hc] at h; cases h
  | some r =>
    rw [hc] at h
    dsimp only at h
    cases hw : setWaterMark r (u32Sub (queueLength params conf.template) 8) with
    | none => rw [hw] at h; cases h
    | some _ =>
      obtain ⟨hp, hm, hs⟩ := ringCreate_some hc
      have := setWaterMark_some hw
      rw [hs] at this
      exact ⟨hp, hm, this⟩

/-- The queue block stops only at its assertions. -/
theorem prepareQueue_nodeSafe (params : QueueParams) (mem : QueueMem) (conf : QueueConf)
    (s : QueueState) : NodeSafe (prepareQueue params mem conf s) := by
  intro h e
  unfold prepareQueue at e
  cases hc : ringCreate s.zones (ringName s.qidx conf.nodeId conf.template)
    (queueLength params conf.template) conf.nodeId.toNat (mem.ring s.qidx) with
  | none => simp [hc] at e
  | some r =>
    simp only [hc] at e
    split at e <;> (try split at e) <;> simp at e

theorem prepareQueues_nodeSafe (params : QueueParams) (mem : QueueMem) (zones : List (List UInt8))
    (confs : List QueueConf) : NodeSafe (prepareQueues params mem zones confs) :=
  forEach_nodeSafe_of_step (prepareQueue_nodeSafe params mem) _ _

section Loop

variable {params : QueueParams} {mem : QueueMem} {zones : List (List UInt8)} {confs : List QueueConf}

theorem prepareQueues_valid {s : QueueState} (h : prepareQueues params mem zones confs = .ok s) :
    ∀ c ∈ confs, ValidLength (queueLength params c.template) := by
  simpa using forEach_ok_inv (fun done _ => ∀ c ∈ done, ValidLength (queueLength params c.template))
    (fun _ _ _ _ hd hs c hc => by
      rcases List.mem_append.1 hc with hc | hc
      · exact hd c hc
      · rw [List.mem_singleton.1 hc]; exact prepareQueue_valid hs) confs [] _ s (by simp) h

theorem prepareQueues_eq (hz : ∀ z ∈ zones, ¬ (CStr.ofString "RG_queue").bytes <+: z)
    (hn : confs.length ≤ 2 ^ 32) (hmem : ∀ i < confs.length, mem.ring i ∧ mem.watcher i)
    (hv : ∀ c ∈ confs, ValidLength (queueLength params c.template)) :
    prepareQueues params mem zones confs = .ok (queuesAfter params zones confs) := by
  obtain ⟨s, h, rfl⟩ := forEach_inv (fun done s => s = queuesAfter params zones done)
    (fun done t => ValidLength (queueLength params t.template) ∧ done.length < 2 ^ 32 ∧
      mem.ring done.length ∧ mem.watcher done.length)
    (fun _ _ _ ⟨hv, hn, hr, hw⟩ hs => ⟨_, hs ▸ prepareQueue_after hz hn hv hr hw, rfl⟩)
    confs [] ⟨0, zones, []⟩ (fun l₁ t l₂ e => by
      have hl : l₁.length < confs.length := by simp [e]
      exact ⟨hv t (by simp [e]), by simpa using lt_of_lt_of_le hl hn, by simpa using (hmem _ hl).1,
        by simpa using (hmem _ hl).2⟩)
    (by simp [queuesAfter])
  simpa using h

/-- **The software queues.**  Lines 436-474 get through exactly when every
length is one of `2^3, …, 2^27`, and then leave `queuesAfter`: each ring named
by its index, node and template, in a memzone of its own. -/
theorem prepareQueues_ok_iff (hz : ∀ z ∈ zones, ¬ (CStr.ofString "RG_queue").bytes <+: z)
    (hn : confs.length ≤ 2 ^ 32) (hmem : ∀ i < confs.length, mem.ring i ∧ mem.watcher i) :
    ((∃ s, prepareQueues params mem zones confs = .ok s) ↔
      ∀ c ∈ confs, ValidLength (queueLength params c.template)) ∧
    ((∀ c ∈ confs, ValidLength (queueLength params c.template)) →
      prepareQueues params mem zones confs = .ok (queuesAfter params zones confs)) :=
  ⟨⟨fun ⟨_, h⟩ => prepareQueues_valid h, fun hv => ⟨_, prepareQueues_eq hz hn hmem hv⟩⟩,
    prepareQueues_eq hz hn hmem⟩

end Loop

/-- One queue of each template on node 0, and an RX queue on node 1. -/
def twoNodeQueues : List QueueConf := [⟨0, .swrxq⟩, ⟨0, .taskinq⟩, ⟨0, .taskoutq⟩, ⟨1, .swrxq⟩]

theorem prepareQueues_ok_iff_twoNodes :
    ∃ s, prepareQueues ⟨64, 8⟩ QueueMem.allOk [] twoNodeQueues = .ok s :=
  (prepareQueues_ok_iff (by simp) (by decide) fun _ _ => ⟨rfl, rfl⟩).1.2 (by decide)

end Nba
