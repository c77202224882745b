import Nba.Basic

/-!
# The `IPsecAuthHMACSHA1` element

src/unnamed/part_002: the tunnel table and key array built once, copied into
each node-local storage (not in src/; a map from names to regions here) and
taken by each thread, and `process`, which writes the HMAC-SHA1 of an ESP
packet into its trailer, with `SHA1` uninterpreted.
-/

namespace Nba

/-- `struct ipaddr_pair`. -/
structure IpPair where
  srcAddr : Nat
  destAddr : Nat
  deriving DecidableEq, Repr

/-- `struct hmac_sa_entry`: the fields the element sets and reads. -/
structure SaEntry where
  entryIdx : Nat
  hmacKey : List UInt8
  deriving DecidableEq, Repr

/-- What a node-local storage keeps under a name. -/
inductive Region where
  | saTable (t : List (IpPair × Nat))
  | flows (es : List (Option SaEntry))
  /-- `dev_mem_t`: the device buffer of coprocessor `dev`, once written -/
  | devPtr (dev : Option Nat)
  deriving DecidableEq, Repr

structure NlsRef where
  storage : Nat
  name : String
  deriving DecidableEq, Repr

/-- The members `h_sa_table`, `flows` and `flows_d` of one element. -/
structure HmacElem where
  hSaTable : Option NlsRef
  flows : Option NlsRef
  flowsD : Option NlsRef
  deriving DecidableEq, Repr

/-- The globals of lines 25-31, the `free` calls, and the node-local storages. -/
structure HmacState where
  /-- `hmac_sa_entry_array`, null as `none` -/
  entryArray : Option (List (Option SaEntry))
  hmacSaTable : List (IpPair × Nat)
  frees : Nat
  nls : Nat → String → Option Region

/-- OpenSSL's `SHA1`, uninterpreted: any function into 20-byte digests. -/
structure Sha1 where
  hash : List UInt8 → List UInt8
  length_hash : ∀ m, (hash m).length = 20

/-- `NBA_ANNO_IPSEC_FLOW_ID` and the bytes from `pkt->data()` to the end of the buffer. -/
structure Packet where
  flowId : Option Nat
  buf : List UInt8
  deriving DecidableEq, Repr

inductive Verdict where
  | killed
  | pushed (port : Nat)
  deriving DecidableEq, Repr

/-! ## Algorithm -/

/-- `NodeLocalStorage::alloc(name, size)`, filled with `r`. -/
def nlsAlloc (nls : Nat → String → Option Region) (sid : Nat) (name : String) (r : Region) :
    Nat → String → Option Region :=
  Function.update nls sid (Function.update (nls sid) name (some r))

/-- `NodeLocalStorage::get_alloc(name)`: null when nothing is allocated there. -/
def nlsGetAlloc (nls : Nat → String → Option Region) (sid : Nat) (name : String) :
    Option NlsRef :=
  (nls sid name).map fun _ => ⟨sid, name⟩

/-- `unordered_map::insert`: the map, and whether the key was new. -/
def mapInsert (t : List (IpPair × Nat)) (k : IpPair) (v : Nat) : List (IpPair × Nat) × Bool :=
  if (t.lookup k).isSome then (t, false) else (t ++ [(k, v)], true)

/-- `IPsecAuthHMACSHA1::configure`: `num_tunnels`. -/
def configure : Nat := 1024

/-- The 64 key bytes of line 94, `"abcd"` sixteen times. -/
def hmacKeyBytes : List UInt8 := (List.replicate 16 [0x61, 0x62, 0x63, 0x64]).flatten

/-- The tunnel `i` of lines 87-88. -/
def tunnelPair (i : Nat) : IpPair := ⟨0x0a000001, 0x0a000000 ||| (i + 1)⟩

/-- Lines 86-95, tunnel `i`. -/
def globalEntry (i : Nat) (st : List (IpPair × Nat) × List (Option SaEntry)) :
    Except Stop (List (IpPair × Nat) × List (Option SaEntry)) := do
  let (table, inserted) := mapInsert st.1 (tunnelPair i) i
  if !inserted then throw (.assertFail "result.second == true")
  let arr ← Arr.set .hmacEntries st.2 i (some ⟨i, hmacKeyBytes⟩)
  pure (table, arr)

/-- `initialize_global` (lines 77-98). -/
def initializeGlobal (numTunnels : Nat) (g : HmacState) : Except Stop HmacState := do
  if numTunnels = 0 then throw (.assertFail "num_tunnels != 0")
  let (table, arr) ←
    forEach globalEntry (List.range numTunnels) (g.hmacSaTable, List.replicate numTunnels none)
  pure { g with entryArray := some arr, hmacSaTable := table }

/-- Lines 108-117: a new map with every entry of `src` inserted. -/
def copyTable (src : List (IpPair × Nat)) : List (IpPair × Nat) :=
  src.foldl (fun t kv => (mapInsert t kv.1 kv.2).1) []

/-- `initialize_per_node` (lines 100-130), on storage `sid`. -/
def initializePerNode (numTunnels sid : Nat) (g : HmacState) : Except Stop HmacState := do
  let nls := nlsAlloc g.nls sid "h_hmac_sa_table" (.saTable (copyTable g.hmacSaTable))
  match g.entryArray with
  | none => throw (.assertFail "hmac_sa_entry_array != NULL")
  | some arr =>
    let es ← Arr.slice .hmacEntries arr 0 numTunnels
    let nls := nlsAlloc nls sid "h_hmac_flows" (.flows es)
    pure { g with nls := nlsAlloc nls sid "d_hmac_flows_ptr" (.devPtr none) }

/-- `accel_init_handler` (lines 189-200). -/
def accelInitHandler (dev sid : Nat) (g : HmacState) (e : HmacElem) :
    Except Stop (HmacState × HmacElem) := do
  let flows := nlsGetAlloc g.nls sid "h_hmac_flows"
  let flowsD := nlsGetAlloc g.nls sid "d_hmac_flows_ptr"
  let some d := flowsD | throw (.undefined (.null "flows_d"))
  let some _ := flows | throw (.undefined (.null "flows"))
  pure ({ g with nls := nlsAlloc g.nls d.storage d.name (.devPtr (some dev)) }, { e with flows, flowsD })

/-- `IPsecAuthHMACSHA1::initialize` (lines 56-75), once per thread. -/
def initializeThread (sid : Nat) (g : HmacState) : HmacState × HmacElem :=
  let e : HmacElem := ⟨nlsGetAlloc g.nls sid "h_hmac_sa_table",
    nlsGetAlloc g.nls sid "h_hmac_flows", nlsGetAlloc g.nls sid "d_hmac_flows_ptr"⟩
  match g.entryArray with
  | some _ => ({ g with entryArray := none, frees := g.frees + 1 }, e)
  | none => (g, e)

/-- A `uint64_t` read from 8 bytes, least significant first. -/
def leWord : List UInt8 → Nat
  | [] => 0
  | b :: bs => b.toNat + 256 * leWord bs

/-- The `n` bytes of a word, least significant first. -/
def wordBytes : Nat → Nat → List UInt8
  | 0, _ => []
  | n + 1, w => (w % 256).toUInt8 :: wordBytes n (w / 256)

/-- `for (i = 0; i < n; i++) *((uint64_t*)hmac_buf + i) = pad ^ *((uint64_t*)hmac_key + i)`. -/
def padWords (pad : Nat) : Nat → List UInt8 → List UInt8
  | 0, _ => []
  | n + 1, key => wordBytes 8 (pad ^^^ leWord (key.take 8)) ++ padWords pad n (key.drop 8)

/-- Lines 163-164 and 168-170: the first 64 bytes of `hmac_buf`. -/
def padKey (pad : Nat) (key : List UInt8) : List UInt8 := padWords pad 8 key

/-- `ntohs(iph->tot_len)`, with `0` for a byte past the buffer. -/
def ipTotLen (buf : List UInt8) : Nat := (buf.getD 16 0).toNat * 256 + (buf.getD 17 0).toNat

/-- `iph->ihl`, the low nibble of the first byte of the IP header. -/
def ipIhl (buf : List UInt8) : Nat := (buf.getD 14 0).toNat % 16

/-- `payload_len` of line 152, an `int`. -/
def payloadLen (buf : List UInt8) : Int := (ipTotLen buf : Int) - ipIhl buf * 4 - 20

/-- Lines 158-171 and 186, for flow `k` and `payload_len = len`. -/
def processFlow (H : Sha1) (flows : List SaEntry) (k : Nat) (buf : List UInt8) (len : Int) :
    Except Stop (Verdict × List UInt8) := do
  let entry ← Arr.get .flows flows k
  -- `rte_memcpy(hmac_buf + 64, payload_out, payload_len)`, a `size_t` count
  let size := (len % 2 ^ 64).toNat
  if ¬(size = 0 ∨ 64 + size ≤ 2048) then
    throw (.undefined (.index .hmacBuf (64 + size - 1) 2048))
  let payload ← Arr.slice .packet buf 34 size
  let isum := H.hash (padKey 0x3636363636363636 entry.hmacKey ++ payload)
  let digest := H.hash (padKey 0x5c5c5c5c5c5c5c5c entry.hmacKey ++ isum)
  let buf ← Arr.write .packet buf (34 + size) digest
  pure (.pushed 0, buf)

/-- `IPsecAuthHMACSHA1::process` (lines 140-187) with the node's `flows`. -/
def process (H : Sha1) (flows : List SaEntry) (pkt : Packet) :
    Except Stop (Verdict × List UInt8) := do
  let hi ← Arr.get .packet pkt.buf 16
  let lo ← Arr.get .packet pkt.buf 17
  let vihl ← Arr.get .packet pkt.buf 14
  let len : Int := ((hi.toNat * 256 + lo.toNat : Nat) : Int) - ((vihl.toNat % 16 : Nat) : Int) * 4 - 20
  match pkt.flowId with
  | none => pure (.killed, pkt.buf)
  | some k => processFlow H flows k pkt.buf len

/-! ## Specification -/

/-- HMAC-SHA1 (RFC 2104) with a 64-byte key. -/
def hmacSha1 (H : Sha1) (key msg : List UInt8) : List UInt8 :=
  H.hash (key.map (0x5c ^^^ ·) ++ H.hash (key.map (0x36 ^^^ ·) ++ msg))

/-- The authentication the spec describes: the last 20 bytes of the datagram
hold the HMAC of the bytes from the ESP header to the trailer. -/
def espAuth (H : Sha1) (key buf : List UInt8) : List UInt8 :=
  let iph := 14
  let start := iph + 4 * ipIhl buf
  let stop := iph + ipTotLen buf - 20
  buf.take stop ++ hmacSha1 H key ((buf.drop start).take (stop - start)) ++ buf.drop (stop + 20)

/-! ## Lemmas -/

theorem byte_lt (p : UInt8) : p.toNat < 2 ^ 8 := p.val.isLt

theorem xor_split {a b x y : Nat} (ha : a < 256) (hb : b < 256) :
    (a + 256 * x) ^^^ (b + 256 * y) = (a ^^^ b) + 256 * (x ^^^ y) := by
  have h : (256 : Nat) = 2 ^ 8 := rfl
  apply Nat.eq_of_testBit_eq
  intro i
  rw [add_comm a, add_comm b, add_comm (a ^^^ b), h, Nat.testBit_xor,
    Nat.testBit_mul_pow_two_add _ (h ▸ ha), Nat.testBit_mul_pow_two_add _ (h ▸ hb),
    Nat.testBit_mul_pow_two_add _ (Nat.xor_lt_two_pow (h ▸ ha) (h ▸ hb))]
  split <;> simp [Nat.testBit_xor]

theorem toUInt8_xor (p b : UInt8) : (p.toNat ^^^ b.toNat).toUInt8 = p ^^^ b := by
  apply UInt8.toNat.inj
  show (p.toNat ^^^ b.toNat) % 256 = _
  exact Nat.mod_eq_of_lt (Nat.xor_lt_two_pow (n := 8) (byte_lt p) (byte_lt b))

/-- A word XOR on the bytes of a word is a byte-wise XOR. -/
theorem wordBytes_xor (p : UInt8) :
    ∀ bs : List UInt8, wordBytes bs.length (leWord (List.replicate bs.length p) ^^^ leWord bs) =
      bs.map (p ^^^ ·)
  | [] => rfl
  | b :: bs => by
    have hs : (p.toNat ^^^ b.toNat) < 256 := Nat.xor_lt_two_pow (n := 8) (byte_lt p) (byte_lt b)
    rw [List.length_cons, List.replicate_succ, leWord, leWord,
      xor_split (byte_lt p) (byte_lt b), wordBytes, Nat.add_mul_mod_self_left,
      Nat.mod_eq_of_lt hs, Nat.add_mul_div_left _ _ (by decide), Nat.div_eq_of_lt hs,
      Nat.zero_add, wordBytes_xor p bs, toUInt8_xor, List.map_cons]

theorem padWords_eq (p : UInt8) :
    ∀ (n : Nat) (key : List UInt8), 8 * n ≤ key.length →
      padWords (leWord (List.replicate 8 p)) n key = (key.take (8 * n)).map (p ^^^ ·)
  | 0, _, _ => rfl
  | n + 1, key, h => by
    have h8 : (key.take 8).length = 8 := by simp; omega
    rw [padWords, padWords_eq p n _ (by simp; omega), show 8 * (n + 1) = 8 + 8 * n by omega,
      List.take_add, List.map_append, ← wordBytes_xor p (key.take 8), h8]

/-- **The pads are byte-wise**: the eight 64-bit XORs with `0x36…36` and
`0x5c…5c` of a 64-byte key are the `ipad` and `opad` of RFC 2104. -/
theorem padKey_eq {key : List UInt8} (h : key.length = 64) :
    padKey 0x3636363636363636 key = key.map (0x36 ^^^ ·) ∧
      padKey 0x5c5c5c5c5c5c5c5c key = key.map (0x5c ^^^ ·) := by
  have take64 : key.take 64 = key := List.take_of_length_le (by omega)
  exact ⟨by simpa [take64] using padWords_eq 0x36 8 key (by omega),
    by simpa [take64] using padWords_eq 0x5c 8 key (by omega)⟩

/-! ### Initialisation -/

/-- The table after the first `k` tunnels of `initialize_global`. -/
def tunnels (k : Nat) : List (IpPair × Nat) := (List.range k).map fun i => (tunnelPair i, i)

@[simp] theorem nlsAlloc_apply (nls : Nat → String → Option Region) (sid : Nat) (name : String)
    (r : Region) (sid' : Nat) (name' : String) :
    nlsAlloc nls sid name r sid' name' = if sid' = sid ∧ name' = name then some r else nls sid' name' := by
  by_cases h : sid' = sid
  · subst h; by_cases h' : name' = name <;> simp [nlsAlloc, h']
  · simp [nlsAlloc, h]

/-- Below `2^25` the OR of line 88 is an addition, so the addresses are distinct. -/
theorem tunnelPair_inj {i j : Nat} (hi : i + 1 < 2 ^ 25) (hj : j + 1 < 2 ^ 25)
    (h : tunnelPair i = tunnelPair j) : i = j := by
  have hor : ∀ x < 2 ^ 25, 0x0a000000 ||| x = 2 ^ 25 * 5 + x := fun x hx =>
    (Nat.mul_add_lt_is_or hx 5).symm
  have := congrArg IpPair.destAddr h
  simp only [tunnelPair, hor _ hi, hor _ hj] at this
  omega

theorem lookup_tunnels {i : Nat} (hi : i + 1 < 2 ^ 25) :
    ∀ k, k < 2 ^ 25 → (tunnels k).lookup (tunnelPair i) = if i < k then some i else none
  | 0, _ => rfl
  | k + 1, hk => by
    rw [tunnels, List.range_succ, List.map_append, ← tunnels, List.lookup_append,
      lookup_tunnels hi k (by omega)]
    by_cases e : i = k
    · subst e; simp
    · have hne : tunnelPair i ≠ tunnelPair k := fun h => e (tunnelPair_inj hi (by omega) h)
      by_cases hlt : i < k
      · simp [hlt, Nat.lt_succ_of_lt hlt]
      · have hb : (tunnelPair i == tunnelPair k) = false := by simpa using hne
        simp [hlt, List.lookup_cons, hb, show ¬i < k + 1 by omega]

/-- Tunnel `k` is new to the table of the tunnels before it. -/
theorem mapInsert_tunnels {k : Nat} (hk : k + 1 < 2 ^ 25) :
    mapInsert (tunnels k) (tunnelPair k) k = (tunnels (k + 1), true) := by
  rw [mapInsert, lookup_tunnels hk k (by omega), if_neg (lt_irrefl k)]
  simp [tunnels, List.range_succ]

/-- **`initialize_global`**, for `0 < num_tunnels < 2^25`: no assertion
fails, and tunnel `i` maps to entry `i`, which holds the key of line 94. -/
theorem initializeGlobal_eq {N : Nat} (h0 : 0 < N) (hN : N < 2 ^ 25) {g : HmacState}
    (hg : g.hmacSaTable = []) :
    ∃ arr : List (Option SaEntry), initializeGlobal N g =
        .ok { g with entryArray := some arr, hmacSaTable := tunnels N } ∧
      arr.length = N ∧ ∀ i < N, arr[i]? = some (some ⟨i, hmacKeyBytes⟩) := by
  have loop : ∀ k ≤ N, ∃ arr : List (Option SaEntry),
      forEach globalEntry (List.range k) (g.hmacSaTable, List.replicate N none) =
        .ok (tunnels k, arr) ∧ arr.length = N ∧ ∀ i < k, arr[i]? = some (some ⟨i, hmacKeyBytes⟩) := by
    intro k
    induction k with
    | zero => intro _; exact ⟨_, by rw [hg]; rfl, by simp, by simp⟩
    | succ k ih =>
      intro hk
      obtain ⟨arr, h, hl, hv⟩ := ih (by omega)
      refine ⟨arr.set k (some ⟨k, hmacKeyBytes⟩), ?_, by simp [hl], fun i hi => ?_⟩
      · rw [List.range_succ, forEach_append, h, ok_bind, forEach_cons, globalEntry,
          mapInsert_tunnels (by omega)]
        simp [Arr.set_of_lt _ _ (show k < arr.length by omega)]
      · by_cases e : k = i
        · subst e; exact List.getElem?_set_self (by omega)
        · rw [List.getElem?_set_ne e]; exact hv i (by omega)
  obtain ⟨arr, h, hl, hv⟩ := loop N le_rfl
  refine ⟨arr, ?_, hl, hv⟩
  simp [initializeGlobal, Nat.pos_iff_ne_zero.1 h0, h]

/-- A copy of a table whose keys are distinct is the table. -/
theorem copyTable_eq {src : List (IpPair × Nat)} (h : (src.map Prod.fst).Nodup) :
    copyTable src = src := by
  have loop : ∀ (l acc : List (IpPair × Nat)), ((acc ++ l).map Prod.fst).Nodup →
      l.foldl (fun t kv => (mapInsert t kv.1 kv.2).1) acc = acc ++ l := by
    intro l
    induction l with
    | nil => simp
    | cons p l ih =>
      intro acc hnd
      have hp : acc.lookup p.1 = none := by
        simp only [List.map_append, List.map_cons, List.nodup_append, List.nodup_cons] at hnd
        simp only [List.lookup_eq_none_iff, bne_iff_ne, ne_eq]
        exact fun q hq e => hnd.2.2 (List.mem_map_of_mem _ hq) (List.mem_cons.2 (.inl e.symm))
      rw [List.foldl_cons, mapInsert, hp]
      simpa using ih (acc ++ [p]) (by simpa using hnd)
  simpa using loop src [] (by simpa using h)

/-- The keys of the tunnel table are distinct. -/
theorem tunnels_nodup {N : Nat} (hN : N < 2 ^ 25) : ((tunnels N).map Prod.fst).Nodup := by
  rw [tunnels, List.map_map]
  exact (List.nodup_range N).map_on fun i hi j hj h =>
    tunnelPair_inj (by simp at hi; omega) (by simp at hj; omega) h

/-- Storage `sid` with the table `tab`, the key array `arr` and an empty device slot. -/
def perNodeNls (nls : Nat → String → Option Region) (sid : Nat) (tab : List (IpPair × Nat))
    (arr : List (Option SaEntry)) : Nat → String → Option Region :=
  nlsAlloc (nlsAlloc (nlsAlloc nls sid "h_hmac_sa_table" (.saTable tab)) sid "h_hmac_flows"
    (.flows arr)) sid "d_hmac_flows_ptr" (.devPtr none)

/-- **`initialize_per_node`**, with the key array allocated, copies the table
and the key array and makes the device slot. -/
theorem initializePerNode_eq {N sid : Nat} {g : HmacState} {arr : List (Option SaEntry)}
    (he : g.entryArray = some arr) (hl : arr.length = N) :
    initializePerNode N sid g =
      .ok { g with nls := perNodeNls g.nls sid (copyTable g.hmacSaTable) arr } := by
  simp [initializePerNode, perNodeNls, he, Arr.slice, ← hl]

theorem process_header (H : Sha1) (flows : List SaEntry) (k : Nat) {buf : List UInt8}
    (h : 18 ≤ buf.length) :
    process H flows ⟨some k, buf⟩ = processFlow H flows k buf (payloadLen buf) := by
  simp only [process, Arr.get_of_lt .packet (show 16 < buf.length by omega),
    Arr.get_of_lt .packet (show 17 < buf.length by omega),
    Arr.get_of_lt .packet (show 14 < buf.length by omega), ok_bind, payloadLen, ipTotLen, ipIhl,
    List.getD_eq_getElem?_getD, List.getElem?_eq_getElem (show 16 < buf.length by omega),
    List.getElem?_eq_getElem (show 17 < buf.length by omega),
    List.getElem?_eq_getElem (show 14 < buf.length by omega), Option.getD_some]

/-- **What `process` computes** with its accesses in range: the HMAC of the
`payload_len` bytes after a fixed 20-byte IP header, written right after them. -/
theorem process_eq (H : Sha1) {flows : List SaEntry} {k : Nat} {e : SaEntry} {buf : List UInt8}
    (he : flows[k]? = some e) (hkey : e.hmacKey.length = 64) (h18 : 18 ≤ buf.length)
    (hpos : 0 ≤ payloadLen buf) (hfit : 64 + payloadLen buf ≤ 2048)
    (hbuf : 34 + payloadLen buf + 20 ≤ buf.length) :
    process H flows ⟨some k, buf⟩ = .ok (.pushed 0,
      buf.take (34 + (payloadLen buf).toNat) ++
        hmacSha1 H e.hmacKey ((buf.drop 34).take (payloadLen buf).toNat) ++
        buf.drop (34 + (payloadLen buf).toNat + 20)) := by
  have hsize : (payloadLen buf % 2 ^ 64).toNat = (payloadLen buf).toNat := by
    rw [Int.emod_eq_of_lt hpos (by omega)]
  obtain ⟨hi, ho⟩ := padKey_eq hkey
  simp only [process_header H flows k h18, processFlow, Arr.get_eq_ok.2 he, ok_bind, hsize,
    if_neg (show ¬¬((payloadLen buf).toNat = 0 ∨ 64 + (payloadLen buf).toNat ≤ 2048) by omega),
    Arr.slice, if_pos (Or.inr (show 34 + (payloadLen buf).toNat ≤ buf.length by omega)), hi, ho,
    Arr.write, H.length_hash, if_pos (Or.inr (show 34 + (payloadLen buf).toNat + 20 ≤ buf.length by
      omega)), pure_eq_ok]
  rfl

/-- **`process` is the authentication the spec describes** when the IP header
has no options (`ihl = 5`) and the datagram fits `hmac_buf` and the buffer. -/
theorem process_refines_espAuth (H : Sha1) {flows : List SaEntry} {k : Nat} {e : SaEntry}
    {buf : List UInt8} (he : flows[k]? = some e) (hkey : e.hmacKey.length = 64)
    (hihl : ipIhl buf = 5) (hlo : 40 ≤ ipTotLen buf) (hhi : ipTotLen buf ≤ 2024)
    (hbuf : 14 + ipTotLen buf ≤ buf.length) :
    process H flows ⟨some k, buf⟩ = .ok (.pushed 0, espAuth H e.hmacKey buf) := by
  have hpl : payloadLen buf = (ipTotLen buf - 40 : Nat) := by
    rw [payloadLen, hihl]; omega
  rw [process_eq H he hkey (by omega) (by omega) (by omega) (by omega), espAuth, hihl, hpl]
  rw [Int.toNat_ofNat, show 14 + ipTotLen buf - 20 = 34 + (ipTotLen buf - 40) by omega,
    show 14 + 4 * 5 = 34 from rfl, Nat.add_sub_cancel_left]

/-- A zero frame of `len` bytes with IP header byte `verIhl` and `tot_len`. -/
def ipFrame (verIhl totLen len : Nat) : List UInt8 :=
  List.replicate 14 0 ++ [verIhl.toUInt8, 0, (totLen / 256).toUInt8, (totLen % 256).toUInt8] ++
    List.replicate (len - 18) 0

/-- A `SHA1` whose every digest is twenty bytes `0xaa`. -/
def constSha1 : Sha1 := ⟨fun _ => List.replicate 20 0xaa, fun _ => List.length_replicate _ _⟩

theorem process_refines_espAuth_plain :
    process constSha1 [⟨0, hmacKeyBytes⟩] ⟨some 0, ipFrame 0x45 60 80⟩ =
      .ok (.pushed 0, espAuth constSha1 hmacKeyBytes (ipFrame 0x45 60 80)) :=
  process_refines_espAuth constSha1 rfl (by decide) (by decide) (by decide) (by decide) (by decide)

/-- `process` checks neither the flow id nor `tot_len`: a flow id of
`num_tunnels` reads past `flows`, and `tot_len = 0` copies `2^64 - 40` bytes
into `hmac_buf`. -/
theorem process_unchecked_inputs (H : Sha1) (flows : List SaEntry) (e : SaEntry) :
    process H flows ⟨some flows.length, ipFrame 0x45 40 60⟩ =
      .error (.undefined (.index .flows flows.length flows.length)) ∧
    process H (e :: flows) ⟨some 0, ipFrame 0x45 0 60⟩ =
      .error (.undefined (.index .hmacBuf (64 + (2 ^ 64 - 40) - 1) 2048)) := by
  have hpl : payloadLen (ipFrame 0x45 0 60) = -40 := by decide
  refine ⟨?_, ?_⟩
  · rw [process_header H flows _ (by decide), processFlow, Arr.get_of_le _ le_rfl, error_bind]
  · have hs : ((-40 : Int) % 2 ^ 64).toNat = 2 ^ 64 - 40 := by decide
    rw [process_header H (e :: flows) _ (by decide), processFlow, hpl,
      Arr.get_of_lt _ (show 0 < (e :: flows).length from Nat.succ_pos _), ok_bind]
    simp only [hs, if_pos (show ¬(2 ^ 64 - 40 = 0 ∨ 64 + (2 ^ 64 - 40) ≤ 2048) by decide)]
    rfl

/-- With IP options (`ihl = 6`) `process` still skips 20 header bytes and
writes the digest 4 bytes before the end of the datagram. -/
theorem process_ihl_options :
    (∀ H : Sha1, process H [⟨0, hmacKeyBytes⟩] ⟨some 0, ipFrame 0x46 64 80⟩ =
      .ok (.pushed 0, (ipFrame 0x46 64 80).take 54 ++
        hmacSha1 H hmacKeyBytes (((ipFrame 0x46 64 80).drop 34).take 20) ++
        (ipFrame 0x46 64 80).drop 74)) ∧
    process constSha1 [⟨0, hmacKeyBytes⟩] ⟨some 0, ipFrame 0x46 64 80⟩ ≠
      .ok (.pushed 0, espAuth constSha1 hmacKeyBytes (ipFrame 0x46 64 80)) := by
  have hp : payloadLen (ipFrame 0x46 64 80) = 20 := by decide
  have run := fun H => @process_eq H [⟨0, hmacKeyBytes⟩] 0 ⟨0, hmacKeyBytes⟩ (ipFrame 0x46 64 80)
    rfl (by decide) (by decide) (by rw [hp]; decide) (by rw [hp]; decide) (by rw [hp]; decide)
  simp only [hp] at run
  refine ⟨fun H => by simpa using run H, fun e => ?_⟩
  rw [run] at e
  exact absurd (congrArg Prod.snd (Except.ok.inj e)) (by decide)

end Nba
