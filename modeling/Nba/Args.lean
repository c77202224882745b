import Nba.Basic

/-!
# The NBA arguments

Lines 160-223 of `main` (src/src/main.cc): a `getopt_long` loop, the count
check, and the copy of the two positional arguments with `strncpy`.
`getopt_long` is glibc's (not in src/) and is modelled from its documented
behaviour (`getoptLong`).  The `strcmp` chain knows seven of the usage text's
eight levels, and `case '?'` only breaks (`parseArgs_diverges_from_usage`);
for arguments the usage text allows, without `alert`, the parse gives what
it promises (`parseArgs_of_usage`).
-/

namespace Nba

/-! ## C strings and constants -/

/-- A C string: its bytes before the terminating NUL. -/
@[ext] structure CStr where
  bytes : List UInt8
  noNul : 0 ∉ bytes
  deriving DecidableEq

/-- The C string of a literal of the source. -/
def CStr.ofString (s : String) : CStr :=
  ⟨s.toUTF8.data.toList.filter (· ≠ 0), by simp⟩

/-- `s + n`: the string from its `n`-th byte on. -/
def CStr.drop (s : CStr) (n : Nat) : CStr :=
  ⟨s.bytes.drop n, fun h => s.noNul (List.mem_of_mem_drop h)⟩

/-- `PATH_MAX` (linux/limits.h). -/
def pathMax : Nat := 4096

/-- `RTE_LOG_EMERG` … `RTE_LOG_DEBUG` (rte_log.h). -/
def rteLogEmerg : Nat := 1
def rteLogAlert : Nat := 2
def rteLogCrit : Nat := 3
def rteLogErr : Nat := 4
def rteLogWarning : Nat := 5
def rteLogNotice : Nat := 6
def rteLogInfo : Nat := 7
def rteLogDebug : Nat := 8

/-! ## getopt_long -/

/-- An entry of `long_opts` (its `flag` is `NULL` in all of them). -/
structure LongOpt where
  name : List UInt8
  hasArg : Bool
  val : Int

/-- `long_opts` (lines 164-168). -/
def longOpts : List LongOpt :=
  [⟨(CStr.ofString "preserve-latency").bytes, false, 0⟩,
   ⟨(CStr.ofString "loglevel").bytes, true, ('l'.toNat : Int)⟩]

/-- `int optidx = 0;` (line 171): getopt stores an index only when a long
option is found, so `optidx` always names an entry. -/
def resetIdx : Fin longOpts.length := ⟨0, by decide⟩

/-- What one call of `getopt_long` returns: `c`, the `optidx` it leaves, and
`optarg`. -/
structure GetoptRet where
  c : Int
  optidx : Fin longOpts.length
  optarg : Option CStr
  deriving DecidableEq

/-- `'?'`: an option getopt does not know, or one missing its argument. -/
def GetoptRet.question : GetoptRet := ⟨('?'.toNat : Int), resetIdx, none⟩

/-- An option that takes the next argument as its `optarg`. -/
structure Pending where
  c : Int
  optidx : Fin longOpts.length

/-- The entry `--name` selects: the one named `name`, else the first whose name
`name` abbreviates, unless another it abbreviates differs in `has_arg` or `val`
(ambiguous). -/
def longOptMatch (name : List UInt8) : Option (Fin longOpts.length) :=
  let idx := List.finRange longOpts.length
  match idx.find? fun i => (longOpts.get i).name = name with
  | some i => some i
  | none =>
    match idx.filter fun i => name.isPrefixOf (longOpts.get i).name with
    | [] => none
    | i :: more =>
      if more.all fun j => (longOpts.get j).hasArg = (longOpts.get i).hasArg ∧
          (longOpts.get j).val = (longOpts.get i).val then some i
      else none

/-- `--body`: `body` up to a `=` (byte 61) names the option, and what follows the
`=` is its argument. -/
def longOptRets (body : CStr) : List GetoptRet × Option Pending :=
  let name := body.bytes.takeWhile (· ≠ 61)
  match longOptMatch name with
  | none => ([.question], none)
  | some i =>
    let o := longOpts.get i
    if name.length = body.bytes.length then
      if o.hasArg then ([], some ⟨o.val, i⟩) else ([⟨o.val, i, none⟩], none)
    else if o.hasArg then ([⟨o.val, i, some (body.drop (name.length + 1))⟩], none)
    else ([.question], none)

/-- `-cs…`: with optstring `"l:"` every byte but `l` (108) is `'?'`; `l` takes
the rest of the argument, or else the next argument, as `optarg`. -/
def shortOptRets : (cs : List UInt8) → 0 ∉ cs → List GetoptRet × Option Pending
  | [], _ => ([], none)
  | c :: cs, h =>
    if c = 108 then
      if cs = [] then ([], some ⟨('l'.toNat : Int), resetIdx⟩)
      else ([⟨('l'.toNat : Int), resetIdx, some ⟨cs, fun m => h (List.mem_cons_of_mem _ m)⟩⟩], none)
    else
      let r := shortOptRets cs fun m => h (List.mem_cons_of_mem _ m)
      (.question :: r.1, r.2)

/-- `NONOPTION_P`: `-` alone, or an argument not starting with `-` (45). -/
def isNonOption (a : CStr) : Bool :=
  match a.bytes with
  | 45 :: _ :: _ => false
  | _ => true

/-- The returns of an option argument, and the option it leaves waiting. -/
def optionRets : CStr → List GetoptRet × Option Pending
  | ⟨45 :: 45 :: body, h⟩ => longOptRets ⟨body, fun m => h (by simp [m])⟩
  | ⟨45 :: cs, h⟩ => shortOptRets cs fun m => h (by simp [m])
  | _ => ([], none)

/-- The returns of `getopt_long` until `-1`, and what it leaves at
`argv[optind..argc)`: non-options move after the options, unless
`POSIXLY_CORRECT` (`requireOrder`) makes the first one end the scan. -/
def getoptScan (requireOrder : Bool) : Option Pending → List CStr → List GetoptRet × List CStr
  | none, [] => ([], [])
  | some _, [] => ([.question], [])
  | some p, a :: rest =>
    let r := getoptScan requireOrder none rest
    (⟨p.c, p.optidx, some a⟩ :: r.1, r.2)
  | none, a :: rest =>
    if a = .ofString "--" then ([], rest)
    else if isNonOption a then
      if requireOrder then ([], a :: rest)
      else
        let r := getoptScan requireOrder none rest
        (r.1, a :: r.2)
    else
      let o := optionRets a
      let r := getoptScan requireOrder o.2 rest
      (o.1 ++ r.1, r.2)

/-- `getopt_long` on `argv[1..argc)`; `optind` is then `argc` less the
length of the arguments it leaves. -/
def getoptLong (requireOrder : Bool) (args : List CStr) : List GetoptRet × List CStr :=
  getoptScan requireOrder none args

/-! ## The parser -/

/-- A `new char[PATH_MAX]` buffer: never written, written by `strncpy` with its
NUL, or filled by `strncpy` with no NUL in it. -/
inductive PathBuf where
  | indeterminate
  | str (s : CStr)
  | unterminated (bytes : List UInt8)
  deriving DecidableEq

/-- `strncpy(buf, src, PATH_MAX)`. -/
def strncpyPath (src : CStr) : PathBuf :=
  if src.bytes.length < pathMax then .str src else .unterminated (src.bytes.take pathMax)

/-- What lines 160-223 leave for the rest of `main`. -/
structure NbaArgs where
  preserveLatency : Bool
  loglevel : Nat
  systemConfig : PathBuf
  pipelineConfig : PathBuf
  deriving DecidableEq

/-- Lines 123 and 159-162. -/
def NbaArgs.init : NbaArgs := ⟨false, rteLogInfo, .indeterminate, .indeterminate⟩

/-- The `strcmp` chain of lines 183-198. -/
def logLevelOf (a : CStr) : Option Nat :=
  if a = .ofString "debug" then some rteLogDebug
  else if a = .ofString "info" then some rteLogInfo
  else if a = .ofString "notice" then some rteLogNotice
  else if a = .ofString "warning" then some rteLogWarning
  else if a = .ofString "error" then some rteLogErr
  else if a = .ofString "critical" then some rteLogCrit
  else if a = .ofString "emergency" then some rteLogEmerg
  else none

/-- The `switch` of lines 174-205 on one return of `getopt_long`. -/
def handleOpt (r : GetoptRet) (s : NbaArgs) : Except Stop NbaArgs :=
  if r.c = 0 then
    if (longOpts.get r.optidx).name = (CStr.ofString "preserve-latency").bytes then
      pure { s with preserveLatency := true }
    else pure s
  else if r.c = 'l'.toNat then
    match r.optarg with
    | none => throw (.assertFail "optarg != NULL")
    | some a =>
      match logLevelOf a with
      | some l => pure { s with loglevel := l }
      | none => throw (.exit "Invalid value for loglevel: %s\n")
  else if r.c = '?'.toNat then pure s
  else throw (.exit "Invalid NBA arguments.\n")

/-- One round of the loop of lines 212-223: `argv[optidx]`, at `optidx - optind`. -/
def storePositional (a : Nat × CStr) (s : NbaArgs) : Except Stop NbaArgs :=
  match a.1 with
  | 0 => pure { s with systemConfig := strncpyPath a.2 }
  | 1 => pure { s with pipelineConfig := strncpyPath a.2 }
  | _ => throw (.exit "Too many NBA arguments.\n")

/-- Lines 160-223 on `argv[1..argc)` (`argc` counts `argv[0]`, so `argc - 1`
is never below zero). -/
def parseArgs (requireOrder : Bool) (args : List CStr) : Except Stop NbaArgs :=
  let g := getoptLong requireOrder args
  let argc := args.length + 1
  let optind := argc - g.2.length
  forEach handleOpt g.1 .init >>= fun s =>
    if optind + 2 < argc - 1 then throw (.exit "Not enough NBA arguments.\n")
    else forEach storePositional g.2.enum s

/-! ## The usage text -/

/-- The levels the usage text names, with their `RTE_LOG_*` values. -/
def usageLevels : List (CStr × Nat) :=
  [(.ofString "debug", rteLogDebug), (.ofString "info", rteLogInfo),
   (.ofString "notice", rteLogNotice), (.ofString "warning", rteLogWarning),
   (.ofString "error", rteLogErr), (.ofString "critical", rteLogCrit),
   (.ofString "alert", rteLogAlert), (.ofString "emergency", rteLogEmerg)]

/-- The value of a level the usage text names. -/
def usageLevel (a : CStr) : Option Nat :=
  (usageLevels.find? fun l => l.1 = a).map (·.2)

/-- The level of `--loglevel=LEVEL`. -/
def usageLoglevelEq (a : CStr) : Option CStr :=
  (usageLevels.find? fun l => a.bytes = (CStr.ofString "--loglevel=").bytes ++ l.1.bytes).map (·.1)

/-- A reading of the arguments the usage text allows. -/
structure Usage where
  preserveLatency : Bool
  /-- The levels named, in order. -/
  levels : List CStr
  positionals : List CStr

/-- `u` after a level named before the arguments it reads. -/
def Usage.named (l : CStr) (u : Usage) : Usage := { u with levels := l :: u.levels }

/-- The arguments as the usage text allows them, `afterL` after a `-l`:
`-l LEVEL`, `--loglevel=LEVEL`, `--preserve-latency`, and arguments not
starting with `-`; `none` for anything else. -/
def usageScan : Bool → List CStr → Option Usage
  | false, [] => some ⟨false, [], []⟩
  | true, [] => none
  | true, a :: rest =>
    if (usageLevel a).isSome then (usageScan false rest).map (Usage.named a) else none
  | false, a :: rest =>
    if a = .ofString "-l" then usageScan true rest
    else if a = .ofString "--preserve-latency" then
      (usageScan false rest).map fun u => { u with preserveLatency := true }
    else match usageLoglevelEq a with
      | some l => (usageScan false rest).map (Usage.named l)
      | none =>
        if a.bytes.head? = some 45 then none
        else (usageScan false rest).map fun u => { u with positionals := a :: u.positionals }

def usage (args : List CStr) : Option Usage := usageScan false args

/-- The usage text allows `args`, with two positional arguments. -/
def usageArgs (args : List CStr) : Bool :=
  match usage args with
  | some u => u.positionals.length = 2
  | none => false

/-! ## What getopt returns -/

/-- What the `switch` can meet: `0` from `--preserve-latency` (the first
entry), `'l'` with its argument, or `'?'`. -/
def GetoptRet.Valid (r : GetoptRet) : Prop :=
  r.c = 0 ∧ r.optidx = resetIdx ∨ r.c = 'l'.toNat ∧ r.optarg.isSome ∨ r.c = '?'.toNat

/-- Only `-l` and `--loglevel` wait for an argument. -/
def Pending.Valid (p : Pending) : Prop := p.c = 'l'.toNat

/-- What one option argument gives is what the `switch` expects. -/
def StepValid (o : List GetoptRet × Option Pending) : Prop :=
  (∀ r ∈ o.1, r.Valid) ∧ ∀ p ∈ o.2, p.Valid

theorem GetoptRet.question_valid : GetoptRet.question.Valid := .inr (.inr rfl)

theorem longOpts_cases : ∀ i : Fin longOpts.length,
    (longOpts.get i).hasArg = false ∧ (longOpts.get i).val = 0 ∧ i = resetIdx ∨
      (longOpts.get i).hasArg = true ∧ (longOpts.get i).val = 'l'.toNat := by
  decide

theorem longOptRets_valid (b : CStr) : StepValid (longOptRets b) := by
  dsimp only [longOptRets]
  split
  · simp [StepValid, GetoptRet.question_valid]
  · rename_i i _
    rcases longOpts_cases i with ⟨ha, hv, rfl⟩ | ⟨ha, hv⟩ <;>
      split_ifs <;> simp_all [StepValid, GetoptRet.Valid, Pending.Valid, GetoptRet.question]

theorem shortOptRets_valid : ∀ (cs : List UInt8) (h : 0 ∉ cs), StepValid (shortOptRets cs h)
  | [], _ => by simp [StepValid, shortOptRets]
  | c :: cs, h => by
    have ih := shortOptRets_valid cs fun m => h (List.mem_cons_of_mem _ m)
    unfold shortOptRets
    split_ifs <;> simp_all [StepValid, GetoptRet.Valid, Pending.Valid, GetoptRet.question]

theorem optionRets_valid (a : CStr) : StepValid (optionRets a) := by
  unfold optionRets
  split
  · exact longOptRets_valid _
  · exact shortOptRets_valid _ _
  · simp [StepValid]

/-- Every return of getopt is one the `switch` expects. -/
theorem getoptScan_valid (requireOrder : Bool) (args : List CStr) :
    ∀ p : Option Pending, (∀ q ∈ p, q.Valid) →
      ∀ r ∈ (getoptScan requireOrder p args).1, r.Valid := by
  induction args with
  | nil => rintro (_ | _) _ <;> simp [getoptScan, GetoptRet.question_valid]
  | cons a rest ih =>
    rintro (_ | q) hq
    · simp only [getoptScan]
      split_ifs
      · simp
      · simp
      · exact ih none (by simp)
      · have ho := optionRets_valid a
        intro r hr
        rcases List.mem_append.1 hr with hr | hr
        exacts [ho.1 r hr, ih _ ho.2 r hr]
    · simp only [getoptScan, List.mem_cons, forall_eq_or_imp]
      exact ⟨.inr (.inl ⟨hq q rfl, rfl⟩), ih none (by simp)⟩

/-- getopt leaves no more arguments than it was given. -/
theorem getoptScan_length_le (requireOrder : Bool) (args : List CStr) :
    ∀ p : Option Pending, (getoptScan requireOrder p args).2.length ≤ args.length := by
  induction args with
  | nil => rintro (_ | _) <;> simp [getoptScan]
  | cons a rest ih =>
    rintro (_ | q)
    · have := ih none
      have := ih (optionRets a).2
      simp only [getoptScan]
      split_ifs <;> (try simp only [List.length_cons]) <;> omega
    · simpa [getoptScan] using (ih none).trans (Nat.le_succ _)

/-! ## The parse in closed form -/

/-- The argument of a `-l` or `--loglevel` return. -/
def levelArg (r : GetoptRet) : Option CStr := if r.c = 'l'.toNat then r.optarg else none

/-- What lines 160-223 compute from the returns of getopt and the arguments it
leaves: the first level the `strcmp` chain does not know exits; four or more
arguments left fail the count check, and three reach the third `case` of the
copy loop; otherwise the last level is kept and at most two paths are copied. -/
def parseSpec (rets : List GetoptRet) (pos : List CStr) : Except Stop NbaArgs :=
  let levels := rets.filterMap levelArg
  if levels.any fun a => (logLevelOf a).isNone then .error (.exit "Invalid value for loglevel: %s\n")
  else if 4 ≤ pos.length then .error (.exit "Not enough NBA arguments.\n")
  else if pos.length = 3 then .error (.exit "Too many NBA arguments.\n")
  else .ok ⟨rets.any (·.c = 0), (levels.filterMap logLevelOf).getLastD rteLogInfo,
    pos[0]?.elim .indeterminate strncpyPath, pos[1]?.elim .indeterminate strncpyPath⟩

theorem longOpts_get_resetIdx :
    (longOpts.get resetIdx).name = (CStr.ofString "preserve-latency").bytes := rfl

theorem levelArg_c {r : GetoptRet} {a : CStr} (h : levelArg r = some a) : r.c = 'l'.toNat := by
  unfold levelArg at h
  split_ifs at h with hc
  exact hc

/-- The `switch` on a `-l` or `--loglevel` return. -/
theorem handleOpt_level {r : GetoptRet} {a : CStr} (h : levelArg r = some a) (s : NbaArgs) :
    handleOpt r s = match logLevelOf a with
      | some l => .ok { s with loglevel := l }
      | none => .error (.exit "Invalid value for loglevel: %s\n") := by
  have hc := levelArg_c h
  simp only [levelArg, hc, if_true] at h
  simp [handleOpt, hc, h]

/-- The `switch` on the other returns it expects. -/
theorem handleOpt_other {r : GetoptRet} (hr : r.Valid) (h : levelArg r = none) (s : NbaArgs) :
    handleOpt r s = .ok { s with preserveLatency := s.preserveLatency || r.c = 0 } := by
  rcases hr with ⟨hc, hi⟩ | ⟨hc, ha⟩ | hc
  · simp only [handleOpt, hc, hi, longOpts_get_resetIdx]
    simp
  · simp [levelArg, hc] at h
    simp [h] at ha
  · simp [handleOpt, hc]

/-- The `getopt_long` loop on returns the `switch` expects. -/
theorem forEach_handleOpt (rets : List GetoptRet) (hv : ∀ r ∈ rets, r.Valid) (s : NbaArgs) :
    forEach handleOpt rets s =
      if (rets.filterMap levelArg).any fun a => (logLevelOf a).isNone then
        .error (.exit "Invalid value for loglevel: %s\n")
      else .ok { s with
        preserveLatency := s.preserveLatency || rets.any (·.c = 0),
        loglevel := ((rets.filterMap levelArg).filterMap logLevelOf).getLastD s.loglevel } := by
  induction rets generalizing s with
  | nil => simp
  | cons r rets ih =>
    obtain ⟨hr, hv⟩ := List.forall_mem_cons.1 hv
    cases hla : levelArg r with
    | none =>
      rw [forEach_cons, handleOpt_other hr hla, ok_bind, ih hv, List.filterMap_cons_none hla,
        List.any_cons, Bool.or_assoc]
    | some a =>
      have hc : r.c ≠ 0 := by rw [levelArg_c hla]; decide
      rw [forEach_cons, handleOpt_level hla, List.filterMap_cons_some hla]
      cases hl : logLevelOf a with
      | none => simp [hl]
      | some l =>
        rw [ok_bind, ih hv]
        simp only [List.any_cons, hl, Option.isNone_some, Bool.false_or, hc, decide_False,
          List.filterMap_cons_some hl, List.getLastD_cons]

/-- The copy loop of lines 212-223. -/
theorem forEach_storePositional (pos : List CStr) (s : NbaArgs) :
    forEach storePositional pos.enum s =
      if 3 ≤ pos.length then .error (.exit "Too many NBA arguments.\n")
      else .ok { s with systemConfig := pos[0]?.elim s.systemConfig strncpyPath,
                        pipelineConfig := pos[1]?.elim s.pipelineConfig strncpyPath } := by
  match pos with
  | [] => rfl
  | [_] => rfl
  | [_, _] => rfl
  | _ :: _ :: _ :: _ => simp [storePositional, List.enum_cons, List.enumFrom_cons]

/-- **Lines 160-223 in closed form**, for every argument vector and either
getopt ordering. -/
theorem parseArgs_eq_parseSpec (requireOrder : Bool) (args : List CStr) :
    parseArgs requireOrder args =
      parseSpec (getoptLong requireOrder args).1 (getoptLong requireOrder args).2 := by
  have hv := getoptScan_valid requireOrder args none (by simp)
  have hle := getoptScan_length_le requireOrder args none
  simp only [parseArgs, parseSpec, getoptLong, forEach_handleOpt _ hv, forEach_storePositional]
  split_ifs <;> first | rfl | omega

/-! ## Arguments not starting with `-` -/

section Positional
variable {a : CStr}

theorem ne_of_head_ne {b : CStr} (h : a.bytes.head? ≠ some 45) (hb : b.bytes.head? = some 45) :
    a ≠ b := by
  rintro rfl
  exact h hb

theorem isNonOption_of_head (h : a.bytes.head? ≠ some 45) : isNonOption a = true := by
  unfold isNonOption
  split <;> simp_all

/-- getopt passes over an argument not starting with `-`. -/
theorem getoptScan_positional (requireOrder : Bool) (h : a.bytes.head? ≠ some 45) (rest : List CStr) :
    getoptScan requireOrder none (a :: rest) =
      if requireOrder then ([], a :: rest)
      else ((getoptScan requireOrder none rest).1, a :: (getoptScan requireOrder none rest).2) := by
  simp [getoptScan, ne_of_head_ne h (b := .ofString "--") rfl, isNonOption_of_head h]

theorem usageLoglevelEq_of_head (h : a.bytes.head? ≠ some 45) : usageLoglevelEq a = none := by
  simp only [usageLoglevelEq, Option.map_eq_none', List.find?_eq_none]
  intro l _ e
  exact h (by rw [of_decide_eq_true e]; rfl)

/-- The usage text reads an argument not starting with `-` as a path. -/
theorem usageScan_positional (h : a.bytes.head? ≠ some 45) (rest : List CStr) :
    usageScan false (a :: rest) =
      (usageScan false rest).map fun u => { u with positionals := a :: u.positionals } := by
  simp [usageScan, ne_of_head_ne h (b := .ofString "-l") rfl,
    ne_of_head_ne h (b := .ofString "--preserve-latency") rfl, usageLoglevelEq_of_head h, h]

end Positional

/-- `main` goes on with arguments the usage text does not allow, and stops on
ones it allows: `-l alert` exits, an option getopt does not know is passed
over, so is a missing path, and a path of `PATH_MAX` bytes or more is
copied with no NUL, under either getopt ordering. -/
theorem parseArgs_diverges_from_usage (requireOrder : Bool) :
    usageArgs [.ofString "-l", .ofString "alert", .ofString "a", .ofString "b"] ∧
      parseArgs requireOrder [.ofString "-l", .ofString "alert", .ofString "a", .ofString "b"] =
        .error (.exit "Invalid value for loglevel: %s\n") ∧
    ¬ usageArgs [.ofString "--bogus", .ofString "a", .ofString "b"] ∧
      parseArgs requireOrder [.ofString "--bogus", .ofString "a", .ofString "b"] =
        .ok ⟨false, rteLogInfo, .str (.ofString "a"), .str (.ofString "b")⟩ ∧
    ¬ usageArgs [.ofString "a"] ∧
      parseArgs requireOrder [.ofString "a"] =
        .ok ⟨false, rteLogInfo, .str (.ofString "a"), .indeterminate⟩ ∧
    ∀ p : CStr, pathMax ≤ p.bytes.length → p.bytes.head? ≠ some 45 →
      usageArgs [p, .ofString "b"] ∧
        parseArgs requireOrder [p, .ofString "b"] =
          .ok ⟨false, rteLogInfo, .unterminated (p.bytes.take pathMax), .str (.ofString "b")⟩ := by
  refine ⟨rfl, by cases requireOrder <;> rfl, by decide, by cases requireOrder <;> rfl, by decide,
    by cases requireOrder <;> rfl, fun p hp hd => ⟨?_, ?_⟩⟩
  · simp [usageArgs, usage, usageScan_positional hd]
    rfl
  · have hg : getoptLong requireOrder [p, .ofString "b"] = ([], [p, .ofString "b"]) := by
      cases requireOrder
      · simp [getoptLong, getoptScan_positional _ hd]
        exact ⟨rfl, rfl⟩
      · simp [getoptLong, getoptScan_positional _ hd]
    rw [parseArgs_eq_parseSpec, hg]
    simp [parseSpec, strncpyPath, Nat.not_lt.2 hp]
    decide

/-! ## Arguments the usage text allows -/

theorem optionRets_ell : optionRets (.ofString "-l") = ([], some ⟨'l'.toNat, resetIdx⟩) := rfl

theorem optionRets_preserveLatency :
    optionRets (.ofString "--preserve-latency") = ([⟨0, resetIdx, none⟩], none) := rfl

theorem usageLoglevelEq_some {a l : CStr} (h : usageLoglevelEq a = some l) :
    a.bytes = (CStr.ofString "--loglevel=").bytes ++ l.bytes ∧ (usageLevel l).isSome := by
  obtain ⟨⟨l', v⟩, hf, rfl⟩ := Option.map_eq_some'.1 h
  have e := List.find?_some hf
  simp only [decide_eq_true_eq] at e
  exact ⟨e, (by decide : ∀ x ∈ usageLevels, (usageLevel x.1).isSome) _
    (List.mem_of_find?_eq_some hf)⟩

theorem optionRets_loglevelEq {a l : CStr} (h : usageLoglevelEq a = some l) :
    optionRets a = ([⟨'l'.toNat, ⟨1, by decide⟩, some l⟩], none) := by
  obtain ⟨bytes, hn⟩ := a
  obtain ⟨e, -⟩ := usageLoglevelEq_some h
  simp only at e
  subst e
  rfl

theorem logLevelOf_eq_usageLevel (a : CStr) (ha : a ≠ .ofString "alert") :
    logLevelOf a = usageLevel a := by
  unfold logLevelOf usageLevel
  split_ifs <;> subst_vars <;> first | rfl | simp [usageLevels, List.find?_cons, *, eq_comm]

theorem getoptScan_option {a : CStr} (h : isNonOption a = false) (hd : a ≠ .ofString "--")
    (requireOrder : Bool) (rest : List CStr) :
    getoptScan requireOrder none (a :: rest) =
      ((optionRets a).1 ++ (getoptScan requireOrder (optionRets a).2 rest).1,
        (getoptScan requireOrder (optionRets a).2 rest).2) := by
  simp [getoptScan, h, hd]

theorem getoptScan_of_usageScan (args : List CStr) : ∀ (b : Bool) (u : Usage),
    usageScan b args = some u →
    let g := getoptScan false (if b then some ⟨'l'.toNat, resetIdx⟩ else none) args
    g.2 = u.positionals ∧ g.1.filterMap levelArg = u.levels ∧ g.1.any (·.c = 0) = u.preserveLatency ∧
      ∀ l ∈ u.levels, (usageLevel l).isSome := by
  induction args with
  | nil =>
    rintro (_ | _) u h <;> simp only [usageScan, Option.some.injEq, reduceCtorEq] at h
    subst h
    simp [getoptScan]
  | cons a rest ih =>
    rintro (_ | _) u h
    · by_cases h1 : a = .ofString "-l"
      · subst h1
        simpa [getoptScan_option (a := .ofString "-l") rfl (by decide), optionRets_ell]
          using ih true u h
      by_cases h2 : a = .ofString "--preserve-latency"
      · subst h2
        obtain ⟨u', h', rfl⟩ := Option.map_eq_some'.1 h
        obtain ⟨hp, hl, -, hv⟩ := ih false u' h'
        simp only [if_false, Bool.false_eq_true] at hp hl
        simp [getoptScan_option (a := .ofString "--preserve-latency") rfl (by decide),
          optionRets_preserveLatency, levelArg, hp, hl]
        exact hv
      cases hl : usageLoglevelEq a with
      | some l =>
        simp only [usageScan, if_neg h1, if_neg h2, hl] at h
        obtain ⟨u', h', rfl⟩ := Option.map_eq_some'.1 h
        obtain ⟨e, hlv⟩ := usageLoglevelEq_some hl
        have hno : isNonOption a = false := by unfold isNonOption; rw [e]; rfl
        have hd : a ≠ .ofString "--" := by
          rintro rfl
          cases e
        simpa [getoptScan_option hno hd, optionRets_loglevelEq hl, levelArg, Usage.named, hlv]
          using ih false u' h'
      | none =>
        simp only [usageScan, if_neg h1, if_neg h2, hl] at h
        split_ifs at h with hh
        obtain ⟨u', h', rfl⟩ := Option.map_eq_some'.1 h
        simpa [getoptScan_positional false hh] using ih false u' h'
    · simp only [usageScan] at h
      split_ifs at h with hlv
      obtain ⟨u', h', rfl⟩ := Option.map_eq_some'.1 h
      simpa [getoptScan, levelArg, Usage.named, hlv] using ih false u' h'

/-- In glibc's default ordering, arguments the usage text allows, with two paths
shorter than `PATH_MAX` and no `alert`, give the rest of `main` the values the
usage text promises: the last level named (`info` if none), whether
`--preserve-latency` occurs, and the two paths with their NUL. -/
theorem parseArgs_of_usage {args : List CStr} {u : Usage} {p₀ p₁ : CStr}
    (hu : usage args = some u) (hpos : u.positionals = [p₀, p₁])
    (halert : CStr.ofString "alert" ∉ u.levels)
    (h₀ : p₀.bytes.length < pathMax) (h₁ : p₁.bytes.length < pathMax) :
    parseArgs false args =
      .ok ⟨u.preserveLatency, (u.levels.filterMap usageLevel).getLastD rteLogInfo, .str p₀, .str p₁⟩ := by
  obtain ⟨hp, hl, hc, hv⟩ := getoptScan_of_usageScan args false u hu
  simp only [if_false, Bool.false_eq_true] at hp hl hc
  have hlog : ∀ a ∈ u.levels, logLevelOf a = usageLevel a := fun a ha =>
    logLevelOf_eq_usageLevel a fun e => halert (e ▸ ha)
  have hknown : (u.levels.any fun a => (logLevelOf a).isNone) = false :=
    List.any_eq_false.2 fun a ha => by simpa [hlog a ha, Option.isSome_iff_ne_none] using hv a ha
  rw [parseArgs_eq_parseSpec]
  simp [parseSpec, getoptLong, hp, hl, hc, hpos, hknown, List.filterMap_congr hlog, strncpyPath, h₀, h₁]

theorem parseArgs_of_usage_mixed :
    parseArgs false [.ofString "a", .ofString "-l", .ofString "debug", .ofString "--preserve-latency",
      .ofString "b"] = .ok ⟨true, rteLogDebug, .str (.ofString "a"), .str (.ofString "b")⟩ :=
  parseArgs_of_usage (u := ⟨true, [.ofString "debug"], [.ofString "a", .ofString "b"]⟩) rfl rfl
    (by decide) (by decide) (by decide)

end Nba
