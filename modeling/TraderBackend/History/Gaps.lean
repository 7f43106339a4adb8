import TraderBackend.Lib.Lead
import TraderBackend.History.FiltererCoverage
import TraderBackend.History.Watermarks

/-!
# Gap detection and repair

A gap is a pair of neighbouring rows of one table, collected over http, that lie further
apart than the table's threshold.  `detectAndFillGaps` runs one backfill from the start of
every gap on.

* `detectGaps` — the query for one table.
* `GapDetection` — what the queries of one run meet; `fillStarts` are the dates the
  backfills start from.
* `fillGaps`, `detectAndFillGaps` — the backfills, one after the other.
* `gap_repaired` — every block inside a gap is asked for by some backfill, and each of its
  log entries is handed on.
-/

namespace TraderBackend

/-! ## The queries -/

/-- `AllowedTable`, each with its `AllowedTimestampCol`. -/
inductive GapTable where
  | tradesHistory
  | tokenFlow
  | fundingRatePayments
  | settleHistory
  | estimatedEarningsTokens
  deriving DecidableEq

structure GapConfig where
  table : GapTable
  thresholdSeconds : ℕ
  deriving DecidableEq

/-- `GAP_CONFIGS`. -/
def gapConfigs : List GapConfig :=
  [⟨.tradesHistory, 4 * 3600⟩, ⟨.tokenFlow, 4 * 3600⟩, ⟨.fundingRatePayments, 4 * 3600⟩,
    ⟨.settleHistory, 6 * 3600⟩, ⟨.estimatedEarningsTokens, 12 * 3600⟩]

/-- The times of the rows with `is_collected_by_event = false`, in seconds. -/
def HistoryDb.collectedTimes (db : HistoryDb) : GapTable → List ℕ
  | .tradesHistory =>
      (db.trade.entries.filter fun e => !e.2.isCollectedByEvent).map fun e => e.2.tradeTimestamp
  | .tokenFlow =>
      (db.tokenFlow.entries.filter fun e => !e.2.isCollectedByEvent).map fun e => e.2.timestamp
  | .fundingRatePayments =>
      (db.fundingRatePayment.entries.filter fun e => !e.2.isCollectedByEvent).map
        fun e => e.2.paymentTimestamp
  | .settleHistory =>
      (db.settle.entries.filter fun e => !e.2.isCollectedByEvent).map fun e => e.2.timestamp
  | .estimatedEarningsTokens =>
      (db.estimatedEarningTokens.entries.filter fun e => !e.2.isCollectedByEvent).map
        fun e => e.2.createdAt

/-- A `GapRow`, in milliseconds. -/
structure GapRow where
  gapStart : ℕ
  gapEnd : ℕ
  deriving DecidableEq

/-- `ordered`: the rows of the last thirty days, each with the next one. -/
def orderedTimes (now : ℤ) (times : List ℕ) : List (ℕ × ℕ) :=
  let recent := times.filter fun ts : ℕ => decide (now - 30 * 24 * 3600000 < (ts : ℤ) * 1000)
  lead (recent.insertionSort (· ≤ ·))

/-- `detectGaps` at a moment `now`, in milliseconds. -/
def detectGaps (now : ℤ) (db : HistoryDb) (config : GapConfig) : List GapRow :=
  ((orderedTimes now (db.collectedTimes config.table)).filter fun p =>
    decide (config.thresholdSeconds < p.2 - p.1)).map fun p => ⟨p.1 * 1000, p.2 * 1000⟩

/-! ## The repair -/

/-- What the queries of a run of `detectAndFillGaps` meet. -/
structure GapDetection where
  /-- The tables when a query runs. -/
  db : GapTable → HistoryDb
  /-- `NOW()` of a query, in milliseconds. -/
  now : GapTable → ℤ
  /-- The query fails; the failure is logged and the next table is looked at. -/
  fails : GapTable → Bool

/-- `allGapStarts`, in seconds and most recent first. -/
def GapDetection.gapStarts (d : GapDetection) : List ℕ :=
  ((gapConfigs.flatMap fun config =>
    if d.fails config.table then []
    else (detectGaps (d.now config.table) (d.db config.table) config).map
      fun gap => gap.gapStart / 1000).dedup).insertionSort (· ≥ ·)

/-- The `sec` of the backfills. -/
def GapDetection.fillStarts (d : GapDetection) (startTimestampSec : ℤ) : List ℤ :=
  d.gapStarts.map fun gapStartSec : ℕ => max (gapStartSec : ℤ) startTimestampSec

section

variable {β ρ : Type*}

/-- The loop over the starts; each backfill meets circumstances of its own, and one that
throws ends the loop. -/
def fillGaps (runBackfill : ℤ → β → Option ρ) : List ℤ → List β → Option (List ρ)
  | [], _ => some []
  | sec :: secs, met :: rest =>
      (runBackfill sec met).bind fun r => (fillGaps runBackfill secs rest).map fun rs => r :: rs
  | _ :: _, [] => none

/-- `detectAndFillGaps`. -/
def detectAndFillGaps (runBackfill : ℤ → β → Option ρ) (startTimestampSec : ℤ)
    (d : GapDetection) (met : List β) : Option (List ρ) :=
  fillGaps runBackfill (d.fillStarts startTimestampSec) met

/-- When the loop returns, the results of the backfills from every start are among its own. -/
theorem fillGaps_mem {runBackfill : ℤ → β → Option ρ} {secs : List ℤ} {met : List β} {rs : List ρ}
    (h : fillGaps runBackfill secs met = some rs) {sec : ℤ} (hsec : sec ∈ secs) :
    ∃ m ∈ met, ∃ r ∈ rs, runBackfill sec m = some r := by
  induction secs generalizing met rs with
  | nil => cases hsec
  | cons first secs ih =>
    cases met with
    | nil => cases h
    | cons m rest =>
      obtain ⟨r, hr, hrest⟩ := Option.bind_eq_some_iff.1 h
      obtain ⟨rs', hrs', rfl⟩ := Option.map_eq_some_iff.1 hrest
      rcases List.mem_cons.1 hsec with rfl | hsec
      · exact ⟨m, List.mem_cons_self, r, List.mem_cons_self, hr⟩
      · obtain ⟨m', hm', r', hr', hfill⟩ := ih hrs' hsec
        exact ⟨m', List.mem_cons_of_mem _ hm', r', List.mem_cons_of_mem _ hr', hfill⟩

end

/-! ## Where the backfills start -/

/-- The two ends of a gap are times of the table. -/
theorem detectGaps_mem {now : ℤ} {db : HistoryDb} {config : GapConfig} {gap : GapRow}
    (h : gap ∈ detectGaps now db config) :
    ∃ s ∈ db.collectedTimes config.table, ∃ e ∈ db.collectedTimes config.table,
      gap = ⟨s * 1000, e * 1000⟩ := by
  obtain ⟨⟨s, e⟩, hp, rfl⟩ := List.mem_map.1 h
  obtain ⟨hs, he, -, -⟩ := lead_mem (List.pairwise_insertionSort _ _) (List.mem_filter.1 hp).1
  rw [List.mem_insertionSort] at hs he
  exact ⟨s, (List.mem_filter.1 hs).1, e, (List.mem_filter.1 he).1, rfl⟩

/-- The start of a gap that is detected is among the starts of the backfills. -/
theorem mem_fillStarts {d : GapDetection} {config : GapConfig} (hconfig : config ∈ gapConfigs)
    (hfails : d.fails config.table = false) {gap : GapRow}
    (hgap : gap ∈ detectGaps (d.now config.table) (d.db config.table) config)
    (startTimestampSec : ℤ) :
    max ((gap.gapStart / 1000 : ℕ) : ℤ) startTimestampSec ∈ d.fillStarts startTimestampSec := by
  apply List.mem_map_of_mem
  rw [GapDetection.gapStarts, List.mem_insertionSort, List.mem_dedup, List.mem_flatMap]
  refine ⟨config, hconfig, ?_⟩
  rw [hfails]
  exact List.mem_map_of_mem hgap

/-! ## What a backfill asks for -/

/-- What one backfill of the loop meets: the tables when it starts, and the rest. -/
structure FillMeets where
  db : HistoryDb
  input : BackfillInput

variable (env : HistoryEnv) (chain : Chain)

/-- `runHistoricalDataFilterers(hdOpts, sec, false)`. -/
def runFill (sec : ℤ) (m : FillMeets) : Option BackfillResult :=
  runHistoricalDataFilterers env chain sec false m.db m.input

variable {env chain}

/-- The search for the first block does not go past a block that is not before the start. -/
theorem firstBlock_le_of_start {sec : ℤ} {b : ℕ} (hsec : sec ≤ chain.timestamp b) (m : FillMeets) :
    chain.firstBlock m.input.latest (m.db.filtererStart sec) ≤ b := by
  apply calculateBlockFromTime_le chain.timestamp_mono
  have hstart := filtererStart_le m.db sec
  omega

/-- What a backfill that ends did with a block that is not before its start and not the latest one:
the block is inside a range it queried, and each log entry of the block reached the callbacks, as no
watermark skips any. -/
theorem runFill_spec {sec : ℤ} {m : FillMeets} {result : BackfillResult}
    (h : runFill env chain sec m = some result) {b : ℕ} (hsec : sec ≤ chain.timestamp b)
    (hlatest : b < m.input.latest) :
    (∃ r ∈ result.proxyEvents.queried, b ∈ Set.Icc r.1 r.2) ∧
      ∀ log ∈ chain.logs, log.blockNumber = b → env.inAbi log.decoded.name = true →
        chain.rpc.deliver log ∈ result.proxyEvents.calls := by
  obtain ⟨s, hs, hrun, hmem⟩ := filtered_eq chain env m.input.latest (m.db.filtererStart sec)
  unfold runFill runHistoricalDataFilterers at h
  rw [if_neg Bool.false_ne_true] at h
  obtain ⟨proxyEvents, hcalls, h⟩ := Option.bind_eq_some_iff.1 h
  rw [filterProxyEvents, hs, Option.map_some] at hcalls
  obtain rfl := Option.some.inj hcalls
  obtain ⟨c, -, h⟩ := Option.bind_eq_some_iff.1 h
  have hfirst := firstBlock_le_of_start hsec m
  split at h
  · obtain rfl := Option.some.inj h
    constructor
    · have hinv := loopInv_init chain.rpc env.topicHashes
        (chain.firstBlock m.input.latest (m.db.filtererStart sec)) m.input.latest
      obtain ⟨-, hend⟩ := loopInv_filterFrom _ hinv hrun
      show ∃ r ∈ s.ranges, b ∈ Set.Icc r.1 r.2
      rw [genericFilterer_ranges hrun]
      -- only the latest block can be left out
      exact ((queriedFrom_spec _ hinv hrun).2.2 b).2 ⟨hfirst, by omega, hlatest.le⟩
    · rintro log hlogged rfl habi
      apply List.mem_filter.2
      exact ⟨(hmem _).2 ⟨rfl, hlogged, habi, hfirst, hlatest.le, Or.inl hlatest⟩, rfl⟩
  · cases h

/-! ## The gap is repaired -/

/-- **A gap is repaired.**  The rows carry times of blocks up to `head`, the last one when the
detection ran, and the chain only grows.  When `detectAndFillGaps` returns, every block whose time
lies strictly inside a gap that was detected, and that starts no earlier than `startTimestampSec`,
was inside a range that one of its backfills queried, and each log entry of the block reached the
callbacks of that backfill. -/
theorem gap_repaired {d : GapDetection} {startTimestampSec : ℤ} {met : List FillMeets}
    {results : List BackfillResult} {head : ℕ}
    (hrun : detectAndFillGaps (runFill env chain) startTimestampSec d met = some results)
    (htimes : ∀ table, ∀ time ∈ (d.db table).collectedTimes table,
      ∃ b ≤ head, chain.timestamp b = time)
    (hlatest : ∀ m ∈ met, head ≤ m.input.latest) {config : GapConfig}
    (hconfig : config ∈ gapConfigs) (hfails : d.fails config.table = false) {gap : GapRow}
    (hgap : gap ∈ detectGaps (d.now config.table) (d.db config.table) config)
    (hstart : startTimestampSec * 1000 ≤ gap.gapStart) {b : ℕ}
    (hafter : gap.gapStart < chain.timestamp b * 1000)
    (hbefore : chain.timestamp b * 1000 < gap.gapEnd) :
    ∃ result ∈ results, (∃ r ∈ result.proxyEvents.queried, b ∈ Set.Icc r.1 r.2) ∧
      ∀ log ∈ chain.logs, log.blockNumber = b → env.inAbi log.decoded.name = true →
        chain.rpc.deliver log ∈ result.proxyEvents.calls := by
  obtain ⟨s, -, e, he, rfl⟩ := detectGaps_mem hgap
  obtain ⟨last, hhead, hlast⟩ := htimes _ e he
  obtain ⟨m, hm, result, hmem, hfill⟩ := fillGaps_mem hrun
    (mem_fillStarts hconfig hfails hgap startTimestampSec)
  have hb : b < last := by
    by_contra hc
    have := chain.timestamp_mono (not_lt.1 hc)
    simp only at hbefore
    omega
  have hbLatest : b < m.input.latest := lt_of_lt_of_le (hb.trans_le hhead) (hlatest m hm)
  have hsec : max (((⟨s * 1000, e * 1000⟩ : GapRow).gapStart / 1000 : ℕ) : ℤ) startTimestampSec ≤
      chain.timestamp b := by
    simp only at hstart hafter ⊢
    omega
  exact ⟨result, hmem, runFill_spec hfill hsec hbLatest⟩

/-- Three settlements, ten days apart. -/
def threeSettlements : Chain where
  logs := [settleLog 6 "0xaa", settleLog 7 "0xbb", settleLog 8 "0xcc"]
  timestamp := tenDays
  deploymentBlock := 1
  timestamp_mono := tenDays_mono
  topics := by decide
  deployed := by decide
  dated := by decide

/-- The rows of the first and the last one. -/
def middleMissing : HistoryDb :=
  { HistoryDb.empty with
    settle := insertSettleHistoryRecord
      (insertSettleHistoryRecord OrdMap.empty ⟨100001, "0xa1", 5, 0⟩ "0xaa" false (tenDays 6))
      ⟨100001, "0xa1", 5, 0⟩ "0xcc" false (tenDays 8) }

/-- The detection on these rows, at the time of the last block. -/
def middleDetected : GapDetection where
  db _ := middleMissing
  now _ := tenDays 8 * 1000
  fails _ := false

/-- The backfill from the first settlement on asks for the missing one and hands it on. -/
theorem middleSettlement_repaired :
    ∃ results, detectAndFillGaps (runFill plainEnv threeSettlements) (tenDays 1) middleDetected
        [⟨middleMissing, turnEach 4⟩] = some results ∧
      ∃ result ∈ results, (∃ r ∈ result.proxyEvents.queried, 7 ∈ Set.Icc r.1 r.2) ∧
        ∀ log ∈ threeSettlements.logs, log.blockNumber = 7 →
          plainEnv.inAbi log.decoded.name = true →
          threeSettlements.rpc.deliver log ∈ result.proxyEvents.calls := by
  have hrows : ∀ table, (middleDetected.db table).collectedTimes table ⊆
      [tenDays 6, tenDays 8] := by
    intro table
    cases table <;> decide
  have htimes : ∀ table, ∀ time ∈ (middleDetected.db table).collectedTimes table,
      ∃ b ≤ 8, threeSettlements.timestamp b = time := by
    intro table time htime
    rcases List.mem_pair.1 (hrows table htime) with rfl | rfl
    · exact ⟨6, by decide, rfl⟩
    · exact ⟨8, le_refl _, rfl⟩
  have hgap : (⟨tenDays 6 * 1000, tenDays 8 * 1000⟩ : GapRow) ∈
      detectGaps (middleDetected.now .settleHistory) (middleDetected.db .settleHistory)
        ⟨.settleHistory, 6 * 3600⟩ := by decide
  have hreturns : (detectAndFillGaps (runFill plainEnv threeSettlements) (tenDays 1)
      middleDetected [⟨middleMissing, turnEach 4⟩]).isSome := by decide
  obtain ⟨results, hresults⟩ := Option.isSome_iff_exists.1 hreturns
  exact ⟨results, hresults, gap_repaired hresults htimes (by decide) (by decide) rfl hgap
    (by decide) (by decide) (by decide)⟩

end TraderBackend
