import TraderBackend.History.BackfillRunner
import TraderBackend.History.HandlerRuns

/-!
# When a watermark may be trusted

A run with `skipUpToDate` passes over a log entry that is older than the
watermark of its type.  Is its row there?

* `Sound` — the invariant between runs: whatever is older than a watermark is
  stored.  `sound_redundancy` is its step lemma.
* `OlderStored` — the condition under which the initial run, which only reads the
  last thirty days, establishes it.
* `OwnRows` — the condition under which each entry has its own row.
* `backfills_sound` — under these conditions every entry that is passed over is
  stored, and a redundancy run leaves every entry up to its last block stored.
-/

namespace TraderBackend

/-! ## Watermarks are times of rows -/

/-- The query the watermark of a type comes from. -/
def ProxyEventName.watermark : ProxyEventName → Watermark
  | .trade => .trade
  | .liquidate => .liquidate
  | .settle => .settle
  | .settleV2 => .settle
  | .tokensDeposited => .tokenFlow
  | .tokensWithdrawn => .tokenFlow
  | .updateMarginAccount => .funding
  | .liquidityAdded => .liquidityAdded
  | .liquidityRemoved => .liquidityAdded
  | .liquidityWithdrawalInitiated => .withdrawalInitiated
  | .setOracles => .setOracles

/-- How far a watermark stays behind the newest row, in milliseconds. -/
def Watermark.margin : Watermark → ℤ
  | .trade => oneHour
  | .liquidate => oneHour
  | .settle => oneHour
  | .tokenFlow => oneHour
  | _ => 0

/-- The watermark of a query. -/
def HistoryDb.latest (db : HistoryDb) : Watermark → Option ℤ
  | .trade => getLatestTradeTimestamp db.trade
  | .liquidate => getLatestLiquidateTimestamp db.trade
  | .settle => getLatestSettleTimestamp db.settle
  | .tokenFlow => getLatestTokenFlowTimestamp db.tokenFlow
  | .funding => getLatestFundingTimestamp db.fundingRatePayment
  | .liquidityAdded => getLatestEarningsTimestamp db.estimatedEarningTokens .liquidityAdded
  | .withdrawalInitiated => getLatestTimestampInitiation db.liquidityWithdrawal
  | .setOracles => getLatestOraclesTimestamp db.perpetualLongId

theorem eventTimestamps_eq (db : HistoryDb) (name : ProxyEventName) :
    db.eventTimestamps name = db.latest name.watermark := by
  cases name <;> rfl

/-- A query's answer is the time of a row, moved by the margin. -/
theorem exists_stamp {K V : Type*} [DecidableEq K] {t : OrdMap K V} {stamp : V → Option ℕ}
    {shift : ℕ → ℤ} {margin watermark : ℤ} {db : HistoryDb} {w : Watermark} {millis : ℕ → ℕ}
    (hshift : ∀ time, shift time = (millis time : ℤ) - margin)
    (hrow : ∀ key row time, t.get? key = some row → stamp row = some time →
      db.Stamp w (millis time))
    (h : (t.latest stamp).map shift = some watermark) :
    ∃ date : ℕ, db.Stamp w date ∧ watermark = date - margin := by
  obtain ⟨time, hlatest, rfl⟩ := Option.map_eq_some_iff.1 h
  obtain ⟨key, row, hget, hstamp⟩ := OrdMap.latest_eq_some hlatest
  exact ⟨millis time, hrow key row time hget hstamp, hshift time⟩

/-- A watermark is the time of a row less the margin. -/
theorem latest_eq_some {db : HistoryDb} {w : Watermark} {watermark : ℤ}
    (h : db.latest w = some watermark) :
    ∃ date : ℕ, db.Stamp w date ∧ watermark = date - w.margin := by
  have hhour : ∀ time : ℕ, (time : ℤ) * 1000 - oneHour = (time * 1000 : ℕ) - oneHour := by
    intro time
    rw [Nat.cast_mul]
    rfl
  have hnone : ∀ time : ℕ, (time : ℤ) * 1000 = (time * 1000 : ℕ) - 0 := by
    intro time
    rw [Nat.cast_mul, sub_zero]
    rfl
  cases w with
  | trade | liquidate =>
    refine exists_stamp hhour (fun key row time hget hs => ?_) h
    simp only [Trade.httpTime] at hs
    split at hs
    · rename_i hkind
      cases hs
      exact ⟨.trade key row.content, OrdMap.holds_iff.2 ⟨row, hget, rfl⟩,
        by simp [DbRow.stamp, Trade.content, hkind.1]⟩
    · cases hs
  | settle =>
    refine exists_stamp hhour (fun key row time hget hs => ?_) h
    simp only [Settle.httpTime] at hs
    split at hs <;> cases hs
    exact ⟨.settle key row.content, OrdMap.holds_iff.2 ⟨row, hget, rfl⟩, rfl⟩
  | tokenFlow =>
    refine exists_stamp hhour (fun key row time hget hs => ?_) h
    simp only [TokenFlow.httpTime] at hs
    split at hs <;> cases hs
    exact ⟨.tokenFlow key row.content, OrdMap.holds_iff.2 ⟨row, hget, rfl⟩, rfl⟩
  | funding =>
    refine exists_stamp hnone (fun key row time hget hs => ?_) h
    simp only [FundingRatePayment.httpTime] at hs
    split at hs <;> cases hs
    exact ⟨.fundingRatePayment key row.content, OrdMap.holds_iff.2 ⟨row, hget, rfl⟩, rfl⟩
  | liquidityAdded =>
    refine exists_stamp hnone (fun key row time hget hs => ?_) h
    split at hs
    · rename_i hkind
      cases hs
      refine ⟨.estimatedEarning key row.content, OrdMap.holds_iff.2 ⟨row, hget, rfl⟩, ?_⟩
      simp [DbRow.stamp, EstimatedEarningTokens.content, hkind.1]
    · cases hs
  | withdrawalInitiated =>
    refine exists_stamp hnone (fun key row time hget hs => ?_) h
    simp only [LiquidityWithdrawal.httpTime] at hs
    split at hs
    · rename_i hkind
      cases hs
      exact ⟨.liquidityWithdrawal key row.content, OrdMap.holds_iff.2 ⟨row, hget, rfl⟩,
        by simp [DbRow.stamp, LiquidityWithdrawal.content, hkind.1]⟩
    · cases hs
  | setOracles =>
    refine exists_stamp (fun time => (sub_zero (time : ℤ)).symm) (fun key row time hget hs => ?_) h
    cases hs
    exact ⟨.perpetualLongId key row.content, OrdMap.holds_iff.2 ⟨row, hget, rfl⟩, rfl⟩

theorem filtererStart_le (db : HistoryDb) (startTimestampSec : ℤ) :
    db.filtererStart startTimestampSec ≤ startTimestampSec * 1000 := by
  show (allEventNames.filterMap db.eventTimestamps).foldr min (startTimestampSec * 1000) ≤ _
  induction allEventNames.filterMap db.eventTimestamps with
  | nil => exact le_refl _
  | cons watermark rest ih => exact (min_le_right _ _).trans ih

/-! ## What a run reaches and leaves behind -/

/-- The date of a log entry, in milliseconds. -/
def Chain.date (chain : Chain) (log : EventLog ProxyEvent) : ℤ :=
  (chain.timestamp log.blockNumber : ℤ) * 1000

/-- The inserts of a log entry. -/
def Chain.jobs (chain : Chain) (env : HistoryEnv) (log : EventLog ProxyEvent) : List DbJob :=
  log.jobs env (chain.timestamp log.blockNumber)

/-- The first block a run from a date on asks for. -/
def Chain.firstBlock (chain : Chain) (latest : ℕ) (since : ℤ) : ℕ :=
  (calculateBlockFromTime chain.timestamp latest since).1

/-- A log entry a run is handed. -/
structure Chain.Reaches (chain : Chain) (env : HistoryEnv) (latest : ℕ) (since : ℤ)
    (log : EventLog ProxyEvent) : Prop where
  logged : log ∈ chain.logs
  inAbi : env.inAbi log.decoded.name = true
  scanned : Scanned (chain.firstBlock latest since) latest log.blockNumber

/-- Every row the handler of a log entry writes is there. -/
def Chain.Stored (chain : Chain) (env : HistoryEnv) (db : HistoryDb)
    (log : EventLog ProxyEvent) : Prop :=
  ∀ job ∈ chain.jobs env log, job.Fits → job.Stored env.sha256Hex db

/-- A row of the log entry can be the one a watermark is read from. -/
def Chain.Moves (chain : Chain) (env : HistoryEnv) (log : EventLog ProxyEvent) (w : Watermark) :
    Prop :=
  ∃ job ∈ chain.jobs env log, job.Fits ∧
    ∃ r date, job.row env.sha256Hex = some r ∧ r.stamp = some (w, date)

variable {env : HistoryEnv} {chain : Chain}

theorem Chain.Stored.mono {db db' : HistoryDb} (h : db.Grows db') {log : EventLog ProxyEvent}
    (hlog : chain.Stored env db log) : chain.Stored env db' log :=
  fun job hjob hfits => (hlog job hjob hfits).mono h

theorem ProxyEventName.mem_all (name : ProxyEventName) : name ∈ allEventNames := by
  cases name <;> decide

theorem ProxyEventName.text_injective : Function.Injective ProxyEventName.text := by
  intro a b h
  cases a <;> cases b <;> first | rfl | exact absurd h (by decide)

/-- The filterer returns, and what it has delivered are the log entries the run reaches. -/
theorem filtered_eq (chain : Chain) (env : HistoryEnv) (latest : ℕ) (since : ℤ) :
    ∃ s, chain.filtered env latest since = some s ∧
      genericFilterer chain.rpc env.topicHashes (latest + 1) (chain.firstBlock latest since)
        latest = .returned s ∧
      ∀ d, d ∈ s.saved.delivered ↔
        d = chain.rpc.deliver d.event ∧ chain.Reaches env latest since d.event := by
  have hrpc : chain.rpc.Healthy := ⟨fun _ => rfl, fun _ _ => rfl⟩
  obtain ⟨s, hrun, hs⟩ := genericFilterer_healthy hrpc env.topicHashes
    (Nat.lt_succ_of_le (Nat.sub_le latest (chain.firstBlock latest since)))
  refine ⟨s, ?_, hrun, fun d => ?_⟩
  · have hrun' : genericFilterer chain.rpc env.topicHashes (latest + 1)
        (calculateBlockFromTime chain.timestamp latest since).1 latest = .returned s := hrun
    simp only [Chain.filtered]
    rw [show (calculateBlockFromTime chain.timestamp latest since).2 = latest from rfl, hrun']
  · have htopic : d.event ∈ chain.logs →
        (d.event.topic0 ∈ env.topicHashes ↔ env.inAbi d.event.decoded.name = true) := by
      intro hlogged
      rw [chain.topics d.event hlogged, HistoryEnv.topicHashes,
        List.mem_map_of_injective ProxyEventName.text_injective, List.mem_filter]
      exact and_iff_right (ProxyEventName.mem_all _)
    rw [hs]
    constructor
    · rintro ⟨hd, hlogged, htop, hscanned⟩
      exact ⟨hd, hlogged, (htopic hlogged).1 htop, hscanned⟩
    · rintro ⟨hd, hlogged, habi, hscanned⟩
      exact ⟨hd, hlogged, (htopic hlogged).2 habi, hscanned⟩

/-- The time an insert is called with. -/
def DbJob.blockTimestamp : DbJob → ℕ
  | .trade _ _ _ blockTimestamp _ => blockTimestamp
  | .settle _ _ _ blockTimestamp => blockTimestamp
  | .tokenDeposit _ _ _ blockTimestamp => blockTimestamp
  | .tokenWithdraw _ _ _ blockTimestamp => blockTimestamp
  | .fundingRatePayment _ _ _ blockTimestamp => blockTimestamp
  | .estimatedEarning _ _ _ _ _ _ _ blockTimestamp => blockTimestamp
  | .liquidityWithdrawal _ _ _ _ blockTimestamp => blockTimestamp
  | .perpetualLongId log => log.blockTimestamp
  | .alignTimestamps _ => 0

/-- A watermark read from the row of an insert is its time. -/
theorem stamp_row {sha256Hex : String → String} {job : DbJob} {r : DbRow}
    (hr : job.row sha256Hex = some r) {w : Watermark} {date : ℕ} (hs : r.stamp = some (w, date)) :
    date = job.blockTimestamp * 1000 := by
  cases job with
  | trade e txHash isCollectedByEvent blockTimestamp blockNumber =>
    obtain rfl := Option.some.inj hr
    have htime : (e.row txHash false blockTimestamp).tradeTimestamp = blockTimestamp := by
      cases e <;> rfl
    rw [DbRow.stamp, htime] at hs
    exact (Prod.mk.inj (Option.some.inj hs)).2.symm
  | estimatedEarning wallet amount shAmount poolId txHash type isCollectedByEvent blockTimestamp =>
    obtain rfl := Option.some.inj hr
    cases type <;> cases hs
    rfl
  | liquidityWithdrawal e isLiquidityRemovedEvent txHash isCollectedByEvent blockTimestamp =>
    obtain rfl := Option.some.inj hr
    cases isLiquidityRemovedEvent <;> cases hs
    rfl
  | perpetualLongId log =>
    obtain ⟨currDate, hdate, rfl⟩ := Option.map_eq_some_iff.1 hr
    cases hs
    unfold SetOraclesLog.currDate newDate at hdate
    split at hdate <;> cases hdate
    rfl
  | alignTimestamps choice => cases hr
  | _ =>
    obtain rfl := Option.some.inj hr
    cases hs
    rfl

/-- The inserts of a log entry carry its time. -/
theorem jobs_spec {log : EventLog ProxyEvent} (hlogged : log ∈ chain.logs) {job : DbJob}
    (hjob : job ∈ chain.jobs env log) :
    job.isTransfer = false ∧ job.WellFormed ∧
      job.blockTimestamp = chain.timestamp log.blockNumber := by
  have hdated := chain.dated log hlogged
  unfold Chain.jobs EventLog.jobs at hjob
  cases hlog : log.decoded with
  | updateMarginAccount e =>
    simp only [hlog, ProxyEvent.jobs] at hjob
    split at hjob
    · exact absurd hjob List.not_mem_nil
    · obtain rfl := List.mem_singleton.1 hjob
      exact ⟨rfl, trivial, rfl⟩
  | liquidityAdded e =>
    simp only [hlog, ProxyEvent.jobs] at hjob
    obtain rfl := List.mem_singleton.1 hjob
    exact ⟨rfl, Or.inr hdated, rfl⟩
  | liquidityRemoved e =>
    simp only [hlog, ProxyEvent.jobs] at hjob
    rcases List.mem_cons.1 hjob with rfl | hjob
    · exact ⟨rfl, Or.inr hdated, rfl⟩
    · split at hjob
      · exact absurd hjob List.not_mem_nil
      · obtain rfl := List.mem_singleton.1 hjob
        exact ⟨rfl, trivial, rfl⟩
  | _ =>
    simp only [hlog, ProxyEvent.jobs] at hjob
    obtain rfl := List.mem_singleton.1 hjob
    exact ⟨rfl, trivial, rfl⟩

/-- The inserts of a share token transfer write rows no watermark is read from. -/
theorem transfer_jobs {x : ShareTransfer} {job : DbJob} (hjob : job ∈ x.jobs env false) :
    job.WellFormed ∧ ∀ r, job.row env.sha256Hex = some r → r.stamp = none := by
  have hearning : ∀ (wallet : String) (amount shAmount : ℤ),
      job = .estimatedEarning wallet amount shAmount x.poolId x.txHash .shareTokenP2PTransfer false
        x.blockTimestamp →
      job.WellFormed ∧ ∀ r, job.row env.sha256Hex = some r → r.stamp = none := by
    rintro wallet amount shAmount rfl
    refine ⟨Or.inl rfl, fun r hr => ?_⟩
    obtain rfl := Option.some.inj hr
    rfl
  unfold ShareTransfer.jobs at hjob
  split at hjob
  · exact absurd hjob List.not_mem_nil
  · split at hjob
    · exact absurd hjob List.not_mem_nil
    · rcases List.mem_cons.1 hjob with hfrom | hjob
      · exact hearning _ _ _ hfrom
      · exact hearning _ _ _ (List.mem_singleton.1 hjob)

/-- The inserts of runs: those of the entries up to their last blocks, those of the transfers they
find, and the alignments. -/
inductive Chain.Inserts (env : HistoryEnv) (chain : Chain) (inputs : List BackfillInput) :
    DbJob → Prop where
  | entry {input : BackfillInput} {log : EventLog ProxyEvent} {job : DbJob}
      (hinput : input ∈ inputs) (hlogged : log ∈ chain.logs)
      (habi : env.inAbi log.decoded.name = true) (hlast : log.blockNumber ≤ input.latest)
      (hjob : job ∈ chain.jobs env log) : Inserts env chain inputs job
  | transfer {input : BackfillInput} {x : ShareTransfer} {job : DbJob} (hinput : input ∈ inputs)
      (hx : x ∈ input.transfers) (hjob : job ∈ x.jobs env false) : Inserts env chain inputs job
  | align (choice : JoinChoice) : Inserts env chain inputs (.alignTimestamps choice)

/-- In these runs no insert takes the place of another event's row. -/
def OwnRows (env : HistoryEnv) (chain : Chain) (inputs : List BackfillInput) : Prop :=
  OwnPlaces env.sha256Hex (Chain.Inserts env chain inputs)

/-- What one run leaves behind: nothing is lost, what it reached and did not pass over is
stored, every row is still that of an insert, and a new time of a watermark is that of an entry it
reached. -/
structure RunSpec (env : HistoryEnv) (chain : Chain) (inputs : List BackfillInput) (latest : ℕ)
    (since : ℤ) (eventTimestamps : Option (ProxyEventName → Option ℤ)) (db db' : HistoryDb) :
    Prop where
  grows : db.Grows db'
  inserted : db'.From env.sha256Hex (Chain.Inserts env chain inputs)
  stored : ∀ log, chain.Reaches env latest since log →
    skips eventTimestamps (chain.rpc.deliver log) = false → chain.Stored env db' log
  stamp : ∀ w date, db'.Stamp w date → db.Stamp w date ∨
    ∃ log, chain.Reaches env latest since log ∧ chain.Moves env log w ∧
      date = chain.timestamp log.blockNumber * 1000

theorem runHistoricalDataFilterers_spec {inputs : List BackfillInput}
    (hown : OwnRows env chain inputs) {startTimestampSec : ℤ} {skipUpToDate : Bool}
    {db : HistoryDb} {input : BackfillInput} (hinput : input ∈ inputs)
    (hdb : db.From env.sha256Hex (Chain.Inserts env chain inputs)) {result : BackfillResult}
    (h : runHistoricalDataFilterers env chain startTimestampSec skipUpToDate db input =
      some result) :
    RunSpec env chain inputs input.latest (db.filtererStart startTimestampSec)
      (if skipUpToDate then some db.eventTimestamps else none) db result.db := by
  obtain ⟨s, hs, -, hmem⟩ := filtered_eq chain env input.latest
    (db.filtererStart startTimestampSec)
  unfold runHistoricalDataFilterers at h
  generalize (if skipUpToDate then some db.eventTimestamps else none) = eventTimestamps at h ⊢
  obtain ⟨proxyEvents, hcalls, h⟩ := Option.bind_eq_some_iff.1 h
  rw [filterProxyEvents, hs, Option.map_some] at hcalls
  obtain rfl := Option.some.inj hcalls
  obtain ⟨c, hrun, h⟩ := Option.bind_eq_some_iff.1 h
  split at h
  · rename_i hall
    obtain rfl := Option.some.inj h
    let calls := s.saved.delivered.filter fun d => !skips eventTimestamps d
    -- a handler is that of an entry reached, of a transfer, or the alignment
    have hsplit : ∀ jobs ∈ input.handlers env calls,
        (∃ log, chain.Reaches env input.latest (db.filtererStart startTimestampSec) log ∧
          jobs = chain.jobs env log) ∨
        (∃ x ∈ input.transfers, jobs = x.jobs env false) ∨
        jobs = [.alignTimestamps input.choice] := by
      intro jobs hjobs
      simp only [BackfillInput.handlers, List.mem_append, List.mem_map, List.mem_singleton,
        calls, List.mem_filter, hmem] at hjobs
      rcases hjobs with (⟨d, ⟨⟨hd, hreach⟩, -⟩, rfl⟩ | ⟨x, hx, rfl⟩) | rfl
      · rw [hd]
        exact Or.inl ⟨d.event, hreach, rfl⟩
      · exact Or.inr (Or.inl ⟨x, hx, rfl⟩)
      · exact Or.inr (Or.inr rfl)
    have hjobs : ∀ jobs ∈ input.handlers env calls, ∀ job ∈ jobs,
        Chain.Inserts env chain inputs job ∧ job.WellFormed := by
      intro jobs hjobs job hjob
      rcases hsplit jobs hjobs with ⟨log, hreach, rfl⟩ | ⟨x, hx, rfl⟩ | rfl
      · exact ⟨.entry hinput hreach.logged hreach.inAbi hreach.scanned.2.1 hjob,
          (jobs_spec hreach.logged hjob).2.1⟩
      · exact ⟨.transfer hinput hx hjob, (transfer_jobs hjob).1⟩
      · obtain rfl := List.mem_singleton.1 hjob
        exact ⟨.align _, trivial⟩
    have hdone : ∀ i < (input.handlers env calls).length, (c.locals i).rest = [] := by
      intro i hi
      exact List.isEmpty_iff.1 (List.all_eq_true.1 hall i (List.mem_range.2 hi))
    obtain ⟨hinv, hstored⟩ := handlers_run hown hdb hjobs hrun hdone
    refine ⟨hinv.grows, fun r hr => ?_, fun log hreach hkept => ?_, ?_⟩
    · rcases hinv.rows r hr with hold | ⟨jobs, hmem, job, hjob, -, hrow⟩
      · exact hdb r hold
      · exact ⟨job, (hjobs jobs hmem job hjob).1, hrow⟩
    · have hcall : chain.rpc.deliver log ∈ calls :=
        List.mem_filter.2 ⟨(hmem _).2 ⟨rfl, hreach⟩, by simp [hkept]⟩
      have hhandler : chain.jobs env log ∈ input.handlers env calls :=
        List.mem_append_left _ (List.mem_append_left _ (List.mem_map_of_mem hcall))
      exact fun job hjob => hstored _ hhandler job hjob (jobs_spec hreach.logged hjob).1
    · rintro w date ⟨r, hr, hstamp⟩
      rcases hinv.rows r hr with hold | ⟨jobs, hmem, job, hjob, hfits, hrow⟩
      · exact Or.inl ⟨r, hold, hstamp⟩
      · rcases hsplit jobs hmem with ⟨log, hreach, rfl⟩ | ⟨x, -, rfl⟩ | rfl
        · refine Or.inr ⟨log, hreach, ⟨job, hjob, hfits, r, date, hrow, hstamp⟩, ?_⟩
          rw [stamp_row hrow hstamp, (jobs_spec hreach.logged hjob).2.2]
        · rw [(transfer_jobs hjob).2 r hrow] at hstamp
          cases hstamp
        · obtain rfl := List.mem_singleton.1 hjob
          cases hrow
  · cases h

/-! ## Soundness between the runs -/

/-- Whatever is older than a watermark is stored. -/
def Sound (env : HistoryEnv) (chain : Chain) (db : HistoryDb) : Prop :=
  ∀ w date, db.Stamp w date → ∀ log ∈ chain.logs, env.inAbi log.decoded.name = true →
    log.decoded.name.watermark = w → chain.date log < (date : ℤ) - w.margin →
    chain.Stored env db log

/-- What a sound watermark passes over is stored. -/
theorem Sound.of_skips {db : HistoryDb} (h : Sound env chain db) {log : EventLog ProxyEvent}
    (hlogged : log ∈ chain.logs) (habi : env.inAbi log.decoded.name = true)
    (hskip : skips (some db.eventTimestamps) (chain.rpc.deliver log) = true) :
    chain.Stored env db log := by
  simp only [skips, Option.bind_some] at hskip
  cases hw : db.eventTimestamps (chain.rpc.deliver log).event.decoded.name with
  | none =>
    rw [hw] at hskip
    cases hskip
  | some watermark =>
    rw [hw] at hskip
    rw [eventTimestamps_eq] at hw
    obtain ⟨date, hdate, rfl⟩ := latest_eq_some hw
    exact h _ date hdate log hlogged habi rfl (of_decide_eq_true hskip)

/-- An entry older than another one is in an earlier block. -/
theorem blockNumber_lt {log newer : EventLog ProxyEvent} {w : Watermark}
    (h : chain.date log < (chain.timestamp newer.blockNumber * 1000 : ℕ) - w.margin) :
    log.blockNumber < newer.blockNumber := by
  by_contra hc
  have hle := chain.timestamp_mono (not_lt.1 hc)
  have hmargin : 0 ≤ w.margin := by cases w <;> decide
  unfold Chain.date at h
  omega

/-- The first block of a run that starts no later than the deployment is not after any
entry. -/
theorem firstBlock_le {since : ℤ} (hsince : since ≤ chain.timestamp chain.deploymentBlock * 1000)
    (latest : ℕ) {log : EventLog ProxyEvent} (hlogged : log ∈ chain.logs) :
    chain.firstBlock latest since ≤ log.blockNumber := by
  apply calculateBlockFromTime_le chain.timestamp_mono
  have hdeployed := chain.timestamp_mono (chain.deployed log hlogged)
  omega

/-- The step lemma of the invariant. -/
theorem sound_redundancy {inputs : List BackfillInput} (hown : OwnRows env chain inputs)
    {db db' : HistoryDb} {input : BackfillInput} (hinput : input ∈ inputs)
    (hdb : db.From env.sha256Hex (Chain.Inserts env chain inputs)) (hsound : Sound env chain db)
    (h : redundancyBackfill env chain db input = some db') :
    db'.From env.sha256Hex (Chain.Inserts env chain inputs) ∧ Sound env chain db' ∧
      ∀ log, chain.Reaches env input.latest
        (db.filtererStart (chain.timestamp chain.deploymentBlock)) log →
        chain.Stored env db' log := by
  obtain ⟨result, hrun, rfl⟩ := Option.map_eq_some_iff.1 h
  have hspec := runHistoricalDataFilterers_spec hown hinput hdb hrun
  -- an entry is passed over, and stored before, or handled
  have hreached : ∀ log, chain.Reaches env input.latest
      (db.filtererStart (chain.timestamp chain.deploymentBlock)) log →
      chain.Stored env result.db log := by
    intro log hreach
    cases hskip : skips (some db.eventTimestamps) (chain.rpc.deliver log) with
    | true => exact (hsound.of_skips hreach.logged hreach.inAbi hskip).mono hspec.grows
    | false => exact hspec.stored log hreach hskip
  refine ⟨hspec.inserted, fun w date hdate log hlogged habi hw hold => ?_, hreached⟩
  rcases hspec.stamp w date hdate with hbefore | ⟨newer, hreach, -, rfl⟩
  · exact (hsound w date hbefore log hlogged habi hw hold).mono hspec.grows
  · have hlt := blockNumber_lt hold
    have hfirst := firstBlock_le (filtererStart_le db _) input.latest hlogged
    have hlast := hreach.scanned.2.1
    exact hreached log ⟨hlogged, habi, hfirst, by omega, Or.inl (by omega)⟩

/-! ## The initial run -/

/-- Whenever the first insert has nothing left to create, neither has the second. -/
def DbJob.Covers (sha256Hex : String → String) (job other : DbJob) : Prop :=
  ∀ db, job.Stored sha256Hex db → other.Stored sha256Hex db

/-- The date the initial run starts from, in milliseconds. -/
def thirtyDaysAgo (nowSec : ℤ) : ℤ := thirtyDaysAgoSec nowSec * 1000

/-- An entry before the first block of the initial run that is older, by more than the
margin, than an entry the initial run reads and that has the same watermark writes no row of
its own. -/
def OlderStored (env : HistoryEnv) (chain : Chain) (nowSec : ℤ) (latest : ℕ) : Prop :=
  ∀ log ∈ chain.logs, env.inAbi log.decoded.name = true →
    log.blockNumber < chain.firstBlock latest (thirtyDaysAgo nowSec) →
    ∀ newer, chain.Reaches env latest (thirtyDaysAgo nowSec) newer →
      chain.Moves env newer log.decoded.name.watermark →
      chain.date log < chain.date newer - log.decoded.name.watermark.margin →
      ∀ job ∈ chain.jobs env log, job.Fits →
        ∃ other, chain.Reaches env latest (thirtyDaysAgo nowSec) other ∧
          ∃ job' ∈ chain.jobs env other, job'.Fits ∧ job'.Covers env.sha256Hex job

theorem not_has_empty (r : DbRow) : ¬ HistoryDb.empty.Has r := by
  intro h
  cases r <;> cases h

theorem sound_initial {inputs : List BackfillInput} (hown : OwnRows env chain inputs) {nowSec : ℤ}
    {input : BackfillInput} (hinput : input ∈ inputs) {db : HistoryDb}
    (hcond : OlderStored env chain nowSec input.latest)
    (h : initialBackfill env chain nowSec input = some db) :
    db.From env.sha256Hex (Chain.Inserts env chain inputs) ∧ Sound env chain db := by
  obtain ⟨result, hrun, rfl⟩ := Option.map_eq_some_iff.1 h
  have hspec := runHistoricalDataFilterers_spec hown hinput
    (fun r hr => absurd hr (not_has_empty r)) hrun
  have hstart : HistoryDb.empty.filtererStart (thirtyDaysAgoSec nowSec) = thirtyDaysAgo nowSec :=
    rfl
  rw [hstart] at hspec
  refine ⟨hspec.inserted, fun w date hdate log hlogged habi hw hold => ?_⟩
  rcases hspec.stamp w date hdate with ⟨r, hr, -⟩ | ⟨newer, hreach, hmoves, rfl⟩
  · exact absurd hr (not_has_empty r)
  · by_cases hfirst : log.blockNumber < chain.firstBlock input.latest (thirtyDaysAgo nowSec)
    · subst hw
      have holder : chain.date log < chain.date newer - log.decoded.name.watermark.margin := by
        simpa [Chain.date] using hold
      intro job hjob hfits
      obtain ⟨other, hother, job', hjob', hfits', hcovers⟩ :=
        hcond log hlogged habi hfirst newer hreach hmoves holder job hjob hfits
      exact hcovers result.db (hspec.stored other hother rfl job' hjob' hfits')
    · have hlt := blockNumber_lt hold
      have hlast := hreach.scanned.2.1
      exact hspec.stored log ⟨hlogged, habi, by omega, by omega, Or.inl (by omega)⟩ rfl

theorem sound_backfills {all : List BackfillInput} (hown : OwnRows env chain all) {nowSec : ℤ}
    {first : BackfillInput} (hfirst : first ∈ all) {inputs : List BackfillInput}
    (hinputs : inputs ⊆ all) {db : HistoryDb} (hcond : OlderStored env chain nowSec first.latest)
    (h : backfills env chain nowSec first inputs = some db) :
    db.From env.sha256Hex (Chain.Inserts env chain all) ∧ Sound env chain db := by
  obtain ⟨db₁, hinitial, hruns⟩ := Option.bind_eq_some_iff.1 h
  have hstart := sound_initial hown hfirst hcond hinitial
  clear hinitial h
  induction inputs generalizing db₁ with
  | nil =>
    obtain rfl : db₁ = db := Option.some.inj hruns
    exact hstart
  | cons input inputs ih =>
    rw [List.foldlM_cons] at hruns
    obtain ⟨db₂, hnext, hrest⟩ := Option.bind_eq_some_iff.1 hruns
    obtain ⟨hinput, htail⟩ := List.cons_subset.1 hinputs
    obtain ⟨hfrom, hsound, -⟩ := sound_redundancy hown hinput hstart.1 hstart.2 hnext
    exact ih htail db₂ hrest ⟨hfrom, hsound⟩

/-- **When the watermarks are sound.**  If each event has rows of its own, and nothing from before
the first block of the initial run is older than what that run reads under the same watermark, then
in every later run each entry that is passed over is stored, and the run leaves every entry up to
its last block stored, that block itself unless the chunks of the run end right before it. -/
theorem backfills_sound (env : HistoryEnv) (chain : Chain) (nowSec : ℤ) (first : BackfillInput)
    (inputs : List BackfillInput) (input : BackfillInput) {db : HistoryDb}
    (hown : OwnRows env chain (first :: inputs ++ [input]))
    (hcond : OlderStored env chain nowSec first.latest)
    (h : backfills env chain nowSec first inputs = some db) :
    (∀ log, chain.Reaches env input.latest
        (db.filtererStart (chain.timestamp chain.deploymentBlock)) log →
      skips (some db.eventTimestamps) (chain.rpc.deliver log) = true →
      chain.Stored env db log) ∧
    ∀ db', redundancyBackfill env chain db input = some db' →
      ∀ log ∈ chain.logs, env.inAbi log.decoded.name = true → log.blockNumber ≤ input.latest →
        (log.blockNumber = input.latest → (input.latest - chain.firstBlock input.latest
          (db.filtererStart (chain.timestamp chain.deploymentBlock))) % 9999 ≠ 0) →
        chain.Stored env db' log := by
  obtain ⟨hfrom, hsound⟩ := sound_backfills hown (by simp) (by simp) hcond h
  constructor
  · intro log hreach hskip
    exact hsound.of_skips hreach.logged hreach.inAbi hskip
  · intro db' hrun log hlogged habi hlast hhead
    obtain ⟨-, -, hreached⟩ := sound_redundancy hown (by simp) hfrom hsound hrun
    have hfirst := firstBlock_le (filtererStart_le db _) input.latest hlogged
    apply hreached log ⟨hlogged, habi, hfirst, hlast, ?_⟩
    rcases Nat.lt_or_eq_of_le hlast with hlt | heq
    · exact Or.inl hlt
    · exact Or.inr (hhead heq)

/-! ## Two histories -/

/-- Block times ten days apart. -/
def tenDays (b : ℕ) : ℕ := 1700000000 + 864000 * b

theorem tenDays_mono : Monotone tenDays := by
  intro a b h
  unfold tenDays
  omega

/-- A trade of one unit. -/
def tradeLog (blockNumber : ℕ) (txHash orderDigest : String) : EventLog ProxyEvent where
  blockNumber := blockNumber
  transactionHash := txHash
  topic0 := "Trade"
  decoded := .trade
    { perpetualId := 100001
      trader := "0xa1"
      order := ⟨0, 60, "0xb0", 18446744073709551616, 1000⟩
      orderDigest := orderDigest
      newPositionSizeBC := 18446744073709551616
      price := 18446744073709551616
      fFeeCC := 0
      fPnlCC := 0
      fB2C := 18446744073709551616 }

/-- A settlement of one unit. -/
def settleLog (blockNumber : ℕ) (txHash : String) : EventLog ProxyEvent where
  blockNumber := blockNumber
  transactionHash := txHash
  topic0 := "SettleV2"
  decoded := .settleV2 ⟨100001, "0xa1", 18446744073709551616, 0⟩

/-- A trade sixty days before the head of the chain and one twenty days before it. -/
def twoTrades : Chain where
  logs := [tradeLog 2 "0xaa" "0x01", tradeLog 6 "0xbb" "0x02"]
  timestamp := tenDays
  deploymentBlock := 1
  timestamp_mono := tenDays_mono
  topics := by decide
  deployed := by decide
  dated := by decide

/-- A settlement sixty days before the head of the chain and a trade twenty days before it. -/
def settledThenTraded : Chain where
  logs := [settleLog 2 "0xaa", tradeLog 6 "0xbb" "0x02"]
  timestamp := tenDays
  deploymentBlock := 1
  timestamp_mono := tenDays_mono
  topics := by decide
  deployed := by decide
  dated := by decide

/-- An interface with all events. -/
def plainEnv : HistoryEnv where
  sha256Hex _ := ""
  transfer := ⟨fun _ => none, fun n => 10 ^ n⟩
  inAbi _ := true

/-- A run up to block 8 whose handlers take a turn each. -/
def turnEach (handlers : ℕ) : BackfillInput where
  latest := 8
  transfers := []
  choice := leastChoice
  schedule := (List.range handlers).map fun i => (i, 0)

/-- The older trade is passed over without having been stored, and stays missing. -/
theorem oldTrade_passedOver :
    ∃ db db', backfills plainEnv twoTrades (tenDays 8) (turnEach 2) [] = some db ∧
      twoTrades.Reaches plainEnv 8 (db.filtererStart (tenDays 1)) (tradeLog 2 "0xaa" "0x01") ∧
      skips (some db.eventTimestamps)
        (twoTrades.rpc.deliver (tradeLog 2 "0xaa" "0x01")) = true ∧
      ¬ twoTrades.Stored plainEnv db (tradeLog 2 "0xaa" "0x01") ∧
      redundancyBackfill plainEnv twoTrades db (turnEach 2) = some db' ∧
      ¬ twoTrades.Stored plainEnv db' (tradeLog 2 "0xaa" "0x01") := by
  refine ⟨(backfills plainEnv twoTrades (tenDays 8) (turnEach 2) []).get (by decide),
    (redundancyBackfill plainEnv twoTrades
      ((backfills plainEnv twoTrades (tenDays 8) (turnEach 2) []).get (by decide))
      (turnEach 2)).get (by decide),
    (Option.some_get _).symm, ⟨List.mem_cons_self, rfl, ?_⟩, by decide, ?_,
    (Option.some_get _).symm, ?_⟩
  · show _ ≤ 2 ∧ 2 ≤ 8 ∧ (2 < 8 ∨ _)
    exact ⟨by decide, by decide, Or.inl (by decide)⟩
  · intro h
    obtain ⟨row, hrow, -⟩ := OrdMap.holds_iff.1 (h _ (List.mem_singleton_self _) trivial _ rfl)
    exact absurd (Option.isSome_iff_exists.2 ⟨row, hrow⟩) (by decide)
  · intro h
    obtain ⟨row, hrow, -⟩ := OrdMap.holds_iff.1 (h _ (List.mem_singleton_self _) trivial _ rfl)
    exact absurd (Option.isSome_iff_exists.2 ⟨row, hrow⟩) (by decide)

/-- The older entry is a settlement, the newer one a trade: another watermark. -/
theorem settledThenTraded_olderStored :
    OlderStored plainEnv settledThenTraded (tenDays 8) 8 := by
  intro log hlogged _ hbefore newer hreach hmoves
  have hfirst : settledThenTraded.firstBlock 8 (thirtyDaysAgo (tenDays 8)) = 4 := by decide
  rw [hfirst] at hbefore
  have hnewer := hreach.scanned.1
  rw [hfirst] at hnewer
  obtain ⟨job, hjob, -, r, date, hrow, hstamp⟩ := hmoves
  obtain rfl | rfl : log = settleLog 2 "0xaa" ∨ log = tradeLog 6 "0xbb" "0x02" := by
    simpa [settledThenTraded] using hlogged
  · obtain rfl | rfl : newer = settleLog 2 "0xaa" ∨ newer = tradeLog 6 "0xbb" "0x02" := by
      simpa [settledThenTraded] using hreach.logged
    · exact absurd hnewer (by decide)
    · obtain rfl := List.mem_singleton.1 hjob
      cases hrow
      cases hstamp
  · exact absurd hbefore (by decide)

/-- A settlement and a trade are in different tables. -/
theorem settledThenTraded_ownRows :
    OwnRows plainEnv settledThenTraded [turnEach 2, turnEach 3] := by
  have hjobs : ∀ job, Chain.Inserts plainEnv settledThenTraded [turnEach 2, turnEach 3] job →
      job ∈ settledThenTraded.jobs plainEnv (settleLog 2 "0xaa") ∨
        job ∈ settledThenTraded.jobs plainEnv (tradeLog 6 "0xbb" "0x02") ∨
          job.row plainEnv.sha256Hex = none := by
    intro job hjob
    cases hjob with
    | @entry input log job hinput hlogged habi hlast hjob =>
      obtain rfl | rfl : log = settleLog 2 "0xaa" ∨ log = tradeLog 6 "0xbb" "0x02" := by
        simpa [settledThenTraded] using hlogged
      · exact Or.inl hjob
      · exact Or.inr (Or.inl hjob)
    | @transfer input x job hinput hx hjob =>
      obtain rfl | rfl : input = turnEach 2 ∨ input = turnEach 3 := by simpa using hinput
      · cases hx
      · cases hx
    | align choice => exact Or.inr (Or.inr rfl)
  intro job hjob _ other hother r r' hr hr' hplace
  rcases hjobs job hjob with hsettle | htrade | hnone
  · obtain rfl := List.mem_singleton.1 hsettle
    rcases hjobs other hother with hsettle' | htrade' | hnone'
    · obtain rfl := List.mem_singleton.1 hsettle'
      exact Option.some.inj (hr.symm.trans hr')
    · obtain rfl := List.mem_singleton.1 htrade'
      cases hr
      cases hr'
      exact hplace.elim
    · exact absurd (hr'.symm.trans hnone') (by simp)
  · obtain rfl := List.mem_singleton.1 htrade
    rcases hjobs other hother with hsettle' | htrade' | hnone'
    · obtain rfl := List.mem_singleton.1 hsettle'
      cases hr
      cases hr'
      exact hplace.elim
    · obtain rfl := List.mem_singleton.1 htrade'
      exact Option.some.inj (hr.symm.trans hr')
    · exact absurd (hr'.symm.trans hnone') (by simp)
  · exact absurd (hr.symm.trans hnone) (by simp)

/-- The settlement, missing at first, is stored by a redundancy run. -/
theorem oldSettlement_stored :
    ∃ db db', backfills plainEnv settledThenTraded (tenDays 8) (turnEach 2) [] = some db ∧
      ¬ settledThenTraded.Stored plainEnv db (settleLog 2 "0xaa") ∧
      redundancyBackfill plainEnv settledThenTraded db (turnEach 3) = some db' ∧
      settledThenTraded.Stored plainEnv db' (settleLog 2 "0xaa") := by
  refine ⟨(backfills plainEnv settledThenTraded (tenDays 8) (turnEach 2) []).get (by decide),
    (redundancyBackfill plainEnv settledThenTraded
      ((backfills plainEnv settledThenTraded (tenDays 8) (turnEach 2) []).get (by decide))
      (turnEach 3)).get (by decide),
    (Option.some_get _).symm, ?_, (Option.some_get _).symm, ?_⟩
  · intro h
    obtain ⟨row, hrow, -⟩ := OrdMap.holds_iff.1 (h _ (List.mem_singleton_self _) trivial _ rfl)
    exact absurd (Option.isSome_iff_exists.2 ⟨row, hrow⟩) (by decide)
  · exact (backfills_sound plainEnv settledThenTraded (tenDays 8) (turnEach 2) [] (turnEach 3)
      settledThenTraded_ownRows settledThenTraded_olderStored (Option.some_get _).symm).2 _
      (Option.some_get _).symm _ List.mem_cons_self rfl (by decide) (by decide)

end TraderBackend
