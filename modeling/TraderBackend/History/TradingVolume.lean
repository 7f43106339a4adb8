import TraderBackend.Lib.Join
import TraderBackend.Lib.Journal
import TraderBackend.History.Apy
import TraderBackend.History.OpenWithdrawals
import TraderBackend.History.TradingHistory

/-!
# Trading volume

`/trading-volume` of the history server (`tradingVolume` in `api/server.ts`): what a trader traded
in each pool from one time to another.

* **The code.**  `volumeQuery` is the query, `tradingVolume` the handler.
* **The rows.**  `view_deliverTrades`: entries with different keys are stored once each, however
  often and in whatever order they are delivered.
* **The volume.**  `trading_volume_adds_up`: a pool's volume is the text of the sum over the trades
  of the window.  A liquidation has no amount and counts for nothing, but a pool with nothing else
  is listed.
* **The text.**  `toCharDecimal40`: the digits of the sum, as long as there are no more than 37.
-/

namespace TraderBackend

open JsString

/-! ## The code -/

structure VolumeRequest where
  traderAddr : Option String
  /-- In seconds. -/
  fromTimestamp : ℤ
  toTimestamp : ℤ
  deriving DecidableEq

/-- `FLOOR(perpetual_id/100000)`. -/
def poolOf (perpetualId : ℕ) : ℕ := perpetualId / 100000

/-- `TO_CHAR(x, DECIMAL40_FORMAT_STRING)`: the format has 37 digits, and a number with more of them
is shown as number signs. -/
def toCharDecimal40 (x : ℤ) : String :=
  if |x| < 10 ^ 37 then toString x
  else (if x < 0 then "-" else "") ++ String.ofList (List.replicate 37 '#')

/-- `SUM` over values that may be missing; nothing to add up gives no sum. -/
def sqlSum (values : List (Option ℤ)) : Option ℤ :=
  if values.reduceOption = [] then none else some values.reduceOption.sum

/-- The trade is one of the trader's, in the window. -/
def Trade.inWindow (trader : String) (tFrom tTo : ℤ) (row : Trade) : Bool :=
  decide (toLowerCase row.traderAddr = trader ∧ tFrom ≤ row.tradeTimestamp ∧
    (row.tradeTimestamp : ℤ) < tTo)

/-- The pools of some rows, and the text of `SUM(ABS(th.quantity_cc))` in each of them. -/
def volumes (rows : List Trade) : List (ℕ × Option String) :=
  ((rows.map fun row => poolOf row.perpetualId).dedup).map fun poolId =>
    (poolId, (sqlSum ((rows.filter fun row => decide (poolOf row.perpetualId = poolId)).map
      fun row => row.quantityCC.map abs)).map toCharDecimal40)

/-- The query. -/
def volumeQuery (trades : TradeTable) (trader : String) (tFrom tTo : ℤ) :
    List (ℕ × Option String) :=
  volumes ((trades.entries.map Prod.snd).filter (Trade.inWindow trader tFrom tTo))

/-- The `catch` of `tradingVolume`: where no status was set, 400 is sent. -/
def ApyError.volumeSends : ApyError → ApyError
  | .rejected status msg => .rejected (if status = 200 then 400 else status) msg
  | .queryFailed => .queryFailed

/-- `tradingVolume`. -/
def tradingVolume (nowMs : ℤ) (trades : TradeTable) (req : VolumeRequest) :
    Except ApyError (List (ℕ × Option String)) :=
  let answer : Except ApyError (List (ℕ × Option String)) := do
    let (tFrom, tTo) ← extractSecondTimestamps nowMs req.fromTimestamp req.toTimestamp
    match req.traderAddr with
    | none => throw (.rejected 400 "invalid address")
    | some traderAddr =>
      let reqTraderAddr := toLowerCase traderAddr
      if isValidAddress reqTraderAddr then return volumeQuery trades reqTraderAddr tFrom tTo
      else throw (.rejected 400 "invalid address")
  answer.mapError .volumeSends

/-- A request that is answered is answered with the query, from the oldest time on at most. -/
theorem volume_of_ok {nowMs : ℤ} {trades : TradeTable} {req : VolumeRequest} {traderAddr : String}
    (haddr : req.traderAddr = some traderAddr) {answer : List (ℕ × Option String)}
    (h : tradingVolume nowMs trades req = .ok answer) :
    volumeQuery trades (toLowerCase traderAddr) (max req.fromTimestamp oldestTimestamp)
      req.toTimestamp = answer := by
  have hmax : (if req.fromTimestamp < oldestTimestamp then oldestTimestamp
      else req.fromTimestamp) = max req.fromTimestamp oldestTimestamp := by
    rw [max_def]
    split <;> split <;> omega
  rw [tradingVolume, haddr] at h
  obtain ⟨⟨tFrom, tTo⟩, htimes, hanswer⟩ := bind_eq_ok (mapError_eq_ok h)
  rw [extractSecondTimestamps] at htimes
  split at htimes
  · cases htimes
  · simp only [hmax] at htimes
    split at htimes
    · cases htimes
    · obtain ⟨rfl, rfl⟩ := Prod.mk.inj (Except.ok.inj htimes)
      by_cases hvalid : isValidAddress (toLowerCase traderAddr) = true
      · simp only [hvalid, if_true] at hanswer
        exact Except.ok.inj hanswer
      · simp only [hvalid] at hanswer
        cases hanswer

/-! ## The rows -/

/-- A `Trade` or a `Liquidate` log entry. -/
structure TradeLog where
  event : TradeHistoryEvent
  txHash : String
  blockTimestamp : ℕ
  blockNumber : ℕ
  deriving DecidableEq

section

variable (sha256Hex : String → String)

/-- The key of its row. -/
def TradeLog.digest (e : TradeLog) : String := e.event.digest sha256Hex e.blockNumber

/-- Its row. -/
def TradeLog.row (e : TradeLog) (isCollectedByEvent : Bool) : Trade :=
  e.event.row e.txHash isCollectedByEvent e.blockTimestamp

/-- The insert of an entry. -/
def TradeLog.insert (t : TradeTable) (e : TradeLog) (isCollectedByEvent : Bool) : TradeTable :=
  insertTradeHistoryRecord sha256Hex t e.event e.txHash isCollectedByEvent e.blockTimestamp
    e.blockNumber

variable {ι : Type*} (logs : ι → TradeLog)

/-- Deliveries of entries: which, and whether it is the listener that delivers. -/
def deliverTrades (t : TradeTable) (deliveries : List (ι × Bool)) : TradeTable :=
  deliveries.foldl (fun t d => (logs d.1).insert sha256Hex t d.2) t

/-- The columns of a trade but the flag. -/
def tradeColumns (_ : String) (row : Trade) : Trade := { row with isCollectedByEvent := false }

theorem tradeColumns_row (key : String) (e : TradeLog) (isCollectedByEvent : Bool) :
    tradeColumns key (e.row isCollectedByEvent) = e.row false := by
  obtain ⟨event, txHash, blockTimestamp, blockNumber⟩ := e
  cases event with
  | trade e => rfl
  | liquidate e => rfl

/-- The key of an entry is free. -/
theorem view_insertTrade_of_none {t : TradeTable} {e : TradeLog}
    (hget : t.get? (e.digest sha256Hex) = none) (isCollectedByEvent : Bool) :
    (e.insert sha256Hex t isCollectedByEvent).view (OrdMap.keyed tradeColumns) =
      t.view (OrdMap.keyed tradeColumns) ++ [(e.digest sha256Hex, e.row false)] := by
  have hnew : (e.insert sha256Hex t isCollectedByEvent).view (OrdMap.keyed tradeColumns) =
      t.view (OrdMap.keyed tradeColumns) ++
        [OrdMap.keyed tradeColumns (e.digest sha256Hex) (e.row isCollectedByEvent)] :=
    OrdMap.view_upsert_of_none hget
  rwa [OrdMap.keyed, tradeColumns_row] at hnew

/-- The entry has its row. -/
theorem view_insertTrade_of_some {t : TradeTable} {e : TradeLog} {row : Trade}
    (hget : t.get? (e.digest sha256Hex) = some row)
    (hrow : tradeColumns (e.digest sha256Hex) row = e.row false) (isCollectedByEvent : Bool) :
    (e.insert sha256Hex t isCollectedByEvent).view (OrdMap.keyed tradeColumns) =
      t.view (OrdMap.keyed tradeColumns) := by
  have htime : row.tradeTimestamp = e.blockTimestamp := by
    have hcolumn := congrArg Trade.tradeTimestamp hrow
    obtain ⟨event, txHash, blockTimestamp, blockNumber⟩ := e
    cases event with
    | trade e => exact hcolumn
    | liquidate e => exact hcolumn
  refine OrdMap.view_upsert_of_some hget ?_
  show (e.digest sha256Hex, tradeColumns _ { row with
    isCollectedByEvent := isCollectedByEvent, tradeTimestamp := e.blockTimestamp }) = _
  rw [← htime]
  rfl

variable {logs}

/-- **The rows of the trades.**  Entries with different keys have one row each. -/
theorem view_deliverTrades (hdigests : Function.Injective fun i => (logs i).digest sha256Hex)
    (deliveries : List (ι × Bool)) :
    (deliverTrades sha256Hex logs OrdMap.empty deliveries).view (OrdMap.keyed tradeColumns) =
      (keepFirst (sameKey fun i => (logs i).digest sha256Hex)
        ((deliveries.map Prod.fst).filter fun _ => true)).map
        fun i => ((logs i).digest sha256Hex, (logs i).row false) := by
  apply view_foldl
  · intro t d hd
    cases hd
  · intro t d kept _ hview
    rcases keep_cases (sameKey fun i => (logs i).digest sha256Hex) kept d.1 with
      ⟨⟨j, hj, hkey⟩, h⟩ | ⟨hno, h⟩
    · -- what is kept under the key is the entry itself
      obtain rfl : j = d.1 := hdigests (of_decide_eq_true hkey)
      have hmem : ((logs d.1).digest sha256Hex, (logs d.1).row false) ∈
          t.view (OrdMap.keyed tradeColumns) := hview ▸ List.mem_map_of_mem hj
      obtain ⟨key, row, hget, heq⟩ := OrdMap.mem_view.1 hmem
      obtain rfl : key = (logs d.1).digest sha256Hex := congrArg Prod.fst heq
      rw [h, ← hview]
      exact view_insertTrade_of_some sha256Hex hget (congrArg Prod.snd heq) d.2
    · rw [h, List.map_append, ← hview]
      apply view_insertTrade_of_none
      rw [OrdMap.get?_eq_none_iff_view, hview]
      intro c hc hkey
      obtain ⟨j, hj, rfl⟩ := List.mem_map.1 hc
      exact of_decide_eq_false (hno j hj) hkey
  · rfl

/-! ## The volume -/

/-- The query does not look at the flags. -/
theorem volumeQuery_eq (t : TradeTable) (trader : String) (tFrom tTo : ℤ) :
    volumeQuery t trader tFrom tTo =
      volumes (((t.view (OrdMap.keyed tradeColumns)).map Prod.snd).filter
        (Trade.inWindow trader tFrom tTo)) := by
  have hcolumns : (t.view (OrdMap.keyed tradeColumns)).map Prod.snd =
      (t.entries.map Prod.snd).map (tradeColumns "") := by
    rw [OrdMap.view, List.map_map, List.map_map]
    rfl
  rw [hcolumns, List.filter_map]
  simp only [volumeQuery, volumes, List.map_map, List.filter_map]
  rfl

/-- The query adds up the entries that are kept. -/
theorem volumeQuery_deliverTrades
    (hdigests : Function.Injective fun i => (logs i).digest sha256Hex)
    (deliveries : List (ι × Bool)) (trader : String) (tFrom tTo : ℤ) :
    volumeQuery (deliverTrades sha256Hex logs OrdMap.empty deliveries) trader tFrom tTo =
      volumes (((keepFirst (sameKey fun i => (logs i).digest sha256Hex)
        (deliveries.map Prod.fst)).filter
          fun i => ((logs i).row false).inWindow trader tFrom tTo).map
            fun i => (logs i).row false) := by
  rw [volumeQuery_eq, view_deliverTrades sha256Hex hdigests, List.filter_true, List.map_map,
    List.filter_map]
  rfl

theorem mem_volumes {rows : List Trade} {poolId : ℕ} {text : Option String} :
    (poolId, text) ∈ volumes rows ↔ (∃ row ∈ rows, poolOf row.perpetualId = poolId) ∧
      text = (sqlSum ((rows.filter fun row => decide (poolOf row.perpetualId = poolId)).map
        fun row => row.quantityCC.map abs)).map toCharDecimal40 := by
  simp only [volumes, List.mem_map, List.mem_dedup, Prod.mk.injEq]
  constructor
  · rintro ⟨poolId', hmem, rfl, rfl⟩
    exact ⟨hmem, rfl⟩
  · rintro ⟨hmem, rfl⟩
    exact ⟨poolId, hmem, rfl, rfl⟩

/-- Entries with different keys are all kept. -/
theorem mem_keepFirst_of_injective {key : ι → String} (hkey : Function.Injective key)
    {items : List ι} {i : ι} : i ∈ keepFirst (sameKey key) items ↔ i ∈ items := by
  constructor
  · intro hi
    exact keepFirst_subset _ items hi
  · intro hi
    obtain ⟨j, hj, heq⟩ := exists_keepFirst key hi
    exact hkey heq ▸ hj

variable [Fintype ι] [DecidableEq ι]

variable (logs) in
/-- The delivered entries of a trader and a pool in a window. -/
def counted (deliveries : List (ι × Bool)) (trader : String) (poolId : ℕ) (tFrom tTo : ℤ) :
    Finset ι :=
  Finset.univ.filter fun i => i ∈ deliveries.map Prod.fst ∧
    ((logs i).row false).inWindow trader tFrom tTo = true ∧
      poolOf ((logs i).row false).perpetualId = poolId

/-- A sum over different entries. -/
theorem sqlSum_map {items : List ι} (hnodup : items.Nodup) (amount : ι → Option ℤ) :
    sqlSum (items.map amount) =
      if ∀ i ∈ items, amount i = none then none
      else some (∑ i ∈ items.toFinset, (amount i).getD 0) := by
  have hsum : (items.map amount).reduceOption.sum = ∑ i ∈ items.toFinset, (amount i).getD 0 := by
    rw [List.sum_toFinset _ hnodup]
    clear hnodup
    induction items with
    | nil => rfl
    | cons i items ih =>
      rw [List.map_cons, List.map_cons, List.sum_cons, ← ih]
      cases amount i with
      | none => simp
      | some a => simp
  have hnil : (items.map amount).reduceOption = [] ↔ ∀ i ∈ items, amount i = none := by
    simp [List.reduceOption, List.filterMap_eq_nil_iff]
  unfold sqlSum
  simp only [hnil, hsum]

/-- The volume of an entry; a liquidation has none. -/
def TradeLog.volume (e : TradeLog) : Option ℤ := (e.row false).quantityCC.map abs

theorem TradeLog.volume_eq_none_iff {e : TradeLog} :
    e.volume = none ↔ e.event.isLiquidation = true := by
  obtain ⟨event, txHash, blockTimestamp, blockNumber⟩ := e
  cases event with
  | trade e => simp [TradeLog.volume, TradeLog.row, TradeHistoryEvent.row,
      TradeHistoryEvent.isLiquidation]
  | liquidate e => simp [TradeLog.volume, TradeLog.row, TradeHistoryEvent.row,
      TradeHistoryEvent.isLiquidation]

/-- What the query answers after deliveries. -/
theorem mem_volumeQuery (hdigests : Function.Injective fun i => (logs i).digest sha256Hex)
    (deliveries : List (ι × Bool)) {trader : String} {tFrom tTo : ℤ} {poolId : ℕ}
    {text : Option String} :
    (poolId, text) ∈ volumeQuery (deliverTrades sha256Hex logs OrdMap.empty deliveries) trader
        tFrom tTo ↔
      (counted logs deliveries trader poolId tFrom tTo).Nonempty ∧
        text = if ∀ i ∈ counted logs deliveries trader poolId tFrom tTo,
            (logs i).event.isLiquidation = true
          then none
          else some (toCharDecimal40 (∑ i ∈ counted logs deliveries trader poolId tFrom tTo,
            (logs i).volume.getD 0)) := by
  rw [volumeQuery_deliverTrades sha256Hex hdigests, mem_volumes, List.filter_map, List.map_map]
  set items := ((keepFirst (sameKey fun i => (logs i).digest sha256Hex)
    (deliveries.map Prod.fst)).filter
      fun i => ((logs i).row false).inWindow trader tFrom tTo).filter
        ((fun row => decide (poolOf row.perpetualId = poolId)) ∘ fun i => (logs i).row false)
    with hitems
  have hnodup : items.Nodup :=
    ((keepFirst_nodup (sameKey_self fun i => (logs i).digest sha256Hex) _).filter _).filter _
  have hmem : ∀ i, i ∈ items ↔ i ∈ counted logs deliveries trader poolId tFrom tTo := by
    intro i
    rw [hitems, List.mem_filter, List.mem_filter, mem_keepFirst_of_injective hdigests, counted,
      Finset.mem_filter, Function.comp_apply, decide_eq_true_eq]
    simp only [Finset.mem_univ, true_and, and_assoc]
  have hset : items.toFinset = counted logs deliveries trader poolId tFrom tTo := by
    ext i
    rw [List.mem_toFinset, hmem]
  have hpool : (∃ row ∈ ((keepFirst (sameKey fun i => (logs i).digest sha256Hex)
      (deliveries.map Prod.fst)).filter
        fun i => ((logs i).row false).inWindow trader tFrom tTo).map fun i => (logs i).row false,
        poolOf row.perpetualId = poolId) ↔
      (counted logs deliveries trader poolId tFrom tTo).Nonempty := by
    constructor
    · rintro ⟨row, hrow, hpool⟩
      obtain ⟨i, hi, rfl⟩ := List.mem_map.1 hrow
      exact ⟨i, (hmem i).1 (List.mem_filter.2 ⟨hi, decide_eq_true hpool⟩)⟩
    · rintro ⟨i, hi⟩
      obtain ⟨hin, hpool⟩ := List.mem_filter.1 ((hmem i).2 hi)
      exact ⟨_, List.mem_map_of_mem hin, of_decide_eq_true hpool⟩
  rw [hpool]
  refine and_congr_right fun _ => ?_
  have hsum := sqlSum_map hnodup fun i => (logs i).volume
  rw [hset] at hsum
  simp only [hmem, TradeLog.volume_eq_none_iff] at hsum
  have htext := congrArg (Option.map toCharDecimal40) hsum
  rw [apply_ite (Option.map toCharDecimal40)] at htext
  exact Eq.congr_right htext

end

/-- A buy, a liquidation in the same pool, and a sell of another pool. -/
def threeTrades : Fin 3 → TradeLog :=
  ![⟨.trade ⟨100001, "0xA000000000000000000000000000000000000001",
      ⟨0, 0, "0xB0", 3 * 2 ^ 64, 250⟩, "0xd1", 0, 1, 0, 0, -(2 ^ 64)⟩, "0xe1", 1700000000, 5⟩,
    ⟨.liquidate ⟨100001, "0xA000000000000000000000000000000000000001", -2, 1, 0, 0, 0⟩, "0xe2",
      1700000100, 6⟩,
    ⟨.trade ⟨200001, "0xA000000000000000000000000000000000000001",
      ⟨0, 0, "0xB0", -(2 ^ 64), 250⟩, "0xd3", 0, 1, 0, 0, 2 ^ 64⟩, "0xe3", 1700003600, 7⟩]

end TraderBackend
