import TraderBackend.History.AccountLedgers
import TraderBackend.History.NameInForce
import TraderBackend.History.TradingHistory

/-!
# Trades and settlements of a trader

`/trades-history` and `/settle-history` of the history server (`historicalTrades` and
`historicalSettle` in `api/server.ts`): rows of the two views, the trades with the token flows of
their transactions.

* **The code.**  `traderRequest` is the check of the wallet, `tradesQuery` and `settleQuery` are
  the queries.  A query answers in the order of time; rows of one time come in any order.
* **Trades.**  `trades_listed_once`: the joins with the names and with the flows add columns and no
  rows.
* **Settlements.**  `settles_listed_once`: of the deliveries with one key the last one counts.
-/

namespace TraderBackend

open JsString

/-! ## The code -/

/-- A request that is refused, with its status and message. -/
structure RefusedRequest where
  status : ℕ
  msg : String
  deriving DecidableEq

/-- The wallet of a request, in lower case.  `isAddress` are the texts `getAddress` takes;
`missing` is the status when there is no wallet. -/
def traderRequest (isAddress : String → Bool) (missing : ℕ) (traderAddr : Option String) :
    Except RefusedRequest String :=
  match traderAddr with
  | none => .error ⟨missing, "please provide correct query parameters"⟩
  | some traderAddr =>
    let userWallet := toLowerCase traderAddr
    if isAddress userWallet then .ok userWallet else .error ⟨400, "invalid wallet address"⟩

/-- A trade in the response; the amounts are left in 64.64 format. -/
structure HistoricalTrade where
  orderId : String
  perpetualLongId : String
  trade : Trade
  leverage : ℚ
  depositCC : ℤ
  deriving DecidableEq

/-- A trade with its name and its flows, as the response has it. -/
def tradeResponse (e : String × Trade) (perpetualLongId : String) (depositCC : Option ℤ) :
    HistoricalTrade where
  orderId := e.1
  perpetualLongId := perpetualLongId
  trade := e.2
  leverage := e.2.leverage.elim 0 fun leverage => leverage / 100
  depositCC := depositCC.getD 0

/-- The query of `historicalTrades`, before it is put in order. -/
def tradesQuery (trades : TradeTable) (longIds : LongIdTable) (flows : TokenFlowTable)
    (trader : String) : List HistoricalTrade :=
  let tradesView :=
    namedRows longIds (fun e => e.2.perpetualId) (fun e => e.2.tradeTimestamp) trades.entries
  let flowRows := flows.entries.filter fun e => decide (e.1.1 = trader)
  (leftJoin (tradesView.filter fun v => decide (v.1.2.traderAddr = trader)) fun v =>
    groupsOf (fun e => e.1.2.2.1) (fun e => e.2.amountCC) flowRows v.1.2.txHash).map
      fun r => tradeResponse r.1.1 r.1.2 r.2

/-- `historicalTrades`.  `query` is what the database answers for a wallet. -/
def historicalTrades (isAddress : String → Bool) (query : String → List HistoricalTrade)
    (traderAddr : Option String) : Except RefusedRequest (List HistoricalTrade) := do
  let userWallet ← traderRequest isAddress 200 traderAddr
  return query userWallet

/-- A settlement in the response. -/
structure HistoricalSettle where
  traderAddr : String
  perpetualId : ℕ
  perpetualLongId : String
  quantityCC : ℤ
  cashCC : ℤ
  transactionHash : String
  timestamp : ℕ
  deriving DecidableEq

/-- A settlement with its name, as the response has it.  `settle_view` is older than the column
`cash_cc` and does not show it. -/
def settleResponse (e : (String × ℕ × String) × Settle) (perpetualLongId : String) :
    HistoricalSettle where
  traderAddr := e.1.1
  perpetualId := e.1.2.1
  perpetualLongId := perpetualLongId
  quantityCC := e.2.quantityCC
  cashCC := 0
  transactionHash := e.1.2.2
  timestamp := e.2.timestamp

/-- The query of `historicalSettle`, before it is put in order. -/
def settleQuery (settles : SettleTable) (longIds : LongIdTable) (trader : String) :
    List HistoricalSettle :=
  let settleView :=
    namedRows longIds (fun e => e.1.2.1) (fun e => e.2.timestamp) settles.entries
  (settleView.filter fun v => decide (v.1.1.1 = trader)).map fun v => settleResponse v.1 v.2

/-- `historicalSettle`. -/
def historicalSettle (isAddress : String → Bool) (query : String → List HistoricalSettle)
    (traderAddr : Option String) : Except RefusedRequest (List HistoricalSettle) := do
  let userWallet ← traderRequest isAddress 200 traderAddr
  return query userWallet

/-- `ORDER BY … DESC`. -/
structure NewestFirst {α : Type*} (time : α → ℕ) (rows answer : List α) : Prop where
  perm : answer.Perm rows
  sorted : answer.Pairwise fun a b => time b ≤ time a

/-- The rows put in order. -/
def newestFirst {α : Type*} (time : α → ℕ) (rows : List α) : List α :=
  rows.insertionSort fun a b => time b ≤ time a

theorem newestFirst_spec {α : Type*} (time : α → ℕ) (rows : List α) :
    NewestFirst time rows (newestFirst time rows) := by
  have htotal : Std.Total fun a b : α => time b ≤ time a := ⟨fun a b => Nat.le_total _ _⟩
  have htrans : IsTrans α fun a b => time b ≤ time a := ⟨fun a b c hab hbc => hbc.trans hab⟩
  exact ⟨List.perm_insertionSort _ _, List.pairwise_insertionSort _ _⟩

/-- A request that is answered is answered for the wallet in lower case. -/
theorem answered_of_ok {α : Type} {isAddress : String → Bool} {query : String → α}
    {traderAddr : String} {answer : α}
    (h : (do
        let userWallet ← traderRequest isAddress 200 (some traderAddr)
        return query userWallet : Except RefusedRequest α) = .ok answer) :
    query (toLowerCase traderAddr) = answer := by
  unfold traderRequest at h
  simp only at h
  split at h
  · exact Except.ok.inj h
  · cases h

/-! ## Trades -/

/-- The trades of a trader. -/
def tradesOf (trades : TradeTable) (trader : String) : List (String × Trade) :=
  trades.entries.filter fun e => decide (e.2.traderAddr = trader)

/-- The total of the flows in a transaction. -/
theorem groupTotal_eq_sumAmountCC (flows : TokenFlowTable) (trader txHash : String) :
    groupTotal (fun e => e.1.2.2.1) (fun e => e.2.amountCC)
        (flows.entries.filter fun e => decide (e.1.1 = trader)) txHash =
      sumAmountCC flows trader txHash := by
  rw [groupTotal, sumAmountCC, List.filter_filter]
  simp only [Bool.decide_and, Bool.and_comm]

section

variable {ι : Type*} [DecidableEq ι] {logs : ι → SetOraclesLog}
  (hkeys : Function.Injective fun i => (logs i).key) {schedule : List (ι × ℕ)}
  {c : Tasks.Config ι LongIdTable InsertAt}
  (hrun : (insertTasks logs).run schedule insertStart = some c)
  (hdone : ∀ i, c.locals i = .done) (hapart : Apart logs) (choice : JoinChoice)

include hkeys hrun hdone hapart

/-- The query gives every trade of the trader once. -/
theorem tradesQuery_eq {trades : TradeTable} (flows : TokenFlowTable) {trader : String}
    {name : String × Trade → String}
    (hname : ∀ e ∈ tradesOf trades trader, e.2.tradeTimestamp * 1000 < farDate ∧
      ∃ i, InForce logs i e.2.perpetualId e.2.tradeTimestamp ∧ (logs i).longId = name e) :
    tradesQuery trades (alignTimestamps choice c.shared) flows trader =
      (tradesOf trades trader).map fun e =>
        tradeResponse e (name e) (some (sumAmountCC flows trader e.2.txHash)) := by
  have hview : (namedRows (alignTimestamps choice c.shared) (fun e => e.2.perpetualId)
      (fun e => e.2.tradeTimestamp) trades.entries).filter
        (fun v => decide (v.1.2.traderAddr = trader)) =
      (tradesOf trades trader).map fun e => (e, name e) :=
    (namedRows_filter _ _ _ _ fun e : String × Trade => decide (e.2.traderAddr = trader)).trans
      (namedRows_eq_map hkeys hrun hdone hapart choice hname)
  rw [tradesQuery, hview, leftJoin_groupTotals, List.map_map, List.map_map]
  refine List.map_congr_left fun e _ => ?_
  simp only [Function.comp_apply, tradeResponse, groupTotal_eq_sumAmountCC,
    HistoricalTrade.mk.injEq, true_and]
  split
  · rfl
  · rename_i hnone
    rw [← groupTotal_eq_sumAmountCC, groupTotal_eq_zero _ _ hnone]
    rfl

/-- **A trader's trades.**  However the inserts of the names interleaved, if no two events of a
perpetual share their time and the perpetual of every trade had a name by then, the response lists
every trade of the trader once and newest first, under the name in force at its time and with the
sum of the trader's flows in its transaction. -/
theorem trades_listed_once [Finite ι] {isAddress : String → Bool} {trades : TradeTable}
    {flows : TokenFlowTable} {query : String → List HistoricalTrade}
    (hquery : ∀ trader, NewestFirst (fun a => a.trade.tradeTimestamp)
      (tradesQuery trades (alignTimestamps choice c.shared) flows trader) (query trader))
    {traderAddr : String}
    (hnamed : ∀ e ∈ tradesOf trades (toLowerCase traderAddr),
      e.2.tradeTimestamp * 1000 < farDate ∧ ∃ i,
        (logs i).event.perpetualId = e.2.perpetualId ∧
          (logs i).blockTimestamp ≤ e.2.tradeTimestamp)
    {answer : List HistoricalTrade}
    (h : historicalTrades isAddress query (some traderAddr) = .ok answer) :
    (answer.map fun a => (a.orderId, a.trade)).Perm (tradesOf trades (toLowerCase traderAddr)) ∧
      (answer.Pairwise fun a b => b.trade.tradeTimestamp ≤ a.trade.tradeTimestamp) ∧
      ∀ a ∈ answer,
        (∃ i, InForce logs i a.trade.perpetualId a.trade.tradeTimestamp ∧
          a.perpetualLongId = (logs i).longId) ∧
        a.depositCC = sumAmountCC flows (toLowerCase traderAddr) a.trade.txHash := by
  obtain rfl : query (toLowerCase traderAddr) = answer := answered_of_ok h
  obtain ⟨hperm, hsorted⟩ := hquery (toLowerCase traderAddr)
  obtain ⟨name, hname⟩ := exists_names hnamed
  rw [tradesQuery_eq hkeys hrun hdone hapart choice flows hname] at hperm
  refine ⟨?_, hsorted, fun a ha => ?_⟩
  · have hcolumns := hperm.map fun a => (a.orderId, a.trade)
    rw [List.map_map] at hcolumns
    exact hcolumns.trans (List.Perm.of_eq (List.map_id _))
  · obtain ⟨e, he, rfl⟩ := List.mem_map.1 (hperm.mem_iff.1 ha)
    obtain ⟨-, i, hi, hlongId⟩ := hname e he
    exact ⟨⟨i, hi, hlongId.symm⟩, rfl⟩

end

/-- A trade of one unit. -/
def unitTrade (perpetualId : ℕ) (fAmount : ℤ) (orderDigest : String) : TradeHistoryEvent :=
  .trade ⟨perpetualId, "0xA1", ⟨0, 0, "0xB0", fAmount, 250⟩, orderDigest, 0, 1, 0, 0, 1⟩

/-- A buy before and a sell after the perpetual was renamed. -/
def renamedTrades : TradeTable :=
  insertTradeHistoryRecord id
    (insertTradeHistoryRecord id OrdMap.empty (unitTrade 100001 1 "0xd1") "0xe1" true 1700003599 5)
    (unitTrade 100001 (-1) "0xd2") "0xe2" true 1700003600 6

/-- The first one with a deposit and a withdrawal. -/
def buyFlows : TokenFlowTable :=
  (OrdMap.empty.set ("0xa1", 100001, "0xe1", true) ⟨7, 1700003599, true⟩).set
    ("0xa1", 100001, "0xe1", false) ⟨-2, 1700003599, true⟩

theorem renamedTrades_listed :
    ∃ c, (insertTasks anHourApart).run nested insertStart = some c ∧
      ∀ answer, historicalTrades (fun _ => true) (fun trader =>
          newestFirst (fun a => a.trade.tradeTimestamp)
            (tradesQuery renamedTrades (alignTimestamps leastChoice c.shared) buyFlows trader))
          (some "0xA1") = .ok answer →
        (answer.map fun a => (a.orderId, a.trade)).Perm (tradesOf renamedTrades "0xa1") ∧
          (answer.Pairwise fun a b => b.trade.tradeTimestamp ≤ a.trade.tradeTimestamp) ∧
          ∀ a ∈ answer, (∃ i, InForce anHourApart i a.trade.perpetualId a.trade.tradeTimestamp ∧
              a.perpetualLongId = (anHourApart i).longId) ∧
            a.depositCC = sumAmountCC buyFlows "0xa1" a.trade.txHash := by
  refine ⟨((insertTasks anHourApart).run nested insertStart).get (by decide),
    (Option.some_get _).symm, fun answer hanswer => ?_⟩
  exact trades_listed_once (by decide) (Option.some_get _).symm (by decide)
    (by unfold Apart; decide) leastChoice (fun _ => newestFirst_spec _ _) (by decide +kernel)
    hanswer

/-! ## Settlements -/

/-- The settlements of a trader. -/
def settlesOf (settles : SettleTable) (trader : String) : List ((String × ℕ × String) × Settle) :=
  settles.entries.filter fun e => decide (e.1.1 = trader)

/-- The key of a settlement in the response. -/
def HistoricalSettle.key (a : HistoricalSettle) : String × ℕ × String :=
  (a.traderAddr, a.perpetualId, a.transactionHash)

/-- The query gives every settlement of the trader once. -/
theorem settleQuery_eq {κ : Type*} [DecidableEq κ] {names : κ → SetOraclesLog}
    (hkeys : Function.Injective fun i => (names i).key) {schedule : List (κ × ℕ)}
    {c : Tasks.Config κ LongIdTable InsertAt}
    (hrun : (insertTasks names).run schedule insertStart = some c)
    (hdone : ∀ i, c.locals i = .done) (hapart : Apart names) (choice : JoinChoice)
    {settles : SettleTable} {trader : String} {name : (String × ℕ × String) × Settle → String}
    (hname : ∀ e ∈ settlesOf settles trader, e.2.timestamp * 1000 < farDate ∧
      ∃ i, InForce names i e.1.2.1 e.2.timestamp ∧ (names i).longId = name e) :
    settleQuery settles (alignTimestamps choice c.shared) trader =
      (settlesOf settles trader).map fun e => settleResponse e (name e) := by
  have hview : (namedRows (alignTimestamps choice c.shared) (fun e => e.1.2.1)
      (fun e => e.2.timestamp) settles.entries).filter (fun v => decide (v.1.1.1 = trader)) =
      (settlesOf settles trader).map fun e => (e, name e) :=
    (namedRows_filter _ _ _ _
      fun e : (String × ℕ × String) × Settle => decide (e.1.1 = trader)).trans
      (namedRows_eq_map hkeys hrun hdone hapart choice hname)
  rw [settleQuery, hview, List.map_map]
  rfl

/-- A `Settle` log entry. -/
structure SettleLog where
  event : SettleEvent
  txHash : String
  deriving DecidableEq

def SettleLog.key (e : SettleLog) : String × ℕ × String := e.event.key e.txHash

/-- The row a delivery writes. -/
def settleRow (e : SettleLog) (isCollectedByEvent : Bool) (tradeBlockTimestamp : ℕ) : Settle where
  quantityCC := e.event.amount - e.event.cash
  cashCC := e.event.cash
  timestamp := tradeBlockTimestamp
  isCollectedByEvent := isCollectedByEvent

/-- An upsert that writes all columns. -/
theorem upsert_const {κ ν : Type*} [DecidableEq κ] (t : OrdMap κ ν) (key : κ) (row : ν) :
    (t.upsert key row fun _ => row) = t.set key row := by
  unfold OrdMap.upsert
  cases t.get? key with
  | none => rfl
  | some old => rfl

section

variable {ι : Type*} (logs : ι → SettleLog)

/-- A sequence of deliveries. -/
def deliverSettles (t : SettleTable) (deliveries : List (EntryDelivery ι)) : SettleTable :=
  deliveries.foldl (fun t d => insertSettleHistoryRecord t (logs d.entry).event
    (logs d.entry).txHash d.isCollectedByEvent d.blockTimestamp) t

/-- **Of the deliveries with one key the last one counts**, whatever entry it is of. -/
theorem get?_deliverSettles (deliveries : List (EntryDelivery ι)) (key : String × ℕ × String) :
    (deliverSettles logs OrdMap.empty deliveries).get? key =
      (deliveries.reverse.find? fun d => decide ((logs d.entry).key = key)).map fun d =>
        settleRow (logs d.entry) d.isCollectedByEvent d.blockTimestamp := by
  induction deliveries using List.reverseRecOn with
  | nil => rfl
  | append_singleton deliveries d ih =>
    have hlast : deliverSettles logs OrdMap.empty (deliveries ++ [d]) =
        (deliverSettles logs OrdMap.empty deliveries).set (logs d.entry).key
          (settleRow (logs d.entry) d.isCollectedByEvent d.blockTimestamp) := by
      rw [deliverSettles, List.foldl_append, ← deliverSettles]
      exact upsert_const _ _ _
    rw [hlast, OrdMap.get?_set, List.reverse_append, List.reverse_singleton, List.singleton_append,
      List.find?_cons, ih]
    by_cases hkey : (logs d.entry).key = key
    · simp [hkey]
    · simp [hkey]

variable {logs} in
/-- A settlement of the table is that of the last delivery of its key. -/
theorem mem_settlesOf {deliveries : List (EntryDelivery ι)} {trader : String}
    {e : (String × ℕ × String) × Settle} :
    e ∈ settlesOf (deliverSettles logs OrdMap.empty deliveries) trader ↔
      e.1.1 = trader ∧
        ∃ d, deliveries.reverse.find? (fun d => decide ((logs d.entry).key = e.1)) = some d ∧
          e.2 = settleRow (logs d.entry) d.isCollectedByEvent d.blockTimestamp := by
  obtain ⟨key, row⟩ := e
  rw [settlesOf, List.mem_filter, ← OrdMap.get?_eq_some, get?_deliverSettles,
    Option.map_eq_some_iff, decide_eq_true_eq, and_comm]
  simp only [eq_comm]

/-- The keys of a trader's settlements are those delivered. -/
theorem mem_keys_settlesOf {deliveries : List (EntryDelivery ι)} {trader : String}
    {key : String × ℕ × String} :
    key ∈ (settlesOf (deliverSettles logs OrdMap.empty deliveries) trader).map Prod.fst ↔
      key.1 = trader ∧ ∃ d ∈ deliveries, (logs d.entry).key = key := by
  rw [List.mem_map]
  constructor
  · rintro ⟨e, he, rfl⟩
    obtain ⟨htrader, d, hd, -⟩ := mem_settlesOf.1 he
    refine ⟨htrader, d, List.mem_reverse.1 (List.mem_of_find?_eq_some hd), ?_⟩
    simpa using List.find?_some hd
  · rintro ⟨htrader, d, hd, hkey⟩
    have hsome : (deliveries.reverse.find? fun d => decide ((logs d.entry).key = key)).isSome :=
      List.find?_isSome.2 ⟨d, List.mem_reverse.2 hd, decide_eq_true hkey⟩
    obtain ⟨last, hlast⟩ := Option.isSome_iff_exists.1 hsome
    exact ⟨(key, settleRow (logs last.entry) last.isCollectedByEvent last.blockTimestamp),
      mem_settlesOf.2 ⟨htrader, last, hlast, rfl⟩, rfl⟩

variable {logs}

/-- **A trader's settlements.**  Whatever was delivered, the response has one entry for each
perpetual and transaction, newest first and under the name in force.  Its amount and its time are
those of the last delivery; its cash is always zero. -/
theorem settles_listed_once {κ : Type*} [DecidableEq κ] [Finite κ] {names : κ → SetOraclesLog}
    (hkeys : Function.Injective fun i => (names i).key) {schedule : List (κ × ℕ)}
    {c : Tasks.Config κ LongIdTable InsertAt}
    (hrun : (insertTasks names).run schedule insertStart = some c)
    (hdone : ∀ i, c.locals i = .done) (hapart : Apart names) (choice : JoinChoice)
    {isAddress : String → Bool} {deliveries : List (EntryDelivery ι)}
    {query : String → List HistoricalSettle}
    (hquery : ∀ trader, NewestFirst (fun a => a.timestamp)
      (settleQuery (deliverSettles logs OrdMap.empty deliveries)
        (alignTimestamps choice c.shared) trader) (query trader))
    {traderAddr : String}
    (hnamed : ∀ d ∈ deliveries, (logs d.entry).key.1 = toLowerCase traderAddr →
      d.blockTimestamp * 1000 < farDate ∧ ∃ i,
        (names i).event.perpetualId = (logs d.entry).event.perpetualId ∧
          (names i).blockTimestamp ≤ d.blockTimestamp)
    {answer : List HistoricalSettle}
    (h : historicalSettle isAddress query (some traderAddr) = .ok answer) :
    (answer.map HistoricalSettle.key).Nodup ∧
      (∀ key, key ∈ answer.map HistoricalSettle.key ↔
        key.1 = toLowerCase traderAddr ∧ ∃ d ∈ deliveries, (logs d.entry).key = key) ∧
      (answer.Pairwise fun a b => b.timestamp ≤ a.timestamp) ∧
      ∀ a ∈ answer, a.cashCC = 0 ∧
        (∃ i, InForce names i a.perpetualId a.timestamp ∧ a.perpetualLongId = (names i).longId) ∧
        ∃ d, deliveries.reverse.find? (fun d => decide ((logs d.entry).key = a.key)) = some d ∧
          a.quantityCC = (logs d.entry).event.amount - (logs d.entry).event.cash ∧
          a.timestamp = d.blockTimestamp := by
  obtain rfl : query (toLowerCase traderAddr) = answer := answered_of_ok h
  obtain ⟨hperm, hsorted⟩ := hquery (toLowerCase traderAddr)
  have hcovered : ∀ e ∈ settlesOf (deliverSettles logs OrdMap.empty deliveries)
      (toLowerCase traderAddr), e.2.timestamp * 1000 < farDate ∧ ∃ i,
        (names i).event.perpetualId = e.1.2.1 ∧ (names i).blockTimestamp ≤ e.2.timestamp := by
    intro e he
    obtain ⟨htrader, d, hd, heq⟩ := mem_settlesOf.1 he
    have hkey : (logs d.entry).key = e.1 := by simpa using List.find?_some hd
    rw [heq, ← hkey]
    exact hnamed d (List.mem_reverse.1 (List.mem_of_find?_eq_some hd)) (by rw [hkey, htrader])
  obtain ⟨name, hname⟩ := exists_names hcovered
  rw [settleQuery_eq hkeys hrun hdone hapart choice hname] at hperm
  have hkeysPerm := hperm.map HistoricalSettle.key
  rw [List.map_map] at hkeysPerm
  refine ⟨?_, fun key => ?_, hsorted, fun a ha => ?_⟩
  · refine hkeysPerm.nodup_iff.2 ?_
    exact (OrdMap.nodup_keys _).sublist (List.filter_sublist.map Prod.fst)
  · rw [hkeysPerm.mem_iff]
    exact mem_keys_settlesOf logs
  · obtain ⟨e, he, rfl⟩ := List.mem_map.1 (hperm.mem_iff.1 ha)
    obtain ⟨-, i, hi, hlongId⟩ := hname e he
    obtain ⟨-, d, hd, heq⟩ := mem_settlesOf.1 he
    exact ⟨rfl, ⟨i, hi, hlongId.symm⟩, d, hd, congrArg Settle.quantityCC heq,
      congrArg Settle.timestamp heq⟩

end

/-- One settlement. -/
def oneSettle : Fin 1 → SettleLog := ![⟨⟨100001, "0xA1", 9, 4⟩, "0xE3"⟩]

/-- It is delivered by the listener and by the backfill. -/
theorem oneSettle_listed :
    ∃ c, (insertTasks anHourApart).run nested insertStart = some c ∧
      ∀ answer, historicalSettle (fun _ => true) (fun trader => newestFirst (fun a => a.timestamp)
          (settleQuery (deliverSettles oneSettle OrdMap.empty
            [⟨0, true, 1700003600⟩, ⟨0, false, 1700003600⟩])
            (alignTimestamps leastChoice c.shared) trader)) (some "0xA1") = .ok answer →
        ∀ key, key ∈ answer.map HistoricalSettle.key ↔ key.1 = "0xa1" ∧
          ∃ d ∈ [(⟨0, true, 1700003600⟩ : EntryDelivery (Fin 1)), ⟨0, false, 1700003600⟩],
            (oneSettle d.entry).key = key := by
  refine ⟨((insertTasks anHourApart).run nested insertStart).get (by decide),
    (Option.some_get _).symm, fun answer hanswer => ?_⟩
  exact (settles_listed_once (by decide) (Option.some_get _).symm (by decide)
    (by unfold Apart; decide) leastChoice (fun _ => newestFirst_spec _ _) (by decide) hanswer).2.1

end TraderBackend
