import TraderBackend.Lib.Journal
import TraderBackend.History.Ledgers

/-!
# The ledgers of the traders

Funding payments and token flows are added up by trader.  Both tables go by their key
alone: what comes second under a key leaves the amount as it is, whether it is the same
log entry again or another one.

* `sumPayments`, `sumAmountCC` — the sums over the rows.
* `view_deliverFunding`, `view_deliverFlow` — the rows are those of the entries that come
  first under their key.
* `fundingLedger_iff`, `flowLedger_iff` — the sums are right **if and only if** the other
  entries cancel.
-/

namespace TraderBackend

open JsString

/-- One delivery of a log entry, live or by the backfill. -/
structure EntryDelivery (ι : Type*) where
  entry : ι
  isCollectedByEvent : Bool
  blockTimestamp : ℕ
  deriving DecidableEq

/-- The entries in the order of their deliveries. -/
def entryOrder {ι : Type*} (deliveries : List (EntryDelivery ι)) : List ι :=
  deliveries.map EntryDelivery.entry

/-! ## Funding payments -/

/-- An `UpdateMarginAccount` log entry. -/
structure FundingLog where
  event : UpdateMarginAccountEvent
  txHash : String
  deriving DecidableEq

/-- The key of its row. -/
def FundingLog.key (e : FundingLog) : String × String :=
  (toLowerCase e.event.trader, toLowerCase e.txHash)

/-- There is something to pay. -/
def FundingLog.pays (e : FundingLog) : Bool := decide (e.event.fFundingPaymentCC ≠ 0)

/-- The sum of the payments of a trader in a perpetual. -/
def sumPayments (t : FundingTable) (trader : String) (perpetualId : ℕ) : ℤ :=
  ((t.entries.filter fun e => decide (e.1.1 = trader ∧ e.2.perpetualId = perpetualId)).map
    fun e => e.2.paymentAmount).sum

/-- A sequence of deliveries. -/
def deliverFunding {ι : Type*} (logs : ι → FundingLog) (t : FundingTable)
    (deliveries : List (EntryDelivery ι)) : FundingTable :=
  deliveries.foldl (fun t d => insertFundingRatePayment t (logs d.entry).event
    (logs d.entry).txHash d.isCollectedByEvent d.blockTimestamp) t

/-- The columns of a payment no update rewrites. -/
def paymentColumns (_ : String × String) (row : FundingRatePayment) : ℕ × ℤ :=
  (row.perpetualId, row.paymentAmount)

/-- The row of a payment is there: it stays as it is. -/
theorem view_insertFunding_of_some {t : FundingTable} {e : FundingLog} {row : FundingRatePayment}
    (hget : t.get? e.key = some row) (isCollectedByEvent : Bool) (blockTimestamp : ℕ) :
    (insertFundingRatePayment t e.event e.txHash isCollectedByEvent blockTimestamp).view
        (OrdMap.keyed paymentColumns) = t.view (OrdMap.keyed paymentColumns) := by
  unfold insertFundingRatePayment
  split
  · rfl
  · have hfind : (fundingRatePaymentCalls e.event e.txHash isCollectedByEvent
        blockTimestamp).find t = true := by
      show (t.get? e.key).isSome = true
      rw [hget]
      rfl
    rw [RecordCalls.insert, if_pos hfind]
    show OrdMap.view _ (if isCollectedByEvent then t else _) = _
    split
    · rfl
    · apply OrdMap.view_update
      intro old
      rfl

/-- The row of a payment is not there: it becomes the last one. -/
theorem view_insertFunding_of_none {t : FundingTable} {e : FundingLog} (hpays : e.pays = true)
    (hget : t.get? e.key = none) (isCollectedByEvent : Bool) (blockTimestamp : ℕ) :
    (insertFundingRatePayment t e.event e.txHash isCollectedByEvent blockTimestamp).view
        (OrdMap.keyed paymentColumns) =
      t.view (OrdMap.keyed paymentColumns) ++
        [(e.key, e.event.perpetualId, e.event.fFundingPaymentCC)] := by
  have hfind : ¬ (fundingRatePaymentCalls e.event e.txHash isCollectedByEvent
      blockTimestamp).find t = true := by
    show ¬ (t.get? e.key).isSome = true
    simp [hget]
  unfold insertFundingRatePayment
  rw [if_neg (of_decide_eq_true hpays), RecordCalls.insert, if_neg hfind]
  exact OrdMap.view_create_of_none hget

/-- **The rows of the funding payments.** -/
theorem view_deliverFunding {ι : Type*} (logs : ι → FundingLog)
    (deliveries : List (EntryDelivery ι)) :
    (deliverFunding logs OrdMap.empty deliveries).view (OrdMap.keyed paymentColumns) =
      (keepFirst (sameKey fun i => (logs i).key)
        ((entryOrder deliveries).filter fun i => (logs i).pays)).map
        fun i => ((logs i).key, (logs i).event.perpetualId, (logs i).event.fFundingPaymentCC) := by
  apply view_foldl_sameKey
  · intro t d hd
    have hzero : (logs d.entry).event.fFundingPaymentCC = 0 := by
      simpa [FundingLog.pays] using hd
    rw [insertFundingRatePayment, if_pos hzero]
  · intro t d row hd hget
    exact view_insertFunding_of_some hget _ _
  · intro t d hd hget
    exact view_insertFunding_of_none hd hget _ _

theorem sumPayments_eq_balance (t : FundingTable) (trader : String) (perpetualId : ℕ) :
    sumPayments t trader perpetualId =
      balance ((t.view (OrdMap.keyed paymentColumns)).map fun c => ((c.1.1, c.2.1), c.2.2))
        (trader, perpetualId) := by
  apply sum_eq_balance
  · intro e
    simp only [OrdMap.keyed, paymentColumns, Prod.mk.injEq]
  · intro e
    rfl

/-- The payments that get a row: the first of its trader in its transaction. -/
def PaymentRecorded {ι : Type*} (logs : ι → FundingLog) (deliveries : List (EntryDelivery ι))
    (i : ι) : Prop :=
  ((entryOrder deliveries).filter fun j => (logs j).pays).find?
    (fun j => decide ((logs j).key = (logs i).key)) = some i

instance {ι : Type*} [DecidableEq ι] (logs : ι → FundingLog)
    (deliveries : List (EntryDelivery ι)) (i : ι) :
    Decidable (PaymentRecorded logs deliveries i) :=
  inferInstanceAs (Decidable (_ = some i))

/-- **When no payment is lost.**  Whatever the deliveries, the sum of every trader in every
perpetual is that of the log entries if and only if the entries that do not come first for their
trader in their transaction add up to nothing there. -/
theorem fundingLedger_iff {ι : Type*} [Fintype ι] [DecidableEq ι] (logs : ι → FundingLog)
    (deliveries : List (EntryDelivery ι)) :
    (∀ trader perpetualId,
        sumPayments (deliverFunding logs OrdMap.empty deliveries) trader perpetualId =
          ∑ i with toLowerCase (logs i).event.trader = trader ∧
            (logs i).event.perpetualId = perpetualId, (logs i).event.fFundingPaymentCC) ↔
      ∀ trader perpetualId,
        ∑ i with toLowerCase (logs i).event.trader = trader ∧
          (logs i).event.perpetualId = perpetualId ∧ ¬ PaymentRecorded logs deliveries i,
          (logs i).event.fFundingPaymentCC = 0 := by
  apply sums_eq_iff (keepFirst_nodup (sameKey_self fun i => (logs i).key)
    ((entryOrder deliveries).filter fun i => (logs i).pays))
  · intro trader perpetualId
    rw [sumPayments_eq_balance, view_deliverFunding, List.map_map]
    rfl
  · intro i
    exact mem_keepFirst_iff (fun i => (logs i).key) _ i

/-- Two orders of one trader in different perpetuals, executed in one transaction. -/
def twoPayments : Fin 2 → FundingLog :=
  ![⟨⟨100001, "0xA1", 7⟩, "0xaa"⟩, ⟨⟨100002, "0xA1", -3⟩, "0xaa"⟩]

/-- The second payment never gets a row, and the second perpetual has none. -/
theorem twoPayments_second_lost :
    (∀ i, ∃ d ∈ [(⟨0, true, 9⟩ : EntryDelivery (Fin 2)), ⟨1, true, 9⟩, ⟨0, false, 9⟩,
        ⟨1, false, 9⟩], d.entry = i) ∧
      (∀ i, (twoPayments i).event.fFundingPaymentCC ≠ 0) ∧
      sumPayments (deliverFunding twoPayments OrdMap.empty [⟨0, true, 9⟩, ⟨1, true, 9⟩,
        ⟨0, false, 9⟩, ⟨1, false, 9⟩]) "0xa1" 100002 = 0 ∧
      ∑ i with toLowerCase (twoPayments i).event.trader = "0xa1" ∧
          (twoPayments i).event.perpetualId = 100002,
        (twoPayments i).event.fFundingPaymentCC = -3 := by
  decide

/-! ## Token flows -/

/-- A `TokensDeposited` or `TokensWithdrawn` log entry. -/
structure FlowLog where
  isDeposit : Bool
  event : TokenFlowEvent
  txHash : String
  deriving DecidableEq

/-- The key of its row. -/
def FlowLog.key (e : FlowLog) : String × ℕ × String × Bool := e.event.key e.txHash e.isDeposit

/-- What an entry adds to deposited minus withdrawn. -/
def FlowLog.amount (e : FlowLog) : ℤ := if e.isDeposit then e.event.amountCC else -e.event.amountCC

/-- The insert of an entry. -/
def FlowLog.insert (t : TokenFlowTable) (e : FlowLog) (isCollectedByEvent : Bool)
    (evtBlockTimestamp : ℕ) : TokenFlowTable :=
  if e.isDeposit then
    insertTokenDepositRecord t e.event e.txHash isCollectedByEvent evtBlockTimestamp
  else insertTokenWithdrawRecord t e.event e.txHash isCollectedByEvent evtBlockTimestamp

/-- A sequence of deliveries. -/
def deliverFlow {ι : Type*} (logs : ι → FlowLog) (t : TokenFlowTable)
    (deliveries : List (EntryDelivery ι)) : TokenFlowTable :=
  deliveries.foldl (fun t d => (logs d.entry).insert t d.isCollectedByEvent d.blockTimestamp) t

/-- The `amount_cc` of `tf` in `historicalTrades`: the sum of the flows of a trader in a
transaction. -/
def sumAmountCC (t : TokenFlowTable) (trader txHash : String) : ℤ :=
  ((t.entries.filter fun e => decide (e.1.1 = trader ∧ e.1.2.2.1 = txHash)).map
    fun e => e.2.amountCC).sum

/-- The column of a flow no update rewrites. -/
def flowColumns (_ : String × ℕ × String × Bool) (row : TokenFlow) : ℤ := row.amountCC

/-- Both inserts are one, with the amount signed. -/
theorem FlowLog.insert_eq (t : TokenFlowTable) (e : FlowLog) (isCollectedByEvent : Bool)
    (evtBlockTimestamp : ℕ) :
    e.insert t isCollectedByEvent evtBlockTimestamp =
      t.upsert e.key ⟨e.amount, evtBlockTimestamp, isCollectedByEvent⟩ fun row =>
        { row with isCollectedByEvent := isCollectedByEvent, timestamp := evtBlockTimestamp } := by
  unfold FlowLog.insert FlowLog.key FlowLog.amount
  cases e.isDeposit with
  | true => rfl
  | false => rfl

/-- **The rows of the token flows.** -/
theorem view_deliverFlow {ι : Type*} (logs : ι → FlowLog)
    (deliveries : List (EntryDelivery ι)) :
    (deliverFlow logs OrdMap.empty deliveries).view (OrdMap.keyed flowColumns) =
      (keepFirst (sameKey fun i => (logs i).key)
        ((entryOrder deliveries).filter fun _ => true)).map
        fun i => ((logs i).key, (logs i).amount) := by
  apply view_foldl_sameKey
  · intro t d hd
    cases hd
  · intro t d row _ hget
    rw [FlowLog.insert_eq]
    exact OrdMap.view_upsert_of_some hget rfl
  · intro t d _ hget
    rw [FlowLog.insert_eq]
    exact OrdMap.view_upsert_of_none hget

theorem sumAmountCC_eq_balance (t : TokenFlowTable) (trader txHash : String) :
    sumAmountCC t trader txHash =
      balance ((t.view (OrdMap.keyed flowColumns)).map fun c => ((c.1.1, c.1.2.2.1), c.2))
        (trader, txHash) := by
  apply sum_eq_balance
  · intro e
    simp only [OrdMap.keyed, flowColumns, Prod.mk.injEq]
  · intro e
    rfl

/-- The flows that get a row: the first of its trader, perpetual, transaction and direction. -/
def FlowRecorded {ι : Type*} (logs : ι → FlowLog) (deliveries : List (EntryDelivery ι)) (i : ι) :
    Prop :=
  (entryOrder deliveries).find? (fun j => decide ((logs j).key = (logs i).key)) = some i

instance {ι : Type*} [DecidableEq ι] (logs : ι → FlowLog) (deliveries : List (EntryDelivery ι))
    (i : ι) : Decidable (FlowRecorded logs deliveries i) :=
  inferInstanceAs (Decidable (_ = some i))

/-- **When no flow is lost.**  Whatever the deliveries, the sum of every trader in every
transaction is deposited minus withdrawn if and only if the entries that do not come first for
their trader, perpetual, transaction and direction add up to nothing there. -/
theorem flowLedger_iff {ι : Type*} [Fintype ι] [DecidableEq ι] (logs : ι → FlowLog)
    (deliveries : List (EntryDelivery ι)) :
    (∀ trader txHash,
        sumAmountCC (deliverFlow logs OrdMap.empty deliveries) trader txHash =
          ∑ i with toLowerCase (logs i).event.trader = trader ∧
            toLowerCase (logs i).txHash = txHash, (logs i).amount) ↔
      ∀ trader txHash,
        ∑ i with toLowerCase (logs i).event.trader = trader ∧
          toLowerCase (logs i).txHash = txHash ∧ ¬ FlowRecorded logs deliveries i,
          (logs i).amount = 0 := by
  apply sums_eq_iff (keepFirst_nodup (sameKey_self fun i => (logs i).key) (entryOrder deliveries))
  · intro trader txHash
    rw [sumAmountCC_eq_balance, view_deliverFlow, List.filter_true, List.map_map]
    rfl
  · intro i
    exact mem_keepFirst_iff (fun i => (logs i).key) _ i

/-- A trader deposits twice to one perpetual in one transaction. -/
def twoFlows : Fin 2 → FlowLog :=
  ![⟨true, ⟨100001, "0xA1", 7⟩, "0xaa"⟩, ⟨true, ⟨100001, "0xA1", 5⟩, "0xaa"⟩]

/-- The second deposit is taken for the first one delivered again. -/
theorem twoFlows_second_lost :
    (∀ i, ∃ d ∈ [(⟨0, true, 9⟩ : EntryDelivery (Fin 2)), ⟨1, true, 9⟩, ⟨0, false, 9⟩,
        ⟨1, false, 9⟩], d.entry = i) ∧
      sumAmountCC (deliverFlow twoFlows OrdMap.empty [⟨0, true, 9⟩, ⟨1, true, 9⟩,
        ⟨0, false, 9⟩, ⟨1, false, 9⟩]) "0xa1" "0xaa" = 7 ∧
      ∑ i with toLowerCase (twoFlows i).event.trader = "0xa1" ∧
        toLowerCase (twoFlows i).txHash = "0xaa", (twoFlows i).amount = 12 := by
  decide

end TraderBackend
