import TraderBackend.Lib.Journal
import TraderBackend.History.Earnings

/-!
# The ledger of the liquidity providers

What `/earnings` adds up are the rows of `estimated_earnings_tokens`.  An insert looks
for a row of its transaction and event type, the primary key is pool and transaction, so
an entry is dropped as soon as the transaction has a row of its type or of its pool.

* `sumTokenAmount` — the query of `/earnings`.
* `lpConflict` — which log entries exclude each other.
* `view_insert` — an insert in the columns that are never rewritten.
* `Booked` — the entries that get a row: the first of the transaction and the first
  after it that differs from it in type and pool.
* `lpLedger_iff` — the ledger is right **if and only if** the other entries cancel.
-/

namespace TraderBackend

open JsString

/-! ## The query -/

/-- The sum `/earnings` reads for a wallet and a pool. -/
def sumTokenAmount (t : EarningsTable) (wallet : String) (poolId : ℕ) : ℤ :=
  ((t.entries.filter fun e =>
    decide (toLowerCase e.2.liqProviderAddr = wallet ∧ e.1.1 = poolId)).map
    fun e => e.2.tokenAmount).sum

/-! ## Log entries and their inserts -/

/-- A `LiquidityAdded` or `LiquidityRemoved` log entry. -/
structure LpLog where
  /-- `LiquidityAdded` or `LiquidityRemoved`. -/
  isAdded : Bool
  event : LiquidityEvent
  txHash : String
  deriving DecidableEq

/-- The event type its row would have. -/
def LpLog.eventType (e : LpLog) : EstimatedEarningsEventType :=
  if e.isAdded then .liquidityAdded else .liquidityRemoved

/-- What an entry adds to removed minus added. -/
def LpLog.amount (e : LpLog) : ℤ :=
  if e.isAdded then -e.event.tokenAmount else e.event.tokenAmount

/-- One delivery of an entry, live or by the backfill. -/
structure LpDelivery (ι : Type*) where
  entry : ι
  isCollectedByEvent : Bool
  time : InsertTime
  deriving DecidableEq

/-- The insert a delivery leads to. -/
def LpLog.insert (t : EarningsTable) (e : LpLog) (isCollectedByEvent : Bool) (time : InsertTime) :
    EarningsTable :=
  if e.isAdded then insertLiquidityAdded t e.event e.txHash isCollectedByEvent time
  else insertLiquidityRemoved t e.event e.txHash isCollectedByEvent time

/-- A sequence of deliveries. -/
def deliverLp {ι : Type*} (logs : ι → LpLog) (t : EarningsTable)
    (deliveries : List (LpDelivery ι)) : EarningsTable :=
  deliveries.foldl (fun t d => (logs d.entry).insert t d.isCollectedByEvent d.time) t

/-- The columns hold both amounts. -/
def LpLog.fits (e : LpLog) : Bool :=
  fitsDecimal40 e.event.tokenAmount && fitsDecimal40 e.event.shareAmount

/-- The second of two entries gets no row when the first has one. -/
def lpConflict (e e' : LpLog) : Bool :=
  decide (e.txHash = e'.txHash ∧
    (e.eventType = e'.eventType ∨ e.event.poolId = e'.event.poolId))

/-! ## An insert in the columns that stay -/

/-- The columns of a row no update rewrites. -/
structure EarningsColumns where
  poolId : ℕ
  txHash : String
  eventType : EstimatedEarningsEventType
  provider : String
  tokenAmount : ℤ
  deriving DecidableEq

/-- These columns of a row. -/
def earningsColumns (key : ℕ × String) (row : EstimatedEarningTokens) : EarningsColumns where
  poolId := key.1
  txHash := key.2
  eventType := row.eventType
  provider := toLowerCase row.liqProviderAddr
  tokenAmount := row.tokenAmount

/-- These columns of the row an entry would get. -/
def LpLog.columns (e : LpLog) : EarningsColumns where
  poolId := e.event.poolId
  txHash := e.txHash
  eventType := e.eventType
  provider := toLowerCase e.event.user
  tokenAmount := e.amount

/-- An update is not seen in them. -/
theorem view_updateRecord (t : EarningsTable) (key : ℕ × String) (shAmount : ℤ) :
    (updateRecord t key shAmount).view earningsColumns = t.view earningsColumns := by
  unfold updateRecord
  split
  · rename_i row hget
    split
    · apply OrdMap.view_set_of_some hget
      rfl
    · rfl
  · rfl

theorem recordExists_iff_view {t : EarningsTable} {txHash : String}
    {type : EstimatedEarningsEventType} :
    recordExists t txHash type = true ↔
      ∃ c ∈ t.view earningsColumns, c.txHash = txHash ∧ c.eventType = type := by
  rw [recordExists_iff]
  constructor
  · rintro ⟨key, row, hget, h⟩
    exact ⟨_, OrdMap.mem_view.2 ⟨key, row, hget, rfl⟩, h⟩
  · rintro ⟨c, hc, h⟩
    obtain ⟨key, row, hget, rfl⟩ := OrdMap.mem_view.1 hc
    exact ⟨key, row, hget, h⟩

theorem get?_isNone_iff_view {t : EarningsTable} {poolId : ℕ} {txHash : String} :
    t.get? (poolId, txHash) = none ↔
      ∀ c ∈ t.view earningsColumns, c.txHash = txHash → c.poolId ≠ poolId := by
  constructor
  · rintro hnone c hc rfl rfl
    obtain ⟨key, row, hget, rfl⟩ := OrdMap.mem_view.1 hc
    rw [show (t.get? key) = none from hnone] at hget
    cases hget
  · intro h
    cases hget : t.get? (poolId, txHash) with
    | none => rfl
    | some row => exact absurd rfl (h _ (OrdMap.mem_view.2 ⟨_, row, hget, rfl⟩) rfl)

/-- Both inserts are one, with the amounts signed. -/
theorem LpLog.insert_eq (t : EarningsTable) (e : LpLog) (isCollectedByEvent : Bool)
    (time : InsertTime) :
    e.insert t isCollectedByEvent time =
      EstimatedEarnings.insert t e.event.user e.amount
        (if e.isAdded then e.event.shareAmount * -1 else e.event.shareAmount) e.event.poolId
        e.txHash e.eventType isCollectedByEvent time := by
  unfold LpLog.insert LpLog.amount LpLog.eventType
  cases e.isAdded with
  | true =>
    rw [← mul_neg_one]
    rfl
  | false => rfl

theorem LpLog.fits_eq (e : LpLog) :
    e.fits = (fitsDecimal40 e.amount &&
      fitsDecimal40 (if e.isAdded then e.event.shareAmount * -1 else e.event.shareAmount)) := by
  unfold LpLog.fits LpLog.amount
  cases e.isAdded with
  | true =>
    rw [if_pos rfl, if_pos rfl, ← mul_neg_one, fitsDecimal40_neg, fitsDecimal40_neg]
  | false => rfl

/-- An entry is dropped when the transaction has a row of its type or pool. -/
theorem view_insert_of_conflict {t : EarningsTable} {e : LpLog}
    (h : ∃ c ∈ t.view earningsColumns, c.txHash = e.txHash ∧
      (c.eventType = e.eventType ∨ c.poolId = e.event.poolId))
    (isCollectedByEvent : Bool) (time : InsertTime) :
    (e.insert t isCollectedByEvent time).view earningsColumns = t.view earningsColumns := by
  rw [LpLog.insert_eq]
  unfold EstimatedEarnings.insert
  split
  · split
    · rfl
    · exact view_updateRecord t _ _
  · rename_i hex
    obtain ⟨c, hc, htx, htype | hpool⟩ := h
    · exact absurd (recordExists_iff_view.2 ⟨c, hc, htx, htype⟩) hex
    · have htaken : t.get? (e.event.poolId, e.txHash) ≠ none := by
        intro hnone
        exact get?_isNone_iff_view.1 hnone c hc htx hpool
      simp [createRecord, htaken]

/-- An entry whose amounts do not fit is dropped. -/
theorem view_insert_of_unfit {e : LpLog} (h : e.fits = false) (t : EarningsTable)
    (isCollectedByEvent : Bool) (time : InsertTime) :
    (e.insert t isCollectedByEvent time).view earningsColumns = t.view earningsColumns := by
  rw [LpLog.insert_eq]
  rw [LpLog.fits_eq] at h
  unfold EstimatedEarnings.insert
  split
  · split
    · rfl
    · exact view_updateRecord t _ _
  · unfold createRecord
    rw [if_neg]
    rw [Option.all_some, Bool.and_assoc, h, Bool.and_false]
    exact Bool.false_ne_true

/-- Every other entry gets the last row. -/
theorem view_insert_of_new {t : EarningsTable} {e : LpLog}
    (h : ∀ c ∈ t.view earningsColumns, c.txHash = e.txHash →
      c.eventType ≠ e.eventType ∧ c.poolId ≠ e.event.poolId)
    (hfits : e.fits = true) (isCollectedByEvent : Bool) (time : InsertTime) :
    (e.insert t isCollectedByEvent time).view earningsColumns =
      t.view earningsColumns ++ [e.columns] := by
  have hex : ¬ recordExists t e.txHash e.eventType = true := by
    rw [recordExists_iff_view]
    rintro ⟨c, hc, htx, htype⟩
    exact (h c hc htx).1 htype
  have hfree : t.get? (e.event.poolId, e.txHash) = none :=
    get?_isNone_iff_view.2 fun c hc htx => (h c hc htx).2
  rw [LpLog.fits_eq] at hfits
  rw [LpLog.insert_eq, EstimatedEarnings.insert, if_neg hex, createRecord, if_pos]
  · rw [OrdMap.view_set_of_none hfree]
    simp [earningsColumns, LpLog.columns]
  · rw [hfree, Option.all_some, Bool.and_assoc, hfits]
    rfl

/-! ## The ledger is a journal -/

/-- **The rows of the ledger.**  Delivered to an empty table, the entries that fit are kept unless
they conflict with one kept before. -/
theorem view_deliverLp {ι : Type*} (logs : ι → LpLog) (deliveries : List (LpDelivery ι)) :
    (deliverLp logs OrdMap.empty deliveries).view earningsColumns =
      (keepFirst (fun i j => lpConflict (logs i) (logs j))
        ((deliveries.map LpDelivery.entry).filter fun i => (logs i).fits)).map
        fun i => (logs i).columns := by
  apply view_foldl
  · intro t d hunfit
    exact view_insert_of_unfit hunfit t _ _
  · intro t d kept hfits hview
    rcases keep_cases (fun i j => lpConflict (logs i) (logs j)) kept d.entry with
      ⟨⟨j, hj, hconflict⟩, h⟩ | ⟨hno, h⟩
    · have hc := of_decide_eq_true hconflict
      rw [h, ← hview]
      apply view_insert_of_conflict
      exact ⟨(logs j).columns, hview ▸ List.mem_map_of_mem hj, hc⟩
    · rw [h, List.map_append, ← hview]
      apply view_insert_of_new _ hfits
      intro c hc htx
      rw [hview] at hc
      obtain ⟨j, hj, rfl⟩ := List.mem_map.1 hc
      have hfree := hno j hj
      simp only [lpConflict, decide_eq_false_iff_not, not_and, not_or] at hfree
      exact hfree htx
  · rfl

theorem sumTokenAmount_eq_balance (t : EarningsTable) (wallet : String) (poolId : ℕ) :
    sumTokenAmount t wallet poolId =
      balance ((t.view earningsColumns).map fun c => ((c.provider, c.poolId), c.tokenAmount))
        (wallet, poolId) := by
  apply sum_eq_balance
  · intro e
    simp only [earningsColumns, Prod.mk.injEq]
  · intro e
    rfl

/-! ## Which entries get a row -/

section

variable {ι : Type*} (logs : ι → LpLog)

/-- An entry is one of the transaction. -/
def ofTx (txHash : String) (i : ι) : Bool := decide ((logs i).txHash = txHash)

/-- An entry is one of the transaction and differs from another one in type and pool. -/
def apartInTx (txHash : String) (f i : ι) : Bool :=
  decide ((logs i).txHash = txHash ∧ (logs i).eventType ≠ (logs f).eventType ∧
    (logs i).event.poolId ≠ (logs f).event.poolId)

/-- The entries that get a row, the entries that fit coming in a given order: the first of the
transaction, and the first that differs from that one in type and pool. -/
def Booked (items : List ι) (i : ι) : Prop :=
  ∃ f ∈ items.find? (ofTx logs (logs i).txHash),
    i = f ∨ items.find? (apartInTx logs (logs i).txHash f) = some i

instance [DecidableEq ι] (items : List ι) (i : ι) : Decidable (Booked logs items i) :=
  inferInstanceAs (Decidable (∃ f ∈ items.find? (ofTx logs (logs i).txHash),
    i = f ∨ items.find? (apartInTx logs (logs i).txHash f) = some i))

/-- There are two types only. -/
theorem eventType_eq_of_ne {e e' f : LpLog} (h : e.eventType ≠ f.eventType)
    (h' : e'.eventType ≠ f.eventType) : e.eventType = e'.eventType := by
  have hbool : ∀ x y z : Bool,
      (if x then EstimatedEarningsEventType.liquidityAdded else .liquidityRemoved) ≠
          (if z then .liquidityAdded else .liquidityRemoved) →
        (if y then EstimatedEarningsEventType.liquidityAdded else .liquidityRemoved) ≠
          (if z then .liquidityAdded else .liquidityRemoved) →
        (if x then EstimatedEarningsEventType.liquidityAdded else .liquidityRemoved) =
          (if y then .liquidityAdded else .liquidityRemoved) := by decide
  exact hbool e.isAdded e'.isAdded f.isAdded h h'

/-- An entry apart from the first one of its transaction is what does not conflict with it. -/
theorem apartInTx_eq {txHash : String} {f b : ι} (hf : (logs f).txHash = txHash)
    (hb : (logs b).txHash = txHash) :
    apartInTx logs txHash f b = !lpConflict (logs f) (logs b) := by
  rw [apartInTx, lpConflict, ← decide_not]
  simp only [hf, hb, true_and, not_or, ne_eq, eq_comm]

/-- The kept entries of a transaction: its first, and the first apart from that one. -/
theorem kept_ofTx (items : List ι) (txHash : String) :
    (keepFirst (fun i j => lpConflict (logs i) (logs j)) items).filter (ofTx logs txHash) =
      (items.find? (ofTx logs txHash)).elim []
        fun f => f :: (items.find? (apartInTx logs txHash f)).toList := by
  induction items using List.reverseRecOn with
  | nil => rfl
  | append_singleton items b ih =>
    rw [keepFirst_concat]
    by_cases hb : (logs b).txHash = txHash
    · have hin : ofTx logs txHash b = true := decide_eq_true hb
      have hclass : ∀ j, lpConflict (logs j) (logs b) = true → ofTx logs txHash j = true := by
        intro j hj
        exact decide_eq_true ((of_decide_eq_true hj).1.trans hb)
      rw [filter_keep_of_pos hin hclass, ih, List.find?_append]
      cases hfirst : items.find? (ofTx logs txHash) with
      | none =>
        -- the entry is the first of its transaction
        have hapart : (items ++ [b]).find? (apartInTx logs txHash b) = none := by
          apply List.find?_eq_none.2
          intro j hj hprop
          rcases List.mem_append.1 hj with hj | hj
          · exact List.find?_eq_none.1 hfirst j hj (decide_eq_true (of_decide_eq_true hprop).1)
          · rw [List.mem_singleton.1 hj] at hprop
            exact (of_decide_eq_true hprop).2.1 rfl
        rw [Option.none_or, List.find?_singleton, if_pos hin]
        show keep _ [] b = b :: ((items ++ [b]).find? (apartInTx logs txHash b)).toList
        rw [hapart]
        rfl
      | some f =>
        have hf : ofTx logs txHash f = true := List.find?_some hfirst
        have hf : (logs f).txHash = txHash := of_decide_eq_true hf
        show keep _ (f :: (items.find? (apartInTx logs txHash f)).toList) b =
          f :: ((items ++ [b]).find? (apartInTx logs txHash f)).toList
        rw [List.find?_append, List.find?_singleton, apartInTx_eq logs hf hb]
        cases hapart : items.find? (apartInTx logs txHash f) with
        | none =>
          cases hc : lpConflict (logs f) (logs b) <;> simp [keep, hc]
        | some g =>
          -- both types are taken
          have hg : apartInTx logs txHash f g = true := List.find?_some hapart
          have hg := of_decide_eq_true hg
          have htaken : lpConflict (logs f) (logs b) = true ∨
              lpConflict (logs g) (logs b) = true := by
            by_cases htype : (logs b).eventType = (logs f).eventType
            · exact Or.inl (decide_eq_true ⟨hf.trans hb.symm, Or.inl htype.symm⟩)
            · refine Or.inr (decide_eq_true ⟨hg.1.trans hb.symm, Or.inl ?_⟩)
              exact eventType_eq_of_ne hg.2.1 htype
          simp [keep, htaken]
    · have hout : ofTx logs txHash b = false := decide_eq_false hb
      have hapart : ∀ f, apartInTx logs txHash f b = false :=
        fun f => decide_eq_false fun h => hb h.1
      rw [filter_keep_of_neg hout, ih]
      simp [List.find?_append, hout, hapart]

/-- The kept entries are the booked ones. -/
theorem mem_keepFirst_iff_booked (items : List ι) (i : ι) :
    i ∈ keepFirst (fun i j => lpConflict (logs i) (logs j)) items ↔ Booked logs items i := by
  have hin : ofTx logs (logs i).txHash i = true := decide_eq_true rfl
  have hfilter : i ∈ keepFirst (fun i j => lpConflict (logs i) (logs j)) items ↔
      i ∈ (keepFirst (fun i j => lpConflict (logs i) (logs j)) items).filter
        (ofTx logs (logs i).txHash) := by
    rw [List.mem_filter, and_iff_left hin]
  rw [hfilter, kept_ofTx, Booked]
  cases items.find? (ofTx logs (logs i).txHash) with
  | none => simp
  | some f => simp

end

/-! ## When the ledger is right -/

/-- The entries that fit, in the order of their deliveries. -/
def lpOrder {ι : Type*} (logs : ι → LpLog) (deliveries : List (LpDelivery ι)) : List ι :=
  (deliveries.map LpDelivery.entry).filter fun i => (logs i).fits

/-- **When the ledger is right.**  Whatever the deliveries, the sum of every provider in every
pool is removed minus added if and only if the entries that get no row add up to nothing there. -/
theorem lpLedger_iff {ι : Type*} [Fintype ι] [DecidableEq ι] (logs : ι → LpLog)
    (deliveries : List (LpDelivery ι)) :
    (∀ wallet poolId,
        sumTokenAmount (deliverLp logs OrdMap.empty deliveries) wallet poolId =
          ∑ i with toLowerCase (logs i).event.user = wallet ∧ (logs i).event.poolId = poolId,
            (logs i).amount) ↔
      ∀ wallet poolId,
        ∑ i with toLowerCase (logs i).event.user = wallet ∧ (logs i).event.poolId = poolId ∧
          ¬ Booked logs (lpOrder logs deliveries) i, (logs i).amount = 0 := by
  have hnodup : (keepFirst (fun i j => lpConflict (logs i) (logs j))
      (lpOrder logs deliveries)).Nodup := by
    apply keepFirst_nodup
    intro i
    simp [lpConflict]
  apply sums_eq_iff hnodup
  · intro wallet poolId
    rw [sumTokenAmount_eq_balance, view_deliverLp, List.map_map]
    rfl
  · exact mem_keepFirst_iff_booked logs (lpOrder logs deliveries)

/-- A contract adds liquidity to two pools in one transaction: 100 tokens to pool 1, 50 to
pool 2. -/
def twoDeposits : Fin 2 → LpLog :=
  ![⟨true, ⟨1, "0xA1", 100, 90⟩, "0xaa"⟩, ⟨true, ⟨2, "0xA1", 50, 45⟩, "0xaa"⟩]

/-- Both entries are delivered live and by the backfill; the second never gets a row, although
its key is free. -/
theorem twoDeposits_second_lost :
    (∀ i, ∃ d ∈ [(⟨0, true, ⟨7, 9⟩⟩ : LpDelivery (Fin 2)), ⟨1, true, ⟨7, 9⟩⟩,
        ⟨0, false, ⟨7, 12⟩⟩, ⟨1, false, ⟨7, 12⟩⟩], d.entry = i) ∧
      sumTokenAmount (deliverLp twoDeposits OrdMap.empty [⟨0, true, ⟨7, 9⟩⟩, ⟨1, true, ⟨7, 9⟩⟩,
        ⟨0, false, ⟨7, 12⟩⟩, ⟨1, false, ⟨7, 12⟩⟩]) "0xa1" 2 = 0 ∧
      ∑ i with toLowerCase (twoDeposits i).event.user = "0xa1" ∧ (twoDeposits i).event.poolId = 2,
        (twoDeposits i).amount = -50 := by
  decide

end TraderBackend
