import TraderBackend.Lib.Race
import TraderBackend.History.P2PWatermark

/-!
# A live delivery and the backfill's, side by side

Funding payments and liquidity events are inserted by looking for the row and then
creating or updating it.  The live listener and the backfill do so without a lock.

* `LookFirstEvent` — the three events, with the database calls of a delivery and
  the flags of the rows there are for the event.
* `held_fundingRatePayment`, `held_estimatedEarning` — what further calls do to a
  row that is there.
* `race_confirms_iff` — the two deliveries leave one row marked as collected over
  http **if and only if** the live creation does not fall between the two calls of
  the backfill.
-/

namespace TraderBackend

open JsString

/-- An event whose row is written by an insert that looks first. -/
inductive LookFirstEvent where
  | fundingPayment (e : UpdateMarginAccountEvent) (paid : e.fFundingPaymentCC ≠ 0)
  | liquidityAdded (e : LiquidityEvent)
  | liquidityRemoved (e : LiquidityEvent)

/-! ## Its table -/

/-- The flags of the rows of a payment's account in the transaction. -/
def fundingFlags (trader txHash : String) (t : FundingTable) : List Bool :=
  ((t.get? (toLowerCase trader, toLowerCase txHash)).map
    FundingRatePayment.isCollectedByEvent).toList

/-- The flags of the rows of a type for a pool in the transaction. -/
def earningFlags (poolId : ℕ) (txHash : String) (type : EstimatedEarningsEventType)
    (t : EarningsTable) : List Bool :=
  (((t.get? (poolId, txHash)).filter fun row => decide (row.eventType = type)).map
    EstimatedEarningTokens.isCollectedByEvent).toList

namespace LookFirstEvent

/-- The database calls of a delivery. -/
def calls (txHash : String) (isCollectedByEvent : Bool) (time : InsertTime) :
    LookFirstEvent → RecordCalls HistoryDb
  | .fundingPayment e _ =>
      (fundingRatePaymentCalls e txHash isCollectedByEvent time.blockTimestamp).on
        HistoryDb.fundingRatePayment fun db t => { db with fundingRatePayment := t }
  | .liquidityAdded e =>
      (estimatedEarningCalls e.user (e.tokenAmount * -1) (e.shareAmount * -1) e.poolId txHash
        .liquidityAdded isCollectedByEvent time).on
        HistoryDb.estimatedEarningTokens fun db t => { db with estimatedEarningTokens := t }
  | .liquidityRemoved e =>
      (estimatedEarningCalls e.user e.tokenAmount e.shareAmount e.poolId txHash
        .liquidityRemoved isCollectedByEvent time).on
        HistoryDb.estimatedEarningTokens fun db t => { db with estimatedEarningTokens := t }

/-- The flags of the rows there are for the event. -/
def flags (txHash : String) (db : HistoryDb) : LookFirstEvent → List Bool
  | .fundingPayment e _ => fundingFlags e.trader txHash db.fundingRatePayment
  | .liquidityAdded e => earningFlags e.poolId txHash .liquidityAdded db.estimatedEarningTokens
  | .liquidityRemoved e =>
      earningFlags e.poolId txHash .liquidityRemoved db.estimatedEarningTokens

/-- The creation goes through: no row of the transaction has the type, none has the key, and
the columns can hold the amounts. -/
def creatable (txHash : String) (db : HistoryDb) : LookFirstEvent → Bool
  | .fundingPayment _ _ => true
  | .liquidityAdded e =>
      vacant db.estimatedEarningTokens (e.poolId, txHash) .liquidityAdded &&
        (fitsDecimal40 e.tokenAmount && fitsDecimal40 e.shareAmount)
  | .liquidityRemoved e =>
      vacant db.estimatedEarningTokens (e.poolId, txHash) .liquidityRemoved &&
        (fitsDecimal40 e.tokenAmount && fitsDecimal40 e.shareAmount)

/-- The update names the row as the creation did: that of a funding payment takes the
transaction as it was handed over. -/
def updateHits (txHash : String) : LookFirstEvent → Bool
  | .fundingPayment _ _ => decide (toLowerCase txHash = txHash)
  | .liquidityAdded _ => true
  | .liquidityRemoved _ => true

end LookFirstEvent

/-! ## A row that is there -/

theorem held_fundingRatePayment {e : UpdateMarginAccountEvent} {txHash : String}
    {time : Bool → InsertTime} {t : FundingTable}
    (hnew : t.get? (toLowerCase e.trader, toLowerCase txHash) = none) (i : Bool) :
    Held (fun i => fundingRatePaymentCalls e txHash i (time i).blockTimestamp)
      (fundingFlags e.trader txHash) (decide (toLowerCase txHash = txHash))
      ((fundingRatePaymentCalls e txHash i (time i).blockTimestamp).create t) i := by
  have hrow : ((fundingRatePaymentCalls e txHash i (time i).blockTimestamp).create t).get?
      (toLowerCase e.trader, toLowerCase txHash) =
        some ⟨e.perpetualId, e.fFundingPaymentCC, (time i).blockTimestamp, i⟩ := by
    simp only [fundingRatePaymentCalls]
    rw [OrdMap.get?_create, if_pos rfl, hnew]
    rfl
  generalize (fundingRatePaymentCalls e txHash i (time i).blockTimestamp).create t = t' at hrow
  refine ⟨?_, fun i' => ?_, fun i' => ?_, rfl, ?_⟩
  · simp [fundingFlags, hrow]
  · simp [fundingRatePaymentCalls, hrow]
  · simp [fundingRatePaymentCalls, OrdMap.create, hrow]
  · by_cases htx : toLowerCase txHash = txHash
    · simp only [fundingRatePaymentCalls, Bool.false_eq_true, if_false, htx, decide_true, if_true]
      rw [htx] at hrow
      simp [fundingFlags, htx, OrdMap.update, hrow]
    · simp only [fundingRatePaymentCalls, Bool.false_eq_true, if_false, htx, decide_false]
      -- the row of another key is updated, if any
      have hother : ∀ f, (t'.update (toLowerCase e.trader, txHash) f).get?
          (toLowerCase e.trader, toLowerCase txHash) =
            some ⟨e.perpetualId, e.fFundingPaymentCC, (time i).blockTimestamp, i⟩ := by
        intro f
        unfold OrdMap.update
        cases t'.get? (toLowerCase e.trader, txHash) with
        | none => exact hrow
        | some row =>
          rw [Option.elim_some, OrdMap.get?_set_ne _ _ (by simpa using Ne.symm htx)]
          exact hrow
      simp [fundingFlags, hother]

theorem held_estimatedEarning {wallet : String} {amount shAmount : ℤ} {poolId : ℕ}
    {txHash : String} {type : EstimatedEarningsEventType} {time : Bool → InsertTime}
    {t : EarningsTable} (hfree : t.get? (poolId, txHash) = none)
    (hamount : fitsDecimal40 amount = true) (hshares : fitsDecimal40 shAmount = true) (i : Bool) :
    Held (fun i => estimatedEarningCalls wallet amount shAmount poolId txHash type i (time i))
      (earningFlags poolId txHash type) true
      ((estimatedEarningCalls wallet amount shAmount poolId txHash type i (time i)).create t)
      i := by
  have hrow : ((estimatedEarningCalls wallet amount shAmount poolId txHash type i
      (time i)).create t).get? (poolId, txHash) =
        some ⟨toLowerCase wallet, some shAmount, amount, (time i).createdAt, type, i⟩ := by
    simp [estimatedEarningCalls, createRecord, hfree, hamount, hshares]
  generalize (estimatedEarningCalls wallet amount shAmount poolId txHash type i (time i)).create t
    = t' at hrow
  refine ⟨?_, fun i' => ?_, fun i' => ?_, rfl, ?_⟩
  · simp [earningFlags, hrow]
  · exact recordExists_iff.2 ⟨_, _, hrow, rfl, rfl⟩
  · simp [estimatedEarningCalls, createRecord, hrow]
  · simp [earningFlags, estimatedEarningCalls, updateRecord, hrow, hshares]

/-! ## Side by side -/

/-- The live listener makes the last call, or the backfill the last two and its update names the
row. -/
def BackfillConfirms (schedule : List (Bool × Unit)) (updateHits : Bool) : Prop :=
  (schedule.map Prod.fst).getLast? = some true ∨
    [false, false] <:+ schedule.map Prod.fst ∧ updateHits = true

/-- A row of a type for a pool is a matter of the stamps. -/
theorem earningFlags_eq_nil_iff {poolId : ℕ} {txHash : String}
    {type : EstimatedEarningsEventType} {t : EarningsTable} :
    earningFlags poolId txHash type t = [] ↔
      ∀ time, stamps t (poolId, txHash) ≠ some (time, type) := by
  cases hget : t.get? (poolId, txHash) with
  | none => simp [earningFlags, stamps, hget]
  | some row => by_cases htype : row.eventType = type <;> simp [earningFlags, stamps, hget, htype]

/-- The two deliveries of a liquidity event. -/
theorem race_estimatedEarning {wallet : String} {amount shAmount : ℤ} {poolId : ℕ}
    {txHash : String} {type : EstimatedEarningsEventType} {time : Bool → InsertTime}
    {db : HistoryDb} {schedule : List (Bool × Unit)} {c : Tasks.Config Bool HistoryDb RecordAt}
    (hnew : earningFlags poolId txHash type db.estimatedEarningTokens = [])
    (hrun : (raceTasks fun i =>
      (estimatedEarningCalls wallet amount shAmount poolId txHash type i (time i)).on
        HistoryDb.estimatedEarningTokens fun db t =>
          { db with estimatedEarningTokens := t }).run schedule (raceStart db) = some c)
    (hdone : ∀ i, c.locals i = .done) :
    earningFlags poolId txHash type c.shared.estimatedEarningTokens = [false] ↔
      (vacant db.estimatedEarningTokens (poolId, txHash) type &&
        (fitsDecimal40 amount && fitsDecimal40 shAmount)) = true ∧
        BackfillConfirms schedule true := by
  cases hstores : vacant db.estimatedEarningTokens (poolId, txHash) type &&
      (fitsDecimal40 amount && fitsDecimal40 shAmount) with
  | true =>
    obtain ⟨⟨hex, hfree⟩, hamount, hshares⟩ : (recordExists db.estimatedEarningTokens txHash type =
        false ∧ db.estimatedEarningTokens.get? (poolId, txHash) = none) ∧
          fitsDecimal40 amount = true ∧ fitsDecimal40 shAmount = true := by
      simpa [vacant] using hstores
    have hflag := race_flag_iff (fun db : HistoryDb =>
        earningFlags poolId txHash type db.estimatedEarningTokens) true (fun i => hex)
      (fun i => (held_estimatedEarning hfree hamount hshares i).on HistoryDb.estimatedEarningTokens
        (fun db t => { db with estimatedEarningTokens := t }) (fun _ => rfl) fun _ _ => rfl)
      hrun hdone
    simpa [BackfillConfirms] using hflag
  | false =>
    -- nothing is created, and an update changes no stamp
    have hkept := race_keeps (fun db' : HistoryDb =>
        stamps db'.estimatedEarningTokens = stamps db.estimatedEarningTokens)
      (recordExists db.estimatedEarningTokens txHash type)
      (fun i db' h => ?_) (fun i db' h => ?_) rfl hrun hdone
    · have hnone : earningFlags poolId txHash type c.shared.estimatedEarningTokens = [] := by
        rw [earningFlags_eq_nil_iff] at hnew ⊢
        rw [hkept]
        exact hnew
      simp [hnone]
    · show recordExists db'.estimatedEarningTokens txHash type = _
      rw [Bool.eq_iff_iff, recordExists_iff_stamps, recordExists_iff_stamps, h]
    · rw [RecordCalls.insert_on, estimatedEarningCalls_insert]
      show stamps (EstimatedEarnings.insert db'.estimatedEarningTokens _ _ _ _ _ _ _ _) = _
      rw [stamps_insert_one, vacant_congr h, hstores]
      exact h

/-- **When the backfill's confirmation survives.**  Side by side, a live delivery and one of the
backfill of a new event leave its one row marked as collected over http if and only if the row
can be created and the live creation does not fall between the two calls of the backfill — and,
if the backfill comes second, its update names the row. -/
theorem race_confirms_iff (e : LookFirstEvent) {txHash : String} {time : Bool → InsertTime}
    {db : HistoryDb} {schedule : List (Bool × Unit)} {c : Tasks.Config Bool HistoryDb RecordAt}
    (hnew : e.flags txHash db = [])
    (hrun : (raceTasks fun i => e.calls txHash i (time i)).run schedule (raceStart db) = some c)
    (hdone : ∀ i, c.locals i = .done) :
    e.flags txHash c.shared = [false] ↔
      e.creatable txHash db = true ∧ BackfillConfirms schedule (e.updateHits txHash) := by
  cases e with
  | fundingPayment e paid =>
    have hnone : db.fundingRatePayment.get? (toLowerCase e.trader, toLowerCase txHash) = none := by
      simpa [LookFirstEvent.flags, fundingFlags] using hnew
    have hflag := race_flag_iff (fun db : HistoryDb =>
        fundingFlags e.trader txHash db.fundingRatePayment) _
      (fun i => by simp [RecordCalls.on, fundingRatePaymentCalls, hnone])
      (fun i => (held_fundingRatePayment hnone i).on HistoryDb.fundingRatePayment
        (fun db t => { db with fundingRatePayment := t }) (fun _ => rfl) fun _ _ => rfl)
      hrun hdone
    simpa [LookFirstEvent.flags, LookFirstEvent.creatable, LookFirstEvent.updateHits,
      BackfillConfirms] using hflag
  | liquidityAdded e =>
    have hrace := race_estimatedEarning hnew hrun hdone
    rwa [fitsDecimal40_neg, fitsDecimal40_neg] at hrace
  | liquidityRemoved e => exact race_estimatedEarning hnew hrun hdone

/-- A funding payment. -/
def payment : LookFirstEvent :=
  .fundingPayment ⟨100000, "0x863AD9Ce46acF07fD9390147B619893461036194", 1844674407⟩ (by decide)

/-- Its transaction. -/
def paymentTx : String := "0x3f5be89f1ef1a1d55a2d1a5c8f4b4e5b7c1c2f0e6d9a8b7c6d5e4f3a2b1c0d9e"

/-- The time it is delivered with, live and by the backfill. -/
def paymentTime (live : Bool) : InsertTime := ⟨1700000000, cond live 1700000003 1700000900⟩

/-- Its two deliveries into an empty database, in the order of a schedule. -/
def paymentRace (schedule : List (Bool × Unit)) : Option (Tasks.Config Bool HistoryDb RecordAt) :=
  (raceTasks fun i => payment.calls paymentTx i (paymentTime i)).run schedule
    (raceStart HistoryDb.empty)

/-- Both look, the listener creates the row, and the creation of the backfill fails: the row
stays marked as collected by the listener only. -/
theorem liveBetween_unconfirmed :
    ∃ c, paymentRace [(true, ()), (false, ()), (true, ()), (false, ())] = some c ∧
      (∀ i, c.locals i = .done) ∧ payment.flags paymentTx c.shared = [true] :=
  ⟨_, rfl, by decide, by decide⟩

/-- The law at work where the backfill delivers after the listener. -/
theorem backfillAfter_confirmed :
    ∃ c, paymentRace [(true, ()), (true, ()), (false, ()), (false, ())] = some c ∧
      payment.flags paymentTx c.shared = [false] := by
  obtain ⟨c, hrun⟩ : ∃ c, paymentRace [(true, ()), (true, ()), (false, ()), (false, ())] = some c :=
    ⟨_, rfl⟩
  have hdone : (paymentRace [(true, ()), (true, ()), (false, ()), (false, ())]).all
      (fun c => decide (∀ i, c.locals i = .done)) = true := by decide
  rw [hrun] at hdone
  have horder : BackfillConfirms [(true, ()), (true, ()), (false, ()), (false, ())] true :=
    Or.inr ⟨⟨[true, true], rfl⟩, rfl⟩
  have hiff := race_confirms_iff payment rfl hrun
    (of_decide_eq_true hdone)
  exact ⟨c, hrun, hiff.2 ⟨rfl, horder⟩⟩

end TraderBackend
