import TraderBackend.History.CollectedFlag

/-!
# The flag of a withdrawal

`LiquidityWithdrawals.insert` looks for the row first.  Where the other tables
confirm a row they find when the backfill delivers it, this one does so when the
live listener does.

* `deliverWithdrawal` — the deliveries of one event, one after the other.
* `get?_insertWithdrawal_of_none`, `get?_insertWithdrawal_of_some` — the first
  delivery and a later one.
* `withdrawalFlag_iff` — the flag tells whether the backfill delivered the event
  **if and only if** the first delivery is the backfill's or the later ones do
  not all come from one side.
-/

namespace TraderBackend

variable (e : WithdrawalEvent) (isLiquidityRemovedEvent : Bool) (txHash : String)

/-- A sequence of deliveries of one event. -/
def deliverWithdrawal (t : WithdrawalTable) (deliveries : List EventDelivery) : WithdrawalTable :=
  deliveries.foldl (fun t d => insertLiquidityWithdrawal t e isLiquidityRemovedEvent txHash
    d.isCollectedByEvent d.blockTimestamp) t

/-- The row of the event, with the time and the flag it has by now. -/
def withdrawalRow (blockTimestamp : ℕ) (isCollectedByEvent : Bool) : LiquidityWithdrawal where
  poolId := e.poolId
  amount := e.shareAmount
  isRemoval := isLiquidityRemovedEvent
  timestamp := blockTimestamp
  isCollectedByEvent := isCollectedByEvent

/-- The flag after a delivery that finds the row: a live one clears it. -/
def flagAfter (flag isCollectedByEvent : Bool) : Bool := flag && !isCollectedByEvent

/-- The flag tells who delivered: the backfill came first, or after a live delivery both came or
none. -/
def FlagTells : List EventDelivery → Prop
  | [] => False
  | d :: later =>
      d.isCollectedByEvent = false ∨
        ((∃ d' ∈ later, d'.isCollectedByEvent = true) ↔ ∃ d' ∈ later, d'.isCollectedByEvent = false)

variable {e isLiquidityRemovedEvent txHash}

variable (isLiquidityRemovedEvent) in
/-- The first delivery creates the row, if its amount fits. -/
theorem get?_insertWithdrawal_of_none {t : WithdrawalTable}
    (hnew : t.get? (e.key txHash) = none) (d : EventDelivery) :
    (insertLiquidityWithdrawal t e isLiquidityRemovedEvent txHash d.isCollectedByEvent
        d.blockTimestamp).get? (e.key txHash) =
      if fitsDecimal40 e.shareAmount then
        some (withdrawalRow e isLiquidityRemovedEvent d.blockTimestamp d.isCollectedByEvent)
      else none := by
  simp only [insertLiquidityWithdrawal, liquidityWithdrawalCalls, RecordCalls.insert, hnew,
    Option.any_none, Bool.false_eq_true, if_false]
  split
  · rw [OrdMap.get?_create, if_pos rfl, hnew]
    rfl
  · exact hnew

/-- A delivery that finds the row. -/
theorem get?_insertWithdrawal_of_some {t : WithdrawalTable} {blockTimestamp : ℕ} {flag : Bool}
    (hrow : t.get? (e.key txHash) =
      some (withdrawalRow e isLiquidityRemovedEvent blockTimestamp flag)) (d : EventDelivery) :
    (insertLiquidityWithdrawal t e isLiquidityRemovedEvent txHash d.isCollectedByEvent
        d.blockTimestamp).get? (e.key txHash) =
      some (withdrawalRow e isLiquidityRemovedEvent blockTimestamp
        (flagAfter flag d.isCollectedByEvent)) := by
  have hfind : (t.get? (e.key txHash)).any
      (fun row => row.isRemoval == isLiquidityRemovedEvent) = true := by
    rw [hrow]
    simp [withdrawalRow]
  simp only [insertLiquidityWithdrawal, liquidityWithdrawalCalls, RecordCalls.insert, hfind,
    if_true]
  cases d.isCollectedByEvent with
  | true =>
    simp only [if_true, OrdMap.update, hrow, Option.elim_some, OrdMap.get?_set_self]
    simp [withdrawalRow, flagAfter]
  | false =>
    simp only [Bool.false_eq_true, if_false, hrow]
    simp [flagAfter]

/-- Once the row is there, every further delivery changes at most its flag. -/
theorem get?_deliverWithdrawal_of_some {t : WithdrawalTable} {blockTimestamp : ℕ} {flag : Bool}
    (hrow : t.get? (e.key txHash) =
      some (withdrawalRow e isLiquidityRemovedEvent blockTimestamp flag))
    (deliveries : List EventDelivery) :
    (deliverWithdrawal e isLiquidityRemovedEvent txHash t deliveries).get? (e.key txHash) =
      some (withdrawalRow e isLiquidityRemovedEvent blockTimestamp
        (flag && deliveries.all fun d => !d.isCollectedByEvent)) := by
  induction deliveries generalizing t flag with
  | nil => simpa [deliverWithdrawal] using hrow
  | cons d deliveries ih =>
    have hnext := ih (get?_insertWithdrawal_of_some hrow d)
    rw [deliverWithdrawal, List.foldl_cons]
    rw [deliverWithdrawal] at hnext
    rw [hnext, flagAfter, List.all_cons, Bool.and_assoc]

/-- An amount that is too long leaves no row. -/
theorem get?_deliverWithdrawal_of_long {t : WithdrawalTable} (hnew : t.get? (e.key txHash) = none)
    (hlong : fitsDecimal40 e.shareAmount = false) (deliveries : List EventDelivery) :
    (deliverWithdrawal e isLiquidityRemovedEvent txHash t deliveries).get? (e.key txHash) =
      none := by
  induction deliveries generalizing t with
  | nil => exact hnew
  | cons d deliveries ih =>
    rw [deliverWithdrawal, List.foldl_cons]
    apply ih
    rw [get?_insertWithdrawal_of_none _ hnew, hlong]
    rfl

/-- The flag of the row is cleared by a first delivery of the backfill or a later live one. -/
theorem flag_eq_false_iff (d : EventDelivery) (later : List EventDelivery) :
    (d.isCollectedByEvent && later.all fun d' => !d'.isCollectedByEvent) = false ↔
      d.isCollectedByEvent = false ∨ ∃ d' ∈ later, d'.isCollectedByEvent = true := by
  rw [Bool.and_eq_false_iff]
  simp

/-- **When the flag of a withdrawal is right.**  After any deliveries of a new event there is its
one row, marked as collected over http exactly if the backfill delivered it, if and only if the
amount fits its column and the first delivery is the backfill's, or after a live one both sides
deliver again or neither does. -/
theorem withdrawalFlag_iff {t : WithdrawalTable} (hnew : t.get? (e.key txHash) = none)
    (deliveries : List EventDelivery) :
    (∃ row, (deliverWithdrawal e isLiquidityRemovedEvent txHash t deliveries).get?
          (e.key txHash) = some row ∧ row.isRemoval = isLiquidityRemovedEvent ∧
        (row.isCollectedByEvent = false ↔ ∃ d ∈ deliveries, d.isCollectedByEvent = false)) ↔
      fitsDecimal40 e.shareAmount = true ∧ FlagTells deliveries := by
  cases hfits : fitsDecimal40 e.shareAmount with
  | false =>
    rw [get?_deliverWithdrawal_of_long hnew hfits]
    simp
  | true =>
    cases deliveries with
    | nil => simp [deliverWithdrawal, hnew, FlagTells]
    | cons d later =>
      have hfirst := get?_insertWithdrawal_of_none isLiquidityRemovedEvent hnew d
      rw [hfits, if_pos rfl] at hfirst
      have hend := get?_deliverWithdrawal_of_some hfirst later
      rw [deliverWithdrawal] at hend
      rw [deliverWithdrawal, List.foldl_cons, hend]
      have hflag := flag_eq_false_iff d later
      have hbackfill : (∃ d' ∈ d :: later, d'.isCollectedByEvent = false) ↔
          d.isCollectedByEvent = false ∨ ∃ d' ∈ later, d'.isCollectedByEvent = false := by
        simp
      constructor
      · rintro ⟨row, hrow, -, hiff⟩
        refine ⟨rfl, ?_⟩
        obtain rfl := Option.some.inj hrow
        have hboth := (hflag.symm.trans hiff).trans hbackfill
        by_cases hd : d.isCollectedByEvent = false
        · exact Or.inl hd
        · right
          simpa [hd] using hboth
      · rintro ⟨-, htells⟩
        refine ⟨_, rfl, rfl, hflag.trans (Iff.trans ?_ hbackfill.symm)⟩
        rcases htells with hd | hlater
        · simp [hd]
        · rw [hlater]

/-- A withdrawal of five shares. -/
def fiveShares : WithdrawalEvent := ⟨1, "0xA1", 5⟩

/-- The listener delivers twice: the row counts as collected over http, and so does its time.  The
backfill delivers after the listener: the row stays unconfirmed. -/
theorem liveTwice_counted :
    ((deliverWithdrawal fiveShares false "0xaa" OrdMap.empty
        [⟨true, 1700000000⟩, ⟨true, 1700000000⟩]).get? (fiveShares.key "0xaa")).map
          LiquidityWithdrawal.isCollectedByEvent = some false ∧
      getLatestTimestampInitiation (deliverWithdrawal fiveShares false "0xaa" OrdMap.empty
        [⟨true, 1700000000⟩, ⟨true, 1700000000⟩]) = some 1700000000000 ∧
      ((deliverWithdrawal fiveShares false "0xaa" OrdMap.empty
        [⟨true, 1700000000⟩, ⟨false, 1700000000⟩]).get? (fiveShares.key "0xaa")).map
          LiquidityWithdrawal.isCollectedByEvent = some true := by
  decide

/-- The backfill delivers first, the listener later. -/
theorem backfillFirst_told :
    ∃ row, (deliverWithdrawal fiveShares false "0xaa" OrdMap.empty
          [⟨false, 1700000000⟩, ⟨true, 1700000000⟩]).get? (fiveShares.key "0xaa") = some row ∧
        row.isRemoval = false ∧
        (row.isCollectedByEvent = false ↔
          ∃ d ∈ [(⟨false, 1700000000⟩ : EventDelivery), ⟨true, 1700000000⟩],
            d.isCollectedByEvent = false) :=
  (withdrawalFlag_iff rfl _).2 ⟨by decide, Or.inl rfl⟩

end TraderBackend
