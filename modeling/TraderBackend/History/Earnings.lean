import TraderBackend.Lib.JsString
import TraderBackend.Lib.OrdMap

/-!
# Estimated earnings

The table `estimated_earnings_tokens` and the class that fills it,
`EstimatedEarnings`.  The table is a map from its primary key, pool id and
transaction hash, so two rows with one key cannot be built.

* **Amounts.**  `dec18ToFloat` and `floatToDecN` on exact rationals.
* **Inserting.**  `recordExists`, `createRecord`, `updateRecord` are the three
  database calls, `insert` puts them together; `insertLiquidityAdded`,
  `insertLiquidityRemoved` and `insertShareTokenP2PTransfer` are its callers.
* **A transfer is one row.**  `p2pTransfer_row` gives the row a transfer ends
  with, and `p2pTransfer_never_conserved` says that no sequence of deliveries
  books both sides: the second insert finds the row of the first.
-/

namespace TraderBackend

open JsString

/-! ## Amounts -/

/-- `dec18ToFloat`, read exactly. -/
def dec18ToFloat (x : ℤ) : ℚ := x / 10 ^ 18

/-- `floatToDecN`.  `mathPow10 n` is `BigInt(Math.pow(10, n))`; `none` is an error: without
decimals there is no second part to read, and from 10^21 on `toFixed` gives an exponent. -/
def floatToDecN (mathPow10 : ℕ → ℤ) (x : ℚ) (numDec : ℕ) : Option ℤ :=
  if x = 0 then some 0
  else if numDec = 0 ∨ 100 < numDec ∨ 10 ^ 21 ≤ |x| then none
  else
    -- the digits of `|x|.toFixed(numDec)`; ties are rounded up
    let n := ⌊|x| * 10 ^ numDec + 1 / 2⌋
    let xInt := n / 10 ^ numDec
    let xDec := n % 10 ^ numDec
    some ((xInt * mathPow10 numDec + xDec) * (if x < 0 then -1 else 1))

/-! ## The table -/

/-- `estimated_earnings_event_type`. -/
inductive EstimatedEarningsEventType where
  | liquidityAdded
  | liquidityRemoved
  | shareTokenP2PTransfer
  deriving DecidableEq

/-- A row of `estimated_earnings_tokens` without its key. -/
structure EstimatedEarningTokens where
  liqProviderAddr : String
  shareAmount : Option ℤ
  tokenAmount : ℤ
  /-- `created_at` in seconds. -/
  createdAt : ℕ
  eventType : EstimatedEarningsEventType
  isCollectedByEvent : Bool
  deriving DecidableEq

/-- The table: pool id and transaction hash to row. -/
abbrev EarningsTable := OrdMap (ℕ × String) EstimatedEarningTokens

/-- The column type `Decimal(40, 0)` holds the number. -/
def fitsDecimal40 (x : ℤ) : Bool := decide (|x| < 10 ^ 40)

/-- `findFirst` by transaction hash and event type. -/
def recordExists (t : EarningsTable) (txHash : String) (type : EstimatedEarningsEventType) : Bool :=
  t.entries.any fun e => decide (e.1.2 = txHash ∧ e.2.eventType = type)

/-- `create`; it fails, and nothing happens, when the key is taken or an amount too long. -/
def createRecord (t : EarningsTable) (key : ℕ × String) (row : EstimatedEarningTokens) :
    EarningsTable :=
  if (t.get? key).isNone && fitsDecimal40 row.tokenAmount && row.shareAmount.all fitsDecimal40 then
    t.set key row
  else t

/-- `update` by primary key; it fails, and nothing happens, when there is no such row. -/
def updateRecord (t : EarningsTable) (key : ℕ × String) (shAmount : ℤ) : EarningsTable :=
  match t.get? key with
  | some row =>
      if fitsDecimal40 shAmount then
        t.set key { row with isCollectedByEvent := false, shareAmount := some shAmount }
      else t
  | none => t

/-- When a record is inserted: the block timestamp handed over and the clock of the
database, in seconds. -/
structure InsertTime where
  blockTimestamp : ℕ
  now : ℕ
  deriving DecidableEq

/-- `blockTimestamp ? new Date(blockTimestamp * 1000) : undefined`, the column's default
being the present. -/
def InsertTime.createdAt (time : InsertTime) : ℕ :=
  if time.blockTimestamp = 0 then time.now else time.blockTimestamp

/-- `EstimatedEarnings.insert`. -/
def EstimatedEarnings.insert (t : EarningsTable) (wallet : String) (amount shAmount : ℤ)
    (poolId : ℕ) (txHash : String) (type : EstimatedEarningsEventType) (isCollectedByEvent : Bool)
    (time : InsertTime) : EarningsTable :=
  if recordExists t txHash type then
    if isCollectedByEvent then t else updateRecord t (poolId, txHash) shAmount
  else
    createRecord t (poolId, txHash)
      { liqProviderAddr := toLowerCase wallet
        shareAmount := some shAmount
        tokenAmount := amount
        createdAt := time.createdAt
        eventType := type
        isCollectedByEvent := isCollectedByEvent }

/-- The arguments of `LiquidityAdded` and of `LiquidityRemoved`. -/
structure LiquidityEvent where
  poolId : ℕ
  user : String
  tokenAmount : ℤ
  shareAmount : ℤ
  deriving DecidableEq

/-- `insertLiquidityAdded`: both amounts with a minus sign. -/
def insertLiquidityAdded (t : EarningsTable) (e : LiquidityEvent) (txHash : String)
    (isCollectedByEvent : Bool) (time : InsertTime) : EarningsTable :=
  EstimatedEarnings.insert t e.user (e.tokenAmount * -1) (e.shareAmount * -1) e.poolId txHash
    .liquidityAdded isCollectedByEvent time

/-- `insertLiquidityRemoved`. -/
def insertLiquidityRemoved (t : EarningsTable) (e : LiquidityEvent) (txHash : String)
    (isCollectedByEvent : Bool) (time : InsertTime) : EarningsTable :=
  EstimatedEarnings.insert t e.user e.tokenAmount e.shareAmount e.poolId txHash .liquidityRemoved
    isCollectedByEvent time

/-- A `P2PTransfer` of a share token. -/
structure P2PTransferEvent where
  fromAddr : String
  toAddr : String
  amountD18 : ℤ
  priceD18 : ℤ
  deriving DecidableEq

/-- The value of the transfer in margin tokens. -/
def P2PTransferEvent.tokensAmnt (e : P2PTransferEvent) : ℚ :=
  dec18ToFloat e.amountD18 * dec18ToFloat e.priceD18

/-- The arithmetic of the two legs: the decimals of each pool's margin token
(`getMarginTokenDecimals` throws where they are not known) and the powers of ten. -/
structure TransferEnv where
  getMarginTokenDecimals : ℕ → Option ℕ
  mathPow10 : ℕ → ℤ

/-- `insertShareTokenP2PTransfer`, its second insert run to completion as well. -/
def insertShareTokenP2PTransfer (env : TransferEnv) (t : EarningsTable) (e : P2PTransferEvent)
    (poolId : ℕ) (txHash : String) (isCollectedByEvent : Bool) (time : InsertTime) :
    EarningsTable :=
  match env.getMarginTokenDecimals poolId with
  | none => t
  | some decN =>
      match floatToDecN env.mathPow10 e.tokensAmnt decN with
      | none => t
      | some tokens =>
          let t := EstimatedEarnings.insert t e.fromAddr tokens e.amountD18 poolId txHash
            .shareTokenP2PTransfer isCollectedByEvent time
          EstimatedEarnings.insert t e.toAddr (⌊e.tokensAmnt⌋ * -1) (e.amountD18 * -1) poolId txHash
            .shareTokenP2PTransfer isCollectedByEvent time

/-- One delivery of the event, live or by the backfill. -/
structure TransferDelivery where
  isCollectedByEvent : Bool
  time : InsertTime
  deriving DecidableEq

/-- A sequence of deliveries of one transfer. -/
def deliverTransfer (env : TransferEnv) (e : P2PTransferEvent) (poolId : ℕ) (txHash : String)
    (t : EarningsTable) (deliveries : List TransferDelivery) : EarningsTable :=
  deliveries.foldl (fun t d =>
    insertShareTokenP2PTransfer env t e poolId txHash d.isCollectedByEvent d.time) t

/-! ## Which rows an insert touches -/

/-- The table holds no row of the transaction. -/
def NoRows (t : EarningsTable) (txHash : String) : Prop :=
  ∀ key row, t.get? key = some row → key.2 ≠ txHash

/-- The only key under which the transaction has rows. -/
def OnlyKey (t : EarningsTable) (poolId : ℕ) (txHash : String) : Prop :=
  ∀ key row, t.get? key = some row → key.2 = txHash → key = (poolId, txHash)

theorem recordExists_iff {t : EarningsTable} {txHash : String}
    {type : EstimatedEarningsEventType} :
    recordExists t txHash type = true ↔
      ∃ key row, t.get? key = some row ∧ key.2 = txHash ∧ row.eventType = type := by
  rw [recordExists, List.any_eq_true]
  constructor
  · rintro ⟨⟨key, row⟩, hmem, h⟩
    exact ⟨key, row, OrdMap.get?_eq_some.2 hmem, of_decide_eq_true h⟩
  · rintro ⟨key, row, hget, h⟩
    exact ⟨(key, row), OrdMap.get?_eq_some.1 hget, decide_eq_true h⟩

/-- An insert only writes the row of its own key. -/
theorem get?_insert_ne {t : EarningsTable} {wallet txHash : String} {amount shAmount : ℤ}
    {poolId : ℕ} {type : EstimatedEarningsEventType} {isCollectedByEvent : Bool}
    {time : InsertTime} {key : ℕ × String} (h : key ≠ (poolId, txHash)) :
    (EstimatedEarnings.insert t wallet amount shAmount poolId txHash type isCollectedByEvent
        time).get? key = t.get? key := by
  have hset : ∀ row, (t.set (poolId, txHash) row).get? key = t.get? key := fun row =>
    OrdMap.get?_set_ne t row (Ne.symm h)
  unfold EstimatedEarnings.insert createRecord updateRecord
  split
  · split
    · rfl
    · split
      · split
        · exact hset _
        · rfl
      · rfl
  · split
    · exact hset _
    · rfl

theorem OnlyKey.insert {t : EarningsTable} {poolId : ℕ} {txHash : String}
    (h : OnlyKey t poolId txHash) (wallet : String) (amount shAmount : ℤ)
    (type : EstimatedEarningsEventType) (isCollectedByEvent : Bool) (time : InsertTime) :
    OnlyKey (EstimatedEarnings.insert t wallet amount shAmount poolId txHash type
      isCollectedByEvent time) poolId txHash := by
  intro key row hget htx
  by_contra hne
  rw [get?_insert_ne hne] at hget
  exact hne (h key row hget htx)

/-- A delivery, in any state, leaves the transaction with rows of one key only. -/
theorem OnlyKey.deliver {t : EarningsTable} {poolId : ℕ} {txHash : String}
    (h : OnlyKey t poolId txHash) (env : TransferEnv) (e : P2PTransferEvent)
    (isCollectedByEvent : Bool) (time : InsertTime) :
    OnlyKey (insertShareTokenP2PTransfer env t e poolId txHash isCollectedByEvent time)
      poolId txHash := by
  unfold insertShareTokenP2PTransfer
  split
  · exact h
  · split
    · exact h
    · exact (h.insert _ _ _ _ _ _).insert _ _ _ _ _ _

theorem OnlyKey.deliverTransfer {t : EarningsTable} {poolId : ℕ} {txHash : String}
    (h : OnlyKey t poolId txHash) (env : TransferEnv) (e : P2PTransferEvent)
    (deliveries : List TransferDelivery) :
    OnlyKey (deliverTransfer env e poolId txHash t deliveries) poolId txHash := by
  induction deliveries generalizing t with
  | nil => exact h
  | cons d deliveries ih => exact ih (h.deliver env e d.isCollectedByEvent d.time)

/-! ## The row a transfer ends with -/

/-- The sender's row, with the share amount and the origin it has by now. -/
def senderRow (e : P2PTransferEvent) (tokens shAmount : ℤ) (isCollectedByEvent : Bool)
    (time : InsertTime) : EstimatedEarningTokens where
  liqProviderAddr := toLowerCase e.fromAddr
  shareAmount := some shAmount
  tokenAmount := tokens
  createdAt := time.createdAt
  eventType := .shareTokenP2PTransfer
  isCollectedByEvent := isCollectedByEvent

/-- An insert that finds the row of its key: a live one changes nothing, one of the
backfill writes its own share amount. -/
theorem insert_of_get? {t : EarningsTable} {poolId : ℕ} {txHash : String}
    {row : EstimatedEarningTokens} (hget : t.get? (poolId, txHash) = some row)
    (wallet : String) (amount shAmount : ℤ) (isCollectedByEvent : Bool) (time : InsertTime)
    (hfits : fitsDecimal40 shAmount = true) :
    (EstimatedEarnings.insert t wallet amount shAmount poolId txHash row.eventType
        isCollectedByEvent time).get? (poolId, txHash) =
      some (if isCollectedByEvent then row
        else { row with isCollectedByEvent := false, shareAmount := some shAmount }) := by
  have hex : recordExists t txHash row.eventType = true :=
    recordExists_iff.2 ⟨_, row, hget, rfl, rfl⟩
  rw [EstimatedEarnings.insert, if_pos hex]
  cases isCollectedByEvent with
  | true => simpa using hget
  | false => simp [updateRecord, hget, hfits]

/-- The first insert of a transaction creates its row. -/
theorem insert_of_noRows {t : EarningsTable} {txHash : String}
    (h : NoRows t txHash) (poolId : ℕ) (wallet : String) (amount shAmount : ℤ)
    (type : EstimatedEarningsEventType) (isCollectedByEvent : Bool) (time : InsertTime)
    (hamount : fitsDecimal40 amount = true) (hshares : fitsDecimal40 shAmount = true) :
    (EstimatedEarnings.insert t wallet amount shAmount poolId txHash type isCollectedByEvent
        time).get? (poolId, txHash) =
      some ⟨toLowerCase wallet, some shAmount, amount, time.createdAt, type,
        isCollectedByEvent⟩ := by
  have hex : recordExists t txHash type = false := by
    rw [Bool.eq_false_iff, Ne, recordExists_iff]
    rintro ⟨key, row, hget, htx, -⟩
    exact h key row hget htx
  have hnone : t.get? (poolId, txHash) = none := by
    cases hget : t.get? (poolId, txHash) with
    | none => rfl
    | some row => exact absurd rfl (h _ row hget)
  simp [EstimatedEarnings.insert, hex, createRecord, hnone, hamount, hshares]

theorem fitsDecimal40_neg (x : ℤ) : fitsDecimal40 (x * -1) = fitsDecimal40 x := by
  simp [fitsDecimal40]

/-- The share amount after a delivery: the receiver's leg overwrites it when the backfill
delivers, and nothing changes it when the listener does. -/
def sharesAfter (e : P2PTransferEvent) (isCollectedByEvent : Bool) (shares : ℤ) : ℤ :=
  if isCollectedByEvent then shares else e.amountD18 * -1

/-- A delivery that finds the sender's row. -/
theorem redeliver_row {env : TransferEnv} {t : EarningsTable} {e : P2PTransferEvent} {poolId : ℕ}
    {txHash : String} {decN : ℕ} {tokens tokens' shares : ℤ} {flag : Bool} {time₀ : InsertTime}
    (hdec : env.getMarginTokenDecimals poolId = some decN)
    (htokens : floatToDecN env.mathPow10 e.tokensAmnt decN = some tokens')
    (hshares : fitsDecimal40 e.amountD18 = true)
    (hget : t.get? (poolId, txHash) = some (senderRow e tokens shares flag time₀))
    (isCollectedByEvent : Bool) (time : InsertTime) :
    (insertShareTokenP2PTransfer env t e poolId txHash isCollectedByEvent time).get?
        (poolId, txHash) =
      some (senderRow e tokens (sharesAfter e isCollectedByEvent shares)
        (flag && isCollectedByEvent) time₀) := by
  have hneg : fitsDecimal40 (e.amountD18 * -1) = true := by rw [fitsDecimal40_neg]; exact hshares
  simp only [insertShareTokenP2PTransfer, hdec, htokens]
  have hfirst := insert_of_get? hget e.fromAddr tokens' e.amountD18 isCollectedByEvent time hshares
  cases isCollectedByEvent with
  | true =>
    have hsecond := insert_of_get? hfirst e.toAddr (⌊e.tokensAmnt⌋ * -1) (e.amountD18 * -1) true
      time hneg
    simpa [sharesAfter, senderRow] using hsecond
  | false =>
    have hsecond := insert_of_get? hfirst e.toAddr (⌊e.tokensAmnt⌋ * -1) (e.amountD18 * -1) false
      time hneg
    simpa [sharesAfter, senderRow] using hsecond

/-- **One row for a transfer.**  Delivered to a table without rows of its transaction, a
transfer whose amounts the columns hold ends as one row of the sender.  Its share amount is
that of the receiver as soon as the backfill has delivered it. -/
theorem p2pTransfer_row {env : TransferEnv} {t : EarningsTable} {e : P2PTransferEvent}
    {txHash : String} {decN : ℕ} {tokens : ℤ} (hno : NoRows t txHash) (poolId : ℕ)
    (hdec : env.getMarginTokenDecimals poolId = some decN)
    (htokens : floatToDecN env.mathPow10 e.tokensAmnt decN = some tokens)
    (hamount : fitsDecimal40 tokens = true) (hshares : fitsDecimal40 e.amountD18 = true)
    (d : TransferDelivery) (deliveries : List TransferDelivery) :
    (deliverTransfer env e poolId txHash t (d :: deliveries)).get? (poolId, txHash) =
      some (senderRow e tokens
        (if (d :: deliveries).all fun d => d.isCollectedByEvent then e.amountD18
          else e.amountD18 * -1)
        ((d :: deliveries).all fun d => d.isCollectedByEvent) d.time) := by
  have hneg : fitsDecimal40 (e.amountD18 * -1) = true := by rw [fitsDecimal40_neg]; exact hshares
  have hone : (insertShareTokenP2PTransfer env t e poolId txHash d.isCollectedByEvent d.time).get?
      (poolId, txHash) = some (senderRow e tokens
        (if d.isCollectedByEvent then e.amountD18 else e.amountD18 * -1)
        d.isCollectedByEvent d.time) := by
    simp only [insertShareTokenP2PTransfer, hdec, htokens]
    have hfirst := insert_of_noRows hno poolId e.fromAddr tokens e.amountD18
      .shareTokenP2PTransfer d.isCollectedByEvent d.time hamount hshares
    have hsecond := insert_of_get? hfirst e.toAddr (⌊e.tokensAmnt⌋ * -1) (e.amountD18 * -1)
      d.isCollectedByEvent d.time hneg
    cases hd : d.isCollectedByEvent <;> simpa [senderRow, hd] using hsecond
  have hmore : ∀ (ds : List TransferDelivery) (t : EarningsTable) (flag : Bool),
      t.get? (poolId, txHash) = some (senderRow e tokens
        (if flag then e.amountD18 else e.amountD18 * -1) flag d.time) →
      (deliverTransfer env e poolId txHash t ds).get? (poolId, txHash) =
        some (senderRow e tokens
          (if flag && ds.all fun d => d.isCollectedByEvent then e.amountD18
            else e.amountD18 * -1)
          (flag && ds.all fun d => d.isCollectedByEvent) d.time) := by
    intro ds
    induction ds with
    | nil => intro t flag hget; simpa [deliverTransfer] using hget
    | cons d' ds ih =>
      intro t flag hget
      have hnext := redeliver_row hdec htokens hshares hget d'.isCollectedByEvent d'.time
      have hshape : sharesAfter e d'.isCollectedByEvent
          (if flag then e.amountD18 else e.amountD18 * -1) =
          if flag && d'.isCollectedByEvent then e.amountD18 else e.amountD18 * -1 := by
        cases flag <;> cases hd : d'.isCollectedByEvent <;> simp [sharesAfter]
      rw [hshape] at hnext
      have hrest := ih _ _ hnext
      simpa [deliverTransfer, Bool.and_assoc] using hrest
  exact hmore deliveries _ d.isCollectedByEvent hone

/-! ## Both sides -/

/-- The transfer is booked on both sides: the sender's entry carries the shares, the
receiver's carries them with a minus sign, and the two token amounts cancel. -/
def Conserved (t : EarningsTable) (e : P2PTransferEvent) (txHash : String) : Prop :=
  ∃ keyFrom keyTo rowFrom rowTo, t.get? keyFrom = some rowFrom ∧ t.get? keyTo = some rowTo ∧
    keyFrom.2 = txHash ∧ keyTo.2 = txHash ∧
    rowFrom.liqProviderAddr = toLowerCase e.fromAddr ∧
    rowTo.liqProviderAddr = toLowerCase e.toAddr ∧
    rowFrom.shareAmount = some e.amountD18 ∧ rowTo.shareAmount = some (-e.amountD18) ∧
    rowFrom.tokenAmount + rowTo.tokenAmount = 0

/-- **No transfer is ever booked on both sides.**  Whatever the amounts, the decimals and
the deliveries, the table does not end with an entry of the sender and one of the receiver. -/
theorem p2pTransfer_never_conserved (env : TransferEnv) (t : EarningsTable)
    (e : P2PTransferEvent) (poolId : ℕ) (txHash : String)
    (hwallets : toLowerCase e.fromAddr ≠ toLowerCase e.toAddr) (hno : NoRows t txHash)
    (deliveries : List TransferDelivery) :
    ¬ Conserved (deliverTransfer env e poolId txHash t deliveries) e txHash := by
  have hstart : OnlyKey t poolId txHash := fun key row hget htx => absurd htx (hno key row hget)
  have hend := hstart.deliverTransfer env e deliveries
  rintro ⟨keyFrom, keyTo, rowFrom, rowTo, hfrom, hto, hfromTx, htoTx, hfromAddr, htoAddr, -⟩
  -- both entries would have to sit under the one key the transaction has
  rw [hend keyFrom rowFrom hfrom hfromTx] at hfrom
  rw [hend keyTo rowTo hto htoTx] at hto
  have hrow : rowFrom = rowTo := Option.some.inj (hfrom.symm.trans hto)
  exact hwallets (by rw [← hfromAddr, ← htoAddr, hrow])

/-- A transfer of two shares at price 1, margin token with 6 decimals. -/
def twoShares : P2PTransferEvent where
  fromAddr := "0xa1"
  toAddr := "0xb2"
  amountD18 := 2 * 10 ^ 18
  priceD18 := 10 ^ 18

/-- Six decimals in every pool. -/
def sixDecimals : TransferEnv where
  getMarginTokenDecimals _ := some 6
  mathPow10 n := 10 ^ n

/-- One live delivery of that transfer leaves no entry of the receiver. -/
theorem twoShares_receiver_missing :
    ¬ Conserved (deliverTransfer sixDecimals twoShares 1 "0xt" OrdMap.empty [⟨true, ⟨5, 9⟩⟩])
      twoShares "0xt" := by
  have hno : NoRows OrdMap.empty "0xt" := by intro key row hget; simp at hget
  have hstart : OnlyKey OrdMap.empty 1 "0xt" :=
    fun key row hget htx => absurd htx (hno key row hget)
  have hend := hstart.deliverTransfer sixDecimals twoShares [⟨true, ⟨5, 9⟩⟩]
  have htokens : floatToDecN sixDecimals.mathPow10 twoShares.tokensAmnt 6 = some 2000000 := by
    norm_num [floatToDecN, sixDecimals, twoShares, P2PTransferEvent.tokensAmnt, dec18ToFloat]
  have hrow := p2pTransfer_row hno 1 rfl htokens (by decide) (by decide)
    ⟨true, ⟨5, 9⟩⟩ []
  rintro ⟨keyFrom, keyTo, rowFrom, rowTo, -, hto, -, htoTx, -, htoAddr, -⟩
  rw [hend keyTo rowTo hto htoTx] at hto
  rw [← Option.some.inj (hrow.symm.trans hto)] at htoAddr
  exact absurd htoAddr (by decide)

/-- The law at work on that delivery followed by one of the backfill. -/
theorem twoShares_not_conserved :
    ¬ Conserved (deliverTransfer sixDecimals twoShares 1 "0xt" OrdMap.empty
        [⟨true, ⟨5, 9⟩⟩, ⟨false, ⟨5, 12⟩⟩])
      twoShares "0xt" :=
  p2pTransfer_never_conserved sixDecimals OrdMap.empty twoShares 1 "0xt" (by decide)
    (by intro key row hget; simp at hget) _

end TraderBackend
