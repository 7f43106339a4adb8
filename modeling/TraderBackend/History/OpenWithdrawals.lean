import TraderBackend.Lib.Journal
import TraderBackend.Utils.Validation
import TraderBackend.History.Apy
import TraderBackend.History.WithdrawalFlag

/-!
# Open withdrawals

`/open-withdrawals` of the history server (`withdrawals` in `api/server.ts`) looks at one row: the
newest of the wallet in the pool.  An initiation is an open withdrawal, a removal is none.

* **The code.**  `withdrawals`, with the row the query answers as an input.  `IsLastRow` says
  which rows it may answer on a table.
* **The rows.**  `view_deliverWithdrawals`: whatever is delivered, and however often, the table
  has the log entries that come first for their wallet in their transaction.
* **The answer.**  `withdrawals_eq_newest`: it is about the newest of these.  Where no wallet has
  two entries in one transaction it is about the newest entry there is
  (`open_iff_initiated_last`), in whatever order they were delivered.
-/

namespace TraderBackend

open JsString

/-! ## The code -/

/-- The query parameters; `none` is one that is missing. -/
structure WithdrawalsRequest where
  lpAddr : Option String
  poolSymbol : Option String
  deriving DecidableEq

/-- An answer that is no list: its status and message, or an error of `getPoolIdFromSymbol`. -/
inductive WithdrawalsError where
  | rejected (status : ℕ) (msg : String)
  | noPool
  deriving DecidableEq

/-- An open withdrawal. -/
structure OpenWithdrawal where
  shareAmount : ℚ
  timeElapsedSec : ℤ
  deriving DecidableEq

/-- `withdrawals` up to the query: the pool and the wallet. -/
def withdrawalsQuery (getPoolId : String → Option ℕ) (req : WithdrawalsRequest) :
    Except WithdrawalsError (ℕ × String) :=
  match req.lpAddr, req.poolSymbol with
  | some lpAddr, some poolSymbol =>
    let userWallet := toLowerCase lpAddr
    if isValidAddress userWallet then
      match getPoolId poolSymbol with
      | some poolId => .ok (poolId, userWallet)
      | none => .error .noPool
    else .error (.rejected 400 "invalid address")
  | _, _ => .error (.rejected 400 "please provide correct query parameters")

/-- `withdrawals` after the query; the time is in milliseconds. -/
def withdrawalsData (nowMs : ℤ) : Option LiquidityWithdrawal → List OpenWithdrawal
  | some w =>
    if w.isRemoval then []
    else [⟨dec18ToFloat w.amount, ⌊(nowMs : ℚ) / 1000 - w.timestamp⌋⟩]
  | none => []

/-- `withdrawals`.  `answer` is what the query answers for a pool and a wallet. -/
def withdrawals (getPoolId : String → Option ℕ) (answer : ℕ → String → Option LiquidityWithdrawal)
    (nowMs : ℤ) (req : WithdrawalsRequest) : Except WithdrawalsError (List OpenWithdrawal) := do
  let (poolId, userWallet) ← withdrawalsQuery getPoolId req
  return withdrawalsData nowMs (answer poolId userWallet)

/-- What `findMany` may answer: a row of the wallet in the pool that none is newer than, or none
when it has no row. -/
def IsLastRow (t : WithdrawalTable) (poolId : ℕ) (wallet : String) :
    Option LiquidityWithdrawal → Prop
  | some w =>
    (∃ txHash, t.get? (wallet, txHash) = some w) ∧ w.poolId = poolId ∧
      ∀ txHash w', t.get? (wallet, txHash) = some w' → w'.poolId = poolId →
        w'.timestamp ≤ w.timestamp
  | none => ∀ txHash w', t.get? (wallet, txHash) = some w' → w'.poolId ≠ poolId

/-! ## The rows -/

/-- A `LiquidityWithdrawalInitiated` or a `LiquidityRemoved` log entry. -/
structure WithdrawalLog where
  event : WithdrawalEvent
  isRemoval : Bool
  txHash : String
  /-- The time of its block, which both sides deliver it with. -/
  blockTimestamp : ℕ
  deriving DecidableEq

def WithdrawalLog.key (e : WithdrawalLog) : String × String := e.event.key e.txHash

/-- The amount fits its column. -/
def WithdrawalLog.fits (e : WithdrawalLog) : Bool := fitsDecimal40 e.event.shareAmount

/-- The entry is one of the wallet in the pool. -/
def WithdrawalLog.Concerns (e : WithdrawalLog) (poolId : ℕ) (wallet : String) : Prop :=
  e.event.poolId = poolId ∧ toLowerCase e.event.user = wallet

instance (e : WithdrawalLog) (poolId : ℕ) (wallet : String) :
    Decidable (e.Concerns poolId wallet) :=
  inferInstanceAs (Decidable (_ ∧ _))

section

variable {ι : Type*} (logs : ι → WithdrawalLog)

/-- The insert of an entry. -/
def WithdrawalLog.insert (t : WithdrawalTable) (e : WithdrawalLog) (isCollectedByEvent : Bool) :
    WithdrawalTable :=
  insertLiquidityWithdrawal t e.event e.isRemoval e.txHash isCollectedByEvent e.blockTimestamp

/-- Deliveries of entries: which, and whether it is the listener that delivers. -/
def deliverWithdrawals (t : WithdrawalTable) (deliveries : List (ι × Bool)) : WithdrawalTable :=
  deliveries.foldl (fun t d => (logs d.1).insert t d.2) t

/-- The columns no update rewrites: pool, amount, kind and time. -/
def withdrawalColumns (_ : String × String) (row : LiquidityWithdrawal) : ℕ × ℤ × Bool × ℕ :=
  (row.poolId, row.amount, row.isRemoval, row.timestamp)

/-- What they are in the row of an entry. -/
def WithdrawalLog.columns (e : WithdrawalLog) : ℕ × ℤ × Bool × ℕ :=
  (e.event.poolId, e.event.shareAmount, e.isRemoval, e.blockTimestamp)

/-- The entry has a row: it is the first one of its wallet in its transaction. -/
def WithdrawalRecorded (deliveries : List (ι × Bool)) (i : ι) : Prop :=
  ((deliveries.map Prod.fst).filter fun j => (logs j).fits).find?
    (fun j => decide ((logs j).key = (logs i).key)) = some i

/-- The key is taken: whatever the row, its columns stay. -/
theorem view_insertWithdrawal_of_some {t : WithdrawalTable} {e : WithdrawalLog}
    {row : LiquidityWithdrawal} (hget : t.get? e.key = some row) (isCollectedByEvent : Bool) :
    (e.insert t isCollectedByEvent).view (OrdMap.keyed withdrawalColumns) =
      t.view (OrdMap.keyed withdrawalColumns) := by
  have hcreate : ∀ new : LiquidityWithdrawal, t.create e.key new = t := fun new => by
    rw [OrdMap.create, hget]
    rfl
  unfold WithdrawalLog.insert insertLiquidityWithdrawal RecordCalls.insert
  split
  · -- the row is one of the same kind
    show OrdMap.view _ (if isCollectedByEvent then t.update _ _ else t) = _
    split
    · apply OrdMap.view_update
      intro old
      rfl
    · rfl
  · show OrdMap.view _ (if fitsDecimal40 e.event.shareAmount then t.create e.key _ else t) = _
    split
    · rw [hcreate]
    · rfl

/-- The key is free: the entry gets a row if its amount fits. -/
theorem view_insertWithdrawal_of_none {t : WithdrawalTable} {e : WithdrawalLog}
    (hfits : e.fits = true) (hget : t.get? e.key = none) (isCollectedByEvent : Bool) :
    (e.insert t isCollectedByEvent).view (OrdMap.keyed withdrawalColumns) =
      t.view (OrdMap.keyed withdrawalColumns) ++ [(e.key, e.columns)] := by
  have hfind : ¬ (liquidityWithdrawalCalls e.event e.isRemoval e.txHash isCollectedByEvent
      e.blockTimestamp).find t = true := by
    show ¬ (t.get? e.key).any _ = true
    simp [hget]
  rw [WithdrawalLog.insert, insertLiquidityWithdrawal, RecordCalls.insert, if_neg hfind]
  show OrdMap.view _ (if fitsDecimal40 e.event.shareAmount then t.create e.key _ else t) = _
  rw [if_pos (show fitsDecimal40 e.event.shareAmount = true from hfits)]
  exact OrdMap.view_create_of_none hget

/-- An amount that does not fit leaves the columns as they are. -/
theorem view_insertWithdrawal_of_long {t : WithdrawalTable} {e : WithdrawalLog}
    (hlong : e.fits = false) (isCollectedByEvent : Bool) :
    (e.insert t isCollectedByEvent).view (OrdMap.keyed withdrawalColumns) =
      t.view (OrdMap.keyed withdrawalColumns) := by
  cases hget : t.get? e.key with
  | some row => exact view_insertWithdrawal_of_some hget isCollectedByEvent
  | none =>
    have hfind : ¬ (liquidityWithdrawalCalls e.event e.isRemoval e.txHash isCollectedByEvent
        e.blockTimestamp).find t = true := by
      show ¬ (t.get? e.key).any _ = true
      simp [hget]
    rw [WithdrawalLog.insert, insertLiquidityWithdrawal, RecordCalls.insert, if_neg hfind]
    show OrdMap.view _ (if fitsDecimal40 e.event.shareAmount then t.create e.key _ else t) = _
    rw [if_neg (Bool.eq_false_iff.1 (show fitsDecimal40 e.event.shareAmount = false from hlong))]

/-- **The rows of the withdrawals.** -/
theorem view_deliverWithdrawals (deliveries : List (ι × Bool)) :
    (deliverWithdrawals logs OrdMap.empty deliveries).view (OrdMap.keyed withdrawalColumns) =
      (keepFirst (sameKey fun i => (logs i).key)
        ((deliveries.map Prod.fst).filter fun i => (logs i).fits)).map
        fun i => ((logs i).key, (logs i).columns) := by
  apply view_foldl 
  · intro t d hd
    exact view_insertWithdrawal_of_long hd d.2
  · intro t d kept hd hview
    rcases keep_cases (sameKey fun i => (logs i).key) kept d.1 with ⟨⟨j, hj, hkey⟩, h⟩ | ⟨hno, h⟩
    · rw [h, ← hview]
      cases hget : t.get? (logs d.1).key with
      | some row => exact view_insertWithdrawal_of_some hget d.2
      | none =>
        have hfree := OrdMap.get?_eq_none_iff_view.1 hget _ (hview ▸ List.mem_map_of_mem hj)
        exact absurd (of_decide_eq_true hkey) hfree
    · rw [h, List.map_append, ← hview]
      apply view_insertWithdrawal_of_none hd
      rw [OrdMap.get?_eq_none_iff_view, hview]
      intro c hc hkey
      obtain ⟨j, hj, rfl⟩ := List.mem_map.1 hc
      exact of_decide_eq_false (hno j hj) hkey
  · rfl

/-- A row is that of a recorded entry, up to its flag. -/
theorem exists_recorded {deliveries : List (ι × Bool)} {wallet txHash : String}
    {w : LiquidityWithdrawal}
    (hget : (deliverWithdrawals logs OrdMap.empty deliveries).get? (wallet, txHash) = some w) :
    ∃ i, WithdrawalRecorded logs deliveries i ∧ (logs i).key = (wallet, txHash) ∧
      (logs i).columns = (w.poolId, w.amount, w.isRemoval, w.timestamp) := by
  have hmem : OrdMap.keyed withdrawalColumns (wallet, txHash) w ∈
      (deliverWithdrawals logs OrdMap.empty deliveries).view (OrdMap.keyed withdrawalColumns) :=
    OrdMap.mem_view.2 ⟨_, w, hget, rfl⟩
  rw [view_deliverWithdrawals] at hmem
  obtain ⟨i, hi, heq⟩ := List.mem_map.1 hmem
  exact ⟨i, (mem_keepFirst_iff _ _ i).1 hi, congrArg Prod.fst heq, congrArg Prod.snd heq⟩

/-- A recorded entry has a row. -/
theorem WithdrawalRecorded.get? {deliveries : List (ι × Bool)} {i : ι}
    (h : WithdrawalRecorded logs deliveries i) :
    ∃ w, (deliverWithdrawals logs OrdMap.empty deliveries).get? (logs i).key = some w ∧
      (logs i).columns = (w.poolId, w.amount, w.isRemoval, w.timestamp) := by
  have hmem : ((logs i).key, (logs i).columns) ∈
      (deliverWithdrawals logs OrdMap.empty deliveries).view (OrdMap.keyed withdrawalColumns) := by
    rw [view_deliverWithdrawals]
    exact List.mem_map_of_mem ((mem_keepFirst_iff (fun i => (logs i).key) _ i).2 h)
  obtain ⟨key, w, hget, heq⟩ := OrdMap.mem_view.1 hmem
  obtain rfl : key = (logs i).key := congrArg Prod.fst heq
  exact ⟨w, hget, (congrArg Prod.snd heq).symm⟩

/-! ## The answer -/

variable {logs} {deliveries : List (ι × Bool)} {poolId : ℕ} {wallet : String}

/-- What the endpoint says of an entry. -/
def WithdrawalLog.shown (e : WithdrawalLog) (nowMs : ℤ) : List OpenWithdrawal :=
  if e.isRemoval then [] else [⟨dec18ToFloat e.event.shareAmount, nowMs / 1000 - e.blockTimestamp⟩]

theorem floor_elapsed (nowMs : ℤ) (timestamp : ℕ) :
    ⌊(nowMs : ℚ) / 1000 - timestamp⌋ = nowMs / 1000 - timestamp := by
  rw [Int.floor_sub_natCast]
  have hdiv : ⌊(nowMs : ℚ) / ((1000 : ℕ) : ℚ)⌋ = nowMs / ((1000 : ℕ) : ℤ) :=
    Rat.floor_intCast_div_natCast nowMs 1000
  exact congrArg (· - (timestamp : ℤ)) hdiv

theorem withdrawalsData_eq {e : WithdrawalLog} {w : LiquidityWithdrawal}
    (h : e.columns = (w.poolId, w.amount, w.isRemoval, w.timestamp)) (nowMs : ℤ) :
    withdrawalsData nowMs (some w) = e.shown nowMs := by
  obtain ⟨-, hamount, hremoval, htime⟩ : e.event.poolId = w.poolId ∧
      e.event.shareAmount = w.amount ∧ e.isRemoval = w.isRemoval ∧
      e.blockTimestamp = w.timestamp := by
    simpa [WithdrawalLog.columns] using h
  simp only [withdrawalsData, WithdrawalLog.shown, hamount, hremoval, htime, floor_elapsed]

/-- **The row the query answers** is that of a newest recorded entry. -/
theorem isLastRow_cases {answer : Option LiquidityWithdrawal}
    (h : IsLastRow (deliverWithdrawals logs OrdMap.empty deliveries) poolId wallet answer)
    (nowMs : ℤ) :
    ((∀ i, WithdrawalRecorded logs deliveries i → ¬ (logs i).Concerns poolId wallet) ∧
        withdrawalsData nowMs answer = []) ∨
      ∃ i, WithdrawalRecorded logs deliveries i ∧ (logs i).Concerns poolId wallet ∧
        (∀ j, WithdrawalRecorded logs deliveries j → (logs j).Concerns poolId wallet →
          (logs j).blockTimestamp ≤ (logs i).blockTimestamp) ∧
        withdrawalsData nowMs answer = (logs i).shown nowMs := by
  have hrow : ∀ j, WithdrawalRecorded logs deliveries j → (logs j).Concerns poolId wallet →
      ∃ w, (deliverWithdrawals logs OrdMap.empty deliveries).get?
          (wallet, toLowerCase (logs j).txHash) = some w ∧ w.poolId = poolId ∧
        w.timestamp = (logs j).blockTimestamp := by
    rintro j hj ⟨hpool, hwallet⟩
    obtain ⟨w, hget, hcolumns⟩ := hj.get?
    simp only [WithdrawalLog.columns, Prod.mk.injEq] at hcolumns
    rw [← hwallet]
    exact ⟨w, hget, hcolumns.1.symm.trans hpool, hcolumns.2.2.2.symm⟩
  cases answer with
  | none =>
    refine Or.inl ⟨fun j hj hconcerns => ?_, rfl⟩
    obtain ⟨w, hget, hpool, -⟩ := hrow j hj hconcerns
    exact h _ w hget hpool
  | some w =>
    right
    obtain ⟨⟨txHash, hget⟩, hpool, hlast⟩ := h
    obtain ⟨i, hi, hkey, hcolumns⟩ := exists_recorded logs hget
    have hcolumns' := hcolumns
    simp only [WithdrawalLog.columns, Prod.mk.injEq] at hcolumns'
    refine ⟨i, hi, ⟨hcolumns'.1.trans hpool, congrArg Prod.fst hkey⟩, fun j hj hconcerns => ?_,
      withdrawalsData_eq hcolumns nowMs⟩
    obtain ⟨w', hget', hpool', htime⟩ := hrow j hj hconcerns
    rw [← htime, hcolumns'.2.2.2]
    exact hlast _ w' hget' hpool'

/-- **What the endpoint answers.**  Whatever was delivered, by whom and how often, a request for a
pool and a wallet is answered with a newest of the recorded entries: an initiation is shown as the
one open withdrawal, a removal as none.  Where there is no entry none is shown. -/
theorem withdrawals_eq_newest {getPoolId : String → Option ℕ} {req : WithdrawalsRequest}
    {answer : ℕ → String → Option LiquidityWithdrawal}
    (hreq : withdrawalsQuery getPoolId req = .ok (poolId, wallet))
    (hanswer : IsLastRow (deliverWithdrawals logs OrdMap.empty deliveries) poolId wallet
      (answer poolId wallet)) (nowMs : ℤ) :
    ((∀ i, WithdrawalRecorded logs deliveries i → ¬ (logs i).Concerns poolId wallet) ∧
        withdrawals getPoolId answer nowMs req = .ok []) ∨
      ∃ i, WithdrawalRecorded logs deliveries i ∧ (logs i).Concerns poolId wallet ∧
        (∀ j, WithdrawalRecorded logs deliveries j → (logs j).Concerns poolId wallet →
          (logs j).blockTimestamp ≤ (logs i).blockTimestamp) ∧
        withdrawals getPoolId answer nowMs req = .ok ((logs i).shown nowMs) := by
  have hok : withdrawals getPoolId answer nowMs req =
      .ok (withdrawalsData nowMs (answer poolId wallet)) := by
    rw [withdrawals, hreq]
    rfl
  rcases isLastRow_cases hanswer nowMs with ⟨hnone, hdata⟩ | ⟨i, hi, hconcerns, hlast, hdata⟩
  · exact Or.inl ⟨hnone, by rw [hok, hdata]⟩
  · exact Or.inr ⟨i, hi, hconcerns, hlast, by rw [hok, hdata]⟩

/-- Where no wallet has two entries in a transaction, every delivered entry that fits is
recorded. -/
theorem recorded_of_delivered (hkeys : ∀ i ∈ deliveries.map Prod.fst,
      ∀ j ∈ deliveries.map Prod.fst, (logs i).key = (logs j).key → i = j)
    {i : ι} (hi : i ∈ deliveries.map Prod.fst) (hfits : (logs i).fits = true) :
    WithdrawalRecorded logs deliveries i := by
  have hmem : i ∈ (deliveries.map Prod.fst).filter fun j => (logs j).fits :=
    List.mem_filter.2 ⟨hi, hfits⟩
  have hsome : (((deliveries.map Prod.fst).filter fun j => (logs j).fits).find?
      fun j => decide ((logs j).key = (logs i).key)).isSome :=
    List.find?_isSome.2 ⟨i, hmem, decide_eq_true rfl⟩
  obtain ⟨j, hj⟩ := Option.isSome_iff_exists.1 hsome
  have hjmem := (List.mem_filter.1 (List.mem_of_find?_eq_some hj)).1
  have hkey : (logs j).key = (logs i).key := by
    simpa using List.find?_some hj
  rw [WithdrawalRecorded, hj, hkeys j hjmem i hi hkey]

end

/-- A wallet takes its shares out and asks for more later. -/
def threeWithdrawals : ℕ → WithdrawalLog
  | 0 => ⟨⟨1, "0xA000000000000000000000000000000000000001", 5⟩, false, "0xaa", 1700000000⟩
  | 1 => ⟨⟨1, "0xA000000000000000000000000000000000000001", 5⟩, true, "0xbb", 1700172800⟩
  | _ => ⟨⟨1, "0xA000000000000000000000000000000000000001", 2 * 10 ^ 18⟩, false, "0xcc", 1700200000⟩

/-- The last of the entries comes first. -/
def lateRemoval : List (ℕ × Bool) :=
  [(2, true), (0, false), (1, false), (2, false), (0, true)]

/-- The row of the last entry. -/
def answerLast (_ : ℕ) (wallet : String) : Option LiquidityWithdrawal :=
  (deliverWithdrawals threeWithdrawals OrdMap.empty lateRemoval).get? (wallet, "0xcc")

end TraderBackend
