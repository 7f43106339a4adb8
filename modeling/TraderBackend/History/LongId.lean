import TraderBackend.Lib.JsString
import TraderBackend.Lib.OrdMap
import TraderBackend.Lib.Lead
import TraderBackend.Lib.Interleave

/-!
# Validity intervals of perpetual names

The table `perpetual_long_id` says which name a perpetual had when.  Each
`SetOracles` event adds a row that is valid from the event on and shortens its
predecessor; `alignTimestamps` closes every interval at the start of the next
one once all rows are there.

* **The events.**  `fromBytes4`, `perpetualName`.
* **One insert.**  `insertStep`: `insertPerpetualLongId` cut at its database
  calls, so that several inserts can interleave.
* **The alignment.**  `alignTimestamps`, a window query joined back on perpetual
  and `valid_from`; which of several joined rows wins is up to the database.
* **The views.**  `longIdsAt` is the join of `trades_view` and `settle_view`.
-/

namespace TraderBackend

open JsString

/-! ## The events -/

/-- The value of a hexadecimal digit. -/
def hexDigit (c : Char) : Option ℕ :=
  if '0' ≤ c ∧ c ≤ '9' then some (c.toNat - '0'.toNat)
  else if 'a' ≤ c ∧ c ≤ 'f' then some (c.toNat - 'a'.toNat + 10)
  else if 'A' ≤ c ∧ c ≤ 'F' then some (c.toNat - 'A'.toNat + 10)
  else none

/-- `Buffer.from(hex, "hex")`: whole bytes up to the first that is none. -/
def hexBytes : List Char → List ℕ
  | a :: b :: rest =>
      match hexDigit a, hexDigit b with
      | some x, some y => (16 * x + y) :: hexBytes rest
      | _, _ => []
  | _ => []

/-- `fromBytes4`. -/
def fromBytes4 (hexStr : String) : String :=
  -- `toString("ascii")` drops the top bit of each byte
  let val := (hexBytes (hexStr.toList.drop 2)).map fun byte => Char.ofNat (byte % 128)
  String.ofList (val.filter fun c => decide (c ≠ Char.ofNat 0))

/-- The arguments of `SetOracles`. -/
structure SetOraclesEvent where
  perpetualId : ℕ
  baseQuoteS2 : String × String
  baseQuoteS3 : String × String
  deriving DecidableEq

/-- `S2` and `S3` of `insertSetOraclesRecord`. -/
def quotePair (p : String × String) : String := fromBytes4 p.1 ++ "-" ++ fromBytes4 p.2

/-- `name` of `insertPerpetualLongId`. -/
def perpetualName (S2 S3 : String) : String :=
  if S3 = "-" then S2 ++ "-" ++ (split S2 '-')[1]?.getD "undefined"
  else S2 ++ "-" ++ (split S3 '-')[0]?.getD "undefined"

/-- An event with the transaction and the block that carry it. -/
structure SetOraclesLog where
  event : SetOraclesEvent
  txHash : String
  /-- In seconds. -/
  blockTimestamp : ℕ
  deriving DecidableEq

/-! ## One insert -/

/-- A row of `perpetual_long_id` without its key, dates in milliseconds. -/
structure PerpetualLongId where
  perpetualId : ℕ
  perpetualName : String
  validFrom : ℕ
  validTo : ℕ
  deriving DecidableEq

/-- The table: transaction hash to row. -/
abbrev LongIdTable := OrdMap String PerpetualLongId

/-- `new Date("9999-12-31")`. -/
def farDate : ℕ := 253402214400000

/-- `new Date(ms)`; beyond this bound it is no valid date, and the database client
refuses it. -/
def newDate (ms : ℕ) : Option ℕ := if ms ≤ 8640000000000000 then some ms else none

/-- The key of the row of an event. -/
def SetOraclesLog.key (e : SetOraclesLog) : String := toLowerCase e.txHash

/-- `currDate`. -/
def SetOraclesLog.currDate (e : SetOraclesLog) : Option ℕ := newDate (e.blockTimestamp * 1000)

/-- The row of an event as it is created. -/
def SetOraclesLog.row (e : SetOraclesLog) (currDate : ℕ) : PerpetualLongId where
  perpetualId := e.event.perpetualId
  perpetualName := perpetualName (quotePair e.event.baseQuoteS2) (quotePair e.event.baseQuoteS3)
  validFrom := currDate
  validTo := farDate

/-- The rows the query for the predecessor selects. -/
def openRows (t : LongIdTable) (perpetualId currDate : ℕ) : List (String × PerpetualLongId) :=
  t.entries.filter fun e =>
    decide (e.2.validTo = farDate ∧ e.2.validFrom < currDate ∧ e.2.perpetualId = perpetualId)

/-- The predecessor: the selected row with the greatest `valid_from`.  Among equal ones
the database is free; `k` says which it takes. -/
def predecessor (t : LongIdTable) (perpetualId currDate k : ℕ) : Option String :=
  let rows := openRows t perpetualId currDate
  let latest := rows.filter fun e => rows.all fun e' => decide (e'.2.validFrom ≤ e.2.validFrom)
  (latest[k % latest.length]?).map Prod.fst

/-- Where an insert stands: before its next database call. -/
inductive InsertAt where
  | findByHash
  | findPredecessor
  | closePredecessor (txHash : String) (currDate : ℕ)
  | create (currDate : ℕ)
  | done
  deriving DecidableEq

/-- The next database call of `insertPerpetualLongId`. -/
def insertStep (e : SetOraclesLog) (k : ℕ) (t : LongIdTable) :
    InsertAt → Option (LongIdTable × InsertAt)
  | .findByHash => some (t, if (t.get? e.key).isSome then .done else .findPredecessor)
  | .findPredecessor =>
      match e.currDate with
      | none => some (t, .done)
      | some currDate =>
          match predecessor t e.event.perpetualId currDate k with
          | none => some (t, .create currDate)
          | some txHash => some (t, .closePredecessor txHash currDate)
  | .closePredecessor txHash currDate =>
      match t.get? txHash with
      | none => some (t, .done)
      | some row => some (t.set txHash { row with validTo := currDate }, .create currDate)
  | .create currDate =>
      if (t.get? e.key).isSome then some (t, .done)
      else some (t.set e.key (e.row currDate), .done)
  | .done => none

/-- The inserts of a family of events. -/
def insertTasks {ι : Type*} (logs : ι → SetOraclesLog) : Tasks ι ℕ LongIdTable InsertAt where
  step i k t l := insertStep (logs i) k t l

/-- All inserts before their first step, on an empty table. -/
def insertStart {ι : Type*} : Tasks.Config ι LongIdTable InsertAt where
  shared := OrdMap.empty
  locals := fun _ => .findByHash

/-! ## The alignment and the views -/

/-- The starts of the intervals of a perpetual, in order. -/
def validFroms (t : LongIdTable) (perpetualId : ℕ) : List ℕ :=
  ((t.entries.filter fun e => decide (e.2.perpetualId = perpetualId)).map
    fun e => e.2.validFrom).insertionSort (· ≤ ·)

/-- The `next_valid_from` of the rows of the window query that are joined with a row. -/
def nextValidFrom (t : LongIdTable) (row : PerpetualLongId) : List ℕ :=
  ((lead (validFroms t row.perpetualId)).filter fun p => decide (p.1 = row.validFrom)).map Prod.snd

/-- Which of several joined rows the database takes for the update of a row. -/
structure JoinChoice where
  pick : String → List ℕ → ℕ
  pick_mem : ∀ key l, l ≠ [] → pick key l ∈ l

/-- What the update of `alignTimestamps` makes of a row. -/
def alignRow (choice : JoinChoice) (t : LongIdTable) (key : String) (row : PerpetualLongId) :
    PerpetualLongId :=
  if nextValidFrom t row = [] then row
  else { row with validTo := choice.pick key (nextValidFrom t row) }

/-- `alignTimestamps`. -/
def alignTimestamps (choice : JoinChoice) (t : LongIdTable) : LongIdTable :=
  t.mapVal (alignRow choice t)

/-- The rows `trades_view` and `settle_view` join with a trade or settlement of a
perpetual at a time. -/
def longIdsAt (t : LongIdTable) (perpetualId time : ℕ) : List (String × PerpetualLongId) :=
  t.entries.filter fun e =>
    decide (e.2.perpetualId = perpetualId ∧ e.2.validFrom ≤ time ∧ time < e.2.validTo)

end TraderBackend
