import TraderBackend.History.TradingHistory

/-!
# Keys of liquidations

A liquidation has no order digest.  `_createLiquidationId` hashes the trader, the
perpetual id, the block number and the last two characters of the new position
size, strung together without separators; the upsert goes by that hash.

* `LiquidationLog` — a liquidation with its block and how it is delivered.
* `LiquidationLog.numbers` — what stands after the trader in the hashed text.
* `createLiquidationId_eq_iff`, `numbers_eq_iff` — when two keys are equal, and
  what is left of that when the numbers have equally many digits.
* `liquidations_stored_iff` — every liquidation gets its row **if and only if** no
  two of one trader have the same numbers.
-/

namespace TraderBackend

/-- A `Liquidate` event with what else is inserted. -/
structure LiquidationLog where
  event : LiquidateEvent
  blockNumber : ℕ
  txHash : String
  isCollectedByEvent : Bool
  blockTimestamp : ℕ
  deriving DecidableEq

/-- `toString().slice(-2)`. -/
def lastTwo (x : ℤ) : String :=
  let digits := (toString x).toList
  String.ofList (digits.drop (digits.length - 2))

namespace LiquidationLog

/-- The row the event is created with. -/
def row (l : LiquidationLog) : Trade :=
  (TradeHistoryEvent.liquidate l.event).row l.txHash l.isCollectedByEvent l.blockTimestamp

/-- Perpetual id, block number and the end of the position size, strung together. -/
def numbers (l : LiquidationLog) : String :=
  toString l.event.perpetualId ++ toString l.blockNumber ++ lastTwo l.event.newPositionSizeBC

end LiquidationLog

/-- `insertTradeHistoryRecord` for one liquidation after another. -/
def insertLiquidations (sha256Hex : String → String) (t : TradeTable) (logs : List LiquidationLog) :
    TradeTable :=
  logs.foldl (fun t l => insertTradeHistoryRecord sha256Hex t (.liquidate l.event) l.txHash
    l.isCollectedByEvent l.blockTimestamp l.blockNumber) t

/-! ## Equal keys -/

variable {sha256Hex : String → String}

/-- With traders of one length the hashed texts are equal part by part. -/
theorem createLiquidationId_eq_iff (hsha : Function.Injective sha256Hex) {a b : LiquidationLog}
    (hlength : a.event.trader.length = b.event.trader.length) :
    createLiquidationId sha256Hex a.event a.blockNumber =
        createLiquidationId sha256Hex b.event b.blockNumber ↔
      a.event.trader = b.event.trader ∧ a.numbers = b.numbers := by
  have htext : ∀ l : LiquidationLog, createLiquidationId sha256Hex l.event l.blockNumber =
      sha256Hex (l.event.trader ++ l.numbers) := by
    intro l
    simp only [createLiquidationId, LiquidationLog.numbers, lastTwo, String.append_assoc]
  rw [htext a, htext b, hsha.eq_iff]
  constructor
  · intro h
    have hlist : a.event.trader.toList ++ a.numbers.toList =
        b.event.trader.toList ++ b.numbers.toList := by
      rw [← String.toList_append, ← String.toList_append, h]
    obtain ⟨htrader, hnumbers⟩ := List.append_inj hlist (by
      simpa only [String.length_toList] using hlength)
    exact ⟨String.toList_injective htrader, String.toList_injective hnumbers⟩
  · rintro ⟨htrader, hnumbers⟩
    rw [htrader, hnumbers]

/-- Block numbers with equally many digits and position ends of equal length: the numbers are the
same when the perpetual, the block and the end of the position are. -/
theorem numbers_eq_iff {a b : LiquidationLog}
    (hblock : (toString a.blockNumber).length = (toString b.blockNumber).length)
    (hposition : (lastTwo a.event.newPositionSizeBC).length =
      (lastTwo b.event.newPositionSizeBC).length) :
    a.numbers = b.numbers ↔
      a.event.perpetualId = b.event.perpetualId ∧ a.blockNumber = b.blockNumber ∧
        lastTwo a.event.newPositionSizeBC = lastTwo b.event.newPositionSizeBC := by
  constructor
  · intro h
    have hlist := congrArg String.toList h
    simp only [LiquidationLog.numbers, String.toList_append] at hlist
    obtain ⟨hfront, hend⟩ := List.append_inj' hlist (by
      simpa only [String.length_toList] using hposition)
    obtain ⟨hperpetual, hblocks⟩ := List.append_inj' hfront (by
      simpa only [String.length_toList] using hblock)
    exact ⟨Nat.repr_injective (String.toList_injective hperpetual),
      Nat.repr_injective (String.toList_injective hblocks), String.toList_injective hend⟩
  · rintro ⟨hperpetual, hblocks, hend⟩
    rw [LiquidationLog.numbers, LiquidationLog.numbers, hperpetual, hblocks, hend]

/-! ## One row each -/

theorem insertLiquidations_eq_upsertAll (t : TradeTable) (logs : List LiquidationLog) :
    insertLiquidations sha256Hex t logs =
      t.upsertAll (fun l => createLiquidationId sha256Hex l.event l.blockNumber)
        LiquidationLog.row (fun l row =>
          { row with
            isCollectedByEvent := l.isCollectedByEvent
            tradeTimestamp := l.blockTimestamp }) logs := rfl

/-- **When every liquidation is stored.**  After any liquidations are inserted into the empty
table its rows are theirs, one for each, if and only if no two of the same trader have the same
numbers. -/
theorem liquidations_stored_iff (hsha : Function.Injective sha256Hex) {logs : List LiquidationLog}
    (htrader : ∀ l ∈ logs, l.event.trader.length = 42) :
    (insertLiquidations sha256Hex OrdMap.empty logs).entries.map Prod.snd =
        logs.map LiquidationLog.row ↔
      logs.Pairwise fun a b => ¬ (a.event.trader = b.event.trader ∧ a.numbers = b.numbers) := by
  rw [insertLiquidations_eq_upsertAll, OrdMap.rows_upsertAll_iff, List.Nodup, List.pairwise_map]
  apply List.Pairwise.iff_of_mem
  intro a b ha hb
  have hlength := (htrader a ha).trans (htrader b hb).symm
  exact not_congr (createLiquidationId_eq_iff hsha hlength)

/-- A position of 1500 is liquidated down to 1200 and then to 700 in one block. -/
def partialLiquidations : List LiquidationLog :=
  [⟨⟨100001, "0x1111111111111111111111111111111111111111", -300, 2, 1200, 1, 0⟩, 5000, "0xaa", true,
      1700000000⟩,
    ⟨⟨100001, "0x1111111111111111111111111111111111111111", -500, 2, 700, 1, 0⟩, 5000, "0xbb", true,
      1700000000⟩]

/-- The second one is taken for the first one delivered again. -/
theorem partialLiquidations_second_lost :
    partialLiquidations.Pairwise (fun a b =>
        a.event.newPositionSizeBC ≠ b.event.newPositionSizeBC) ∧
      ((insertLiquidations (fun s => s) OrdMap.empty partialLiquidations).entries.map
        fun x => x.2.newPosBC) = [1200] := by
  decide

/-- The position is liquidated down to 1250 and then to 700. -/
def differentEnds : List LiquidationLog :=
  [⟨⟨100001, "0x1111111111111111111111111111111111111111", -250, 2, 1250, 1, 0⟩, 5000, "0xaa", true,
      1700000000⟩,
    ⟨⟨100001, "0x1111111111111111111111111111111111111111", -550, 2, 700, 1, 0⟩, 5000, "0xbb", true,
      1700000000⟩]

theorem differentEnds_stored :
    (insertLiquidations (fun s => s) OrdMap.empty differentEnds).entries.map Prod.snd =
      differentEnds.map LiquidationLog.row :=
  (liquidations_stored_iff Function.injective_id (by decide)).2 (by decide)

end TraderBackend
