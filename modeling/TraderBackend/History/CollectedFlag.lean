import TraderBackend.History.Handlers

/-!
# The flag `is_collected_by_event`

Three tables are filled by upserts: trades and liquidations, settlements, token
flows.  Creation and update both write the flag of the delivery at hand, so the
flag of a row is that of the last delivery of its event.

* `UpsertEvent` — the five events, with the column of their row that is the flag.
* `flag_deliver` — after a sequence of deliveries.
* `flag_kept_iff` — the flag tells whether the backfill delivered the event **if
  and only if** the last delivery is the backfill's or none is.
-/

namespace TraderBackend

/-- An event whose row is written by an upsert, with what its key is made of. -/
inductive UpsertEvent where
  | trade (e : TradeEvent) (blockNumber : ℕ)
  | liquidate (e : LiquidateEvent) (blockNumber : ℕ)
  | settle (e : SettleEvent)
  | tokensDeposited (e : TokenFlowEvent)
  | tokensWithdrawn (e : TokenFlowEvent)
  deriving DecidableEq

/-- One delivery of an event, live or by the backfill. -/
structure EventDelivery where
  isCollectedByEvent : Bool
  blockTimestamp : ℕ
  deriving DecidableEq

/-- The insert a delivery leads to. -/
def UpsertEvent.job (txHash : String) (d : EventDelivery) : UpsertEvent → DbJob
  | .trade e blockNumber =>
      .trade (.trade e) txHash d.isCollectedByEvent d.blockTimestamp blockNumber
  | .liquidate e blockNumber =>
      .trade (.liquidate e) txHash d.isCollectedByEvent d.blockTimestamp blockNumber
  | .settle e => .settle e txHash d.isCollectedByEvent d.blockTimestamp
  | .tokensDeposited e => .tokenDeposit e txHash d.isCollectedByEvent d.blockTimestamp
  | .tokensWithdrawn e => .tokenWithdraw e txHash d.isCollectedByEvent d.blockTimestamp

/-- The flag of the row of an event, if there is one. -/
def UpsertEvent.flag (sha256Hex : String → String) (txHash : String) (db : HistoryDb) :
    UpsertEvent → Option Bool
  | .trade e blockNumber =>
      (db.trade.get? ((TradeHistoryEvent.trade e).digest sha256Hex blockNumber)).map
        Trade.isCollectedByEvent
  | .liquidate e blockNumber =>
      (db.trade.get? ((TradeHistoryEvent.liquidate e).digest sha256Hex blockNumber)).map
        Trade.isCollectedByEvent
  | .settle e => (db.settle.get? (e.key txHash)).map Settle.isCollectedByEvent
  | .tokensDeposited e => (db.tokenFlow.get? (e.key txHash true)).map TokenFlow.isCollectedByEvent
  | .tokensWithdrawn e => (db.tokenFlow.get? (e.key txHash false)).map TokenFlow.isCollectedByEvent

variable (sha256Hex : String → String) (e : UpsertEvent) (txHash : String)

/-- The one database call of a delivery. -/
def UpsertEvent.insert (db : HistoryDb) (d : EventDelivery) : HistoryDb :=
  (((e.job txHash d).step sha256Hex 0 db (e.job txHash d).start).map Prod.fst).getD db

/-- A sequence of deliveries. -/
def UpsertEvent.deliver (db : HistoryDb) (deliveries : List EventDelivery) : HistoryDb :=
  deliveries.foldl (e.insert sha256Hex txHash) db

/-- A delivery leaves its flag in the row. -/
theorem flag_insert (db : HistoryDb) (d : EventDelivery) :
    e.flag sha256Hex txHash (e.insert sha256Hex txHash db d) = some d.isCollectedByEvent := by
  cases e with
  | trade e blockNumber =>
    exact OrdMap.map_get?_upsert Trade.isCollectedByEvent db.trade _ rfl fun _ => rfl
  | liquidate e blockNumber =>
    exact OrdMap.map_get?_upsert Trade.isCollectedByEvent db.trade _ rfl fun _ => rfl
  | settle e =>
    exact OrdMap.map_get?_upsert Settle.isCollectedByEvent db.settle _ rfl fun _ => rfl
  | tokensDeposited e =>
    exact OrdMap.map_get?_upsert TokenFlow.isCollectedByEvent db.tokenFlow _ rfl fun _ => rfl
  | tokensWithdrawn e =>
    exact OrdMap.map_get?_upsert TokenFlow.isCollectedByEvent db.tokenFlow _ rfl fun _ => rfl

/-- The row has the flag of the last delivery. -/
theorem flag_deliver (db : HistoryDb) (deliveries : List EventDelivery) :
    e.flag sha256Hex txHash (e.deliver sha256Hex txHash db deliveries) =
      (deliveries.getLast?.map EventDelivery.isCollectedByEvent).or
        (e.flag sha256Hex txHash db) := by
  induction deliveries using List.reverseRecOn with
  | nil => rfl
  | append_singleton deliveries d _ =>
    rw [UpsertEvent.deliver, List.foldl_append, List.getLast?_concat]
    exact flag_insert sha256Hex e txHash _ d

/-- **When the flag is kept.**  After any deliveries of a new event its row is marked as
collected over http exactly if the backfill delivered it, if and only if the last delivery is the
backfill's or every delivery is live. -/
theorem flag_kept_iff {db : HistoryDb} (hnew : e.flag sha256Hex txHash db = none)
    (deliveries : List EventDelivery) :
    (e.flag sha256Hex txHash (e.deliver sha256Hex txHash db deliveries) = some false ↔
        ∃ d ∈ deliveries, d.isCollectedByEvent = false) ↔
      (∃ d ∈ deliveries.getLast?, d.isCollectedByEvent = false) ∨
        ∀ d ∈ deliveries, d.isCollectedByEvent = true := by
  rw [flag_deliver, hnew, Option.or_none, Option.map_eq_some_iff]
  constructor
  · intro h
    by_cases hlive : ∀ d ∈ deliveries, d.isCollectedByEvent = true
    · exact Or.inr hlive
    · have hbackfill : ∃ d ∈ deliveries, d.isCollectedByEvent = false := by
        simpa using hlive
      obtain ⟨last, hlast, hflag⟩ := h.2 hbackfill
      exact Or.inl ⟨last, hlast, hflag⟩
  · rintro (⟨last, hlast, hflag⟩ | hlive)
    · exact ⟨fun _ => ⟨last, List.mem_of_getLast? hlast, hflag⟩, fun _ => ⟨last, hlast, hflag⟩⟩
    · constructor
      · rintro ⟨last, hlast, hflag⟩
        rw [hlive last (List.mem_of_getLast? hlast)] at hflag
        cases hflag
      · rintro ⟨d, hd, hflag⟩
        rw [hlive d hd] at hflag
        cases hflag

/-- A settlement the backfill delivers first and the live listener later. -/
def lateLive : List EventDelivery := [⟨false, 1700000000⟩, ⟨true, 1700000000⟩]

/-- The live delivery takes the flag back, and with it the watermark of the table. -/
theorem lateLive_flag_lost :
    (∃ d ∈ lateLive, d.isCollectedByEvent = false) ∧
      UpsertEvent.flag (fun _ => "") "0xaa"
        (UpsertEvent.deliver (fun _ => "") (.settle ⟨100001, "0xa1", 5, 0⟩) "0xaa" .empty lateLive)
        (.settle ⟨100001, "0xa1", 5, 0⟩) = some true ∧
      getLatestSettleTimestamp (UpsertEvent.deliver (fun _ => "") (.settle ⟨100001, "0xa1", 5, 0⟩)
        "0xaa" .empty (lateLive.take 1)).settle = some 1699996400000 ∧
      getLatestSettleTimestamp (UpsertEvent.deliver (fun _ => "") (.settle ⟨100001, "0xa1", 5, 0⟩)
        "0xaa" .empty lateLive).settle = none := by
  decide

/-- A live delivery, then the backfill's: the row is marked as collected over http. -/
theorem backfillLast_flag_kept :
    UpsertEvent.flag (fun _ => "") "0xaa"
        (UpsertEvent.deliver (fun _ => "") (.settle ⟨100001, "0xa1", 5, 0⟩) "0xaa" .empty
          [⟨true, 1700000000⟩, ⟨false, 1700000000⟩])
        (.settle ⟨100001, "0xa1", 5, 0⟩) = some false ↔
      ∃ d ∈ [(⟨true, 1700000000⟩ : EventDelivery), ⟨false, 1700000000⟩],
        d.isCollectedByEvent = false :=
  (flag_kept_iff (fun _ => "") _ "0xaa" (by decide) _).2 (Or.inl ⟨⟨false, 1700000000⟩, rfl, rfl⟩)

end TraderBackend
