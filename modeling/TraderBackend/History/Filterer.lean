import TraderBackend.Lib.OrdMap
import TraderBackend.History.Errors

/-!
# The historical log filterer

`HistoricalDataFilterer.genericFilterer` walks over a range of blocks in chunks
of adaptive size, asks the node for the logs of each chunk and hands them to a
callback through `saveEvents`, which fetches the timestamp of every block it
meets.  One `try`/`catch` surrounds both, with three retry branches.

* `Rpc` — the node: the logs on chain, the block timestamps, and which calls
  fail with which error.
* `getBlockWithRetry`, `saveEvents` — the handing over of one chunk; it may stop
  half-way with an error.
* `onError` — the `catch` block; `filterChunk` — one iteration of the loop.
* `genericFilterer` — the loop, with fuel, since the node may fail for ever.

The loop advances its index as soon as the query has succeeded, before the
chunk is handed over.
-/

namespace TraderBackend

open JsString

/-- A log entry of a contract with its decoded arguments. -/
structure EventLog (δ : Type*) where
  blockNumber : ℕ
  transactionHash : String
  /-- `topics[0]`, the signature hash of the event. -/
  topic0 : String
  /-- What `decodeEventLog` makes of the data. -/
  decoded : δ
  deriving DecidableEq

/-- One invocation of the callback. -/
structure Delivery (δ : Type*) where
  event : EventLog δ
  blockTimestamp : ℕ
  deriving DecidableEq

/-- The node as one run of the filterer meets it. -/
structure Rpc (δ : Type*) where
  /-- The logs of the contract on chain. -/
  history : List (EventLog δ)
  /-- The timestamp of each block. -/
  timestamp : ℕ → ℕ
  /-- How the `n`-th `queryFilter` call of the run fails, if it does. -/
  queryFails : ℕ → Option RpcError
  /-- How attempt `r` to fetch block `b` fails, if it does. -/
  getBlockFails : ℕ → ℕ → Option RpcError

variable {δ : Type*}

/-- The logs `queryFilter` returns for the blocks `startBlock..endBlock`, both ends
included.  The callers build their filter from the events of `topicHashes`. -/
def Rpc.queryFilter (rpc : Rpc δ) (topicHashes : List String) (startBlock endBlock : ℕ) :
    List (EventLog δ) :=
  rpc.history.filter fun event =>
    decide (startBlock ≤ event.blockNumber ∧ event.blockNumber ≤ endBlock ∧
      event.topic0 ∈ topicHashes)

theorem mem_queryFilter {rpc : Rpc δ} {topicHashes : List String} {startBlock endBlock : ℕ}
    {event : EventLog δ} :
    event ∈ rpc.queryFilter topicHashes startBlock endBlock ↔
      event ∈ rpc.history ∧ startBlock ≤ event.blockNumber ∧ event.blockNumber ≤ endBlock ∧
        event.topic0 ∈ topicHashes := by
  rw [Rpc.queryFilter, List.mem_filter, decide_eq_true_eq]

/-! ## Handing over a chunk -/

/-- The `for (;;)` around `event.getBlock()`: `left` is `5 - retries`, the number of
rate limits that are still forgiven. -/
def getBlockWithRetry (rpc : Rpc δ) (blockNumber : ℕ) :
    (left retries : ℕ) → Except RpcError ℕ
  | 0, retries =>
      match rpc.getBlockFails blockNumber retries with
      | none => .ok (rpc.timestamp blockNumber)
      | some e => .error e
  | left + 1, retries =>
      match rpc.getBlockFails blockNumber retries with
      | none => .ok (rpc.timestamp blockNumber)
      | some e =>
          if isRateLimitError e then getBlockWithRetry rpc blockNumber left (retries + 1)
          else .error e

/-- What `saveEvents` works on: the shared timestamp cache and the callback
invocations so far. -/
structure Saved (δ : Type*) where
  blockTimestamp : OrdMap ℕ ℕ
  delivered : List (Delivery δ)

/-- `cb(log, event, ts)`. -/
def Saved.deliver (s : Saved δ) (event : EventLog δ) (ts : ℕ) : Saved δ :=
  { s with delivered := s.delivered ++ [⟨event, ts⟩] }

/-- `saveEvents`: what it leaves behind and the error that stopped it, if any. -/
def saveEvents (rpc : Rpc δ) (topicHashes : List String) :
    List (EventLog δ) → Saved δ → Saved δ × Option RpcError
  | [], s => (s, none)
  | event :: events, s =>
      if event.topic0 ∈ topicHashes then
        match s.blockTimestamp.get? event.blockNumber with
        | some ts => saveEvents rpc topicHashes events (s.deliver event ts)
        | none =>
            match getBlockWithRetry rpc event.blockNumber 5 0 with
            | .error e => (s, some e)
            | .ok ts =>
                saveEvents rpc topicHashes events
                  (Saved.deliver
                    { s with blockTimestamp := s.blockTimestamp.set event.blockNumber ts }
                    event ts)
      else saveEvents rpc topicHashes events s

/-! ## The loop -/

/-- The variables of the loop. -/
structure FilterState (δ : Type*) where
  i : ℕ
  deltaBlocks : ℕ
  lastWaitSeconds : ℕ
  totalEventsFound : ℕ
  /-- The number of `queryFilter` calls made. -/
  queries : ℕ
  /-- The block ranges of those that succeeded. -/
  ranges : List (ℕ × ℕ)
  saved : Saved δ

/-- `maxWaitSeconds`. -/
def maxWaitSeconds : ℕ := 32

/-- The state before the first iteration. -/
def FilterState.init (fromBlock : ℕ) : FilterState δ where
  i := fromBlock
  deltaBlocks := 9999
  lastWaitSeconds := 2
  totalEventsFound := 0
  queries := 0
  ranges := []
  saved := ⟨OrdMap.empty, []⟩

/-- How one iteration ends. -/
inductive Iteration (δ : Type*) where
  | next (s : FilterState δ)
  | threw (e : RpcError)

/-- The `catch` block.  `Math.round(deltaBlocks * 0.75)` is `(3 * deltaBlocks + 2) / 4`. -/
def onError (error : RpcError) (s : FilterState δ) : Iteration δ :=
  if includes (formatErrorMessage error) "413" then
    .next { s with deltaBlocks := max 100 ((3 * s.deltaBlocks + 2) / 4) }
  else if isRateLimitError error then
    .next { s with lastWaitSeconds := min (s.lastWaitSeconds * 2) maxWaitSeconds }
  else if maxWaitSeconds > s.lastWaitSeconds then
    .next { s with lastWaitSeconds := s.lastWaitSeconds * 2 }
  else .threw error

/-- `_endBlock` of the chunk that starts at `s.i`. -/
def FilterState.endOfChunk (s : FilterState δ) (endBlock : ℕ) : ℕ :=
  min endBlock (s.i + s.deltaBlocks - 1)

/-- The assignments between a successful query and `saveEvents`: the index moves on
and a small chunk size grows again (`Math.round(deltaBlocks * 1.25)`). -/
def FilterState.afterQuery (s : FilterState δ) (found : ℕ) : FilterState δ :=
  { s with
    i := s.i + s.deltaBlocks
    lastWaitSeconds := 2
    totalEventsFound := s.totalEventsFound + found
    deltaBlocks :=
      if 4 * s.deltaBlocks < 3 * 9999 then min 9999 ((5 * s.deltaBlocks + 2) / 4)
      else s.deltaBlocks }

/-- One iteration of the loop. -/
def filterChunk (rpc : Rpc δ) (topicHashes : List String) (endBlock : ℕ) (s : FilterState δ) :
    Iteration δ :=
  let s₀ := { s with queries := s.queries + 1 }
  match rpc.queryFails s.queries with
  | some e => onError e s₀
  | none =>
      let events := rpc.queryFilter topicHashes s.i (s.endOfChunk endBlock)
      let s₁ := { s₀.afterQuery events.length with
        ranges := s.ranges ++ [(s.i, s.endOfChunk endBlock)] }
      match saveEvents rpc topicHashes events s.saved with
      | (saved, none) => .next { s₁ with saved := saved }
      | (saved, some e) => onError e { s₁ with saved := saved }

/-- How a call of `genericFilterer` ends. -/
inductive FilterResult (δ : Type*) where
  | outOfFuel
  | threw (e : RpcError)
  | returned (s : FilterState δ)

/-- `genericFilterer` from a given loop state on. -/
def filterFrom (rpc : Rpc δ) (topicHashes : List String) (endBlock : ℕ) :
    ℕ → FilterState δ → FilterResult δ
  | 0, _ => .outOfFuel
  | fuel + 1, s =>
      if s.i < endBlock then
        match filterChunk rpc topicHashes endBlock s with
        | .next s' => filterFrom rpc topicHashes endBlock fuel s'
        | .threw e => .threw e
      else .returned s

/-- `genericFilterer`. -/
def genericFilterer (rpc : Rpc δ) (topicHashes : List String) (fuel fromBlock currentBlock : ℕ) :
    FilterResult δ :=
  filterFrom rpc topicHashes currentBlock fuel (FilterState.init fromBlock)

end TraderBackend
