import TraderBackend.Lib.Interleave
import TraderBackend.Lib.Memo
import TraderBackend.History.FiltererDelivery

/-!
# The timestamps of live events

A live event comes without the time of its block.  `getBlockTs` asks the node for it, up
to three times, and remembers the answer in `blockTsCache`; an event whose block cannot be
had is skipped, for the backfill to pick up.  The backfill has a cache of its own.

* **The code.**  `blockTsStep` — `getBlockTs` from one await to the next, up to the call of
  the handler.  Any number of events are under way at a time.
* **One call.**  `HasAsked` counts what a call has asked the node and how often it failed.
* **Whole runs.**  `live_events_timed`: however the calls interleave, the cache stays small
  and right, and every event is handled once, with the time of its block, or skipped.
* **Both paths.**  `live_agrees_with_backfill`: what the two paths hand over for one log is
  the same.
-/

namespace TraderBackend

/-! ## The code -/

/-- Where a call of `getBlockTs` is. -/
inductive BlockTsAt where
  | start
  /-- In this attempt, at `event.getBlock()`. -/
  | getBlock (attempt : ℕ)
  /-- In the pause after it. -/
  | pause (attempt : ℕ)
  | returned (ts : Option ℕ)
  deriving DecidableEq

/-- What the live events share, and what they have done. -/
structure LiveFeed (ι : Type*) where
  blockTsCache : OrdMap ℕ ℕ
  /-- The events `getBlock` was called for, call by call. -/
  asked : List ι
  /-- The events whose calls failed. -/
  failed : List ι
  /-- The events their handlers were called with, and the timestamps. -/
  handled : List (ι × ℕ)

section

variable {ι δ : Type*} (timestamp : ℕ → ℕ)

/-- The handler is called. -/
def LiveFeed.handle (s : LiveFeed ι) (i : ι) (ts : ℕ) : LiveFeed ι :=
  { s with handled := s.handled ++ [(i, ts)] }

/-- `blockTsCache` after an answer of the node. -/
def LiveFeed.remember (s : LiveFeed ι) (event : EventLog δ) : LiveFeed ι :=
  { s with
    blockTsCache :=
      s.blockTsCache.storeBounded 200 event.blockNumber (timestamp event.blockNumber) }

/-- `event.getBlock()` is called. -/
def LiveFeed.ask (s : LiveFeed ι) (i : ι) : LiveFeed ι := { s with asked := s.asked ++ [i] }

/-- `getBlockTs` and the handler after it, from one await to the next.  `ok` is whether the
node answers. -/
def blockTsStep (event : EventLog δ) (i : ι) (ok : Bool) (s : LiveFeed ι) :
    BlockTsAt → Option (LiveFeed ι × BlockTsAt)
  | .start =>
      -- `!event?.log?.blockNumber` is true of block 0 too
      if event.blockNumber = 0 then some (s, .returned none)
      else
        match s.blockTsCache.get? event.blockNumber with
        | some cached => some (s.handle i cached, .returned (some cached))
        | none => some (s.ask i, .getBlock 0)
  | .getBlock attempt =>
      if ok then
        some ((s.remember timestamp event).handle i (timestamp event.blockNumber),
          .returned (some (timestamp event.blockNumber)))
      else
        some ({ s with failed := s.failed ++ [i] },
          if attempt < 2 then .pause attempt else .returned none)
  | .pause attempt => some (s.ask i, .getBlock (attempt + 1))
  | .returned _ => none

/-- The calls for a family of live events. -/
def blockTsCalls (logs : ι → EventLog δ) : Tasks ι Bool (LiveFeed ι) BlockTsAt where
  step i ok s l := blockTsStep timestamp (logs i) i ok s l

/-- No event has come in yet. -/
def liveStart : Tasks.Config ι (LiveFeed ι) BlockTsAt :=
  ⟨⟨OrdMap.empty, [], [], []⟩, fun _ => .start⟩

end

/-! ## One call -/

section

variable {ι δ : Type*} [DecidableEq ι] {timestamp : ℕ → ℕ}

/-- What the calls share is right. -/
structure FeedSound (timestamp : ℕ → ℕ) (logs : ι → EventLog δ) (s : LiveFeed ι) : Prop where
  agrees : s.blockTsCache.Agrees timestamp
  size_le : s.blockTsCache.size ≤ 201
  timed : ∀ i ts, (i, ts) ∈ s.handled → ts = timestamp (logs i).blockNumber

/-- How often an event's block was asked for, how often in vain, and how often the event was
handled. -/
structure Tally (s : LiveFeed ι) (i : ι) (asked failed handled : ℕ) : Prop where
  asked : s.asked.count i = asked
  failed : s.failed.count i = failed
  handled : (s.handled.map Prod.fst).count i = handled

/-- Where a call is says what it has done. -/
def HasAsked (timestamp : ℕ → ℕ) (event : EventLog δ) (s : LiveFeed ι) (i : ι) : BlockTsAt → Prop
  | .start => Tally s i 0 0 0
  | .getBlock attempt => attempt ≤ 2 ∧ event.blockNumber ≠ 0 ∧ Tally s i (attempt + 1) attempt 0
  | .pause attempt =>
      attempt ≤ 1 ∧ event.blockNumber ≠ 0 ∧ Tally s i (attempt + 1) (attempt + 1) 0
  | .returned none =>
      event.blockNumber = 0 ∧ Tally s i 0 0 0 ∨ event.blockNumber ≠ 0 ∧ Tally s i 3 3 0
  | .returned (some ts) =>
      event.blockNumber ≠ 0 ∧ ts = timestamp event.blockNumber ∧
        ∃ asked failed, asked ≤ 3 ∧ failed ≤ 2 ∧ Tally s i asked failed 1

/-- Another event leaves the numbers of this one alone. -/
structure SameTally (s s' : LiveFeed ι) (j : ι) : Prop where
  asked : s'.asked.count j = s.asked.count j
  failed : s'.failed.count j = s.failed.count j
  handled : (s'.handled.map Prod.fst).count j = (s.handled.map Prod.fst).count j

theorem SameTally.tally {s s' : LiveFeed ι} {j : ι} (h : SameTally s s' j)
    {asked failed handled : ℕ} (ht : Tally s j asked failed handled) :
    Tally s' j asked failed handled :=
  ⟨h.asked.trans ht.asked, h.failed.trans ht.failed, h.handled.trans ht.handled⟩

theorem SameTally.hasAsked {s s' : LiveFeed ι} {j : ι} (h : SameTally s s' j)
    {event : EventLog δ} {l : BlockTsAt} (hp : HasAsked timestamp event s j l) :
    HasAsked timestamp event s' j l := by
  cases l with
  | start => exact h.tally hp
  | getBlock attempt => exact ⟨hp.1, hp.2.1, h.tally hp.2.2⟩
  | pause attempt => exact ⟨hp.1, hp.2.1, h.tally hp.2.2⟩
  | returned ts =>
    cases ts with
    | none => exact hp.imp (And.imp_right h.tally) (And.imp_right h.tally)
    | some ts =>
      obtain ⟨hne, hts, asked, failed, hasked, hfailed, ht⟩ := hp
      exact ⟨hne, hts, asked, failed, hasked, hfailed, h.tally ht⟩

omit [DecidableEq ι] in
/-- What one step does: a skip, a hit, a request, an answer or a failure. -/
theorem blockTsStep_cases {event : EventLog δ} {i : ι} {ok : Bool} {s s' : LiveFeed ι}
    {l l' : BlockTsAt} (h : blockTsStep timestamp event i ok s l = some (s', l')) :
    (l = .start ∧ event.blockNumber = 0 ∧ s' = s ∧ l' = .returned none) ∨
    (∃ cached, l = .start ∧ event.blockNumber ≠ 0 ∧
      s.blockTsCache.get? event.blockNumber = some cached ∧ s' = s.handle i cached ∧
      l' = .returned (some cached)) ∨
    (l = .start ∧ event.blockNumber ≠ 0 ∧ s' = s.ask i ∧ l' = .getBlock 0) ∨
    (∃ attempt, l = .pause attempt ∧ s' = s.ask i ∧ l' = .getBlock (attempt + 1)) ∨
    (∃ attempt, l = .getBlock attempt ∧
      s' = (s.remember timestamp event).handle i (timestamp event.blockNumber) ∧
      l' = .returned (some (timestamp event.blockNumber))) ∨
    (∃ attempt, l = .getBlock attempt ∧ s' = { s with failed := s.failed ++ [i] } ∧
      l' = if attempt < 2 then .pause attempt else .returned none) := by
  cases l with
  | start =>
    rw [blockTsStep] at h
    split at h
    · rename_i hzero
      cases h
      exact Or.inl ⟨rfl, hzero, rfl, rfl⟩
    · rename_i hne
      cases hget : s.blockTsCache.get? event.blockNumber with
      | some cached =>
        rw [hget] at h
        cases h
        exact Or.inr (Or.inl ⟨cached, rfl, hne, rfl, rfl, rfl⟩)
      | none =>
        rw [hget] at h
        cases h
        exact Or.inr (Or.inr (Or.inl ⟨rfl, hne, rfl, rfl⟩))
  | getBlock attempt =>
    rw [blockTsStep] at h
    split at h
    · cases h
      exact Or.inr (Or.inr (Or.inr (Or.inr (Or.inl ⟨attempt, rfl, rfl, rfl⟩))))
    · cases h
      exact Or.inr (Or.inr (Or.inr (Or.inr (Or.inr ⟨attempt, rfl, rfl, rfl⟩))))
  | pause attempt =>
    rw [blockTsStep] at h
    cases h
    exact Or.inr (Or.inr (Or.inr (Or.inl ⟨attempt, rfl, rfl, rfl⟩)))
  | returned ts =>
    rw [blockTsStep] at h
    cases h

theorem Tally.handle {s : LiveFeed ι} {i : ι} {asked failed : ℕ} (h : Tally s i asked failed 0)
    (ts : ℕ) : Tally (s.handle i ts) i asked failed 1 := by
  refine ⟨h.asked, h.failed, ?_⟩
  rw [LiveFeed.handle, List.map_append, List.count_append, h.handled, List.map_singleton,
    List.count_singleton_self]

theorem Tally.ask {s : LiveFeed ι} {i : ι} {asked failed handled : ℕ}
    (h : Tally s i asked failed handled) : Tally (s.ask i) i (asked + 1) failed handled := by
  refine ⟨?_, h.failed, h.handled⟩
  rw [LiveFeed.ask, List.count_append, h.asked, List.count_singleton_self]

theorem Tally.fail {s : LiveFeed ι} {i : ι} {asked failed handled : ℕ}
    (h : Tally s i asked failed handled) :
    Tally { s with failed := s.failed ++ [i] } i asked (failed + 1) handled := by
  refine ⟨h.asked, ?_, h.handled⟩
  rw [List.count_append, h.failed, List.count_singleton_self]

theorem sameTally_handle (s : LiveFeed ι) {i j : ι} (hij : i ≠ j) (ts : ℕ) :
    SameTally s (s.handle i ts) j := by
  refine ⟨rfl, rfl, ?_⟩
  rw [LiveFeed.handle, List.map_append, List.count_append, List.map_singleton,
    List.count_singleton, if_neg (by simpa using hij), Nat.add_zero]

theorem sameTally_ask (s : LiveFeed ι) {i j : ι} (hij : i ≠ j) : SameTally s (s.ask i) j := by
  refine ⟨?_, rfl, rfl⟩
  rw [LiveFeed.ask, List.count_append, List.count_singleton, if_neg (by simpa using hij),
    Nat.add_zero]

theorem sameTally_fail (s : LiveFeed ι) {i j : ι} (hij : i ≠ j) :
    SameTally s { s with failed := s.failed ++ [i] } j := by
  refine ⟨rfl, ?_, rfl⟩
  rw [List.count_append, List.count_singleton, if_neg (by simpa using hij), Nat.add_zero]

omit [DecidableEq ι] in
theorem FeedSound.remember {logs : ι → EventLog δ} {s : LiveFeed ι} (h : FeedSound timestamp logs s)
    (event : EventLog δ) : FeedSound timestamp logs (s.remember timestamp event) :=
  ⟨h.agrees.storeBounded 200 _, OrdMap.size_storeBounded_le 200 _ _ _, h.timed⟩

omit [DecidableEq ι] in
theorem FeedSound.handle {logs : ι → EventLog δ} {s : LiveFeed ι} (h : FeedSound timestamp logs s)
    {i : ι} {ts : ℕ} (hts : ts = timestamp (logs i).blockNumber) :
    FeedSound timestamp logs (s.handle i ts) := by
  refine ⟨h.agrees, h.size_le, fun j t hmem => ?_⟩
  rcases List.mem_append.1 hmem with hold | hnew
  · exact h.timed j t hold
  · cases List.mem_singleton.1 hnew
    exact hts

/-- A step keeps the cache right and goes on with its own count. -/
theorem blockTsStep_own {logs : ι → EventLog δ} {i : ι} {ok : Bool} {s s' : LiveFeed ι}
    {l l' : BlockTsAt} (h : blockTsStep timestamp (logs i) i ok s l = some (s', l'))
    (hs : FeedSound timestamp logs s) (hl : HasAsked timestamp (logs i) s i l) :
    FeedSound timestamp logs s' ∧ HasAsked timestamp (logs i) s' i l' := by
  rcases blockTsStep_cases h with ⟨rfl, hzero, rfl, rfl⟩ | ⟨cached, rfl, hne, hget, rfl, rfl⟩ |
    ⟨rfl, hne, rfl, rfl⟩ | ⟨attempt, rfl, rfl, rfl⟩ | ⟨attempt, rfl, rfl, rfl⟩ |
    ⟨attempt, rfl, rfl, rfl⟩
  · exact ⟨hs, Or.inl ⟨hzero, hl⟩⟩
  · have hts := hs.agrees _ _ hget
    exact ⟨hs.handle hts, hne, hts, 0, 0, by decide, by decide, hl.handle cached⟩
  · exact ⟨⟨hs.agrees, hs.size_le, hs.timed⟩, by decide, hne, hl.ask⟩
  · obtain ⟨hle, hne, ht⟩ := hl
    exact ⟨⟨hs.agrees, hs.size_le, hs.timed⟩, by omega, hne, ht.ask⟩
  · obtain ⟨hle, hne, ht⟩ := hl
    have ht' : Tally (s.remember timestamp (logs i)) i (attempt + 1) attempt 0 :=
      ⟨ht.asked, ht.failed, ht.handled⟩
    exact ⟨(hs.remember (logs i)).handle rfl, hne, rfl, attempt + 1, attempt, by omega, hle,
      ht'.handle _⟩
  · obtain ⟨hle, hne, ht⟩ := hl
    refine ⟨⟨hs.agrees, hs.size_le, hs.timed⟩, ?_⟩
    split
    · exact ⟨by omega, hne, ht.fail⟩
    · rename_i hlast
      obtain rfl : attempt = 2 := by omega
      exact Or.inr ⟨hne, ht.fail⟩

/-- Nor does it touch what another call counts. -/
theorem blockTsStep_frame {event : EventLog δ} {i j : ι} (hij : i ≠ j) {ok : Bool}
    {s s' : LiveFeed ι} {l l' : BlockTsAt}
    (h : blockTsStep timestamp event i ok s l = some (s', l')) : SameTally s s' j := by
  rcases blockTsStep_cases h with ⟨-, -, rfl, -⟩ | ⟨cached, -, -, -, rfl, -⟩ | ⟨-, -, rfl, -⟩ |
    ⟨attempt, -, rfl, -⟩ | ⟨attempt, -, rfl, -⟩ | ⟨attempt, -, rfl, -⟩
  · exact ⟨rfl, rfl, rfl⟩
  · exact sameTally_handle s hij cached
  · exact sameTally_ask s hij
  · exact sameTally_ask s hij
  · have hsame := sameTally_handle (s.remember timestamp event) hij (timestamp event.blockNumber)
    exact ⟨hsame.asked, hsame.failed, hsame.handled⟩
  · exact sameTally_fail s hij

/-! ## Whole runs -/

variable (timestamp)

theorem blockTsOutline (logs : ι → EventLog δ) :
    (blockTsCalls timestamp logs).Outline (FeedSound timestamp logs)
      fun i l s => HasAsked timestamp (logs i) s i l := by
  constructor
  · intro i ok s l s' l' h hs hl
    exact blockTsStep_own h hs hl
  · intro i ok s l s' l' j m hij h _ _ hm
    exact (blockTsStep_frame hij h).hasAsked hm

variable {timestamp}

theorem feed_after_run {logs : ι → EventLog δ} {schedule : List (ι × Bool)}
    {c : Tasks.Config ι (LiveFeed ι) BlockTsAt}
    (h : (blockTsCalls timestamp logs).run schedule liveStart = some c) :
    FeedSound timestamp logs c.shared ∧
      ∀ i, HasAsked timestamp (logs i) c.shared i (c.locals i) := by
  refine (blockTsOutline timestamp logs).run ?_ ?_ h
  · exact ⟨OrdMap.agrees_empty timestamp, Nat.zero_le _, fun i ts hmem => by cases hmem⟩
  · intro i
    exact ⟨rfl, rfl, rfl⟩

theorem HasAsked.asked_le {event : EventLog δ} {s : LiveFeed ι} {i : ι} {l : BlockTsAt}
    (h : HasAsked timestamp event s i l) : s.asked.count i ≤ 3 := by
  cases l with
  | start => exact h.asked ▸ Nat.zero_le 3
  | getBlock attempt => exact h.2.2.asked ▸ Nat.succ_le_succ h.1
  | pause attempt => exact h.2.2.asked ▸ (Nat.succ_le_succ h.1).trans (by decide)
  | returned ts =>
    cases ts with
    | none =>
      rcases h with ⟨-, ht⟩ | ⟨-, ht⟩
      · exact ht.asked ▸ Nat.zero_le 3
      · exact ht.asked.le
    | some ts =>
      obtain ⟨-, -, asked, failed, hasked, -, ht⟩ := h
      exact ht.asked ▸ hasked

/-- Handled once, and with the right time. -/
theorem Tally.count_handled {logs : ι → EventLog δ} {s : LiveFeed ι} {i : ι} {asked failed : ℕ}
    (h : Tally s i asked failed 1)
    (htimed : ∀ j ts, (j, ts) ∈ s.handled → ts = timestamp (logs j).blockNumber) :
    s.handled.count (i, timestamp (logs i).blockNumber) = 1 := by
  have hpos : 0 < (s.handled.map Prod.fst).count i := by
    rw [h.handled]
    exact Nat.one_pos
  obtain ⟨⟨j, ts⟩, hpair, rfl⟩ := List.mem_map.1 (List.count_pos_iff.1 hpos)
  have hts : ts = timestamp (logs j).blockNumber := htimed j ts hpair
  apply Nat.le_antisymm
  · exact (List.count_le_count_map (f := Prod.fst)).trans h.handled.le
  · exact List.count_pos_iff.2 (hts ▸ hpair)

/-- **Live events carry the time of their block.**  However the calls for any set of live events
interleave, and whichever requests fail: the cache holds at most 201 blocks, each with its own
time; no event's block is asked for more than three times; an event that was not skipped is
handled exactly once, with the time of its block; and one that was skipped is of block 0 or had
all three requests fail. -/
theorem live_events_timed (timestamp : ℕ → ℕ) (logs : ι → EventLog δ)
    (schedule : List (ι × Bool)) (c : Tasks.Config ι (LiveFeed ι) BlockTsAt)
    (hrun : (blockTsCalls timestamp logs).run schedule liveStart = some c) :
    (∀ b ts, c.shared.blockTsCache.get? b = some ts → ts = timestamp b) ∧
      c.shared.blockTsCache.size ≤ 201 ∧
      (∀ i ts, (i, ts) ∈ c.shared.handled → ts = timestamp (logs i).blockNumber) ∧
      ∀ i, c.shared.asked.count i ≤ 3 ∧
        (∀ ts, c.locals i = .returned (some ts) →
          ts = timestamp (logs i).blockNumber ∧ c.shared.handled.count (i, ts) = 1) ∧
        (c.locals i = .returned none → (∀ ts, (i, ts) ∉ c.shared.handled) ∧
          ((logs i).blockNumber = 0 ∨ c.shared.failed.count i = 3)) := by
  obtain ⟨⟨hagrees, hsize, htimed⟩, hcalls⟩ := feed_after_run hrun
  refine ⟨hagrees, hsize, htimed, fun i => ?_⟩
  have hi := hcalls i
  refine ⟨?_, fun ts hl => ?_, fun hl => ?_⟩
  · exact hi.asked_le
  · rw [hl] at hi
    obtain ⟨-, hts, asked, failed, -, -, ht⟩ := hi
    exact ⟨hts, hts ▸ ht.count_handled htimed⟩
  · rw [hl] at hi
    have hno : ∀ {asked failed : ℕ}, Tally c.shared i asked failed 0 →
        ∀ ts, (i, ts) ∉ c.shared.handled := by
      intro asked failed ht ts hmem
      exact List.count_eq_zero.1 ht.handled (List.mem_map_of_mem hmem)
    rcases hi with ⟨hzero, ht⟩ | ⟨-, ht⟩
    · exact ⟨hno ht, Or.inl hzero⟩
    · exact ⟨hno ht, Or.inr ht.failed⟩

end

/-- Two events of one block, and one of another. -/
def threeLive : Fin 3 → EventLog Unit :=
  ![⟨7, "0x01", "0xaa", ()⟩, ⟨7, "0x02", "0xaa", ()⟩, ⟨9, "0x03", "0xaa", ()⟩]

/-- The first two both ask for their block, the second after a failure; the third is skipped. -/
def threeLiveSchedule : List (Fin 3 × Bool) :=
  [(0, true), (1, true), (2, true), (1, false), (0, true), (2, false), (1, true), (2, true),
    (1, true), (2, false), (2, true), (2, false)]

/-- The law at work on them. -/
theorem threeLive_timed :
    ∃ c, (blockTsCalls (fun b => 1000 * b) threeLive).run threeLiveSchedule liveStart = some c ∧
      c.locals 1 = .returned (some 7000) ∧ c.locals 2 = .returned none ∧
        ∀ i, c.shared.asked.count i ≤ 3 :=
  ⟨_, rfl, rfl, rfl, fun i =>
    ((live_events_timed (fun b => 1000 * b) threeLive threeLiveSchedule _ rfl).2.2.2 i).1⟩

/-! ## Both paths -/

section

variable {δ : Type*} {rpc : Rpc δ}

/-- What the backfill has remembered and handed over is right. -/
structure Saved.Timed (rpc : Rpc δ) (s : Saved δ) : Prop where
  agrees : s.blockTimestamp.Agrees rpc.timestamp
  timed : ∀ d ∈ s.delivered, d.blockTimestamp = rpc.timestamp d.event.blockNumber

theorem getBlockWithRetry_ok {b ts : ℕ} :
    ∀ {left retries : ℕ}, getBlockWithRetry rpc b left retries = .ok ts → ts = rpc.timestamp b := by
  intro left
  induction left with
  | zero =>
    intro retries h
    rw [getBlockWithRetry] at h
    split at h
    · cases h
      rfl
    · cases h
  | succ left ih =>
    intro retries h
    rw [getBlockWithRetry] at h
    split at h
    · cases h
      rfl
    · split at h
      · exact ih h
      · cases h

theorem Saved.Timed.deliver {s : Saved δ} (h : s.Timed rpc) (event : EventLog δ) :
    (s.deliver event (rpc.timestamp event.blockNumber)).Timed rpc := by
  refine ⟨h.agrees, fun d hd => ?_⟩
  rcases List.mem_append.1 hd with hold | hnew
  · exact h.timed d hold
  · rw [List.mem_singleton.1 hnew]

theorem saveEvents_timed (topicHashes : List String) (events : List (EventLog δ)) {s : Saved δ}
    (h : s.Timed rpc) : (saveEvents rpc topicHashes events s).1.Timed rpc := by
  induction events generalizing s with
  | nil => exact h
  | cons event events ih =>
    rw [saveEvents]
    split
    · split
      · rename_i ts hget
        rw [h.agrees _ _ hget]
        exact ih (h.deliver event)
      · split
        · exact h
        · rename_i ts hok
          rw [getBlockWithRetry_ok hok]
          have hset : Saved.Timed rpc { s with
              blockTimestamp := s.blockTimestamp.set event.blockNumber
                (rpc.timestamp event.blockNumber) } := ⟨h.agrees.set _, h.timed⟩
          exact ih (hset.deliver event)
    · exact ih h

theorem filterChunk_timed {topicHashes : List String} {endBlock : ℕ} {s s' : FilterState δ}
    (hs : s.saved.Timed rpc) (h : filterChunk rpc topicHashes endBlock s = .next s') :
    s'.saved.Timed rpc := by
  unfold filterChunk at h
  simp only at h
  cases hq : rpc.queryFails s.queries with
  | some e =>
    rw [hq] at h
    rw [(onError_next h).2.1]
    exact hs
  | none =>
    rw [hq] at h
    simp only at h
    have hsaved := saveEvents_timed topicHashes
      (rpc.queryFilter topicHashes s.i (s.endOfChunk endBlock)) hs
    generalize saveEvents rpc topicHashes
      (rpc.queryFilter topicHashes s.i (s.endOfChunk endBlock)) s.saved = r at h hsaved
    obtain ⟨saved, err⟩ := r
    cases err with
    | none =>
      cases h
      exact hsaved
    | some e =>
      rw [(onError_next h).2.1]
      exact hsaved

theorem filterFrom_timed {topicHashes : List String} {endBlock : ℕ} :
    ∀ (fuel : ℕ) {s s' : FilterState δ}, s.saved.Timed rpc →
      filterFrom rpc topicHashes endBlock fuel s = .returned s' → s'.saved.Timed rpc := by
  intro fuel
  induction fuel with
  | zero =>
    intro s s' _ h
    cases h
  | succ fuel ih =>
    intro s s' hs h
    rw [filterFrom] at h
    by_cases hlt : s.i < endBlock
    · rw [if_pos hlt] at h
      cases hstep : filterChunk rpc topicHashes endBlock s with
      | next s₁ =>
        rw [hstep] at h
        exact ih (filterChunk_timed hs hstep) h
      | threw e =>
        rw [hstep] at h
        cases h
    · rw [if_neg hlt] at h
      cases h
      exact hs

theorem genericFilterer_timed {topicHashes : List String} {fuel fromBlock currentBlock : ℕ}
    {s : FilterState δ}
    (h : genericFilterer rpc topicHashes fuel fromBlock currentBlock = .returned s) :
    s.saved.Timed rpc :=
  filterFrom_timed fuel ⟨OrdMap.agrees_empty _, fun d hd => by cases hd⟩ h

/-- **Live and backfill hand over the same.**  Whatever calls fail on either path: an event both
hand over comes with the same data and the same time.  If every block can be had in the end, a
backfill that returns hands over every event of its range, also those the live path skipped. -/
theorem live_agrees_with_backfill {ι : Type*} [DecidableEq ι] (rpc : Rpc δ) (logs : ι → EventLog δ)
    (schedule : List (ι × Bool)) (c : Tasks.Config ι (LiveFeed ι) BlockTsAt)
    (hrun : (blockTsCalls rpc.timestamp logs).run schedule liveStart = some c)
    (topicHashes : List String) (fuel fromBlock currentBlock : ℕ) (s : FilterState δ)
    (hback : genericFilterer rpc topicHashes fuel fromBlock currentBlock = .returned s) :
    (∀ i ts, (i, ts) ∈ c.shared.handled → ∀ d ∈ s.saved.delivered, d.event = logs i →
        d = ⟨logs i, ts⟩) ∧
      ((∀ b, ¬ GetBlockGivesUp rpc b) → ∀ i, logs i ∈ rpc.history →
        (logs i).topic0 ∈ topicHashes → fromBlock ≤ (logs i).blockNumber →
        (logs i).blockNumber < currentBlock →
        ⟨logs i, rpc.timestamp (logs i).blockNumber⟩ ∈ s.saved.delivered) := by
  have htimed := (genericFilterer_timed hback).timed
  have hlive := (feed_after_run hrun).1.timed
  refine ⟨?_, ?_⟩
  · rintro i ts hmem ⟨event, blockTs⟩ hd rfl
    rw [hlive i ts hmem]
    exact congrArg _ (htimed _ hd)
  · intro hnode i hhistory htopic hfrom hlt
    obtain ⟨hinv, hend⟩ := loopInv_filterFrom fuel (loopInv_init rpc topicHashes fromBlock _) hback
    have hmoved : MovedPast rpc topicHashes fromBlock currentBlock s.i (logs i) :=
      ⟨hhistory, htopic, hfrom, hlt.trans_le hend, hlt.le⟩
    rcases hinv.complete with hall | ⟨event, -, hgives⟩
    · obtain ⟨ts, hd⟩ := hall (logs i) hmoved
      have hts : ts = rpc.timestamp (logs i).blockNumber := htimed _ hd
      exact hts ▸ hd
    · exact absurd hgives (hnode _)

end

/-- A node that answers everything. -/
def threeLiveRpc : Rpc Unit where
  history := List.ofFn threeLive
  timestamp b := 1000 * b
  queryFails _ := none
  getBlockFails _ _ := none

/-- The third event, skipped above, comes with the backfill. -/
theorem threeLive_backfilled :
    ∃ s, genericFilterer threeLiveRpc ["0xaa"] 2 0 10 = .returned s ∧
      (⟨threeLive 2, 9000⟩ : Delivery Unit) ∈ s.saved.delivered := by
  have hnode : ∀ b, ¬ GetBlockGivesUp threeLiveRpc b := by
    rintro b ⟨r, -, -, e, he, -⟩
    cases he
  have hlaw := live_agrees_with_backfill threeLiveRpc threeLive threeLiveSchedule _ rfl ["0xaa"] 2
    0 10 _ rfl
  exact ⟨_, rfl, hlaw.2 hnode 2 (by decide) (by decide) (by decide) (by decide)⟩

end TraderBackend
