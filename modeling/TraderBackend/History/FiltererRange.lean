import TraderBackend.History.Filterer

/-!
# What a healthy node makes the filterer deliver

When no request fails, `genericFilterer` keeps its chunk size, returns, and has
handed over exactly the logs of the blocks it scanned, each with the timestamp
of its block.

* `Scanned` — the blocks of a run; the last one is left out when the range is a
  multiple of the chunk size.
* `saveEvents_healthy` — one chunk; `Progress`, `progress_filterChunk` — the
  invariant of the loop and its step lemma.
* `genericFilterer_healthy` — the whole run.
-/

namespace TraderBackend

variable {δ : Type*}

/-- No request fails. -/
structure Rpc.Healthy (rpc : Rpc δ) : Prop where
  query : ∀ n, rpc.queryFails n = none
  getBlock : ∀ b r, rpc.getBlockFails b r = none

/-- The blocks a run over `fromBlock..endBlock` asks for. -/
def Scanned (fromBlock endBlock b : ℕ) : Prop :=
  fromBlock ≤ b ∧ b ≤ endBlock ∧ (b < endBlock ∨ (endBlock - fromBlock) % 9999 ≠ 0)

/-- Every cached timestamp is that of its block. -/
def Saved.Correct (rpc : Rpc δ) (s : Saved δ) : Prop :=
  ∀ b ts, s.blockTimestamp.get? b = some ts → ts = rpc.timestamp b

/-- A delivery with the right timestamp. -/
def Rpc.deliver (rpc : Rpc δ) (event : EventLog δ) : Delivery δ :=
  ⟨event, rpc.timestamp event.blockNumber⟩

theorem saveEvents_healthy {rpc : Rpc δ} (hrpc : rpc.Healthy) (topicHashes : List String)
    {events : List (EventLog δ)} (htopics : ∀ event ∈ events, event.topic0 ∈ topicHashes)
    {s : Saved δ} (hs : s.Correct rpc) :
    ∃ s', saveEvents rpc topicHashes events s = (s', none) ∧ s'.Correct rpc ∧
      s'.delivered = s.delivered ++ events.map rpc.deliver := by
  induction events generalizing s with
  | nil => exact ⟨s, rfl, hs, by simp⟩
  | cons event events ih =>
    have htopic := htopics event List.mem_cons_self
    have hrest := fun ev hev => htopics ev (List.mem_cons_of_mem event hev)
    have hnext : ∀ cache, (⟨cache, s.delivered⟩ : Saved δ).Correct rpc →
        ∃ s', saveEvents rpc topicHashes events
            (Saved.deliver ⟨cache, s.delivered⟩ event (rpc.timestamp event.blockNumber)) =
              (s', none) ∧ s'.Correct rpc ∧
          s'.delivered = s.delivered ++ (event :: events).map rpc.deliver := by
      intro cache hcache
      obtain ⟨s', hrun, hcorrect, hdelivered⟩ := ih hrest
        (s := Saved.deliver ⟨cache, s.delivered⟩ event (rpc.timestamp event.blockNumber)) hcache
      refine ⟨s', hrun, hcorrect, ?_⟩
      rw [hdelivered]
      simp [Saved.deliver, Rpc.deliver]
    cases hget : s.blockTimestamp.get? event.blockNumber with
    | some ts =>
      obtain rfl := hs _ ts hget
      simpa only [saveEvents, if_pos htopic, hget] using hnext s.blockTimestamp hs
    | none =>
      have hfetch : getBlockWithRetry rpc event.blockNumber 5 0 =
          .ok (rpc.timestamp event.blockNumber) := by
        simp [getBlockWithRetry, hrpc.getBlock]
      simp only [saveEvents, if_pos htopic, hget, hfetch]
      apply hnext
      intro b ts hb
      rcases OrdMap.get?_set_cases hb with ⟨rfl, rfl⟩ | hold
      · rfl
      · exact hs b ts hold

/-- The invariant of the loop: whole chunks are behind it and their logs delivered. -/
structure Progress (rpc : Rpc δ) (topicHashes : List String) (fromBlock endBlock : ℕ)
    (s : FilterState δ) : Prop where
  chunk : s.deltaBlocks = 9999
  aligned : ∃ m, s.i = fromBlock + 9999 * m
  reach : s.i = fromBlock ∨ s.i < endBlock + 9999
  correct : s.saved.Correct rpc
  delivered : ∀ d, d ∈ s.saved.delivered ↔ d = rpc.deliver d.event ∧ d.event ∈ rpc.history ∧
    d.event.topic0 ∈ topicHashes ∧ fromBlock ≤ d.event.blockNumber ∧
    d.event.blockNumber < s.i ∧ d.event.blockNumber ≤ endBlock

theorem progress_init (rpc : Rpc δ) (topicHashes : List String) (fromBlock endBlock : ℕ) :
    Progress rpc topicHashes fromBlock endBlock (FilterState.init fromBlock) where
  chunk := rfl
  aligned := ⟨0, rfl⟩
  reach := Or.inl rfl
  correct := by intro b ts h; simp [FilterState.init] at h
  delivered := by
    intro d
    simp only [FilterState.init, List.not_mem_nil, false_iff]
    omega

/-- The step lemma of the loop. -/
theorem progress_filterChunk {rpc : Rpc δ} (hrpc : rpc.Healthy) {topicHashes : List String}
    {fromBlock endBlock : ℕ} {s : FilterState δ}
    (hs : Progress rpc topicHashes fromBlock endBlock s) (hlt : s.i < endBlock) :
    ∃ s', filterChunk rpc topicHashes endBlock s = .next s' ∧ s'.i = s.i + 9999 ∧
      Progress rpc topicHashes fromBlock endBlock s' := by
  have hchunk := hs.chunk
  obtain ⟨m, hm⟩ := hs.aligned
  have htopics : ∀ event ∈ rpc.queryFilter topicHashes s.i (s.endOfChunk endBlock),
      event.topic0 ∈ topicHashes := fun event hev => (mem_queryFilter.1 hev).2.2.2
  obtain ⟨saved, hsave, hcorrect, hdelivered⟩ := saveEvents_healthy hrpc topicHashes htopics
    hs.correct
  let found := (rpc.queryFilter topicHashes s.i (s.endOfChunk endBlock)).length
  have hnext : filterChunk rpc topicHashes endBlock s =
      .next { s.afterQuery found with
        queries := s.queries + 1
        ranges := s.ranges ++ [(s.i, s.endOfChunk endBlock)]
        saved := saved } := by
    simp only [filterChunk, hrpc.query, hsave]
    rfl
  refine ⟨_, hnext, by simp [FilterState.afterQuery, hchunk], ?_, ⟨m + 1, ?_⟩, Or.inr ?_,
    hcorrect, fun d => ?_⟩
  · simp [FilterState.afterQuery, hchunk]
  · simp only [FilterState.afterQuery, hchunk, hm]
    omega
  · simp only [FilterState.afterQuery, hchunk]
    omega
  · simp only [FilterState.afterQuery, hdelivered, List.mem_append, hs.delivered, List.mem_map,
      mem_queryFilter, FilterState.endOfChunk, hchunk]
    constructor
    · rintro (⟨hd, hmem, htopic, hlow, hhigh, hend⟩ | ⟨event, ⟨hmem, hlow, hhigh, htopic⟩, rfl⟩)
      · exact ⟨hd, hmem, htopic, hlow, by omega, hend⟩
      · have hevent : (rpc.deliver event).event = event := rfl
        rw [hevent]
        exact ⟨rfl, hmem, htopic, by omega, by omega, by omega⟩
    · rintro ⟨hd, hmem, htopic, hlow, hhigh, hend⟩
      by_cases hold : d.event.blockNumber < s.i
      · exact Or.inl ⟨hd, hmem, htopic, hlow, hold, hend⟩
      · exact Or.inr ⟨d.event, ⟨hmem, by omega, by omega, htopic⟩, hd.symm⟩

/-- The run lemma of the loop. -/
theorem filterFrom_healthy {rpc : Rpc δ} (hrpc : rpc.Healthy) {topicHashes : List String}
    {fromBlock endBlock : ℕ} (fuel : ℕ) {s : FilterState δ}
    (hs : Progress rpc topicHashes fromBlock endBlock s) (hfuel : endBlock - s.i < fuel) :
    ∃ s', filterFrom rpc topicHashes endBlock fuel s = .returned s' ∧
      Progress rpc topicHashes fromBlock endBlock s' ∧ endBlock ≤ s'.i := by
  induction fuel generalizing s with
  | zero => omega
  | succ fuel ih =>
    rw [filterFrom]
    by_cases hlt : s.i < endBlock
    · obtain ⟨s', hnext, hi, hs'⟩ := progress_filterChunk hrpc hs hlt
      rw [if_pos hlt, hnext]
      exact ih hs' (by omega)
    · rw [if_neg hlt]
      exact ⟨s, rfl, hs, by omega⟩

/-- A healthy node's run returns and has delivered the logs of the scanned blocks. -/
theorem genericFilterer_healthy {rpc : Rpc δ} (hrpc : rpc.Healthy) (topicHashes : List String)
    {fuel fromBlock endBlock : ℕ} (hfuel : endBlock - fromBlock < fuel) :
    ∃ s, genericFilterer rpc topicHashes fuel fromBlock endBlock = .returned s ∧
      ∀ d, d ∈ s.saved.delivered ↔ d = rpc.deliver d.event ∧ d.event ∈ rpc.history ∧
        d.event.topic0 ∈ topicHashes ∧ Scanned fromBlock endBlock d.event.blockNumber := by
  obtain ⟨s, hrun, hs, hend⟩ := filterFrom_healthy hrpc fuel
    (progress_init rpc topicHashes fromBlock endBlock) hfuel
  refine ⟨s, hrun, fun d => ?_⟩
  obtain ⟨m, hm⟩ := hs.aligned
  have hreach := hs.reach
  rw [hs.delivered]
  -- the index ends past `endBlock` unless the chunks fill the range exactly
  have hlast : (d.event.blockNumber < s.i ∧ d.event.blockNumber ≤ endBlock) ∧
      fromBlock ≤ d.event.blockNumber ↔ Scanned fromBlock endBlock d.event.blockNumber := by
    unfold Scanned
    omega
  rw [← hlast]
  tauto

end TraderBackend
