import TraderBackend.History.Filterer

/-!
# What the filterer hands over

Which of the logs in the blocks it has moved past does `genericFilterer` hand to
its callback?

* `GetBlockGivesUp` — the retry loop around `getBlock` ends in an error;
  `getBlockWithRetry_error_iff` reads this off the node's answers.
* `saveEvents_spec` — one chunk: either every log is delivered, or the chunk
  holds a log of a block whose timestamp cannot be had.
* `LoopInv`, `loopInv_filterChunk` — the invariant of the loop and its step
  lemma; `loopInv_filterFrom` carries it over a whole run.
* `filterFrom_ends` — a node that fails only finitely many queries lets the loop
  end.
* `genericFilterer_delivers_iff` — a run that returns has delivered everything
  it moved past **if and only if** no such block lies in its range.  The loop
  index moves on before the chunk is handed over, so an error in the middle of
  a chunk drops the rest of it for good.
-/

namespace TraderBackend

variable {δ : Type*}

/-! ## The retry loop around `getBlock` -/

/-- The node's answers make the retry loop for block `b` end in an error: after some
rate limits comes another error, or a sixth rate limit. -/
def GetBlockGivesUp (rpc : Rpc δ) (b : ℕ) : Prop :=
  ∃ r ≤ 5, (∀ k < r, ∃ e, rpc.getBlockFails b k = some e ∧ isRateLimitError e = true) ∧
    ∃ e, rpc.getBlockFails b r = some e ∧ (isRateLimitError e = false ∨ r = 5)

/-- The loop entered with `retries` rate limits behind it and `left` still allowed. -/
theorem getBlockWithRetry_error_iff_from (rpc : Rpc δ) (b : ℕ) :
    ∀ left retries : ℕ, left + retries = 5 →
      ((∃ e, getBlockWithRetry rpc b left retries = .error e) ↔
        ∃ r ≤ 5, retries ≤ r ∧
          (∀ k, retries ≤ k → k < r →
            ∃ e, rpc.getBlockFails b k = some e ∧ isRateLimitError e = true) ∧
          ∃ e, rpc.getBlockFails b r = some e ∧ (isRateLimitError e = false ∨ r = 5)) := by
  intro left
  induction left with
  | zero =>
    intro retries hsum
    have h5 : retries = 5 := by omega
    subst h5
    cases hf : rpc.getBlockFails b 5 with
    | none =>
      simp only [getBlockWithRetry, hf, reduceCtorEq, exists_false, false_iff]
      rintro ⟨r, hr, hlow, -, e, he, -⟩
      have : r = 5 := by omega
      rw [this, hf] at he
      exact absurd he (by simp)
    | some e =>
      simp only [getBlockWithRetry, hf]
      exact ⟨fun _ => ⟨5, le_refl 5, le_refl 5, fun k h1 h2 => by omega, e, hf, Or.inr rfl⟩,
        fun _ => ⟨e, rfl⟩⟩
  | succ left ih =>
    intro retries hsum
    cases hf : rpc.getBlockFails b retries with
    | none =>
      simp only [getBlockWithRetry, hf, reduceCtorEq, exists_false, false_iff]
      rintro ⟨r, hr, hlow, hrate, e, he, -⟩
      rcases Nat.eq_or_lt_of_le hlow with rfl | hlt
      · rw [hf] at he; exact absurd he (by simp)
      · obtain ⟨e', he', -⟩ := hrate retries (le_refl _) hlt
        rw [hf] at he'; exact absurd he' (by simp)
    | some e =>
      by_cases hrl : isRateLimitError e = true
      · simp only [getBlockWithRetry, hf, hrl, if_true]
        rw [ih (retries + 1) (by omega)]
        constructor
        · rintro ⟨r, hr, hlow, hrate, hlast⟩
          refine ⟨r, hr, by omega, fun k hk1 hk2 => ?_, hlast⟩
          rcases Nat.eq_or_lt_of_le hk1 with rfl | hlt
          · exact ⟨e, hf, hrl⟩
          · exact hrate k hlt hk2
        · rintro ⟨r, hr, hlow, hrate, e', he', hlast⟩
          rcases Nat.eq_or_lt_of_le hlow with rfl | hlt
          · -- the error at hand is a rate limit and not the sixth one
            rw [hf] at he'
            rw [← Option.some.inj he'] at hlast
            rcases hlast with h | h
            · rw [hrl] at h; exact absurd h (by simp)
            · omega
          · exact ⟨r, hr, hlt, fun k hk1 hk2 => hrate k (by omega) hk2, e', he', hlast⟩
      · simp only [Bool.not_eq_true] at hrl
        simp only [getBlockWithRetry, hf, hrl, Bool.false_eq_true, if_false]
        exact ⟨fun _ => ⟨retries, by omega, le_refl _, fun k h1 h2 => by omega, e, hf, Or.inl hrl⟩,
          fun _ => ⟨e, rfl⟩⟩

/-- The retry loop fails exactly when the node's answers make it give up. -/
theorem getBlockWithRetry_error_iff (rpc : Rpc δ) (b : ℕ) :
    (∃ e, getBlockWithRetry rpc b 5 0 = .error e) ↔ GetBlockGivesUp rpc b := by
  rw [getBlockWithRetry_error_iff_from rpc b 5 0 rfl]
  constructor
  · rintro ⟨r, hr, -, hrate, hlast⟩
    exact ⟨r, hr, fun k hk => hrate k (Nat.zero_le k) hk, hlast⟩
  · rintro ⟨r, hr, hrate, hlast⟩
    exact ⟨r, hr, Nat.zero_le r, fun k _ hk => hrate k hk, hlast⟩

/-! ## One chunk -/

/-- `saveEvents` only appends deliveries of the events it is given, in blocks whose
timestamp can be had, and only caches the blocks of those events. -/
structure SaveSpec (rpc : Rpc δ) (topicHashes : List String) (events : List (EventLog δ))
    (s : Saved δ) (r : Saved δ × Option RpcError) : Prop where
  /-- Earlier deliveries stay. -/
  kept : ∀ d ∈ s.delivered, d ∈ r.1.delivered
  /-- New deliveries are of the given events. -/
  added : ∀ d ∈ r.1.delivered, d ∈ s.delivered ∨
    (d.event ∈ events ∧ d.event.topic0 ∈ topicHashes ∧
      ¬ GetBlockGivesUp rpc d.event.blockNumber)
  /-- New cache entries are of blocks of the given events. -/
  cached : ∀ b ts, r.1.blockTimestamp.get? b = some ts → s.blockTimestamp.get? b = some ts ∨
    ¬ GetBlockGivesUp rpc b
  /-- Without an error every event has been delivered. -/
  complete : r.2 = none → ∀ event ∈ events, event.topic0 ∈ topicHashes →
    ∃ ts, (⟨event, ts⟩ : Delivery δ) ∈ r.1.delivered
  /-- An error comes from a block whose timestamp cannot be had. -/
  failed : ∀ e, r.2 = some e → ∃ event ∈ events, event.topic0 ∈ topicHashes ∧
    GetBlockGivesUp rpc event.blockNumber

/-- Caching a block that can be had leaves only such blocks in the cache. -/
theorem cache_readable {rpc : Rpc δ} {blockNumber : ℕ} {cache : OrdMap ℕ ℕ} (ts : ℕ)
    (hok : ¬ GetBlockGivesUp rpc blockNumber)
    (hcache : ∀ b ts, cache.get? b = some ts → ¬ GetBlockGivesUp rpc b) :
    ∀ b t, (cache.set blockNumber ts).get? b = some t → ¬ GetBlockGivesUp rpc b := by
  intro b t hb
  rcases OrdMap.get?_set_cases hb with ⟨rfl, -⟩ | hold
  · exact hok
  · exact hcache b t hold

/-- An event is delivered and the rest is handed over with the cache `c`. -/
theorem SaveSpec.deliver {rpc : Rpc δ} {topicHashes : List String} {event : EventLog δ}
    {events : List (EventLog δ)} {s : Saved δ} {r : Saved δ × Option RpcError}
    {c : OrdMap ℕ ℕ} {ts : ℕ} (htopic : event.topic0 ∈ topicHashes)
    (hok : ¬ GetBlockGivesUp rpc event.blockNumber)
    (hcache : ∀ b t, c.get? b = some t → ¬ GetBlockGivesUp rpc b)
    (hspec : SaveSpec rpc topicHashes events (Saved.deliver ⟨c, s.delivered⟩ event ts) r) :
    SaveSpec rpc topicHashes (event :: events) s r := by
  have hmem : (⟨event, ts⟩ : Delivery δ) ∈ r.1.delivered :=
    hspec.kept _ (by simp [Saved.deliver])
  refine ⟨fun d hd => hspec.kept d (by simp [Saved.deliver, hd]), fun d hd => ?_,
    fun b t hb => ?_, fun hnone ev hev hevt => ?_, fun e he => ?_⟩
  · rcases hspec.added d hd with h | ⟨h1, h2, h3⟩
    · simp only [Saved.deliver, List.mem_append, List.mem_singleton] at h
      rcases h with h | rfl
      · exact Or.inl h
      · exact Or.inr ⟨List.mem_cons_self .., htopic, hok⟩
    · exact Or.inr ⟨List.mem_cons_of_mem _ h1, h2, h3⟩
  · rcases hspec.cached b t hb with h | h
    · exact Or.inr (hcache b t h)
    · exact Or.inr h
  · rcases List.mem_cons.1 hev with rfl | hev'
    · exact ⟨ts, hmem⟩
    · exact hspec.complete hnone ev hev' hevt
  · obtain ⟨ev, hev, hrest⟩ := hspec.failed e he
    exact ⟨ev, List.mem_cons_of_mem _ hev, hrest⟩

/-- An event of another signature is left out. -/
theorem SaveSpec.skip {rpc : Rpc δ} {topicHashes : List String} {event : EventLog δ}
    {events : List (EventLog δ)} {s : Saved δ} {r : Saved δ × Option RpcError}
    (htopic : event.topic0 ∉ topicHashes) (hspec : SaveSpec rpc topicHashes events s r) :
    SaveSpec rpc topicHashes (event :: events) s r := by
  refine ⟨hspec.kept, fun d hd => ?_, hspec.cached, fun hnone ev hev hevt => ?_, fun e he => ?_⟩
  · rcases hspec.added d hd with h | ⟨h1, h2⟩
    · exact Or.inl h
    · exact Or.inr ⟨List.mem_cons_of_mem _ h1, h2⟩
  · rcases List.mem_cons.1 hev with rfl | hev'
    · exact absurd hevt htopic
    · exact hspec.complete hnone ev hev' hevt
  · obtain ⟨ev, hev, hrest⟩ := hspec.failed e he
    exact ⟨ev, List.mem_cons_of_mem _ hev, hrest⟩

theorem saveEvents_spec (rpc : Rpc δ) (topicHashes : List String) :
    ∀ (events : List (EventLog δ)) (s : Saved δ),
      (∀ b ts, s.blockTimestamp.get? b = some ts → ¬ GetBlockGivesUp rpc b) →
      SaveSpec rpc topicHashes events s (saveEvents rpc topicHashes events s) := by
  intro events
  induction events with
  | nil =>
    intro s _
    exact ⟨fun d hd => hd, fun d hd => Or.inl hd, fun b ts h => Or.inl h,
      fun _ event he => absurd he List.not_mem_nil, fun e he => absurd he (by simp [saveEvents])⟩
  | cons event events ih =>
    intro s hcache
    by_cases htopic : event.topic0 ∈ topicHashes
    · cases hget : s.blockTimestamp.get? event.blockNumber with
      | some ts =>
        have hrun : saveEvents rpc topicHashes (event :: events) s =
            saveEvents rpc topicHashes events (s.deliver event ts) := by
          simp only [saveEvents, if_pos htopic, hget]
        rw [hrun]
        exact SaveSpec.deliver htopic (hcache _ ts hget) hcache (ih _ hcache)
      | none =>
        cases hfetch : getBlockWithRetry rpc event.blockNumber 5 0 with
        | error e =>
          have hrun : saveEvents rpc topicHashes (event :: events) s = (s, some e) := by
            simp only [saveEvents, if_pos htopic, hget, hfetch]
          rw [hrun]
          refine ⟨fun d hd => hd, fun d hd => Or.inl hd, fun b ts h => Or.inl h,
            fun hnone => absurd hnone (by simp), fun e' _ => ?_⟩
          exact ⟨event, List.mem_cons_self .., htopic,
            (getBlockWithRetry_error_iff rpc _).1 ⟨e, hfetch⟩⟩
        | ok ts =>
          have hrun : saveEvents rpc topicHashes (event :: events) s =
              saveEvents rpc topicHashes events
                (Saved.deliver ⟨s.blockTimestamp.set event.blockNumber ts, s.delivered⟩
                  event ts) := by
            simp only [saveEvents, if_pos htopic, hget, hfetch]
          have hok : ¬ GetBlockGivesUp rpc event.blockNumber := by
            intro hc
            obtain ⟨e, he⟩ := (getBlockWithRetry_error_iff rpc _).2 hc
            rw [hfetch] at he
            exact absurd he (by simp)
          have hcache' := cache_readable ts hok hcache
          rw [hrun]
          exact SaveSpec.deliver htopic hok hcache' (ih _ hcache')
    · have hrun : saveEvents rpc topicHashes (event :: events) s =
          saveEvents rpc topicHashes events s := by
        simp only [saveEvents, if_neg htopic]
      rw [hrun]
      exact SaveSpec.skip htopic (ih s hcache)

/-! ## The loop -/

/-- The logs in the ranges the loop has moved past when its index is `i`. -/
def MovedPast (rpc : Rpc δ) (topicHashes : List String) (fromBlock endBlock i : ℕ)
    (event : EventLog δ) : Prop :=
  event ∈ rpc.history ∧ event.topic0 ∈ topicHashes ∧
    fromBlock ≤ event.blockNumber ∧ event.blockNumber < i ∧ event.blockNumber ≤ endBlock

/-- The invariant of the loop. -/
structure LoopInv (rpc : Rpc δ) (topicHashes : List String) (fromBlock endBlock : ℕ)
    (s : FilterState δ) : Prop where
  start_le : fromBlock ≤ s.i
  delta_pos : 0 < s.deltaBlocks
  cached : ∀ b ts, s.saved.blockTimestamp.get? b = some ts → ¬ GetBlockGivesUp rpc b
  delivered : ∀ d ∈ s.saved.delivered, ¬ GetBlockGivesUp rpc d.event.blockNumber
  /-- Everything moved past is delivered, or a block moved past has no timestamp. -/
  complete : (∀ event, MovedPast rpc topicHashes fromBlock endBlock s.i event →
      ∃ ts, (⟨event, ts⟩ : Delivery δ) ∈ s.saved.delivered) ∨
    ∃ event, MovedPast rpc topicHashes fromBlock endBlock s.i event ∧
      GetBlockGivesUp rpc event.blockNumber

theorem loopInv_init (rpc : Rpc δ) (topicHashes : List String) (fromBlock endBlock : ℕ) :
    LoopInv rpc topicHashes fromBlock endBlock (FilterState.init fromBlock) where
  start_le := le_refl _
  delta_pos := by simp [FilterState.init]
  cached := by intro b ts h; simp [FilterState.init] at h
  delivered := by intro d hd; simp [FilterState.init] at hd
  complete := by
    apply Or.inl
    intro event h
    have h1 := h.2.2.1
    have h2 := h.2.2.2.1
    simp only [FilterState.init] at h2
    omega

/-- The `catch` block only touches the chunk size and the waiting time. -/
theorem onError_next {error : RpcError} {s s' : FilterState δ} (h : onError error s = .next s') :
    s'.i = s.i ∧ s'.saved = s.saved ∧ (0 < s.deltaBlocks → 0 < s'.deltaBlocks) ∧
      s'.queries = s.queries := by
  unfold onError at h
  split at h
  · cases h
    exact ⟨rfl, rfl, fun _ => by simp only; omega, rfl⟩
  · split at h
    · cases h; exact ⟨rfl, rfl, id, rfl⟩
    · split at h
      · cases h; exact ⟨rfl, rfl, id, rfl⟩
      · cases h

theorem loopInv_onError {rpc : Rpc δ} {topicHashes : List String} {fromBlock endBlock : ℕ}
    {error : RpcError} {s s' : FilterState δ} (hinv : LoopInv rpc topicHashes fromBlock endBlock s)
    (h : onError error s = .next s') : LoopInv rpc topicHashes fromBlock endBlock s' := by
  obtain ⟨hi, hsaved, hdelta, -⟩ := onError_next h
  exact ⟨hi ▸ hinv.start_le, hdelta hinv.delta_pos, hsaved ▸ hinv.cached,
    hsaved ▸ hinv.delivered, by rw [hi, hsaved]; exact hinv.complete⟩

theorem afterQuery_delta_pos {s : FilterState δ} (h : 0 < s.deltaBlocks) (found : ℕ) :
    0 < (s.afterQuery found).deltaBlocks := by
  simp only [FilterState.afterQuery]
  split <;> omega

/-- A chunk: after the query the invariant holds again, whether or not `saveEvents`
came to its end. -/
theorem loopInv_chunk {rpc : Rpc δ} {topicHashes : List String} {fromBlock endBlock : ℕ}
    {s : FilterState δ} {r : Saved δ × Option RpcError} (found : ℕ)
    (hinv : LoopInv rpc topicHashes fromBlock endBlock s)
    (hspec : SaveSpec rpc topicHashes
      (rpc.queryFilter topicHashes s.i (s.endOfChunk endBlock)) s.saved r) :
    LoopInv rpc topicHashes fromBlock endBlock
      { s.afterQuery found with
        queries := s.queries + 1
        ranges := s.ranges ++ [(s.i, s.endOfChunk endBlock)]
        saved := r.1 } := by
  have hdelta := hinv.delta_pos
  -- a log moved past by now is either an old one or one of this chunk
  have hsplit : ∀ event, MovedPast rpc topicHashes fromBlock endBlock (s.i + s.deltaBlocks) event →
      MovedPast rpc topicHashes fromBlock endBlock s.i event ∨
        event ∈ rpc.queryFilter topicHashes s.i (s.endOfChunk endBlock) := by
    rintro event ⟨hmem, htopic, hfrom, hlt, hend⟩
    by_cases hi : event.blockNumber < s.i
    · exact Or.inl ⟨hmem, htopic, hfrom, hi, hend⟩
    · refine Or.inr (mem_queryFilter.2 ⟨hmem, by omega, ?_, htopic⟩)
      rw [FilterState.endOfChunk]
      omega
  have hchunk : ∀ event ∈ rpc.queryFilter topicHashes s.i (s.endOfChunk endBlock),
      MovedPast rpc topicHashes fromBlock endBlock (s.i + s.deltaBlocks) event := by
    intro event hev
    obtain ⟨hmem, hlow, hhigh, htopic⟩ := mem_queryFilter.1 hev
    rw [FilterState.endOfChunk] at hhigh
    have := hinv.start_le
    exact ⟨hmem, htopic, by omega, by omega, by omega⟩
  refine ⟨le_trans hinv.start_le (Nat.le_add_right _ _), afterQuery_delta_pos hdelta found,
    fun b ts hb => ?_, fun d hd => ?_, ?_⟩
  · rcases hspec.cached b ts hb with h | h
    · exact hinv.cached b ts h
    · exact h
  · rcases hspec.added d hd with h | h
    · exact hinv.delivered d h
    · exact h.2.2
  · show (∀ event, MovedPast rpc topicHashes fromBlock endBlock (s.i + s.deltaBlocks) event → _) ∨
      ∃ event, MovedPast rpc topicHashes fromBlock endBlock (s.i + s.deltaBlocks) event ∧ _
    rcases hinv.complete with hall | ⟨event, hpast, hgives⟩
    · cases hr : r.2 with
      | none =>
        apply Or.inl
        intro event hpast
        rcases hsplit event hpast with hold | hnew
        · obtain ⟨ts, hts⟩ := hall event hold
          exact ⟨ts, hspec.kept _ hts⟩
        · exact hspec.complete hr event hnew hpast.2.1
      | some e =>
        obtain ⟨event, hev, -, hgives⟩ := hspec.failed e hr
        exact Or.inr ⟨event, hchunk event hev, hgives⟩
    · obtain ⟨h1, h2, h3, h4, h5⟩ := hpast
      exact Or.inr ⟨event, ⟨h1, h2, h3, by omega, h5⟩, hgives⟩

/-- What an iteration does to the index: it makes one query and moves past the chunk
exactly when that query succeeds. -/
theorem filterChunk_index {rpc : Rpc δ} {topicHashes : List String} {endBlock : ℕ}
    {s s' : FilterState δ} (h : filterChunk rpc topicHashes endBlock s = .next s') :
    s'.queries = s.queries + 1 ∧
      s'.i = if rpc.queryFails s.queries = none then s.i + s.deltaBlocks else s.i := by
  unfold filterChunk at h
  simp only at h
  cases hq : rpc.queryFails s.queries with
  | some e =>
    rw [hq] at h
    obtain ⟨hi, -, -, hqs⟩ := onError_next h
    exact ⟨hqs, by simpa using hi⟩
  | none =>
    rw [hq] at h
    simp only at h
    rw [if_pos rfl]
    split at h
    · cases h; exact ⟨rfl, rfl⟩
    · obtain ⟨hi, -, -, hqs⟩ := onError_next h
      exact ⟨hqs, hi⟩

/-- The step lemma of the loop. -/
theorem loopInv_filterChunk {rpc : Rpc δ} {topicHashes : List String} {fromBlock endBlock : ℕ}
    {s s' : FilterState δ} (hinv : LoopInv rpc topicHashes fromBlock endBlock s)
    (h : filterChunk rpc topicHashes endBlock s = .next s') :
    LoopInv rpc topicHashes fromBlock endBlock s' := by
  unfold filterChunk at h
  simp only at h
  cases hq : rpc.queryFails s.queries with
  | some e =>
    rw [hq] at h
    have hinv' : LoopInv rpc topicHashes fromBlock endBlock { s with queries := s.queries + 1 } :=
      ⟨hinv.start_le, hinv.delta_pos, hinv.cached, hinv.delivered, hinv.complete⟩
    exact loopInv_onError hinv' h
  | none =>
    rw [hq] at h
    simp only at h
    have hspec := saveEvents_spec rpc topicHashes
      (rpc.queryFilter topicHashes s.i (s.endOfChunk endBlock)) s.saved hinv.cached
    generalize saveEvents rpc topicHashes
      (rpc.queryFilter topicHashes s.i (s.endOfChunk endBlock)) s.saved = r at h hspec
    obtain ⟨saved, err⟩ := r
    have hchunk := loopInv_chunk
      (rpc.queryFilter topicHashes s.i (s.endOfChunk endBlock)).length hinv hspec
    cases err with
    | none => cases h; exact hchunk
    | some e => exact loopInv_onError hchunk h

/-- The run lemma of the loop. -/
theorem loopInv_filterFrom {rpc : Rpc δ} {topicHashes : List String} {fromBlock endBlock : ℕ} :
    ∀ (fuel : ℕ) {s s' : FilterState δ}, LoopInv rpc topicHashes fromBlock endBlock s →
      filterFrom rpc topicHashes endBlock fuel s = .returned s' →
      LoopInv rpc topicHashes fromBlock endBlock s' ∧ endBlock ≤ s'.i := by
  intro fuel
  induction fuel with
  | zero => intro s s' _ h; cases h
  | succ fuel ih =>
    intro s s' hinv h
    rw [filterFrom] at h
    by_cases hlt : s.i < endBlock
    · rw [if_pos hlt] at h
      cases hstep : filterChunk rpc topicHashes endBlock s with
      | next s₁ => rw [hstep] at h; exact ih (loopInv_filterChunk hinv hstep) h
      | threw e => rw [hstep] at h; cases h
    · rw [if_neg hlt] at h
      cases h
      exact ⟨hinv, by omega⟩

/-- When the node fails only finitely many queries, the loop comes to an end: every
iteration either makes one of the first `N` queries or moves the index on. -/
theorem filterFrom_ends {rpc : Rpc δ} {topicHashes : List String} {fromBlock endBlock N : ℕ}
    (hN : ∀ n, N ≤ n → rpc.queryFails n = none) :
    ∀ (fuel : ℕ) {s : FilterState δ}, LoopInv rpc topicHashes fromBlock endBlock s →
      (N - s.queries) + (endBlock - s.i) < fuel →
      filterFrom rpc topicHashes endBlock fuel s ≠ .outOfFuel := by
  intro fuel
  induction fuel with
  | zero => intro s _ h; omega
  | succ fuel ih =>
    intro s hinv hfuel
    rw [filterFrom]
    by_cases hlt : s.i < endBlock
    · rw [if_pos hlt]
      cases hstep : filterChunk rpc topicHashes endBlock s with
      | threw e => simp
      | next s₁ =>
        apply ih (loopInv_filterChunk hinv hstep)
        have hdelta := hinv.delta_pos
        obtain ⟨hq, hi⟩ := filterChunk_index hstep
        by_cases hfail : rpc.queryFails s.queries = none
        · rw [if_pos hfail] at hi
          omega
        · have hqN : s.queries < N := by
            by_contra hc
            exact hfail (hN _ (by omega))
          rw [if_neg hfail] at hi
          omega
    · rw [if_neg hlt]; simp

/-- **Which logs are lost.**  A run of `genericFilterer` that returns has handed every
log it moved past to the callback if and only if the node answered, within the retries,
the `getBlock` request for the block of every such log. -/
theorem genericFilterer_delivers_iff (rpc : Rpc δ) (topicHashes : List String)
    (fuel fromBlock currentBlock : ℕ) (s : FilterState δ)
    (h : genericFilterer rpc topicHashes fuel fromBlock currentBlock = .returned s) :
    (∀ event, MovedPast rpc topicHashes fromBlock currentBlock s.i event →
        ∃ ts, (⟨event, ts⟩ : Delivery δ) ∈ s.saved.delivered) ↔
      ∀ event, MovedPast rpc topicHashes fromBlock currentBlock s.i event →
        ¬ GetBlockGivesUp rpc event.blockNumber := by
  obtain ⟨hinv, -⟩ := loopInv_filterFrom fuel
    (loopInv_init rpc topicHashes fromBlock currentBlock) h
  constructor
  · intro hall event hpast
    obtain ⟨ts, hts⟩ := hall event hpast
    exact hinv.delivered _ hts
  · intro hnone
    rcases hinv.complete with hall | ⟨event, hpast, hgives⟩
    · exact hall
    · exact absurd hgives (hnone event hpast)

/-- Two logs in one chunk; the node fails to return the first one's block. -/
def lostRpc : Rpc Unit where
  history := [⟨1, "0xaa", "Trade", ()⟩, ⟨2, "0xbb", "Trade", ()⟩]
  timestamp b := 1000 + b
  queryFails _ := none
  getBlockFails b _ := if b = 1 then some { message := "server error" } else none

/-- The loop state in which the run over the blocks 0 to 10 of `lostRpc` returns. -/
def lostState : FilterState Unit where
  i := 9999
  deltaBlocks := 9999
  lastWaitSeconds := 4
  totalEventsFound := 2
  queries := 1
  ranges := [(0, 10)]
  saved := ⟨OrdMap.empty, []⟩

/-- One failed `getBlock` request: the run returns, nothing was delivered, and the log
of block 2 is lost although its own block is readable. -/
theorem genericFilterer_loses_chunk :
    genericFilterer lostRpc ["Trade"] 3 0 10 = .returned lostState ∧
      ¬ ∀ event, MovedPast lostRpc ["Trade"] 0 10 lostState.i event →
        ∃ ts, (⟨event, ts⟩ : Delivery Unit) ∈ lostState.saved.delivered := by
  refine ⟨rfl, fun h => ?_⟩
  obtain ⟨ts, hts⟩ := h ⟨2, "0xbb", "Trade", ()⟩ (by unfold MovedPast; decide)
  exact absurd hts List.not_mem_nil

/-- The law at work on that run: its range holds a block the node does not return. -/
theorem lostRpc_gives_up :
    ¬ ∀ event, MovedPast lostRpc ["Trade"] 0 10 lostState.i event →
      ¬ GetBlockGivesUp lostRpc event.blockNumber := by
  rw [← genericFilterer_delivers_iff lostRpc ["Trade"] 3 0 10 lostState rfl]
  intro h
  obtain ⟨ts, hts⟩ := h ⟨2, "0xbb", "Trade", ()⟩ (by unfold MovedPast; decide)
  exact absurd hts List.not_mem_nil

end TraderBackend
