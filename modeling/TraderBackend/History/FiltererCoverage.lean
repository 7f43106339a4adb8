import TraderBackend.History.FiltererDelivery

/-!
# The block ranges of a run

Which blocks `genericFilterer` asks the node for.  The chunks follow one another
without a gap, the last one is clipped at the end of the range, and the loop ends
as soon as its index is at the end: when the chunks fill the range exactly, the
last block is never asked for.

* `queriedRanges` — the ranges of the successful queries of a run.
* `Chunks`, `chunksAfter` — the chunk sizes, from the outcomes of the queries alone.
* `queriedFrom_spec` — the ranges are disjoint and reach up to the final index.
* `queriedRanges_cover_iff` — they are the whole range **if and only if** no sum of
  chunk sizes ends at its last block.
-/

namespace TraderBackend

variable {δ : Type*}

/-! ## The ranges -/

/-- The ranges of the successful queries from a loop state on. -/
def queriedFrom (rpc : Rpc δ) (topicHashes : List String) (endBlock : ℕ) :
    ℕ → FilterState δ → List (ℕ × ℕ)
  | 0, _ => []
  | fuel + 1, s =>
      if s.i < endBlock then
        (if rpc.queryFails s.queries = none then [(s.i, s.endOfChunk endBlock)] else []) ++
          match filterChunk rpc topicHashes endBlock s with
          | .next s' => queriedFrom rpc topicHashes endBlock fuel s'
          | .threw _ => []
      else []

/-- The ranges `genericFilterer` queried successfully. -/
def queriedRanges (rpc : Rpc δ) (topicHashes : List String) (fuel fromBlock currentBlock : ℕ) :
    List (ℕ × ℕ) :=
  queriedFrom rpc topicHashes currentBlock fuel (FilterState.init fromBlock)

/-- The ranges are pairwise disjoint and their union is the range from one block to
another, both ends included. -/
def CoverExactly (ranges : List (ℕ × ℕ)) (fromBlock endBlock : ℕ) : Prop :=
  ranges.Pairwise (fun r r' => Disjoint (Set.Icc r.1 r.2) (Set.Icc r'.1 r'.2)) ∧
    {b | ∃ r ∈ ranges, b ∈ Set.Icc r.1 r.2} = Set.Icc fromBlock endBlock

/-! ## The chunk sizes -/

/-- The size of the next chunk and the number of blocks in the chunks before it. -/
structure Chunks where
  deltaBlocks : ℕ
  covered : ℕ
  deriving DecidableEq

/-- What the outcome of a query does to the chunks. -/
def Chunks.next (c : Chunks) : Option RpcError → Chunks
  | none =>
      { deltaBlocks :=
          if 4 * c.deltaBlocks < 3 * 9999 then min 9999 ((5 * c.deltaBlocks + 2) / 4)
          else c.deltaBlocks
        covered := c.covered + c.deltaBlocks }
  | some error =>
      if JsString.includes (formatErrorMessage error) "413" then
        { c with deltaBlocks := max 100 ((3 * c.deltaBlocks + 2) / 4) }
      else c

/-- The chunks after the first queries, given how these fail. -/
def chunksAfter (queryFails : ℕ → Option RpcError) : ℕ → Chunks
  | 0 => ⟨9999, 0⟩
  | n + 1 => (chunksAfter queryFails n).next (queryFails n)

theorem Chunks.covered_le_next (c : Chunks) (outcome : Option RpcError) :
    c.covered ≤ (c.next outcome).covered := by
  cases outcome with
  | none => exact Nat.le_add_right _ _
  | some error =>
    rw [Chunks.next]
    split <;> exact le_refl _

theorem covered_mono (queryFails : ℕ → Option RpcError) :
    Monotone fun n => (chunksAfter queryFails n).covered := by
  apply monotone_nat_of_le_succ
  intro n
  exact Chunks.covered_le_next _ _

/-! ## Where a run gets to -/

variable {rpc : Rpc δ} {topicHashes : List String} {fromBlock endBlock : ℕ}

/-- The index never moves back. -/
theorem i_le_of_filterChunk {s s' : FilterState δ}
    (h : filterChunk rpc topicHashes endBlock s = .next s') : s.i ≤ s'.i := by
  obtain ⟨-, hi⟩ := filterChunk_index h
  rw [hi]
  split <;> omega

theorem i_le_of_filterFrom (fuel : ℕ) {s s' : FilterState δ}
    (h : filterFrom rpc topicHashes endBlock fuel s = .returned s') : s.i ≤ s'.i := by
  induction fuel generalizing s with
  | zero => cases h
  | succ fuel ih =>
    rw [filterFrom] at h
    split at h
    · cases hstep : filterChunk rpc topicHashes endBlock s with
      | next s₁ =>
        rw [hstep] at h
        exact (i_le_of_filterChunk hstep).trans (ih h)
      | threw e => rw [hstep] at h; cases h
    · cases h
      exact le_refl _

/-- The last block of a chunk is not before its first one. -/
theorem i_le_endOfChunk {s : FilterState δ} (hdelta : 0 < s.deltaBlocks) (hlt : s.i < endBlock) :
    s.i ≤ s.endOfChunk endBlock := by
  show s.i ≤ min endBlock (s.i + s.deltaBlocks - 1)
  omega

/-- An iteration records the range of its query if that succeeds. -/
theorem filterChunk_ranges {s s' : FilterState δ}
    (h : filterChunk rpc topicHashes endBlock s = .next s') :
    s'.ranges = s.ranges ++
      if rpc.queryFails s.queries = none then [(s.i, s.endOfChunk endBlock)] else [] := by
  have hcatch : ∀ {error : RpcError} {s₀ : FilterState δ},
      onError error s₀ = .next s' → s'.ranges = s₀.ranges := by
    intro error s₀ hnext
    unfold onError at hnext
    split at hnext
    · cases hnext
      rfl
    · split at hnext
      · cases hnext
        rfl
      · split at hnext <;> cases hnext
        rfl
  unfold filterChunk at h
  simp only at h
  cases hq : rpc.queryFails s.queries with
  | some e =>
    rw [hq] at h
    have hnext : onError e { s with queries := s.queries + 1 } = .next s' := h
    rw [if_neg (by simp), List.append_nil, hcatch hnext]
  | none =>
    rw [hq] at h
    rw [if_pos rfl]
    simp only at h
    split at h
    · cases h
      rfl
    · exact hcatch h

/-- The ranges a run has recorded when it returns. -/
theorem filterFrom_ranges (fuel : ℕ) {s s' : FilterState δ}
    (h : filterFrom rpc topicHashes endBlock fuel s = .returned s') :
    s'.ranges = s.ranges ++ queriedFrom rpc topicHashes endBlock fuel s := by
  induction fuel generalizing s with
  | zero => cases h
  | succ fuel ih =>
    rw [filterFrom] at h
    rw [queriedFrom]
    split at h
    · rename_i hlt
      rw [if_pos hlt]
      cases hstep : filterChunk rpc topicHashes endBlock s with
      | threw e => rw [hstep] at h; cases h
      | next s₁ =>
        rw [hstep] at h
        rw [ih h, filterChunk_ranges hstep, List.append_assoc]
    · rename_i hge
      rw [if_neg hge, List.append_nil]
      cases h
      rfl

/-- They are the ranges traced along its loop. -/
theorem genericFilterer_ranges {fuel : ℕ} {s : FilterState δ}
    (h : genericFilterer rpc topicHashes fuel fromBlock endBlock = .returned s) :
    s.ranges = queriedRanges rpc topicHashes fuel fromBlock endBlock :=
  filterFrom_ranges fuel h

/-- The ranges asked for from a loop state on: none is empty, none reaches into the next one,
and together they are all blocks between the index and the final one that are in the range. -/
theorem queriedFrom_spec (fuel : ℕ) {s s' : FilterState δ}
    (hinv : LoopInv rpc topicHashes fromBlock endBlock s)
    (h : filterFrom rpc topicHashes endBlock fuel s = .returned s') :
    (∀ r ∈ queriedFrom rpc topicHashes endBlock fuel s, s.i ≤ r.1 ∧ r.1 ≤ r.2) ∧
      (queriedFrom rpc topicHashes endBlock fuel s).Pairwise (fun r r' => r.2 < r'.1) ∧
      ∀ b, (∃ r ∈ queriedFrom rpc topicHashes endBlock fuel s, b ∈ Set.Icc r.1 r.2) ↔
        s.i ≤ b ∧ b < s'.i ∧ b ≤ endBlock := by
  induction fuel generalizing s with
  | zero => cases h
  | succ fuel ih =>
    rw [filterFrom] at h
    rw [queriedFrom]
    by_cases hlt : s.i < endBlock
    · rw [if_pos hlt] at h ⊢
      cases hstep : filterChunk rpc topicHashes endBlock s with
      | threw e => rw [hstep] at h; cases h
      | next s₁ =>
        rw [hstep] at h
        obtain ⟨hin, hpair, hunion⟩ := ih (loopInv_filterChunk hinv hstep) h
        obtain ⟨-, hi⟩ := filterChunk_index hstep
        have hend := i_le_of_filterFrom fuel h
        have hdelta := hinv.delta_pos
        have hchunk := i_le_endOfChunk hdelta hlt
        by_cases hquery : rpc.queryFails s.queries = none
        · rw [if_pos hquery] at hi
          have hclip : s.endOfChunk endBlock = min endBlock (s.i + s.deltaBlocks - 1) := rfl
          simp only [if_pos hquery, List.singleton_append]
          refine ⟨?_, List.pairwise_cons.2 ⟨fun r hr => ?_, hpair⟩, fun b => ?_⟩
          · intro r hr
            rcases List.mem_cons.1 hr with rfl | hr
            · exact ⟨le_refl _, hchunk⟩
            · have := hin r hr
              omega
          · show s.endOfChunk endBlock < r.1
            have := hin r hr
            omega
          · rw [List.exists_mem_cons_iff, hunion b, Set.mem_Icc]
            show (s.i ≤ b ∧ b ≤ s.endOfChunk endBlock) ∨ _ ↔ _
            omega
        · rw [if_neg hquery] at hi
          simp only [if_neg hquery, List.nil_append]
          refine ⟨fun r hr => ?_, hpair, fun b => ?_⟩
          · have := hin r hr
            omega
          · rw [hunion b, hi]
    · rw [if_neg hlt] at h ⊢
      cases h
      refine ⟨fun r hr => absurd hr List.not_mem_nil, List.Pairwise.nil, fun b => ?_⟩
      simp only [List.not_mem_nil, false_and, exists_false, false_iff]
      omega

/-- A run covers its range exactly when its index ends behind the last block. -/
theorem coverExactly_iff_index {fuel : ℕ} (hle : fromBlock ≤ endBlock) {s : FilterState δ}
    (h : genericFilterer rpc topicHashes fuel fromBlock endBlock = .returned s) :
    CoverExactly (queriedRanges rpc topicHashes fuel fromBlock endBlock) fromBlock endBlock ↔
      s.i ≠ endBlock := by
  have hinv := loopInv_init rpc topicHashes fromBlock endBlock
  obtain ⟨hin, hpair, hunion⟩ := queriedFrom_spec fuel hinv h
  obtain ⟨-, hend⟩ := loopInv_filterFrom fuel hinv h
  constructor
  · rintro ⟨-, hall⟩ hi
    have hlast : endBlock ∈ Set.Icc fromBlock endBlock := ⟨hle, le_refl _⟩
    rw [← hall] at hlast
    have := (hunion endBlock).1 hlast
    omega
  · intro hi
    refine ⟨hpair.imp fun hlt => ?_, ?_⟩
    · apply Set.disjoint_left.2
      intro b hb hb'
      exact absurd (lt_of_le_of_lt hb.2 hlt) (not_lt.2 hb'.1)
    · ext b
      show (∃ r ∈ queriedFrom rpc topicHashes endBlock fuel _, b ∈ Set.Icc r.1 r.2) ↔ _
      rw [hunion b]
      simp only [FilterState.init, Set.mem_Icc]
      omega

/-! ## The final index -/

/-- The index and the chunk size of a loop state are what the outcomes of its queries make
them. -/
structure FilterState.Tracks (queryFails : ℕ → Option RpcError) (fromBlock : ℕ)
    (s : FilterState δ) : Prop where
  i_eq : s.i = fromBlock + (chunksAfter queryFails s.queries).covered
  deltaBlocks_eq : s.deltaBlocks = (chunksAfter queryFails s.queries).deltaBlocks

/-- The `catch` block changes the chunk size as a failed query does. -/
theorem onError_deltaBlocks {error : RpcError} {s s' : FilterState δ}
    (h : onError error s = .next s') {c : Chunks} (hc : s.deltaBlocks = c.deltaBlocks) :
    s'.deltaBlocks = (c.next (some error)).deltaBlocks := by
  unfold onError at h
  rw [Chunks.next]
  split at h
  · rename_i h413
    cases h
    rw [if_pos h413, hc]
  · rename_i h413
    rw [if_neg h413]
    split at h
    · cases h
      exact hc
    · split at h
      · cases h
        exact hc
      · cases h

/-- The step lemma: it takes a chunk whose blocks all have timestamps. -/
theorem tracks_filterChunk {s s' : FilterState δ}
    (hinv : LoopInv rpc topicHashes fromBlock endBlock s)
    (hs : s.Tracks rpc.queryFails fromBlock)
    (hsave : ∀ event, MovedPast rpc topicHashes fromBlock endBlock s'.i event →
      ¬ GetBlockGivesUp rpc event.blockNumber)
    (h : filterChunk rpc topicHashes endBlock s = .next s') :
    s'.Tracks rpc.queryFails fromBlock := by
  obtain ⟨hqueries, hindex⟩ := filterChunk_index h
  have hdelta := hs.deltaBlocks_eq
  unfold filterChunk at h
  simp only at h
  cases hq : rpc.queryFails s.queries with
  | some e =>
    rw [hq] at h hindex
    refine ⟨?_, ?_⟩
    · rw [hqueries, chunksAfter, hq, hindex, if_neg (by simp), hs.i_eq, Chunks.next]
      split <;> rfl
    · rw [hqueries, chunksAfter, hq]
      exact onError_deltaBlocks h hdelta
  | none =>
    rw [hq] at h hindex
    rw [if_pos rfl] at hindex
    have hspec := saveEvents_spec rpc topicHashes
      (rpc.queryFilter topicHashes s.i (s.endOfChunk endBlock)) s.saved hinv.cached
    simp only at h
    split at h
    · cases h
      refine ⟨?_, ?_⟩
      · rw [hqueries, chunksAfter, hq, hindex, hs.i_eq, hdelta, Nat.add_assoc]
        rfl
      · rw [hqueries, chunksAfter, hq]
        simp only [FilterState.afterQuery, hdelta]
        rfl
    · rename_i saved e hsaved
      obtain ⟨event, hev, -, hgives⟩ := hspec.failed e (by rw [hsaved])
      obtain ⟨hmem, hlow, hhigh, htopic⟩ := mem_queryFilter.1 hev
      have hclip : s.endOfChunk endBlock = min endBlock (s.i + s.deltaBlocks - 1) := rfl
      have hstart := hinv.start_le
      have hpos := hinv.delta_pos
      exact absurd hgives
        (hsave event ⟨hmem, htopic, by omega, by omega, by omega⟩)

/-- The run lemma. -/
theorem tracks_filterFrom (fuel : ℕ) {s s' : FilterState δ}
    (hinv : LoopInv rpc topicHashes fromBlock endBlock s)
    (hs : s.Tracks rpc.queryFails fromBlock)
    (hsave : ∀ event, MovedPast rpc topicHashes fromBlock endBlock s'.i event →
      ¬ GetBlockGivesUp rpc event.blockNumber)
    (h : filterFrom rpc topicHashes endBlock fuel s = .returned s') :
    s'.Tracks rpc.queryFails fromBlock ∧
      ∀ n, s.queries ≤ n → n < s'.queries →
        fromBlock + (chunksAfter rpc.queryFails n).covered < endBlock := by
  induction fuel generalizing s with
  | zero => cases h
  | succ fuel ih =>
    rw [filterFrom] at h
    by_cases hlt : s.i < endBlock
    · rw [if_pos hlt] at h
      cases hstep : filterChunk rpc topicHashes endBlock s with
      | threw e => rw [hstep] at h; cases h
      | next s₁ =>
        rw [hstep] at h
        have hle := i_le_of_filterFrom fuel h
        have hs₁ := tracks_filterChunk hinv hs (fun event hpast => hsave event
          ⟨hpast.1, hpast.2.1, hpast.2.2.1, hpast.2.2.2.1.trans_le hle, hpast.2.2.2.2⟩) hstep
        obtain ⟨htracks, hbefore⟩ := ih (loopInv_filterChunk hinv hstep) hs₁ h
        have hqueries := (filterChunk_index hstep).1
        refine ⟨htracks, fun n hn hn' => ?_⟩
        rcases Nat.eq_or_lt_of_le hn with rfl | hn
        · rw [← hs.i_eq]
          exact hlt
        · exact hbefore n (by omega) hn'
    · rw [if_neg hlt] at h
      cases h
      exact ⟨hs, fun n hn hn' => absurd (hn.trans_lt hn') (lt_irrefl _)⟩

/-- The run ends behind the last block exactly when no chunk ends right before it. -/
theorem index_ne_iff {fuel : ℕ} {s : FilterState δ}
    (h : genericFilterer rpc topicHashes fuel fromBlock endBlock = .returned s)
    (hsave : ∀ event, MovedPast rpc topicHashes fromBlock endBlock s.i event →
      ¬ GetBlockGivesUp rpc event.blockNumber) :
    s.i ≠ endBlock ↔ ∀ n, fromBlock + (chunksAfter rpc.queryFails n).covered ≠ endBlock := by
  have hinv := loopInv_init rpc topicHashes fromBlock endBlock
  have hinit : (FilterState.init fromBlock : FilterState δ).Tracks rpc.queryFails fromBlock :=
    ⟨rfl, rfl⟩
  obtain ⟨htracks, hbefore⟩ := tracks_filterFrom fuel hinv hinit hsave h
  obtain ⟨-, hend⟩ := loopInv_filterFrom fuel hinv h
  rw [htracks.i_eq] at hend ⊢
  constructor
  · intro hne n
    by_cases hn : n < s.queries
    · have := hbefore n (Nat.zero_le n) hn
      omega
    · have := covered_mono rpc.queryFails (not_lt.1 hn)
      simp only at this
      omega
  · intro hall
    exact hall s.queries

/-- **When every block is asked for.**  The ranges a run queried are the range it was given, cut
into disjoint pieces, if and only if the chunk sizes never add up to end right before its last
block. -/
theorem queriedRanges_cover_iff (rpc : Rpc δ) (topicHashes : List String)
    {fuel fromBlock endBlock : ℕ} (hle : fromBlock ≤ endBlock) {s : FilterState δ}
    (h : genericFilterer rpc topicHashes fuel fromBlock endBlock = .returned s)
    (hsave : ∀ event, MovedPast rpc topicHashes fromBlock endBlock s.i event →
      ¬ GetBlockGivesUp rpc event.blockNumber) :
    CoverExactly (queriedRanges rpc topicHashes fuel fromBlock endBlock) fromBlock endBlock ↔
      ∀ n, fromBlock + (chunksAfter rpc.queryFails n).covered ≠ endBlock := by
  rw [coverExactly_iff_index hle h, index_ne_iff h hsave]

/-- A log in block 9999; the node answers every request. -/
def lateLogRpc : Rpc Unit where
  history := [⟨9999, "0xaa", "Trade", ()⟩]
  timestamp b := 1000 + b
  queryFails _ := none
  getBlockFails _ _ := none

/-- A run over the blocks 0 to 9999 asks for the first 9999 of them and delivers nothing. -/
theorem lateLog_notAsked :
    (∃ s, genericFilterer lateLogRpc ["Trade"] 2 0 9999 = .returned s ∧ s.saved.delivered = []) ∧
      queriedRanges lateLogRpc ["Trade"] 2 0 9999 = [(0, 9998)] ∧
      ¬ CoverExactly (queriedRanges lateLogRpc ["Trade"] 2 0 9999) 0 9999 := by
  have hranges : queriedRanges lateLogRpc ["Trade"] 2 0 9999 = [(0, 9998)] := by decide
  refine ⟨⟨_, rfl, rfl⟩, hranges, ?_⟩
  rintro ⟨-, hall⟩
  have hlast : 9999 ∈ Set.Icc 0 9999 := ⟨Nat.zero_le _, le_refl _⟩
  rw [← hall, hranges] at hlast
  obtain ⟨r, hr, hb⟩ := hlast
  obtain rfl := List.mem_singleton.1 hr
  exact absurd hb.2 (by decide)

/-- The same log behind a node that finds the first chunk too large. -/
def tooLargeRpc : Rpc Unit :=
  { lateLogRpc with queryFails := fun n => if n = 0 then some { message := "413" } else none }

/-- Chunks of 7499 and 9374 blocks do not end at block 9999. -/
theorem tooLarge_covered :
    CoverExactly (queriedRanges tooLargeRpc ["Trade"] 4 0 9999) 0 9999 := by
  have hreturns : ∃ s, genericFilterer tooLargeRpc ["Trade"] 4 0 9999 = .returned s := ⟨_, rfl⟩
  obtain ⟨s, hs⟩ := hreturns
  refine (queriedRanges_cover_iff tooLargeRpc ["Trade"] (Nat.zero_le _) hs ?_).2 fun n => ?_
  · rintro event - ⟨r, -, -, e, he, -⟩
    cases he
  · by_cases hn : n < 3
    · interval_cases n <;> decide
    · have hmono := covered_mono tooLargeRpc.queryFails (not_lt.1 hn)
      have hthree : (chunksAfter tooLargeRpc.queryFails 3).covered = 16873 := by decide
      simp only [hthree] at hmono
      omega

end TraderBackend
