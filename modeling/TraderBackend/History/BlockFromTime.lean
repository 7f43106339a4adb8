import Mathlib

/-!
# The block at a time

`calculateBlockFromTime` looks for the block at a date by bisection, with a
bounded number of requests.  Block timestamps are in seconds, dates in
milliseconds.

* **The search.**  `BlockSearch.narrow`, `searchBlocks`, which returns the blocks it has asked for
  with its ends.
* **The two results.**  `blockFromTime` has the argument `mustBeBefore`;
  `calculateBlockFromTime` is the block before the date.
* **Invariants.**  `BlockSearch.Within`, `LeftBefore` and `RightAfter` hold wherever the
  search stops, so `blockFromTime_brackets` needs no case for the way it stops.
-/

namespace TraderBackend

/-- `MAX_RPC_CALLS`. -/
def maxRpcCalls : ℕ := 7

/-- `precision`: six hours. -/
def timePrecision : ℕ := 6 * 3600

/-- The two ends of the search. -/
structure BlockSearch where
  leftBlockTime : ℕ
  leftBlockNum : ℕ
  rightBlockTime : ℕ
  rightBlockNum : ℕ

/-- The block the next request is for.  `Math.round` of a half rounds up. -/
def BlockSearch.middleBlockNum (s : BlockSearch) : ℕ := (s.leftBlockNum + s.rightBlockNum + 1) / 2

/-- The request for the middle block and the branch after it. -/
def BlockSearch.narrow (timestamp : ℕ → ℕ) (since : ℤ) (s : BlockSearch) : BlockSearch :=
  let middleBlockNum := s.middleBlockNum
  let middleBlockTime := timestamp middleBlockNum
  if (middleBlockTime : ℤ) * 1000 < since then
    { s with leftBlockNum := middleBlockNum, leftBlockTime := middleBlockTime }
  else { s with rightBlockNum := middleBlockNum, rightBlockTime := middleBlockTime }

/-- The loop with a number of requests left: the blocks it asks for, in their order, and the ends
it stops with. -/
def searchBlocks (timestamp : ℕ → ℕ) (since : ℤ) : ℕ → BlockSearch → List ℕ × BlockSearch
  | 0, s => ([], s)
  | calls + 1, s =>
      let middleBlockNum := s.middleBlockNum
      let s := s.narrow timestamp since
      if (s.rightBlockTime : ℤ) - s.leftBlockTime < timePrecision then ([middleBlockNum], s)
      else
        let rest := searchBlocks timestamp since calls s
        (middleBlockNum :: rest.1, rest.2)

/-- The middle blocks the loop asks for. -/
def middleBlocks (timestamp : ℕ → ℕ) (since : ℤ) (calls : ℕ) (s : BlockSearch) : List ℕ :=
  (searchBlocks timestamp since calls s).1

/-- `calculateBlockFromTime` with its last argument: the block and the latest one. -/
def blockFromTime (timestamp : ℕ → ℕ) (latest : ℕ) (since : ℤ) (mustBeBefore : Bool) : ℕ × ℕ :=
  let s := (searchBlocks timestamp since maxRpcCalls ⟨0, 0, timestamp latest, latest⟩).2
  if mustBeBefore then (s.leftBlockNum, latest) else (s.rightBlockNum, latest)

/-- `calculateBlockFromTime` with `mustBeBefore`. -/
def calculateBlockFromTime (timestamp : ℕ → ℕ) (latest : ℕ) (since : ℤ) : ℕ × ℕ :=
  blockFromTime timestamp latest since true

/-- What a request keeps, the loop keeps, wherever it stops. -/
theorem searchBlocks_induction {timestamp : ℕ → ℕ} {since : ℤ} {P : BlockSearch → Prop}
    (hnarrow : ∀ s, P s → P (s.narrow timestamp since)) (calls : ℕ) {s : BlockSearch} (h : P s) :
    P (searchBlocks timestamp since calls s).2 := by
  induction calls generalizing s with
  | zero => exact h
  | succ calls ih =>
    rw [searchBlocks]
    split
    · exact hnarrow s h
    · exact ih (hnarrow s h)

/-- The left end is the first block or one before the date. -/
def BlockSearch.LeftBefore (timestamp : ℕ → ℕ) (since : ℤ) (s : BlockSearch) : Prop :=
  s.leftBlockNum = 0 ∨ (timestamp s.leftBlockNum : ℤ) * 1000 < since

theorem leftBefore_narrow {timestamp : ℕ → ℕ} {since : ℤ} {s : BlockSearch}
    (h : s.LeftBefore timestamp since) : (s.narrow timestamp since).LeftBefore timestamp since := by
  unfold BlockSearch.narrow
  simp only
  split
  · rename_i hlt
    exact Or.inr hlt
  · exact h

theorem leftBefore_searchBlocks {timestamp : ℕ → ℕ} {since : ℤ} (calls : ℕ) {s : BlockSearch}
    (h : s.LeftBefore timestamp since) :
    (searchBlocks timestamp since calls s).2.LeftBefore timestamp since :=
  searchBlocks_induction (P := BlockSearch.LeftBefore timestamp since)
    (fun _ hs => leftBefore_narrow hs) calls h

/-- A block that is not before the date is not before the block found. -/
theorem calculateBlockFromTime_le {timestamp : ℕ → ℕ} (hmono : Monotone timestamp) (latest : ℕ)
    {since : ℤ} {b : ℕ} (hb : since ≤ (timestamp b : ℤ) * 1000) :
    (calculateBlockFromTime timestamp latest since).1 ≤ b := by
  have hstart : (⟨0, 0, timestamp latest, latest⟩ : BlockSearch).LeftBefore timestamp since :=
    Or.inl rfl
  have hleft := leftBefore_searchBlocks maxRpcCalls hstart
  rcases hleft with hzero | hlt
  · exact hzero.le.trans (Nat.zero_le b)
  · by_contra hc
    have hback : timestamp b ≤ timestamp (calculateBlockFromTime timestamp latest since).1 :=
      hmono (not_le.1 hc).le
    have hbefore : (timestamp (calculateBlockFromTime timestamp latest since).1 : ℤ) * 1000 <
      since := hlt
    omega

/-! ## Both ends -/

/-- The right end is the latest block or one that is not before the date. -/
def BlockSearch.RightAfter (timestamp : ℕ → ℕ) (latest : ℕ) (since : ℤ) (s : BlockSearch) : Prop :=
  s.rightBlockNum = latest ∨ since ≤ (timestamp s.rightBlockNum : ℤ) * 1000

/-- The ends have not crossed. -/
structure BlockSearch.Within (latest : ℕ) (s : BlockSearch) : Prop where
  left_le_right : s.leftBlockNum ≤ s.rightBlockNum
  right_le : s.rightBlockNum ≤ latest

theorem rightAfter_narrow {timestamp : ℕ → ℕ} {latest : ℕ} {since : ℤ} {s : BlockSearch}
    (h : s.RightAfter timestamp latest since) :
    (s.narrow timestamp since).RightAfter timestamp latest since := by
  unfold BlockSearch.narrow
  simp only
  split
  · exact h
  · rename_i hge
    exact Or.inr (not_lt.1 hge)

/-- The middle, rounded up, lies between the ends, so either of them may move there. -/
theorem BlockSearch.Within.narrow {latest : ℕ} {s : BlockSearch} (h : s.Within latest)
    (timestamp : ℕ → ℕ) (since : ℤ) : (s.narrow timestamp since).Within latest := by
  obtain ⟨hlr, hr⟩ := h
  unfold BlockSearch.narrow BlockSearch.middleBlockNum
  simp only
  split
  · exact ⟨by simp only; omega, hr⟩
  · exact ⟨by simp only; omega, by simp only; omega⟩

theorem length_middleBlocks (timestamp : ℕ → ℕ) (since : ℤ) (calls : ℕ) (s : BlockSearch) :
    (middleBlocks timestamp since calls s).length ≤ calls := by
  unfold middleBlocks
  induction calls generalizing s with
  | zero => exact le_refl _
  | succ calls ih =>
    rw [searchBlocks]
    split
    · simp
    · exact Nat.succ_le_succ (ih _)

theorem middleBlocks_le {timestamp : ℕ → ℕ} {since : ℤ} {latest : ℕ} (calls : ℕ) {s : BlockSearch}
    (h : s.Within latest) : ∀ b ∈ middleBlocks timestamp since calls s, b ≤ latest := by
  unfold middleBlocks
  induction calls generalizing s with
  | zero => simp [searchBlocks]
  | succ calls ih =>
    have hmiddle : s.middleBlockNum ≤ latest := by
      obtain ⟨hlr, hr⟩ := h
      rw [BlockSearch.middleBlockNum]
      omega
    intro b hb
    rw [searchBlocks] at hb
    split at hb
    · rwa [List.mem_singleton.1 hb]
    · rcases List.mem_cons.1 hb with rfl | hrest
      · exact hmiddle
      · exact ih (h.narrow timestamp since) b hrest

/-- **The search brackets the date.**  It asks for at most seven middle blocks, none behind the
latest one, and returns a block of the chain next to the latest one.  With `mustBeBefore` that is
the first block or one before the date, and all blocks that are not before the date lie behind
it; without, it is the latest block or one that is not before the date. -/
theorem blockFromTime_brackets (timestamp : ℕ → ℕ) (latest : ℕ)
    (hmono : ∀ a b, a ≤ b → b ≤ latest → timestamp a ≤ timestamp b) (since : ℤ) :
    let asked := middleBlocks timestamp since maxRpcCalls ⟨0, 0, timestamp latest, latest⟩
    let before := blockFromTime timestamp latest since true
    let after := blockFromTime timestamp latest since false
    (asked.length ≤ 7 ∧ ∀ b ∈ asked, b ≤ latest) ∧
      (before.1 ≤ latest ∧ before.2 = latest ∧
        (before.1 = 0 ∨ (timestamp before.1 : ℤ) * 1000 < since) ∧
        ∀ b ≤ latest, since ≤ (timestamp b : ℤ) * 1000 → before.1 < b ∨ before.1 = 0) ∧
      (after.1 ≤ latest ∧ after.2 = latest ∧
        (after.1 = latest ∨ since ≤ (timestamp after.1 : ℤ) * 1000)) := by
  intro asked before after
  have hstart : (⟨0, 0, timestamp latest, latest⟩ : BlockSearch).Within latest :=
    ⟨Nat.zero_le _, le_refl _⟩
  obtain ⟨hlr, hr⟩ := searchBlocks_induction (fun s hs => hs.narrow timestamp since) maxRpcCalls
    hstart
  have hleft : before.1 = 0 ∨ (timestamp before.1 : ℤ) * 1000 < since :=
    leftBefore_searchBlocks maxRpcCalls (Or.inl rfl)
  have hright : after.1 = latest ∨ since ≤ (timestamp after.1 : ℤ) * 1000 :=
    searchBlocks_induction (P := BlockSearch.RightAfter timestamp latest since)
      (fun s hs => rightAfter_narrow hs) maxRpcCalls (Or.inl rfl)
  have hbefore : before.1 ≤ latest := hlr.trans hr
  refine ⟨⟨length_middleBlocks _ _ _ _, middleBlocks_le _ hstart⟩,
    ⟨hbefore, rfl, hleft, fun b _ hb => ?_⟩, hr, rfl, hright⟩
  rcases hleft with hzero | hlt
  · exact Or.inr hzero
  · left
    by_contra hle
    have hback := hmono b before.1 (not_lt.1 hle) hbefore
    omega

/-- A chain with a plateau: two blocks a day, the last two at the same second. -/
def plateauTimestamp (b : ℕ) : ℕ := 43200 * min b 8

/-- The law at work there: the search for the time of the last blocks finds the first of them, and
the block before it. -/
theorem plateau_brackets :
    blockFromTime plateauTimestamp 9 345600000 true = (7, 9) ∧
      blockFromTime plateauTimestamp 9 345600000 false = (8, 9) ∧
      ∀ b ≤ 9, (345600000 : ℤ) ≤ (plateauTimestamp b : ℤ) * 1000 → 7 < b ∨ 7 = 0 := by
  have hlaw := blockFromTime_brackets plateauTimestamp 9
    (fun _ _ hab _ => Nat.mul_le_mul_left _ (min_le_min_right 8 hab)) 345600000
  have hbefore : blockFromTime plateauTimestamp 9 345600000 true = (7, 9) := by decide
  rw [hbefore] at hlaw
  exact ⟨hbefore, by decide, hlaw.2.1.2.2.2⟩

end TraderBackend
