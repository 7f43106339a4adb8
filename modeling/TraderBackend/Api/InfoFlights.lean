import TraderBackend.Lib.Interleave
import TraderBackend.Lib.SingleFlight

/-!
# The guards of the exchange info

`exchangeInfo` of `sdkInterface.ts` and the two bodies it starts: `refreshProxyInstance` makes a
new proxy instance at most every five minutes, `cacheExchangeInfo` asks the SDK and writes its
answer to Redis.  Each is guarded by a field that holds the promise of the body in progress.

* **The code.**  A move of the system runs one continuation up to its next await: a call of
  `exchangeInfo`, or one of the bodies.  What Redis and the SDK answer, and whether they fail, is
  part of the move; so are the clock and the order of the moves.
* **Starting a refresh.**  `refreshProxyInstance_cases`: a body starts only when five minutes have
  gone by since `lastInitTs`.
* **Every move** keeps `Guarded` (`guarded_step`); hence `single_flight` for whatever is
  reached.
* **No guard sticks.**  `cacheStep_wellFounded`: an answer ends the body or leaves less to wait
  for; `cache_guard_clears`: failures alone clear the guard.
-/

namespace TraderBackend

/-! ## The code -/

/-- The fields of the hash `exchangeInfo` that are read: `parseInt` of `ts:query` (`none` inside
is `NaN`) and `content`. -/
structure InfoHash where
  tsQuery : Option (Option ℤ)
  content : Option String

/-- Where the body of `cacheExchangeInfo` waits. -/
inductive CacheAt where
  /-- For `hSet` of `ts:query`. -/
  | writingQuery
  /-- For `rpcManager.getRPC`. -/
  | choosingRpc
  /-- For `exchangeInfo` of the SDK. -/
  | askingSdk
  /-- For `hGet` of `content`, after the SDK failed. -/
  | readingPrevious
  /-- For the open interest of the first of these perpetuals; `ois` are known, and `stringify`
  gives the text of the info. -/
  | readingOI (perpId : ℕ) (perpIds : List ℕ) (ois : List ℚ) (stringify : List ℚ → String)
  /-- For `hSet` of the response. -/
  | writingResponse (info : String)

/-- What the call a body waits for gives. -/
inductive CacheAnswer where
  | failed
  | done
  | info (perpIds : List ℕ) (stringify : List ℚ → String)
  | previous (content : Option String)
  | oi (value : ℚ)

/-- Where a call of `exchangeInfo` stands. -/
inductive InfoCallAt where
  /-- It waits for `hGetAll`. -/
  | readingHash
  /-- It waits for `refreshProxyInstance`: for a promise, or for `false`. -/
  | refreshing (promise : Option ℕ) (timeElapsedS : Option ℚ) (delay : ℤ) (content : String)
  /-- It waits for `cacheExchangeInfo`. -/
  | caching (promise : ℕ)
  | returned (info : String)
  | rejected

/-- `SDKInterface` with its calls and the clock. -/
structure SDKInterface where
  /-- `apiInterface` is there. -/
  initialized : Bool
  nowMs : ℤ
  lastInitTs : ℤ
  mutexTs : ℤ
  refresh : Flight Unit Bool
  cache : Flight CacheAt String
  calls : List InfoCallAt
  /-- When the last successful refresh ended, in seconds; only statements look at it. -/
  lastFinished : Option ℤ

/-- What happens next. -/
inductive InfoMove where
  | clock (nowMs : ℤ)
  | call
  /-- `hGetAll` answers a call, or fails. -/
  | hashRead (i : ℕ) (reply : Option InfoHash)
  /-- A call goes on after `refreshProxyInstance`. -/
  | refreshed (i : ℕ)
  /-- A call goes on after `cacheExchangeInfo`. -/
  | cached (i : ℕ)
  /-- `createProxyInstance` ends for a body. -/
  | proxyCreated (p : ℕ) (ok : Bool)
  /-- The call a body of `cacheExchangeInfo` waits for ends. -/
  | cacheAnswered (p : ℕ) (answer : CacheAnswer)

namespace SDKInterface

variable (s : SDKInterface)

/-- `Math.floor(Date.now() / 1000)`. -/
def nowSec : ℤ := s.nowMs / 1000

/-- `refreshProxyInstance` up to its await: `none` is the answer `false`. -/
def refreshProxyInstance : SDKInterface × Option ℕ :=
  let ageSec := s.nowSec - s.lastInitTs
  if ageSec < 5 * 60 then (s, none)
  else
    let (refresh, p) := s.refresh.enter ()
    ({ s with refresh }, some p)

/-- `cacheExchangeInfo` up to its await. -/
def cacheExchangeInfo : SDKInterface × ℕ :=
  let (cache, p) := s.cache.enter .writingQuery
  ({ s with cache }, p)

/-- A call stands elsewhere. -/
def setCall (i : ℕ) (l : InfoCallAt) : SDKInterface := { s with calls := s.calls.set i l }

/-- `exchangeInfo` after `hGetAll`. -/
def afterHash (i : ℕ) (obj : InfoHash) : SDKInterface :=
  if !s.initialized then s.setCall i .rejected
  else
    match obj.tsQuery, obj.content with
    | some tsQuery, some content =>
      let timeElapsedS := tsQuery.map fun ts : ℤ => ((s.nowMs - ts : ℤ) : ℚ) / 1000
      let delay := s.nowMs - s.mutexTs
      let (s', p) := s.refreshProxyInstance
      s'.setCall i (.refreshing p timeElapsedS delay content)
    | _, _ =>
      let (s', p) := s.cacheExchangeInfo
      s'.setCall i (.caching p)

/-- `exchangeInfo` after `refreshProxyInstance`. -/
def afterRefresh (i : ℕ) (mustRefresh : Bool) (timeElapsedS : Option ℚ) (delay : ℤ)
    (content : String) : SDKInterface :=
  let timeElapsedS := if mustRefresh then some (5 * 60 + 1) else timeElapsedS
  let s' :=
    if 60000 < delay ∧ (timeElapsedS.any fun t => decide (5 * 60 < t)) = true then
      ({ s with mutexTs := s.nowMs }).cacheExchangeInfo.1
    else s
  s'.setCall i (.returned content)

/-- The body of `refreshProxyInstance` after `createProxyInstance`. -/
def proxyCreated (p : ℕ) (ok : Bool) : SDKInterface :=
  if ok then
    { s with
      lastInitTs := s.nowSec
      refresh := s.refresh.finish p (some true)
      lastFinished := some s.nowSec }
  else { s with refresh := s.refresh.finish p none }

end SDKInterface

/-- A body waits for the open interest of the next perpetual, or has it of all. -/
def nextOI (perpIds : List ℕ) (ois : List ℚ) (stringify : List ℚ → String) : CacheAt :=
  match perpIds with
  | [] => .writingResponse (stringify ois)
  | perpId :: perpIds => .readingOI perpId perpIds ois stringify

/-- The body of `cacheExchangeInfo` after an answer: where it waits next, or what it
returns (`none`: it rejects). -/
def cacheStep : CacheAt → CacheAnswer → Option (CacheAt ⊕ Option String)
  | .writingQuery, .done => some (.inl .choosingRpc)
  | .choosingRpc, .done => some (.inl .askingSdk)
  | .choosingRpc, .failed => some (.inl .readingPrevious)
  | .askingSdk, .info perpIds stringify => some (.inl (nextOI perpIds [] stringify))
  | .askingSdk, .failed => some (.inl .readingPrevious)
  | .readingPrevious, .previous content => some (.inr (some (content.getD "")))
  | .readingOI _ perpIds ois stringify, .oi value =>
      some (.inl (nextOI perpIds (ois ++ [value]) stringify))
  | .writingResponse info, .done => some (.inr (some info))
  | _, .failed => some (.inr none)
  | _, _ => none

/-- One move. -/
def SDKInterface.step (s : SDKInterface) : InfoMove → Option SDKInterface
  | .clock nowMs => some { s with nowMs }
  | .call => some { s with calls := s.calls ++ [.readingHash] }
  | .hashRead i reply =>
    match s.calls[i]?, reply with
    | some .readingHash, some obj => some (s.afterHash i obj)
    | some .readingHash, none => some (s.setCall i .rejected)
    | _, _ => none
  | .refreshed i =>
    match s.calls[i]? with
    | some (.refreshing none timeElapsedS delay content) =>
      some (s.afterRefresh i false timeElapsedS delay content)
    | some (.refreshing (some p) timeElapsedS delay content) =>
      (s.refresh.settled.lookup p).map fun
        | some mustRefresh => s.afterRefresh i mustRefresh timeElapsedS delay content
        | none => s.setCall i .rejected
    | _ => none
  | .cached i =>
    match s.calls[i]? with
    | some (.caching p) =>
      (s.cache.settled.lookup p).map fun
        | some info => s.setCall i (.returned info)
        | none => s.setCall i .rejected
    | _ => none
  | .proxyCreated p ok => (s.refresh.at? p).map fun _ => s.proxyCreated p ok
  | .cacheAnswered p answer =>
    (s.cache.at? p).bind fun l => (cacheStep l answer).map fun
      | .inl l' => { s with cache := s.cache.advance p l' }
      | .inr result => { s with cache := s.cache.finish p result }

/-- No call and no body so far. -/
def SDKInterface.Fresh (s : SDKInterface) : Prop :=
  s.refresh = Flight.idle ∧ s.cache = Flight.idle ∧ s.calls = [] ∧ s.lastFinished = none

/-! ## Starting a refresh -/

namespace SDKInterface

variable {s s' : SDKInterface}

/-- **A refresh** is skipped, or it joins or starts a body when the last refresh is old enough. -/
theorem refreshProxyInstance_cases (s : SDKInterface) :
    s.refreshProxyInstance = (s, none) ∨
      (s.lastInitTs + 300 ≤ s.nowSec ∧ s.refreshProxyInstance =
        ({ s with refresh := (s.refresh.enter ()).1 }, some (s.refresh.enter ()).2)) := by
  unfold refreshProxyInstance
  by_cases hage : s.nowSec - s.lastInitTs < 5 * 60
  · exact Or.inl (if_pos hage)
  · exact Or.inr ⟨by omega, if_neg hage⟩

/-! ## Every move -/

/-- Each guard tells whether its body is in progress, and the cooldown counts from the last
successful refresh. -/
structure Guarded (s : SDKInterface) : Prop where
  refresh : s.refresh.Single
  cache : s.cache.Single
  lastInitTs : ∀ f, s.lastFinished = some f → s.lastInitTs = f

/-- Between two states no refresh has started, or one has, five minutes or more after the last
successful one. -/
def StartsLate (s s' : SDKInterface) : Prop :=
  s'.refresh.started = s.refresh.started ∨ ∀ f, s.lastFinished = some f → f + 300 ≤ s.nowSec

theorem guarded_setCall (h : s.Guarded) (i : ℕ) (l : InfoCallAt) : (s.setCall i l).Guarded :=
  ⟨h.refresh, h.cache, h.lastInitTs⟩

theorem guarded_cacheExchangeInfo (h : s.Guarded) : s.cacheExchangeInfo.1.Guarded :=
  ⟨h.refresh, h.cache.enter _, h.lastInitTs⟩

theorem guarded_refreshProxyInstance (h : s.Guarded) :
    s.refreshProxyInstance.1.Guarded ∧ s.StartsLate s.refreshProxyInstance.1 := by
  rcases refreshProxyInstance_cases s with heq | ⟨hage, heq⟩
  · rw [heq]
    exact ⟨h, Or.inl rfl⟩
  · rw [heq]
    refine ⟨⟨h.refresh.enter (), h.cache, h.lastInitTs⟩, Or.inr fun f hf => ?_⟩
    rw [← h.lastInitTs f hf]
    exact hage

theorem guarded_afterHash (h : s.Guarded) (i : ℕ) (obj : InfoHash) :
    (s.afterHash i obj).Guarded ∧ s.StartsLate (s.afterHash i obj) := by
  unfold afterHash
  split
  · exact ⟨guarded_setCall h i _, Or.inl rfl⟩
  · split
    · obtain ⟨hguarded, hlate⟩ := guarded_refreshProxyInstance h
      exact ⟨guarded_setCall hguarded i _, hlate⟩
    · exact ⟨guarded_setCall (guarded_cacheExchangeInfo h) i _, Or.inl rfl⟩

theorem guarded_afterRefresh (h : s.Guarded) (i : ℕ) (mustRefresh : Bool)
    (timeElapsedS : Option ℚ) (delay : ℤ) (content : String) :
    (s.afterRefresh i mustRefresh timeElapsedS delay content).Guarded ∧
      s.StartsLate (s.afterRefresh i mustRefresh timeElapsedS delay content) := by
  have hmutex : ({ s with mutexTs := s.nowMs } : SDKInterface).Guarded :=
    ⟨h.refresh, h.cache, h.lastInitTs⟩
  unfold afterRefresh
  generalize (if mustRefresh = true then some (5 * 60 + 1) else timeElapsedS) = elapsed
  simp only
  split
  · exact ⟨guarded_setCall (guarded_cacheExchangeInfo hmutex) i _, Or.inl rfl⟩
  · exact ⟨guarded_setCall h i _, Or.inl rfl⟩

theorem guarded_proxyCreated (h : s.Guarded) {p : ℕ} {l : Unit} (hp : s.refresh.at? p = some l)
    (ok : Bool) : (s.proxyCreated p ok).Guarded ∧ s.StartsLate (s.proxyCreated p ok) := by
  unfold proxyCreated
  cases ok with
  | true =>
    refine ⟨⟨h.refresh.finish hp _, h.cache, ?_⟩, Or.inl rfl⟩
    intro f hf
    exact Option.some.inj hf
  | false => exact ⟨⟨h.refresh.finish hp _, h.cache, h.lastInitTs⟩, Or.inl rfl⟩

/-- **Every move.** -/
theorem guarded_step (h : s.Guarded) {m : InfoMove} (hm : s.step m = some s') :
    s'.Guarded ∧ s.StartsLate s' := by
  cases m with
  | clock nowMs =>
    cases hm
    exact ⟨⟨h.refresh, h.cache, h.lastInitTs⟩, Or.inl rfl⟩
  | call =>
    cases hm
    exact ⟨⟨h.refresh, h.cache, h.lastInitTs⟩, Or.inl rfl⟩
  | hashRead i reply =>
    simp only [step] at hm
    split at hm
    · cases hm
      exact guarded_afterHash h i _
    · cases hm
      exact ⟨guarded_setCall h i _, Or.inl rfl⟩
    · cases hm
  | refreshed i =>
    simp only [step] at hm
    split at hm
    · cases hm
      exact guarded_afterRefresh h i false _ _ _
    · obtain ⟨result, -, heq⟩ := Option.map_eq_some_iff.1 hm
      cases result with
      | some mustRefresh =>
        obtain rfl := heq
        exact guarded_afterRefresh h i mustRefresh _ _ _
      | none =>
        obtain rfl := heq
        exact ⟨guarded_setCall h i _, Or.inl rfl⟩
    · cases hm
  | cached i =>
    simp only [step] at hm
    split at hm
    · obtain ⟨result, -, heq⟩ := Option.map_eq_some_iff.1 hm
      cases result with
      | some info =>
        obtain rfl := heq
        exact ⟨guarded_setCall h i _, Or.inl rfl⟩
      | none =>
        obtain rfl := heq
        exact ⟨guarded_setCall h i _, Or.inl rfl⟩
    · cases hm
  | proxyCreated p ok =>
    obtain ⟨l, hp, rfl⟩ := Option.map_eq_some_iff.1 hm
    exact guarded_proxyCreated h hp ok
  | cacheAnswered p answer =>
    obtain ⟨l, hp, hstep⟩ := Option.bind_eq_some_iff.1 hm
    obtain ⟨next, -, heq⟩ := Option.map_eq_some_iff.1 hstep
    cases next with
    | inl l' =>
      obtain rfl := heq
      exact ⟨⟨h.refresh, h.cache.advance p l', h.lastInitTs⟩, Or.inl rfl⟩
    | inr result =>
      obtain rfl := heq
      exact ⟨⟨h.refresh, h.cache.finish hp result, h.lastInitTs⟩, Or.inl rfl⟩

theorem guarded_of_fresh (h : s.Fresh) : s.Guarded := by
  obtain ⟨hrefresh, hcache, -, hlast⟩ := h
  refine ⟨hrefresh ▸ Flight.single_idle, hcache ▸ Flight.single_idle, ?_⟩
  intro f hf
  rw [hlast] at hf
  cases hf

/-- A service that has run for a while. -/
def freshInterface : SDKInterface :=
  ⟨true, 1000000000, 0, 0, Flight.idle, Flight.idle, [], none⟩

/-- A call that refreshes the proxy and then has the info cached. -/
def refreshMoves : List InfoMove :=
  [.call, .hashRead 0 (some ⟨some (some 0), some "info"⟩), .clock 1000002500, .proxyCreated 0 true,
    .refreshed 0]

end SDKInterface

/-! ## No guard sticks -/

/-- What a body of `cacheExchangeInfo` still waits for: the calls to come, then the perpetuals. -/
def CacheAt.work : CacheAt → ℕ × ℕ
  | .writingQuery => (4, 0)
  | .choosingRpc => (3, 0)
  | .askingSdk => (2, 0)
  | .readingOI _ perpIds _ _ => (1, perpIds.length)
  | .writingResponse _ => (0, 0)
  | .readingPrevious => (0, 0)

theorem nextOI_work (perpIds : List ℕ) (ois : List ℚ) (stringify : List ℚ → String) :
    (nextOI perpIds ois stringify).work = (0, 0) ∧ perpIds = [] ∨
      ∃ n, (nextOI perpIds ois stringify).work = (1, n) ∧ n < perpIds.length := by
  cases perpIds with
  | nil => exact Or.inl ⟨rfl, rfl⟩
  | cons perpId perpIds => exact Or.inr ⟨perpIds.length, rfl, Nat.lt_succ_self _⟩

/-- **An answer** ends the body or leaves less to wait for. -/
theorem cacheStep_work {l l' : CacheAt} {answer : CacheAnswer}
    (h : cacheStep l answer = some (.inl l')) : Prod.Lex (· < ·) (· < ·) l'.work l.work := by
  cases l with
  | writingQuery => cases answer <;> cases h; exact Prod.Lex.left _ _ (by decide)
  | choosingRpc => cases answer <;> cases h <;> exact Prod.Lex.left _ _ (by decide)
  | askingSdk =>
    cases answer with
    | info perpIds stringify =>
      cases h
      rcases nextOI_work perpIds [] stringify with ⟨hwork, -⟩ | ⟨n, hwork, -⟩
      · rw [hwork]
        exact Prod.Lex.left _ _ (by decide)
      · rw [hwork]
        exact Prod.Lex.left _ _ (by decide)
    | failed => cases h; exact Prod.Lex.left _ _ (by decide)
    | done => cases h
    | previous content => cases h
    | oi value => cases h
  | readingPrevious => cases answer <;> cases h
  | readingOI perpId perpIds ois stringify =>
    cases answer with
    | oi value =>
      cases h
      rcases nextOI_work perpIds (ois ++ [value]) stringify with ⟨hwork, -⟩ | ⟨n, hwork, hn⟩
      · rw [hwork]
        exact Prod.Lex.left _ _ (by decide)
      · rw [hwork]
        exact Prod.Lex.right _ hn
    | failed => cases h
    | done => cases h
    | info perpIds stringify => cases h
    | previous content => cases h
  | writingResponse info => cases answer <;> cases h

/-- **No guard sticks.**  No body waits for ever as long as the calls it makes end. -/
theorem cacheStep_wellFounded :
    WellFounded fun l' l : CacheAt => ∃ answer, cacheStep l answer = some (.inl l') := by
  have hlex : WellFounded (Prod.Lex (· < ·) (· < ·) : ℕ × ℕ → ℕ × ℕ → Prop) :=
    (Prod.lex Nat.lt_wfRel Nat.lt_wfRel).wf
  refine Subrelation.wf ?_ (InvImage.wf CacheAt.work hlex)
  rintro l' l ⟨answer, h⟩
  exact cacheStep_work h

/-- Every call a body waits for may fail. -/
theorem cacheStep_failed (l : CacheAt) : (cacheStep l .failed).isSome := by
  cases l <;> rfl

/-- A guard that is set can be cleared from wherever its body stands: it is enough that the calls
the body makes fail. -/
theorem SDKInterface.cache_guard_clears {p : ℕ} (l : CacheAt) :
    ∀ s : SDKInterface, s.Guarded → s.cache.at? p = some l →
      ∃ s', ReachedBy SDKInterface.step s s' ∧ s'.cache.inflight = none := by
  induction l using cacheStep_wellFounded.induction with
  | _ l ih =>
    intro s h hp
    obtain ⟨next, hnext⟩ := Option.isSome_iff_exists.1 (cacheStep_failed l)
    cases next with
    | inl l' =>
      have hm : s.step (.cacheAnswered p .failed) =
          some { s with cache := s.cache.advance p l' } := by
        simp [SDKInterface.step, hp, hnext]
      obtain ⟨s', ⟨moves, hmoves⟩, hclear⟩ :=
        ih l' ⟨.failed, hnext⟩ _ (SDKInterface.guarded_step h hm).1 (h.cache.at?_advance hp l')
      refine ⟨s', ⟨.cacheAnswered p .failed :: moves, ?_⟩, hclear⟩
      rw [List.foldlM_cons, hm]
      exact hmoves
    | inr result =>
      have hm : s.step (.cacheAnswered p .failed) =
          some { s with cache := s.cache.finish p result } := by
        simp [SDKInterface.step, hp, hnext]
      exact ⟨_, (ReachedBy.refl _ s).tail hm, rfl⟩

end TraderBackend
