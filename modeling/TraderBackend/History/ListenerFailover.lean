import TraderBackend.Lib.Interleave

/-!
# Failing over between providers

The live listener of the history service hangs on one provider.  Once a minute a timer looks
at its heartbeat; if no block has come for half a minute, `resetRpcFunc` moves the listener
from the websocket to an HTTP provider, or from there to a new websocket if that answers a
probe, else to another HTTP provider.  It suspends while a websocket is being closed and
while it probes one, and the timer goes on meanwhile.

* **The code.**  `checkHeartbeat`, `listen`, and `resetRpcFunc` in its four stretches between
  awaits: `beginFromWs`, `beginFromHttp`, `openWs`, `probed`.  `HistoryListener.step` is one event
  of the process; a stretch that throws goes to the timer's `catch`.
* **The invariant.**  `Failover`, one lemma for each stretch.
* **Whole runs.**  `failover_safe`: one reset at a time, one provider with listeners, never a
  closed one, never one that was left before, and all websockets but the last one closed.
-/

namespace TraderBackend

/-! ## The code -/

inductive ListeningMode where
  | ws
  | http
  deriving DecidableEq

/-- Where a call of `resetRpcFunc` is suspended. -/
inductive ResetRpcAt where
  /-- In the first branch, at `wsProvider.destroy()`. -/
  | leavingWs
  /-- In the second branch, at `wsProvider.destroy()`. -/
  | closingWs
  /-- At `wsAlive`. -/
  | probing
  deriving DecidableEq

/-- The listener and the variables of `main` around it.  Providers are numbered as they are
created. -/
structure HistoryListener where
  /-- The provider of the last `listen`. -/
  provider : ℕ
  listeningMode : ListeningMode
  /-- In milliseconds. -/
  lastEventTs : ℤ
  /-- The providers with listeners registered on them. -/
  listening : List ℕ
  /-- What `listen` was called with, in this order. -/
  listened : List ℕ
  wsProvider : ℕ
  wsResetCounter : ℕ
  resetRpcRunning : Bool
  /-- The calls of `resetRpcFunc` that are suspended. -/
  suspended : List ResetRpcAt
  /-- The number of providers created. -/
  providers : ℕ
  wsProviders : List ℕ
  /-- The providers whose `destroy` was called. -/
  destroyed : List ℕ
  /-- A previous provider may have kept its listeners. -/
  removalFailed : Bool
  /-- The resets that threw after they had counted a websocket. -/
  rejected : ℕ
  exited : Bool

namespace HistoryListener

/-- `main` up to the first timer. -/
def start (now : ℤ) : HistoryListener where
  provider := 0
  listeningMode := .ws
  lastEventTs := now
  listening := [0]
  listened := [0]
  wsProvider := 0
  wsResetCounter := 0
  resetRpcRunning := false
  suspended := []
  providers := 1
  wsProviders := [0]
  destroyed := []
  removalFailed := false
  rejected := 0
  exited := false

/-- `checkHeartbeat`, with `Math.round` of a quotient of milliseconds. -/
def checkHeartbeat (s : HistoryListener) (nowTs maxDelaySec : ℤ) : Bool :=
  decide ((nowTs - s.lastEventTs + 500) / 1000 < maxDelaySec)

/-- `listen`; `removeFails` is whether the previous provider throws when it is to drop its
listeners. -/
def listen (s : HistoryListener) (provider : ℕ) (mode : ListeningMode) (removeFails : Bool) :
    HistoryListener :=
  { s with
    provider := provider
    listeningMode := mode
    listening :=
      (if removeFails then s.listening else s.listening.filter fun p => p ≠ s.provider) ++
        [provider]
    listened := s.listened ++ [provider]
    removalFailed := s.removalFailed || removeFails }

/-- `eventsListener.listen(makeJsonProvider())`. -/
def listenOnJson (s : HistoryListener) (removeFails : Bool) : HistoryListener :=
  listen { s with providers := s.providers + 1 } s.providers .http removeFails

/-- The `catch` of the timer. -/
def caught (s : HistoryListener) : HistoryListener := { s with resetRpcRunning := false }

/-- The end of `resetRpcFunc`. -/
def finish (maxWsResetCounter : ℕ) (s : HistoryListener) : HistoryListener :=
  { s with
    resetRpcRunning := false
    exited := s.exited || decide (maxWsResetCounter ≤ s.wsResetCounter) }

/-- The first branch of `resetRpcFunc` up to its await. -/
def beginFromWs (s : HistoryListener) (removeFails : Bool) : HistoryListener :=
  let s := listenOnJson { s with resetRpcRunning := true } removeFails
  { s with destroyed := s.destroyed ++ [s.wsProvider], suspended := s.suspended ++ [.leavingWs] }

/-- The second branch up to its first await. -/
def beginFromHttp (s : HistoryListener) : HistoryListener :=
  { s with
    resetRpcRunning := true
    destroyed := s.destroyed ++ [s.wsProvider]
    suspended := s.suspended ++ [.closingWs] }

/-- The second branch from there to the probe. -/
def openWs (s : HistoryListener) : HistoryListener :=
  { s with
    wsProvider := s.providers
    providers := s.providers + 1
    wsProviders := s.wsProviders ++ [s.providers]
    wsResetCounter := s.wsResetCounter + 1
    suspended := s.suspended.erase .closingWs ++ [.probing] }

/-- The second branch from the probe on; `jsonFails` is whether `makeJsonProvider` throws. -/
def probed (maxWsResetCounter : ℕ) (s : HistoryListener) (wsAlive jsonFails removeFails : Bool) :
    HistoryListener :=
  let s := { s with suspended := s.suspended.erase .probing }
  if wsAlive then finish maxWsResetCounter (s.listen s.wsProvider .ws removeFails)
  else if jsonFails then caught { s with rejected := s.rejected + 1 }
  else finish maxWsResetCounter (s.listenOnJson removeFails)

end HistoryListener

/-- What happens to the process. -/
inductive FailoverEvent where
  /-- A provider announces a block. -/
  | block (provider : ℕ) (now : ℤ)
  /-- The timer. -/
  | heartbeat (now : ℤ) (jsonFails removeFails : Bool)
  /-- `wsProvider.destroy()` has ended or timed out, in the first branch. -/
  | left
  /-- The same in the second branch; the new websocket may fail to be created. -/
  | closed (wsFails : Bool)
  | probe (wsAlive jsonFails removeFails : Bool)

/-- One event. -/
def HistoryListener.step (maxWsResetCounter : ℕ) (s : HistoryListener) :
    FailoverEvent → Option HistoryListener
  | .block provider now =>
      if s.exited then none
      else some (if provider ∈ s.listening then { s with lastEventTs := now } else s)
  | .heartbeat now jsonFails removeFails =>
      if s.exited then none
      else if s.checkHeartbeat now 30 then some s
      else if s.resetRpcRunning then some s
      else
        match s.listeningMode with
        | .ws => some (if jsonFails then s.caught else s.beginFromWs removeFails)
        | .http => some s.beginFromHttp
  | .left =>
      if s.exited ∨ .leavingWs ∉ s.suspended then none
      else some (finish maxWsResetCounter { s with suspended := s.suspended.erase .leavingWs })
  | .closed wsFails =>
      if s.exited ∨ .closingWs ∉ s.suspended then none
      else if wsFails then some (caught { s with suspended := s.suspended.erase .closingWs })
      else some s.openWs
  | .probe wsAlive jsonFails removeFails =>
      if s.exited ∨ .probing ∉ s.suspended then none
      else some (s.probed maxWsResetCounter wsAlive jsonFails removeFails)

/-! ## The invariant -/

namespace HistoryListener

/-- The listener's side: it hangs on the newest provider it was given, and on no other one that has
dropped its listeners when it was told to. -/
structure Attached (s : HistoryListener) : Prop where
  mem : s.provider ∈ s.listening
  alone : s.removalFailed = false → s.listening = [s.provider]
  rising : s.listened.Pairwise (· < ·)
  newest : ∀ p ∈ s.listened, p ≤ s.provider

/-- The side of `main`: all websockets but the one in its variable are closed. -/
structure Sockets (s : HistoryListener) : Prop where
  mem : s.wsProvider ∈ s.wsProviders
  destroyed : ∀ p ∈ s.destroyed, p ∈ s.wsProviders
  closed : ∀ p ∈ s.wsProviders, p ≠ s.wsProvider → p ∈ s.destroyed
  created : ∀ p ∈ s.wsProviders, p < s.providers
  count : s.wsProviders.length = s.wsResetCounter + 1

/-- What is known where a reset is suspended. -/
def Within (maxWsResetCounter : ℕ) (s : HistoryListener) : ResetRpcAt → Prop
  | .leavingWs => s.wsResetCounter < maxWsResetCounter + s.rejected
  | .closingWs => s.wsProvider ∈ s.destroyed ∧ s.wsResetCounter < maxWsResetCounter + s.rejected
  | .probing => s.wsProvider ∉ s.destroyed ∧ s.provider < s.wsProvider

/-- Where the resets are: none is under way, or one. -/
inductive Resets (maxWsResetCounter : ℕ) (s : HistoryListener) : Prop where
  | none (running : s.resetRpcRunning = false) (suspended : s.suspended = [])
      (counter : s.exited = false → s.wsResetCounter < maxWsResetCounter + s.rejected)
  | one (resetAt : ResetRpcAt) (running : s.resetRpcRunning = true)
      (suspended : s.suspended = [resetAt]) (mode : s.listeningMode = .http)
      (within : Within maxWsResetCounter s resetAt)

/-- What is true wherever the resets are. -/
structure Settled (maxWsResetCounter : ℕ) (s : HistoryListener) : Prop where
  attached : s.Attached
  sockets : s.Sockets
  counter_le : s.wsResetCounter ≤ maxWsResetCounter + s.rejected
  provider_lt : s.provider < s.providers
  onWs : s.listeningMode = .ws → s.provider = s.wsProvider ∧ s.wsProvider ∉ s.destroyed
  onHttp : s.listeningMode = .http → s.provider ∉ s.wsProviders

/-- The invariant. -/
structure Failover (maxWsResetCounter : ℕ) (s : HistoryListener) : Prop
    extends Settled maxWsResetCounter s where
  resets : s.Resets maxWsResetCounter

variable {maxWsResetCounter : ℕ} {s : HistoryListener}

/-- Moving on to a newer provider. -/
theorem Attached.listen (h : s.Attached) {p : ℕ} (hlt : s.provider < p) (mode : ListeningMode)
    (removeFails : Bool) : (s.listen p mode removeFails).Attached where
  mem := List.mem_append_right _ (List.mem_singleton_self p)
  alone := by
    intro hfailed
    obtain ⟨hs, hremove⟩ := Bool.or_eq_false_iff.1 hfailed
    show (if removeFails = true then s.listening else _) ++ [p] = [p]
    rw [hremove, h.alone hs]
    simp
  rising := by
    refine List.pairwise_append.2 ⟨h.rising, List.pairwise_singleton _ p, fun a ha b hb => ?_⟩
    rw [List.mem_singleton.1 hb]
    exact (h.newest a ha).trans_lt hlt
  newest := by
    intro a ha
    rcases List.mem_append.1 ha with hold | hnew
    · exact ((h.newest a hold).trans_lt hlt).le
    · exact (List.mem_singleton.1 hnew).le

theorem Settled.resume (h : s.Settled maxWsResetCounter) (suspended : List ResetRpcAt) :
    Settled maxWsResetCounter { s with suspended := suspended } :=
  ⟨⟨h.attached.mem, h.attached.alone, h.attached.rising, h.attached.newest⟩,
    ⟨h.sockets.mem, h.sockets.destroyed, h.sockets.closed, h.sockets.created, h.sockets.count⟩,
    h.counter_le, h.provider_lt, h.onWs, h.onHttp⟩

/-- On to the websocket that has answered. -/
theorem Settled.listenWs (h : s.Settled maxWsResetCounter) (hopen : s.wsProvider ∉ s.destroyed)
    (hlt : s.provider < s.wsProvider) (removeFails : Bool) :
    Settled maxWsResetCounter (s.listen s.wsProvider .ws removeFails) :=
  ⟨h.attached.listen hlt .ws removeFails,
    ⟨h.sockets.mem, h.sockets.destroyed, h.sockets.closed, h.sockets.created, h.sockets.count⟩,
    h.counter_le, h.sockets.created _ h.sockets.mem, fun _ => ⟨rfl, hopen⟩,
    fun hhttp => (by cases hhttp)⟩

/-- On to a new HTTP provider. -/
theorem Settled.listenOnJson (h : s.Settled maxWsResetCounter) (removeFails : Bool) :
    Settled maxWsResetCounter (s.listenOnJson removeFails) := by
  have hattached := h.attached.listen h.provider_lt .http removeFails
  exact ⟨⟨hattached.mem, hattached.alone, hattached.rising, hattached.newest⟩,
    ⟨h.sockets.mem, h.sockets.destroyed, h.sockets.closed,
      fun p hp => Nat.lt_succ_of_lt (h.sockets.created p hp), h.sockets.count⟩,
    h.counter_le, Nat.lt_succ_self _, fun hws => (by cases hws),
    fun _ hp => lt_irrefl _ (h.sockets.created _ hp)⟩

/-- Closing the websocket in the variable. -/
theorem Sockets.destroy (h : s.Sockets) {t : HistoryListener} (hws : t.wsProvider = s.wsProvider)
    (hmem : t.wsProviders = s.wsProviders)
    (hdestroyed : t.destroyed = s.destroyed ++ [s.wsProvider])
    (hproviders : s.providers ≤ t.providers) (hcounter : t.wsResetCounter = s.wsResetCounter) :
    t.Sockets := by
  constructor
  · rw [hws, hmem]
    exact h.mem
  · intro p hp
    rw [hmem]
    rw [hdestroyed] at hp
    rcases List.mem_append.1 hp with hold | hnew
    · exact h.destroyed p hold
    · exact (List.mem_singleton.1 hnew) ▸ h.mem
  · intro p hp hne
    rw [hdestroyed]
    exact List.mem_append_left _ (h.closed p (hmem ▸ hp) (hws ▸ hne))
  · intro p hp
    exact (h.created p (hmem ▸ hp)).trans_le hproviders
  · rw [hmem, hcounter]
    exact h.count

theorem Failover.start {now : ℤ} (hmax : 0 < maxWsResetCounter) :
    Failover maxWsResetCounter (start now) := by
  refine ⟨⟨?_, ?_, Nat.zero_le _, Nat.one_pos, fun _ => ⟨rfl, List.not_mem_nil⟩,
    fun hhttp => (by cases hhttp)⟩, .none rfl rfl fun _ => hmax⟩
  · exact ⟨by simp [HistoryListener.start], fun _ => rfl, List.pairwise_singleton _ _,
      by simp [HistoryListener.start]⟩
  · constructor <;> simp [HistoryListener.start]

/-- Between resets. -/
theorem Resets.of_idle (h : s.Resets maxWsResetCounter) (hidle : s.resetRpcRunning = false)
    (hexit : s.exited = false) :
    s.suspended = [] ∧ s.wsResetCounter < maxWsResetCounter + s.rejected := by
  cases h with
  | none running suspended counter => exact ⟨suspended, counter hexit⟩
  | one resetAt running suspended mode within =>
    rw [hidle] at running
    cases running

/-- The first branch: from the websocket to a new HTTP provider. -/
theorem Failover.beginFromWs (h : Failover maxWsResetCounter s) (hexit : s.exited = false)
    (hidle : s.resetRpcRunning = false) (removeFails : Bool) :
    Failover maxWsResetCounter (s.beginFromWs removeFails) := by
  obtain ⟨hsuspended, hcounter⟩ := h.resets.of_idle hidle hexit
  have hattached := h.attached.listen h.provider_lt .http removeFails
  refine ⟨⟨⟨hattached.mem, hattached.alone, hattached.rising, hattached.newest⟩,
    h.sockets.destroy rfl rfl rfl (Nat.le_succ _) rfl, h.counter_le, Nat.lt_succ_self _,
    fun hws => (by cases hws), fun _ hp => lt_irrefl _ (h.sockets.created _ hp)⟩,
    .one .leavingWs rfl ?_ rfl hcounter⟩
  show s.suspended ++ [.leavingWs] = [.leavingWs]
  rw [hsuspended, List.nil_append]

/-- The second branch up to its first await. -/
theorem Failover.beginFromHttp (h : Failover maxWsResetCounter s) (hexit : s.exited = false)
    (hidle : s.resetRpcRunning = false) (hmode : s.listeningMode = .http) :
    Failover maxWsResetCounter s.beginFromHttp := by
  obtain ⟨hsuspended, hcounter⟩ := h.resets.of_idle hidle hexit
  refine ⟨⟨⟨h.attached.mem, h.attached.alone, h.attached.rising, h.attached.newest⟩,
    h.sockets.destroy rfl rfl rfl (le_refl _) rfl, h.counter_le, h.provider_lt, fun hws => ?_,
    h.onHttp⟩, .one .closingWs rfl ?_ hmode
    ⟨List.mem_append_right _ (List.mem_singleton_self _), hcounter⟩⟩
  · rw [show s.beginFromHttp.listeningMode = .http from hmode] at hws
    cases hws
  · show s.suspended ++ [.closingWs] = [.closingWs]
    rw [hsuspended, List.nil_append]

/-- A suspended reset is the only one. -/
theorem Resets.of_mem (h : s.Resets maxWsResetCounter) {resetAt : ResetRpcAt}
    (hmem : resetAt ∈ s.suspended) :
    s.suspended = [resetAt] ∧ s.resetRpcRunning = true ∧ s.listeningMode = .http ∧
      Within maxWsResetCounter s resetAt := by
  cases h with
  | none running suspended counter =>
    rw [suspended] at hmem
    cases hmem
  | one resetAt' running suspended mode within =>
    rw [suspended] at hmem
    obtain rfl := List.mem_singleton.1 hmem
    exact ⟨suspended, running, mode, within⟩

/-- The second branch up to its probe. -/
theorem Failover.openWs (h : Failover maxWsResetCounter s) (hmem : .closingWs ∈ s.suspended) :
    Failover maxWsResetCounter s.openWs := by
  obtain ⟨hsuspended, hrunning, hmode, hclosed, hcounter⟩ := h.resets.of_mem hmem
  have hnew : s.providers ∉ s.wsProviders := fun hp => lt_irrefl _ (h.sockets.created _ hp)
  refine ⟨⟨⟨h.attached.mem, h.attached.alone, h.attached.rising, h.attached.newest⟩, ?_, hcounter,
    Nat.lt_succ_of_lt h.provider_lt, fun hws => ?_, fun _ hp => ?_⟩, .one .probing hrunning ?_ hmode
    ⟨fun hp => hnew (h.sockets.destroyed _ hp), h.provider_lt⟩⟩
  · refine ⟨List.mem_append_right _ (List.mem_singleton_self _),
      fun p hp => List.mem_append_left _ (h.sockets.destroyed p hp), fun p hp hne => ?_,
      fun p hp => ?_, ?_⟩
    · rcases List.mem_append.1 hp with hold | hlast
      · -- the websocket that was in the variable has been closed on the way here
        by_cases hws : p = s.wsProvider
        · exact hws ▸ hclosed
        · exact h.sockets.closed p hold hws
      · exact absurd (List.mem_singleton.1 hlast) hne
    · rcases List.mem_append.1 hp with hold | hlast
      · exact Nat.lt_succ_of_lt (h.sockets.created p hold)
      · exact List.mem_singleton.1 hlast ▸ Nat.lt_succ_self _
    · show (s.wsProviders ++ [s.providers]).length = s.wsResetCounter + 1 + 1
      rw [List.length_append, h.sockets.count, List.length_singleton]
  · rw [show s.openWs.listeningMode = .http from hmode] at hws
    cases hws
  · rcases List.mem_append.1 hp with hold | hlast
    · exact h.onHttp hmode hold
    · exact absurd h.provider_lt (List.mem_singleton.1 hlast ▸ lt_irrefl _)
  · show s.suspended.erase .closingWs ++ [.probing] = [.probing]
    rw [hsuspended]
    rfl

/-- A reset that ends. -/
theorem Failover.finish (h : s.Settled maxWsResetCounter) (hnone : s.suspended = []) :
    Failover maxWsResetCounter (finish maxWsResetCounter s) := by
  refine ⟨⟨⟨h.attached.mem, h.attached.alone, h.attached.rising, h.attached.newest⟩,
    ⟨h.sockets.mem, h.sockets.destroyed, h.sockets.closed, h.sockets.created, h.sockets.count⟩,
    h.counter_le, h.provider_lt, h.onWs, h.onHttp⟩, .none rfl hnone fun hexit => ?_⟩
  have hlimit := (Bool.or_eq_false_iff.1 hexit).2
  rw [decide_eq_false_iff_not, not_le] at hlimit
  exact Nat.lt_add_right _ hlimit

/-- A reset that throws. -/
theorem Failover.caught (h : s.Settled maxWsResetCounter) (hnone : s.suspended = [])
    (hcounter : s.wsResetCounter < maxWsResetCounter + s.rejected) :
    Failover maxWsResetCounter s.caught :=
  ⟨⟨⟨h.attached.mem, h.attached.alone, h.attached.rising, h.attached.newest⟩,
    ⟨h.sockets.mem, h.sockets.destroyed, h.sockets.closed, h.sockets.created, h.sockets.count⟩,
    h.counter_le, h.provider_lt, h.onWs, h.onHttp⟩, .none rfl hnone fun _ => hcounter⟩

/-- The second branch from the probe on. -/
theorem Failover.probed (h : Failover maxWsResetCounter s) (hmem : .probing ∈ s.suspended)
    (wsAlive jsonFails removeFails : Bool) :
    Failover maxWsResetCounter (s.probed maxWsResetCounter wsAlive jsonFails removeFails) := by
  obtain ⟨hsuspended, -, -, hopen, hlt⟩ := h.resets.of_mem hmem
  have herase : s.suspended.erase .probing = [] := by
    rw [hsuspended]
    rfl
  rw [HistoryListener.probed, herase]
  cases wsAlive with
  | true =>
    rw [if_pos rfl]
    exact Failover.finish ((h.toSettled.resume []).listenWs hopen hlt removeFails) rfl
  | false =>
    rw [if_neg Bool.false_ne_true]
    cases jsonFails with
    | true =>
      rw [if_pos rfl]
      have hrest := h.toSettled.resume []
      exact Failover.caught ⟨⟨hrest.attached.mem, hrest.attached.alone, hrest.attached.rising,
        hrest.attached.newest⟩, ⟨hrest.sockets.mem, hrest.sockets.destroyed, hrest.sockets.closed,
        hrest.sockets.created, hrest.sockets.count⟩, Nat.le_succ_of_le h.counter_le,
        h.provider_lt, h.onWs, h.onHttp⟩ rfl (Nat.lt_succ_of_le h.counter_le)
    | false =>
      rw [if_neg Bool.false_ne_true]
      exact Failover.finish ((h.toSettled.resume []).listenOnJson removeFails) rfl

/-- The end of the first branch. -/
theorem Failover.left (h : Failover maxWsResetCounter s) (hmem : .leavingWs ∈ s.suspended) :
    Failover maxWsResetCounter (HistoryListener.finish maxWsResetCounter
      { s with suspended := s.suspended.erase .leavingWs }) := by
  obtain ⟨hsuspended, -⟩ := h.resets.of_mem hmem
  have herase : s.suspended.erase .leavingWs = [] := by
    rw [hsuspended]
    rfl
  rw [herase]
  exact Failover.finish (h.toSettled.resume []) rfl

/-- The second branch, when no websocket can be created. -/
theorem Failover.closeFails (h : Failover maxWsResetCounter s) (hmem : .closingWs ∈ s.suspended) :
    Failover maxWsResetCounter
      (HistoryListener.caught { s with suspended := s.suspended.erase .closingWs }) := by
  obtain ⟨hsuspended, -, -, -, hcounter⟩ := h.resets.of_mem hmem
  have herase : s.suspended.erase .closingWs = [] := by
    rw [hsuspended]
    rfl
  rw [herase]
  exact Failover.caught (h.toSettled.resume []) rfl hcounter

theorem Failover.heard (h : Failover maxWsResetCounter s) (now : ℤ) :
    Failover maxWsResetCounter { s with lastEventTs := now } := by
  refine ⟨⟨⟨h.attached.mem, h.attached.alone, h.attached.rising, h.attached.newest⟩,
    ⟨h.sockets.mem, h.sockets.destroyed, h.sockets.closed, h.sockets.created, h.sockets.count⟩,
    h.counter_le, h.provider_lt, h.onWs, h.onHttp⟩, ?_⟩
  cases h.resets with
  | none running suspended counter => exact .none running suspended counter
  | one resetAt running suspended mode within =>
    refine .one resetAt running suspended mode ?_
    cases resetAt <;> exact within

/-- Every event keeps the invariant. -/
theorem Failover.step (h : Failover maxWsResetCounter s) {e : FailoverEvent} {s' : HistoryListener}
    (hstep : s.step maxWsResetCounter e = some s') : Failover maxWsResetCounter s' := by
  cases e with
  | block provider now =>
    rw [HistoryListener.step] at hstep
    split at hstep
    · cases hstep
    · cases hstep
      split
      · exact h.heard now
      · exact h
  | heartbeat now jsonFails removeFails =>
    rw [HistoryListener.step] at hstep
    split at hstep
    · cases hstep
    · rename_i hexit
      rw [Bool.not_eq_true] at hexit
      split at hstep
      · cases hstep
        exact h
      · split at hstep
        · cases hstep
          exact h
        · rename_i hidle
          rw [Bool.not_eq_true] at hidle
          cases hmode : s.listeningMode with
          | ws =>
            rw [hmode] at hstep
            cases hstep
            split
            · obtain ⟨hsuspended, hcounter⟩ := h.resets.of_idle hidle hexit
              exact Failover.caught h.toSettled hsuspended hcounter
            · exact h.beginFromWs hexit hidle removeFails
          | http =>
            rw [hmode] at hstep
            cases hstep
            exact h.beginFromHttp hexit hidle hmode
  | left =>
    rw [HistoryListener.step] at hstep
    split at hstep
    · cases hstep
    · rename_i hgo
      cases hstep
      exact h.left (not_not.1 (not_or.1 hgo).2)
  | closed wsFails =>
    rw [HistoryListener.step] at hstep
    split at hstep
    · cases hstep
    · rename_i hgo
      have hmem := not_not.1 (not_or.1 hgo).2
      split at hstep
      · cases hstep
        exact h.closeFails hmem
      · cases hstep
        exact h.openWs hmem
  | probe wsAlive jsonFails removeFails =>
    rw [HistoryListener.step] at hstep
    split at hstep
    · cases hstep
    · rename_i hgo
      cases hstep
      exact h.probed (not_not.1 (not_or.1 hgo).2) wsAlive jsonFails removeFails

/-! ## Whole runs -/

theorem failover_reached {now : ℤ} (hmax : 0 < maxWsResetCounter)
    (h : ReachedBy (HistoryListener.step maxWsResetCounter) (start now) s) :
    Failover maxWsResetCounter s :=
  h.induction (Failover.start hmax) fun _ _ _ hs hstep => hs.step hstep

/-- **Failing over is safe.**  Whenever the timer fires and whatever fails on the way, in every
state of the process: at most one reset is under way, and the flag says whether one is; the
listener hangs on its provider, which has not been closed, and on no other as long as providers
drop their listeners; it never goes back to a provider it has left; every websocket but the newest
is closed; and the process creates no more of them than its limit, one for each reset that threw
at the end, and the first. -/
theorem failover_safe (r : ℕ) (now : ℤ) (s : HistoryListener)
    (h : ReachedBy (HistoryListener.step (100 + r)) (start now) s) :
    (s.suspended.length ≤ 1 ∧ (s.resetRpcRunning = true ↔ s.suspended ≠ [])) ∧
      (s.provider ∈ s.listening ∧ s.provider ∉ s.destroyed ∧
        (s.removalFailed = false → s.listening = [s.provider])) ∧
      s.listened.Pairwise (· < ·) ∧
      (∀ p ∈ s.wsProviders, p ≠ s.wsProvider → p ∈ s.destroyed) ∧
      s.wsProviders.length ≤ 100 + r + s.rejected + 1 := by
  have hinv := failover_reached (Nat.lt_add_right r (by decide)) h
  refine ⟨?_, ⟨hinv.attached.mem, ?_, hinv.attached.alone⟩, hinv.attached.rising,
    hinv.sockets.closed, ?_⟩
  · cases hinv.resets with
    | none running suspended counter => simp [running, suspended]
    | one resetAt running suspended mode within => simp [running, suspended]
  · intro hdestroyed
    cases hmode : s.listeningMode with
    | ws =>
      obtain ⟨hws, hopen⟩ := hinv.onWs hmode
      exact hopen (hws ▸ hdestroyed)
    | http => exact hinv.onHttp hmode (hinv.sockets.destroyed _ hdestroyed)
  · rw [hinv.sockets.count]
    exact Nat.succ_le_succ hinv.counter_le

end HistoryListener

/-- The websocket falls silent, the HTTP provider after it too, and the timer fires once while the
next websocket is probed. -/
def silentTwice : List FailoverEvent :=
  [.block 0 1000, .heartbeat 60000 false false, .left, .block 1 90000,
    .heartbeat 180000 false false, .closed false, .heartbeat 240000 false false,
    .probe true false false]

/-- The law there: the listener is back on a websocket, the second one. -/
theorem silentTwice_safe :
    ∃ s, ReachedBy (HistoryListener.step 150) (HistoryListener.start 0) s ∧
      s.listeningMode = .ws ∧ s.listened = [0, 1, 2] ∧ s.listening = [s.provider] ∧
        s.suspended.length ≤ 1 := by
  have hreached : ReachedBy (HistoryListener.step 150) (HistoryListener.start 0) _ :=
    ⟨silentTwice, rfl⟩
  have hlaw := HistoryListener.failover_safe 50 0 _ hreached
  exact ⟨_, hreached, rfl, rfl, hlaw.2.1.2.2 rfl, hlaw.1.1⟩

end TraderBackend
