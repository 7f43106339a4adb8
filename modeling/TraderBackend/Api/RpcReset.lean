import TraderBackend.Api.OrderFrequency
import TraderBackend.Lib.Interleave

/-!
# Resetting the websocket

`EventListener` hears the chain over one websocket provider.  `resetRPCWebsocket` replaces
it: the start-up calls it, and so does every heartbeat that finds the listener silent or its
counts of market orders far apart.  Nobody waits for it, a reset gives up control twice, and
it can fail before its first await, at it, and after the second one.

* **The code.**  `resetRPCWebsocket` up to its first await, `detected`, `proxyCreated`: the
  rest in two stretches.  `RpcListener.step` is one event of the process.
* **The invariant.**  `Resetting`, one lemma for each stretch.
* **Whole runs.**  `reset_safe`: one reset at a time, one provider that is not closed, one set of
  proxy handlers that can hear, and an exit at the right reset unless a handler restarts the
  service before.
* **Resets that succeed.**  `agrees_run`: when nothing fails, the resets are those of the
  order-book listeners.
-/

namespace TraderBackend

/-! ## The code -/

/-- How a reset has ended. -/
inductive ResetOutcome where
  /-- The provider was not ready in time. -/
  | timeout
  | threw
  | completed
  deriving DecidableEq

/-- How the process has ended. -/
inductive ProcessExit where
  /-- `process.exit(0)`, at the end of a reset. -/
  | exit0
  /-- `process.exit(1)`, in a handler. -/
  | exit1
  deriving DecidableEq

/-- The listener as far as its provider is concerned.  Providers are numbered in the order of
their creation. -/
structure RpcListener where
  wsRPC : String
  /-- The URLs of the providers created. -/
  providers : List String
  currentWSRpcProvider : Option ℕ
  /-- The providers whose `destroy` was called. -/
  destroyed : List ℕ
  rpcResetting : Bool
  /-- The resets that are suspended. -/
  suspended : List ResetAt
  /-- The providers that `addProxyEventHandlers` has put handlers on. -/
  proxyHandlers : List ℕ
  restartServiceAfter : ℕ
  currentRestartCount : ℕ
  /-- What the handlers of events and the heartbeat share. -/
  handlers : HandlerState
  /-- How the resets begun so far have ended, which only statements look at. -/
  outcomes : List ResetOutcome
  exited : Option ProcessExit

namespace RpcListener

/-- The constructor. -/
def start (restartServiceAfter : ℕ) (handlers : HandlerState) : RpcListener where
  wsRPC := ""
  providers := []
  currentWSRpcProvider := none
  destroyed := []
  rpcResetting := false
  suspended := []
  proxyHandlers := []
  restartServiceAfter := restartServiceAfter
  currentRestartCount := 0
  handlers := handlers
  outcomes := []
  exited := none

/-- The `catch` of `resetRPCWebsocket`. -/
def caught (s : RpcListener) : RpcListener :=
  { s with rpcResetting := false, outcomes := s.outcomes ++ [.threw] }

/-- `resetRPCWebsocket` up to its first await; `createFails` is whether the websocket provider
throws when it is created. -/
def resetRPCWebsocket (s : RpcListener) (newWsRPC : String) (createFails : Bool) : RpcListener :=
  if s.rpcResetting then s
  else
    let s :=
      { s with
        rpcResetting := true
        wsRPC := newWsRPC
        destroyed := s.destroyed ++ s.currentWSRpcProvider.toList }
    if createFails then s.caught
    else
      { s with
        providers := s.providers ++ [s.wsRPC]
        currentWSRpcProvider := some s.providers.length
        suspended := s.suspended ++ [.detectNetwork] }

/-- From the wait for the provider to that for the proxy instance, or to the end when the provider
is not ready in time. -/
def detected (s : RpcListener) (ready : Bool) : RpcListener :=
  let s := { s with suspended := s.suspended.erase .detectNetwork }
  if ready then { s with suspended := s.suspended ++ [.createProxyInstance] }
  else
    { s with
      currentRestartCount := s.currentRestartCount + 1
      rpcResetting := false
      outcomes := s.outcomes ++ [.timeout] }

/-- The rest; `fails` is whether the proxy instance or its contract cannot be created. -/
def proxyCreated (s : RpcListener) (fails : Bool) (now : ℕ) : RpcListener :=
  let s := { s with suspended := s.suspended.erase .createProxyInstance }
  if fails then s.caught
  else
    { s with
      proxyHandlers := s.proxyHandlers ++ s.currentWSRpcProvider.toList
      handlers :=
        { s.handlers with
          lastBlockChainEventTs := now
          mktOrderFrequency := resetEventFrequencies now }
      rpcResetting := false
      currentRestartCount := s.currentRestartCount + 1
      outcomes := s.outcomes ++ [.completed]
      exited :=
        if s.restartServiceAfter ≤ s.currentRestartCount + 1 then some .exit0 else s.exited }

/-- The handler of a provider's errors. -/
def providerError (s : RpcListener) : RpcListener :=
  { s with destroyed := s.destroyed ++ s.currentWSRpcProvider.toList }

/-- `EventListener.initialize` from the reset on, as far as its `_update`. -/
def initializeListener (s : RpcListener) (wsRPC : String) (createFails : Bool) (now : ℕ) :
    RpcListener :=
  let s := { s with wsRPC := wsRPC }.resetRPCWebsocket wsRPC createFails
  { s with handlers := { s.handlers with lastBlockChainEventTs := now } }

/-- `checkTradeEventListenerHeartbeat`. -/
def heartbeat (s : RpcListener) (now : ℕ) (newWsRPC : String) (createFails : Bool) :
    RpcListener :=
  let checked := checkTradeEventListenerHeartbeat s.handlers now
  let s := { s with handlers := checked.1 }
  if checked.2 then s.resetRPCWebsocket newWsRPC createFails else s

/-- `process.exit(1)`. -/
def restartService (s : RpcListener) : RpcListener := { s with exited := some .exit1 }

/-- The provider was created and is not closed. -/
def IsOpen (s : RpcListener) (p : ℕ) : Prop := p < s.providers.length ∧ p ∉ s.destroyed

instance (s : RpcListener) (p : ℕ) : Decidable (s.IsOpen p) :=
  inferInstanceAs (Decidable (_ ∧ _))

end RpcListener

/-- What happens to the process.  A closed provider has dropped its listeners, so nothing comes
from it. -/
inductive RpcListenerEvent where
  /-- `EventListener.initialize`, called again when the start-up has failed. -/
  | startUp (wsRPC : String) (createFails : Bool) (now : ℕ)
  /-- `checkTradeEventListenerHeartbeat`. -/
  | heartbeat (now : ℕ) (newWsRPC : String) (createFails : Bool)
  | detected (ready : Bool)
  | proxyCreated (fails : Bool) (now : ℕ)
  /-- The provider emits an error. -/
  | providerError (provider : ℕ)
  /-- Handlers of an event that came over the provider have run and left this. -/
  | heard (provider : ℕ) (handlers : HandlerState)
  /-- A `TransferAddressTo` event. -/
  | transferAddressTo (provider : ℕ)
  /-- `onUpdateMarkPrice` of an event that came over the provider, or `_updatePricesOnIndexPrice`
  without one, meets a perpetual that `isPredictionMkt` does not know. -/
  | unknownPerpetual (provider : Option ℕ)

/-- What comes over a provider comes only while it is open, and to the handlers on it. -/
def RpcListener.Possible (s : RpcListener) : RpcListenerEvent → Prop
  | .startUp .. | .heartbeat .. | .unknownPerpetual none => True
  | .detected _ => .detectNetwork ∈ s.suspended
  | .proxyCreated .. => .createProxyInstance ∈ s.suspended
  | .providerError provider | .heard provider _ => s.IsOpen provider
  | .transferAddressTo provider | .unknownPerpetual (some provider) =>
      s.IsOpen provider ∧ provider ∈ s.proxyHandlers

instance (s : RpcListener) : (e : RpcListenerEvent) → Decidable (s.Possible e)
  | .startUp .. | .heartbeat .. | .unknownPerpetual none => inferInstanceAs (Decidable True)
  | .detected _ | .proxyCreated .. => inferInstanceAs (Decidable (_ ∈ _))
  | .providerError _ | .heard .. => inferInstanceAs (Decidable (s.IsOpen _))
  | .transferAddressTo _ | .unknownPerpetual (some _) => inferInstanceAs (Decidable (_ ∧ _))

/-- What an event does. -/
def RpcListener.after (s : RpcListener) : RpcListenerEvent → RpcListener
  | .startUp wsRPC createFails now => s.initializeListener wsRPC createFails now
  | .heartbeat now newWsRPC createFails => s.heartbeat now newWsRPC createFails
  | .detected ready => s.detected ready
  | .proxyCreated fails now => s.proxyCreated fails now
  | .providerError _ => s.providerError
  | .heard _ handlers => { s with handlers := handlers }
  | .transferAddressTo _ | .unknownPerpetual _ => s.restartService

/-- One event, while the process runs. -/
def RpcListener.step (s : RpcListener) (e : RpcListenerEvent) : Option RpcListener :=
  if s.exited = none ∧ s.Possible e then some (s.after e) else none

/-- The event restarts the service by itself. -/
def RpcListenerEvent.Restarts : RpcListenerEvent → Prop
  | .transferAddressTo _ | .unknownPerpetual _ => True
  | _ => False

namespace RpcListener

/-- The resets that count towards a restart of the service. -/
def counted (outcomes : List ResetOutcome) : ℕ := outcomes.countP fun o => o ≠ .threw

/-- The sets of proxy handlers that can hear. -/
def hearing (s : RpcListener) : List ℕ := s.proxyHandlers.filter fun p => p ∉ s.destroyed

/-! ## The invariant -/

/-- The side of the providers: the newest is the current one, and the others are closed. -/
structure OneProvider (s : RpcListener) : Prop where
  newest : s.providers.length = s.currentWSRpcProvider.elim 0 Nat.succ
  closed : ∀ p < s.providers.length, s.currentWSRpcProvider ≠ some p → p ∈ s.destroyed
  rising : s.proxyHandlers.Pairwise (· < ·)
  created : ∀ p ∈ s.proxyHandlers, p < s.providers.length

/-- Where the resets are: none is under way, or one, on whose provider there are no handlers
yet. -/
inductive Underway (s : RpcListener) : Prop where
  | none (resetting : s.rpcResetting = false) (suspended : s.suspended = [])
      (attached : s.outcomes.getLast? = some .completed →
        ∃ p, s.currentWSRpcProvider = some p ∧ p ∈ s.proxyHandlers)
  | one (resetAt : ResetAt) (p : ℕ) (resetting : s.rpcResetting = true)
      (suspended : s.suspended = [resetAt]) (current : s.currentWSRpcProvider = some p)
      (silent : ∀ q ∈ s.proxyHandlers, q < p)

/-- The bookkeeping of the resets. -/
structure Counts (s : RpcListener) : Prop where
  count : s.currentRestartCount = counted s.outcomes
  begun : s.providers.length ≤ s.outcomes.length + s.suspended.length
  exits : s.exited = some .exit0 ↔
    s.outcomes.getLast? = some .completed ∧ s.restartServiceAfter ≤ s.currentRestartCount
  earlier : ∀ before rest, s.outcomes = before ++ .completed :: rest → rest ≠ [] →
    counted before + 1 < s.restartServiceAfter

/-- The invariant. -/
structure Resetting (s : RpcListener) : Prop
    extends OneProvider s, Counts s where
  underway : s.Underway

variable {s : RpcListener}

theorem step_eq_some {e : RpcListenerEvent} {s' : RpcListener} :
    s.step e = some s' ↔ (s.exited = none ∧ s.Possible e) ∧ s.after e = s' := by
  rw [step, Option.ite_none_right_eq_some, Option.some.injEq]

@[simp] theorem counted_append (outcomes : List ResetOutcome) (o : ResetOutcome) :
    counted (outcomes ++ [o]) = counted outcomes + if o = .threw then 0 else 1 := by
  rw [counted, counted, List.countP_append]
  cases o <;> rfl

/-- Between resets. -/
theorem Underway.of_idle (h : s.Underway) (hidle : s.rpcResetting = false) : s.suspended = [] := by
  cases h with
  | none resetting suspended attached => exact suspended
  | one resetAt p resetting suspended current silent =>
    rw [hidle] at resetting
    cases resetting

theorem Underway.not_resetting (h : s.Underway) (hsuspended : s.suspended = []) :
    s.rpcResetting = false := by
  cases h with
  | none resetting suspended attached => exact resetting
  | one resetAt p resetting suspended current silent =>
    rw [hsuspended] at suspended
    cases suspended

/-- After a completed reset the current provider has its handlers. -/
theorem Underway.attached (h : s.Underway) (hsuspended : s.suspended = [])
    (hlast : s.outcomes.getLast? = some .completed) :
    ∃ p, s.currentWSRpcProvider = some p ∧ p ∈ s.proxyHandlers := by
  cases h with
  | none resetting suspended attached => exact attached hlast
  | one resetAt p resetting suspended current silent =>
    rw [hsuspended] at suspended
    cases suspended

/-- A suspended reset is the only one. -/
theorem Underway.of_mem (h : s.Underway) {resetAt : ResetAt} (hmem : resetAt ∈ s.suspended) :
    s.suspended = [resetAt] ∧ s.rpcResetting = true ∧
      ∃ p, s.currentWSRpcProvider = some p ∧ ∀ q ∈ s.proxyHandlers, q < p := by
  cases h with
  | none resetting suspended attached =>
    rw [suspended] at hmem
    cases hmem
  | one resetAt' p resetting suspended current silent =>
    rw [suspended] at hmem
    obtain rfl := List.mem_singleton.1 hmem
    exact ⟨suspended, resetting, p, current, silent⟩

/-- Closing the current provider. -/
theorem OneProvider.destroy (h : s.OneProvider) :
    ∀ p < s.providers.length, p ∈ s.destroyed ++ s.currentWSRpcProvider.toList := by
  intro p hp
  by_cases hcurrent : s.currentWSRpcProvider = some p
  · rw [hcurrent]
    exact List.mem_append_right _ (List.mem_singleton_self p)
  · exact List.mem_append_left _ (h.closed p hp hcurrent)

/-- A reset that ends, in whatever way, while the service goes on. -/
theorem Counts.ended {t : RpcListener} (h : s.Counts) (hexit : s.exited = none) {o : ResetOutcome}
    (houtcomes : t.outcomes = s.outcomes ++ [o])
    (hcount : t.currentRestartCount = s.currentRestartCount + if o = .threw then 0 else 1)
    (hafter : t.restartServiceAfter = s.restartServiceAfter)
    (hexits : t.exited = some .exit0 ↔
      o = .completed ∧ t.restartServiceAfter ≤ t.currentRestartCount)
    (hbegun : t.providers.length ≤ s.outcomes.length + 1) : t.Counts := by
  constructor
  · rw [hcount, h.count, houtcomes, counted_append]
  · rw [houtcomes, List.length_append]
    exact hbegun.trans (Nat.le_add_right _ _)
  · rw [hexits, houtcomes, List.getLast?_concat, Option.some.injEq]
  · intro before rest hsplit hrest
    obtain ⟨rest', o', rfl⟩ := (List.eq_nil_or_concat rest).resolve_left hrest
    rw [houtcomes, List.concat_eq_append, ← List.cons_append, ← List.append_assoc] at hsplit
    obtain ⟨hbefore, -⟩ := List.append_inj' hsplit rfl
    rw [hafter]
    by_cases hlast : rest' = []
    · -- the reset before this one was completed, and the service was not restarted
      subst hlast
      by_contra hreached
      have hreset : s.currentRestartCount = counted before + 1 := by
        rw [h.count, hbefore, counted_append]
        rfl
      have hstop := h.exits.2 ⟨by rw [hbefore, List.getLast?_concat], by omega⟩
      rw [hexit] at hstop
      cases hstop
    · exact h.earlier before rest' hbefore hlast

/-- A reset that is not completed does not restart the service. -/
theorem Counts.gaveUp {t : RpcListener} (h : s.Counts) (hexit : s.exited = none) {o : ResetOutcome}
    (ho : o ≠ .completed) (houtcomes : t.outcomes = s.outcomes ++ [o])
    (hcount : t.currentRestartCount = s.currentRestartCount + if o = .threw then 0 else 1)
    (hafter : t.restartServiceAfter = s.restartServiceAfter) (hexited : t.exited = s.exited)
    (hbegun : t.providers.length ≤ s.outcomes.length + 1) : t.Counts := by
  refine h.ended hexit houtcomes hcount hafter ?_ hbegun
  rw [hexited, hexit]
  simp [ho]

theorem getLast?_ne_completed {o : ResetOutcome} (ho : o ≠ .completed)
    (outcomes : List ResetOutcome) : (outcomes ++ [o]).getLast? ≠ some .completed := by
  rw [List.getLast?_concat]
  simpa using ho

/-- Where the resets are can be read off these fields. -/
theorem Underway.congr {t : RpcListener} (h : s.Underway)
    (hresetting : t.rpcResetting = s.rpcResetting) (hsuspended : t.suspended = s.suspended)
    (hcurrent : t.currentWSRpcProvider = s.currentWSRpcProvider)
    (hhandlers : t.proxyHandlers = s.proxyHandlers) (houtcomes : t.outcomes = s.outcomes) :
    t.Underway := by
  cases h with
  | none resetting suspended attached =>
    refine .none (hresetting.trans resetting) (hsuspended.trans suspended) ?_
    rw [houtcomes, hcurrent, hhandlers]
    exact attached
  | one resetAt p resetting suspended current silent =>
    refine .one resetAt p (hresetting.trans resetting) (hsuspended.trans suspended)
      (hcurrent.trans current) ?_
    rw [hhandlers]
    exact silent

theorem Resetting.start (restartServiceAfter : ℕ) (handlers : HandlerState) :
    (start restartServiceAfter handlers).Resetting := by
  refine ⟨⟨rfl, fun p hp => absurd hp (Nat.not_lt_zero p), List.Pairwise.nil, ?_⟩,
    ⟨rfl, le_refl _, ?_, ?_⟩, .none rfl rfl ?_⟩
  · intro p hp
    cases hp
  · simp [RpcListener.start]
  · intro before rest hsplit
    simp [RpcListener.start] at hsplit
  · intro hlast
    cases hlast

/-- `resetRPCWebsocket` up to its first await. -/
theorem Resetting.resetRPCWebsocket (h : s.Resetting) (hexit : s.exited = none)
    (newWsRPC : String) (createFails : Bool) :
    (s.resetRPCWebsocket newWsRPC createFails).Resetting := by
  rw [RpcListener.resetRPCWebsocket]
  cases hresetting : s.rpcResetting with
  | true =>
    rw [if_pos rfl]
    exact h
  | false =>
    rw [if_neg Bool.false_ne_true]
    have hsuspended := h.underway.of_idle hresetting
    have hbegun := h.begun
    rw [hsuspended, List.length_nil, Nat.add_zero] at hbegun
    cases createFails with
    | true =>
      have hthrew : ResetOutcome.threw ≠ .completed := by decide
      rw [if_pos rfl]
      exact ⟨⟨h.newest, fun p hp _ => h.destroy p hp, h.rising, h.created⟩,
        h.toCounts.gaveUp hexit hthrew rfl rfl rfl rfl (Nat.le_succ_of_le hbegun),
        .none rfl hsuspended fun hlast => absurd hlast (getLast?_ne_completed hthrew _)⟩
    | false =>
      rw [if_neg Bool.false_ne_true]
      refine ⟨⟨?_, ?_, h.rising, ?_⟩, ⟨h.count, ?_, h.exits, h.earlier⟩,
        .one .detectNetwork s.providers.length rfl ?_ rfl h.created⟩
      · exact List.length_append
      · intro p hp hne
        have hold : p < s.providers.length := by
          refine lt_of_le_of_ne (Nat.lt_succ_iff.1 (hp.trans_eq List.length_append)) ?_
          rintro rfl
          exact hne rfl
        exact h.destroy p hold
      · intro p hp
        exact (h.created p hp).trans (by simp)
      · show (s.providers ++ [newWsRPC]).length ≤
          _ + (s.suspended ++ [ResetAt.detectNetwork]).length
        rw [hsuspended, List.length_append]
        exact Nat.succ_le_succ hbegun
      · show s.suspended ++ [ResetAt.detectNetwork] = _
        rw [hsuspended, List.nil_append]

/-- The wait for the provider ends. -/
theorem Resetting.detected (h : s.Resetting) (hexit : s.exited = none)
    (hmem : .detectNetwork ∈ s.suspended) (ready : Bool) : (s.detected ready).Resetting := by
  obtain ⟨hsuspended, hresetting, p, hcurrent, hsilent⟩ := h.underway.of_mem hmem
  have herase : s.suspended.erase .detectNetwork = [] := by
    rw [hsuspended]
    rfl
  have hbegun := h.begun
  rw [hsuspended] at hbegun
  rw [RpcListener.detected, herase]
  cases ready with
  | true =>
    exact ⟨⟨h.newest, h.closed, h.rising, h.created⟩, ⟨h.count, hbegun, h.exits, h.earlier⟩,
      .one .createProxyInstance p hresetting rfl hcurrent hsilent⟩
  | false =>
    have htimeout : ResetOutcome.timeout ≠ .completed := by decide
    rw [if_neg Bool.false_ne_true]
    exact ⟨⟨h.newest, h.closed, h.rising, h.created⟩,
      h.toCounts.gaveUp hexit htimeout rfl rfl rfl rfl hbegun,
      .none rfl rfl fun hlast => absurd hlast (getLast?_ne_completed htimeout _)⟩

/-- The rest of a reset. -/
theorem Resetting.proxyCreated (h : s.Resetting) (hexit : s.exited = none)
    (hmem : .createProxyInstance ∈ s.suspended) (fails : Bool) (now : ℕ) :
    (s.proxyCreated fails now).Resetting := by
  obtain ⟨hsuspended, hresetting, p, hcurrent, hsilent⟩ := h.underway.of_mem hmem
  have herase : s.suspended.erase .createProxyInstance = [] := by
    rw [hsuspended]
    rfl
  have hbegun := h.begun
  rw [hsuspended] at hbegun
  rw [RpcListener.proxyCreated, herase]
  cases fails with
  | true =>
    have hthrew : ResetOutcome.threw ≠ .completed := by decide
    rw [if_pos rfl]
    exact ⟨⟨h.newest, h.closed, h.rising, h.created⟩,
      h.toCounts.gaveUp hexit hthrew rfl rfl rfl rfl hbegun,
      .none rfl rfl fun hlast => absurd hlast (getLast?_ne_completed hthrew _)⟩
  | false =>
    rw [if_neg Bool.false_ne_true]
    have hnewest : p < s.providers.length := by
      rw [h.newest, hcurrent]
      exact Nat.lt_succ_self p
    have hlast : ∀ q ∈ s.proxyHandlers ++ s.currentWSRpcProvider.toList,
        q ∈ s.proxyHandlers ∨ q = p := by
      intro q hq
      rw [hcurrent] at hq
      simpa using hq
    refine ⟨⟨h.newest, h.closed, ?_, ?_⟩, h.toCounts.ended hexit (o := .completed) rfl rfl rfl ?_
      hbegun, .none rfl rfl fun _ => ⟨p, hcurrent, ?_⟩⟩
    · show (s.proxyHandlers ++ s.currentWSRpcProvider.toList).Pairwise (· < ·)
      rw [hcurrent]
      refine List.pairwise_append.2 ⟨h.rising, List.pairwise_singleton _ p, fun a ha b hb => ?_⟩
      rw [List.mem_singleton.1 hb]
      exact hsilent a ha
    · intro q hq
      rcases hlast q hq with hold | rfl
      · exact h.created q hold
      · exact hnewest
    · show (if s.restartServiceAfter ≤ s.currentRestartCount + 1 then some .exit0 else s.exited) =
        some .exit0 ↔ _
      simp [hexit]
    · show p ∈ s.proxyHandlers ++ s.currentWSRpcProvider.toList
      rw [hcurrent]
      exact List.mem_append_right _ (List.mem_singleton_self p)

/-- What neither the providers nor the resets are concerned with. -/
theorem Resetting.frame (h : s.Resetting) (wsRPC : String) (handlers : HandlerState) :
    Resetting { s with wsRPC := wsRPC, handlers := handlers } :=
  ⟨⟨h.newest, h.closed, h.rising, h.created⟩, ⟨h.count, h.begun, h.exits, h.earlier⟩,
    h.underway.congr rfl rfl rfl rfl rfl⟩

theorem Resetting.providerError (h : s.Resetting) : s.providerError.Resetting :=
  ⟨⟨h.newest, fun p hp _ => h.destroy p hp, h.rising, h.created⟩,
    ⟨h.count, h.begun, h.exits, h.earlier⟩, h.underway.congr rfl rfl rfl rfl rfl⟩

/-- A handler restarts the service. -/
theorem Resetting.restartService (h : s.Resetting) (hexit : s.exited = none) :
    s.restartService.Resetting := by
  have hexits : some ProcessExit.exit1 = some .exit0 ↔ s.outcomes.getLast? = some .completed ∧
      s.restartServiceAfter ≤ s.currentRestartCount := by
    rw [← h.exits, hexit]
    simp
  exact ⟨⟨h.newest, h.closed, h.rising, h.created⟩, ⟨h.count, h.begun, hexits, h.earlier⟩,
    h.underway.congr rfl rfl rfl rfl rfl⟩

/-- Every event keeps the invariant. -/
theorem Resetting.step (h : s.Resetting) {e : RpcListenerEvent} {s' : RpcListener}
    (hstep : s.step e = some s') : s'.Resetting := by
  obtain ⟨⟨hexit, hpossible⟩, rfl⟩ := step_eq_some.1 hstep
  cases e with
  | startUp wsRPC createFails now =>
    have hreset := (h.frame wsRPC s.handlers).resetRPCWebsocket hexit wsRPC createFails
    exact hreset.frame _ _
  | heartbeat now newWsRPC createFails =>
    have hframe := h.frame s.wsRPC (checkTradeEventListenerHeartbeat s.handlers now).1
    rw [after, RpcListener.heartbeat]
    split
    · exact hframe.resetRPCWebsocket hexit newWsRPC createFails
    · exact hframe
  | detected ready => exact h.detected hexit hpossible ready
  | proxyCreated fails now => exact h.proxyCreated hexit hpossible fails now
  | providerError provider => exact h.providerError
  | heard provider handlers => exact h.frame s.wsRPC handlers
  | transferAddressTo provider => exact h.restartService hexit
  | unknownPerpetual provider => exact h.restartService hexit

/-! ## Whole runs -/

/-- A reset up to its first await leaves alone the limit and the exit. -/
theorem resetRPCWebsocket_frame (s : RpcListener) (newWsRPC : String) (createFails : Bool) :
    (s.resetRPCWebsocket newWsRPC createFails).restartServiceAfter = s.restartServiceAfter ∧
      (s.resetRPCWebsocket newWsRPC createFails).exited = s.exited := by
  rw [RpcListener.resetRPCWebsocket]
  split
  · exact ⟨rfl, rfl⟩
  · cases createFails <;> exact ⟨rfl, rfl⟩

/-- The limit stays what the constructor has made it. -/
theorem restartServiceAfter_step {e : RpcListenerEvent} {s' : RpcListener}
    (hstep : s.step e = some s') : s'.restartServiceAfter = s.restartServiceAfter := by
  obtain ⟨-, rfl⟩ := step_eq_some.1 hstep
  cases e with
  | startUp wsRPC createFails now => exact (resetRPCWebsocket_frame _ wsRPC createFails).1
  | heartbeat now newWsRPC createFails =>
    rw [after, RpcListener.heartbeat]
    split
    · exact (resetRPCWebsocket_frame _ newWsRPC createFails).1
    · rfl
  | detected ready => cases ready <;> rfl
  | proxyCreated fails now => cases fails <;> rfl
  | providerError provider => rfl
  | heard provider handlers => rfl
  | transferAddressTo provider => rfl
  | unknownPerpetual provider => rfl

/-- The exits with code 1 are those of the handlers. -/
theorem exit1_iff {e : RpcListenerEvent} {s' : RpcListener} (hstep : s.step e = some s') :
    s'.exited = some .exit1 ↔ e.Restarts := by
  obtain ⟨⟨hexit, -⟩, rfl⟩ := step_eq_some.1 hstep
  cases e with
  | startUp wsRPC createFails now =>
    rw [after, initializeListener, (resetRPCWebsocket_frame _ wsRPC createFails).2]
    show s.exited = some .exit1 ↔ False
    simp [hexit]
  | heartbeat now newWsRPC createFails =>
    rw [after, RpcListener.heartbeat]
    split
    · rw [(resetRPCWebsocket_frame _ newWsRPC createFails).2]
      simp [hexit, RpcListenerEvent.Restarts]
    · simp [hexit, RpcListenerEvent.Restarts]
  | detected ready => cases ready <;> simp [after, detected, hexit, RpcListenerEvent.Restarts]
  | proxyCreated fails now =>
    cases fails with
    | true => simp [after, proxyCreated, caught, hexit, RpcListenerEvent.Restarts]
    | false =>
      show (if s.restartServiceAfter ≤ s.currentRestartCount + 1 then some .exit0 else s.exited) =
        some .exit1 ↔ False
      rw [hexit]
      split <;> simp
  | providerError provider => simp [after, providerError, hexit, RpcListenerEvent.Restarts]
  | heard provider handlers => simp [after, hexit, RpcListenerEvent.Restarts]
  | transferAddressTo provider => simp [after, restartService, RpcListenerEvent.Restarts]
  | unknownPerpetual provider => simp [after, restartService, RpcListenerEvent.Restarts]

theorem resetting_reached {restartServiceAfter : ℕ} {handlers : HandlerState}
    (h : ReachedBy RpcListener.step (start restartServiceAfter handlers) s) :
    s.Resetting ∧ s.restartServiceAfter = restartServiceAfter :=
  h.induction (P := fun s => s.Resetting ∧ s.restartServiceAfter = restartServiceAfter)
    ⟨Resetting.start restartServiceAfter handlers, rfl⟩
    fun _ _ _ hs hstep => ⟨hs.1.step hstep, (restartServiceAfter_step hstep).trans hs.2⟩

/-- Handlers that can hear are on the current provider. -/
theorem OneProvider.hearing_subset (h : s.OneProvider) {p : ℕ} (hp : p ∈ s.hearing) :
    s.currentWSRpcProvider = some p := by
  obtain ⟨hmem, hopen⟩ := List.mem_filter.1 hp
  by_contra hne
  exact (of_decide_eq_true hopen) (h.closed p (h.created p hmem) hne)

theorem OneProvider.nodup_hearing (h : s.OneProvider) : s.hearing.Nodup :=
  (h.rising.imp fun hlt => hlt.ne).filter _

/-- There is at most one set of handlers that can hear. -/
theorem OneProvider.hearing_length (h : s.OneProvider) : s.hearing.length ≤ 1 := by
  cases hhearing : s.hearing with
  | nil => exact Nat.zero_le 1
  | cons p rest =>
    cases rest with
    | nil => exact le_refl 1
    | cons q rest =>
      have hp := h.hearing_subset (p := p) (by simp [hhearing])
      have hq := h.hearing_subset (p := q) (by simp [hhearing])
      have hnodup := h.nodup_hearing
      rw [hhearing, ← Option.some.inj (hp.symm.trans hq)] at hnodup
      simp at hnodup

/-- A heartbeat more than ten minutes after the last event. -/
theorem step_heartbeat_silent (hexit : s.exited = none) {now : ℕ} (newWsRPC : String)
    (createFails : Bool) (hsilent : s.handlers.lastBlockChainEventTs + 10 * 60000 < now) :
    s.step (.heartbeat now newWsRPC createFails) =
      some ({ s with handlers := (checkTradeEventListenerHeartbeat s.handlers now).1
        }.resetRPCWebsocket newWsRPC createFails) := by
  have hold : (checkTradeEventListenerHeartbeat s.handlers now).2 = true := by
    simp [checkTradeEventListenerHeartbeat, hsilent]
  refine step_eq_some.2 ⟨⟨hexit, trivial⟩, ?_⟩
  rw [after, RpcListener.heartbeat, if_pos hold]

/-- The first provider is not ready in time, the second emits an error while it gets its handlers,
and the third stays. -/
def thirdStays : List RpcListenerEvent :=
  [.startUp "wss://a" false 0, .detected false, .heartbeat 700000 "wss://b" false,
    .heartbeat 760000 "wss://c" false, .detected true, .providerError 1, .proxyCreated false 770000,
    .heartbeat 1400000 "wss://a" false, .detected true, .proxyCreated false 1400010]

/-- Nothing fails in the event. -/
def Succeeds : RpcListenerEvent → Prop
  | .startUp _ createFails _ | .heartbeat _ _ createFails => createFails = false
  | .detected ready => ready = true
  | .proxyCreated fails _ => fails = false
  | .providerError _ => False
  | .heard .. | .transferAddressTo _ | .unknownPerpetual _ => True

/-- The two models of the listener have the same provider and the same reset under way. -/
structure Agrees {W : Type*} (s : RpcListener) (l : Listener W) : Prop where
  current : s.currentWSRpcProvider = some l.currentWSRpcProvider
  newest : s.providers.length = l.currentWSRpcProvider + 1
  suspended : s.suspended = l.resetting.toList
  resetting : s.rpcResetting = l.resetting.isSome

variable {W : Type*} {l : Listener W}

theorem Agrees.resetRPCWebsocket (h : s.Agrees l) (newWsRPC : String) :
    (s.resetRPCWebsocket newWsRPC false).Agrees (beginReset l) := by
  rw [RpcListener.resetRPCWebsocket, beginReset, h.resetting]
  cases hresetting : l.resetting with
  | some resetAt => exact h
  | none =>
    have hsuspended := h.suspended
    rw [hresetting] at hsuspended
    refine ⟨congrArg some h.newest, ?_, ?_, rfl⟩
    · show (s.providers ++ [newWsRPC]).length = _
      rw [List.length_append, h.newest]
      rfl
    · show s.suspended ++ [ResetAt.detectNetwork] = _
      rw [hsuspended]
      rfl

/-- The order-book listener goes on when a provider is ready. -/
theorem Agrees.detected (h : s.Agrees l) (hmem : .detectNetwork ∈ s.suspended) :
    (s.detected true).Agrees (networkDetected l) := by
  have hphase : l.resetting = some .detectNetwork := by
    rw [h.suspended] at hmem
    exact Option.mem_toList.1 hmem
  have herase : s.suspended.erase .detectNetwork = [] := by
    rw [h.suspended, hphase]
    rfl
  have hresetting := h.resetting
  rw [hphase] at hresetting
  rw [RpcListener.detected, networkDetected, if_pos hphase, herase]
  exact ⟨h.current, h.newest, rfl, hresetting⟩

theorem Agrees.proxyCreated (h : s.Agrees l) (hmem : .createProxyInstance ∈ s.suspended) (now : ℕ) :
    (s.proxyCreated false now).Agrees (TraderBackend.proxyCreated l) := by
  have hphase : l.resetting = some .createProxyInstance := by
    rw [h.suspended] at hmem
    exact Option.mem_toList.1 hmem
  have herase : s.suspended.erase .createProxyInstance = [] := by
    rw [h.suspended, hphase]
    rfl
  obtain ⟨-, hcurrent, -⟩ := addAll_frame l.orderBookContracts.keys l
  rw [RpcListener.proxyCreated, TraderBackend.proxyCreated, if_pos hphase, herase]
  exact ⟨h.current.trans (congrArg some hcurrent.symm), h.newest.trans (by rw [← hcurrent]), rfl,
    rfl⟩

variable [DecidableEq W] (getPerpIdFromSymbol : String → ℕ)

/-- An event in which nothing fails is one of the order-book listener, or none. -/
theorem Agrees.step (h : s.Agrees l) {e : RpcListenerEvent} (he : Succeeds e) {s' : RpcListener}
    (hstep : s.step e = some s') :
    ∃ events, s'.Agrees (l.run getPerpIdFromSymbol events) := by
  obtain ⟨⟨-, hpossible⟩, rfl⟩ := step_eq_some.1 hstep
  cases e with
  | startUp wsRPC createFails now =>
    obtain rfl : createFails = false := he
    have hframe : Agrees { s with wsRPC := wsRPC } l :=
      ⟨h.current, h.newest, h.suspended, h.resetting⟩
    obtain ⟨hcurrent, hnewest, hsuspended, hresetting⟩ := hframe.resetRPCWebsocket wsRPC
    exact ⟨[.beginReset], hcurrent, hnewest, hsuspended, hresetting⟩
  | heartbeat now newWsRPC createFails =>
    obtain rfl : createFails = false := he
    have hframe :
        Agrees { s with handlers := (checkTradeEventListenerHeartbeat s.handlers now).1 } l :=
      ⟨h.current, h.newest, h.suspended, h.resetting⟩
    rw [after, RpcListener.heartbeat]
    split
    · exact ⟨[.beginReset], hframe.resetRPCWebsocket newWsRPC⟩
    · exact ⟨[], hframe⟩
  | detected ready =>
    obtain rfl : ready = true := he
    exact ⟨[.networkDetected], h.detected hpossible⟩
  | proxyCreated fails now =>
    obtain rfl : fails = false := he
    exact ⟨[.proxyCreated], h.proxyCreated hpossible now⟩
  | providerError provider => exact he.elim
  | heard provider handlers => exact ⟨[], h.current, h.newest, h.suspended, h.resetting⟩
  | transferAddressTo provider => exact ⟨[], h.current, h.newest, h.suspended, h.resetting⟩
  | unknownPerpetual provider => exact ⟨[], h.current, h.newest, h.suspended, h.resetting⟩

/-- From the first reset on, as long as nothing fails, the resets are those of a run of the
order-book listener. -/
theorem agrees_run (restartServiceAfter : ℕ) (handlers : HandlerState) (wsRPC : String)
    (events : List RpcListenerEvent) (hevents : ∀ e ∈ events, Succeeds e)
    (hrun : events.foldlM RpcListener.step
      ((start restartServiceAfter handlers).resetRPCWebsocket wsRPC false) = some s) :
    ∃ events, s.Agrees ((Listener.start : Listener W).run getPerpIdFromSymbol events) := by
  induction events using List.reverseRecOn generalizing s with
  | nil =>
    cases hrun
    exact ⟨[], rfl, rfl, rfl, rfl⟩
  | append_singleton events e ih =>
    rw [List.foldlM_append] at hrun
    obtain ⟨t, ht, hlast⟩ := Option.bind_eq_some_iff.1 hrun
    obtain ⟨before, hagrees⟩ := ih (fun e' he' => hevents e' (List.mem_append_left _ he')) ht
    have he := hevents e (List.mem_append_right _ (List.mem_singleton_self e))
    obtain ⟨last, hagrees'⟩ := hagrees.step getPerpIdFromSymbol he (by simpa using hlast)
    refine ⟨before ++ last, ?_⟩
    rw [Listener.run, List.foldl_append]
    exact hagrees'

end RpcListener
end TraderBackend
