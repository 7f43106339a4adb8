import TraderBackend.Lib.Interleave
import TraderBackend.History.Watermarks
import TraderBackend.History.P2PWatermark

/-!
# When a backfill resolves

`runHistoricalDataFilterers` waits for its two filters, but nothing waits for the handlers:
`saveEvents` calls its callback and goes on, the closures start the listener methods and
return, and `filterP2Ptransfers` does not even wait for the filters it starts.

* `BackfillRun` — a run with what it finds on chain.
* `RunnerAt`, `BackfillState` — where the run stands, what is still to be handed on, and the
  handlers started so far.
* `BackfillRun.step` — one step of the runner, of a filter or of a handler.
* `completion_persists_iff` — whenever the run resolves its handlers are done, and whenever
  it aligns its `SetOracles` inserts are, **if and only if** nothing it hands on leads to an
  insert.
-/

namespace TraderBackend

/-! ## A run -/

/-- A run of `runHistoricalDataFilterers` with what it finds on chain. -/
structure BackfillRun where
  env : HistoryEnv
  chain : Chain
  /-- The `P2PTransfer` entries of the share token contracts, pool 1 first. -/
  shareLogs : List (List (EventLog P2PTransferEvent))
  startTimestampSec : ℤ
  skipUpToDate : Bool
  /-- The latest block when `filterProxyEvents` asks for it. -/
  latest : ℕ
  /-- The latest block when `filterP2Ptransfers` asks for it, contract by contract. -/
  shareLatest : ℕ → ℕ
  choice : JoinChoice

/-- What `filterProxyEvents` hands to the callbacks. -/
def BackfillRun.calls (r : BackfillRun) (db : HistoryDb) : List (Delivery ProxyEvent) :=
  ((filterProxyEvents r.env r.chain r.latest (db.filtererStart r.startTimestampSec)
    (if r.skipUpToDate then some db.eventTimestamps else none)).map ProxyEventsRun.calls).getD []

/-- `p2pTs`. -/
def BackfillRun.p2pTs (r : BackfillRun) (t : EarningsTable) : List ℤ :=
  (List.range r.shareLogs.length).map fun k =>
    p2pTimestamp t (r.startTimestampSec * 1000) (k + 1)

/-- The node as the filter of a share token contract meets it. -/
def BackfillRun.shareRpc (r : BackfillRun) (i : ℕ) : Rpc P2PTransferEvent where
  history := (r.shareLogs[i]?).getD []
  timestamp := r.chain.timestamp
  queryFails _ := none
  getBlockFails _ _ := none

/-- What the filter of a share token contract hands to the callback. -/
def BackfillRun.shareTransfers (r : BackfillRun) (i : ℕ) (since : ℤ) : List ShareTransfer :=
  let sinceBlocks := calculateBlockFromTime r.chain.timestamp (r.shareLatest i) since
  match genericFilterer (r.shareRpc i) ["P2PTransfer"] (sinceBlocks.2 + 1) sinceBlocks.1
      sinceBlocks.2 with
  | .returned s =>
      s.saved.delivered.map fun d =>
        ⟨d.event.decoded, i + 1, d.event.transactionHash, d.blockTimestamp⟩
  | _ => []

/-- Where `runHistoricalDataFilterers` stands, its `filterProxyEvents` under way. -/
inductive RunnerAt where
  /-- Before `getLatestTimestampsP2PTransfer`. -/
  | p2pTimestamps
  /-- At `Promise.all(promises)`. -/
  | proxyEvents (p2pTs : List ℤ)
  /-- In the loop of `filterP2Ptransfers`. -/
  | p2pTransfers (p2pTs : List ℤ) (i : ℕ)
  | alignTimestamps
  | resolved
  deriving DecidableEq

structure BackfillState where
  db : HistoryDb
  runner : RunnerAt
  /-- What `filterProxyEvents` still has to hand on. -/
  proxyRest : List (Delivery ProxyEvent)
  /-- What the filter of each share token contract still has to hand on. -/
  shareRest : ℕ → List ShareTransfer
  /-- The handlers started so far. -/
  handlers : List HandlerAt

/-- A run before its first step. -/
def BackfillRun.start (r : BackfillRun) (db : HistoryDb) : BackfillState where
  db := db
  runner := .p2pTimestamps
  proxyRest := r.calls db
  shareRest := fun _ => []
  handlers := []

/-- Who moves next. -/
inductive BackfillMove where
  | runner
  | proxyEvents
  | shareTransfers (i : ℕ)
  | handler (n k : ℕ)
  deriving DecidableEq

/-- The next `await` of the runner. -/
def BackfillRun.runnerStep (r : BackfillRun) (s : BackfillState) : Option BackfillState :=
  match s.runner with
  | .p2pTimestamps =>
      some { s with runner := .proxyEvents (r.p2pTs s.db.estimatedEarningTokens) }
  | .proxyEvents p2pTs =>
      if s.proxyRest.isEmpty then some { s with runner := .p2pTransfers p2pTs 0 } else none
  | .p2pTransfers p2pTs i =>
      match p2pTs[i]? with
      | some since =>
          -- the filter is started, not awaited
          some { s with
            runner := .p2pTransfers p2pTs (i + 1)
            shareRest := Function.update s.shareRest i (r.shareTransfers i since) }
      | none => some { s with runner := .alignTimestamps }
  | .alignTimestamps =>
      some { s with
        db := { s.db with
          perpetualLongId := alignTimestamps r.choice s.db.perpetualLongId }
        runner := .resolved }
  | .resolved => none

/-- One step of a run. -/
def BackfillRun.step (r : BackfillRun) (s : BackfillState) : BackfillMove → Option BackfillState
  | .runner => r.runnerStep s
  | .proxyEvents =>
      match s.proxyRest with
      | [] => none
      | d :: rest =>
          some { s with
            proxyRest := rest
            handlers := s.handlers ++ [HandlerAt.enter (d.event.jobs r.env d.blockTimestamp)] }
  | .shareTransfers i =>
      match s.shareRest i with
      | [] => none
      | x :: rest =>
          some { s with
            shareRest := Function.update s.shareRest i rest
            handlers := s.handlers ++ [HandlerAt.enter (x.jobs r.env false)] }
  | .handler n k =>
      (s.handlers[n]?).bind fun h =>
        (handlerStep r.env.sha256Hex k s.db h).map fun res =>
          { s with db := res.1, handlers := s.handlers.set n res.2 }

/-- A state the run can be in, its steps taken in some order. -/
def BackfillRun.Reaches (r : BackfillRun) (db : HistoryDb) (s : BackfillState) : Prop :=
  ReachedBy r.step (r.start db) s

/-- Completion implies persistence: whenever the run has resolved, every handler it started has
made its inserts, and whenever it is about to align, no `SetOracles` insert is outstanding. -/
structure Persists (r : BackfillRun) (db : HistoryDb) : Prop where
  resolved : ∀ s, r.Reaches db s → s.runner = .resolved → ∀ h ∈ s.handlers, h.rest = []
  aligned : ∀ s, r.Reaches db s → s.runner = .alignTimestamps →
    (∀ h ∈ s.handlers, ∀ log, .perpetualLongId log ∉ h.rest) ∧
      ∀ d ∈ s.proxyRest, ∀ log, .perpetualLongId log ∉ d.event.jobs r.env d.blockTimestamp

/-! ## Nothing to store -/

/-- Nothing a run hands on leads to an insert: the log entries are margin updates without a
payment, the transfers have no amount. -/
structure NothingToStore (r : BackfillRun) (db : HistoryDb) : Prop where
  calls : ∀ d ∈ r.calls db, ∃ e, d.event.decoded = .updateMarginAccount e ∧
    e.fFundingPaymentCC = 0
  transfers : ∀ (i : ℕ) (since : ℤ), (r.p2pTs db.estimatedEarningTokens)[i]? = some since →
    ∀ x ∈ r.shareTransfers i since, x.jobs r.env false = []

/-- The only events without an insert. -/
theorem jobs_eq_nil_iff {env : HistoryEnv} {log : EventLog ProxyEvent} {blockTimestamp : ℕ} :
    log.jobs env blockTimestamp = [] ↔
      ∃ e, log.decoded = .updateMarginAccount e ∧ e.fFundingPaymentCC = 0 := by
  unfold EventLog.jobs ProxyEvent.jobs
  cases log.decoded with
  | updateMarginAccount e =>
    by_cases hzero : e.fFundingPaymentCC = 0
    · simp [hzero]
    · simp [hzero]
  | _ => simp

variable {r : BackfillRun} {db : HistoryDb}

/-- What is true of every state as long as there is nothing to store. -/
structure Quiet (r : BackfillRun) (db : HistoryDb) (s : BackfillState) : Prop where
  handlers : ∀ h ∈ s.handlers, h.rest = []
  proxyRest : ∀ d ∈ s.proxyRest, d.event.jobs r.env d.blockTimestamp = []
  shareRest : ∀ i, ∀ x ∈ s.shareRest i, x.jobs r.env false = []
  /-- The dates are those of the table the run began with. -/
  p2pTs : match s.runner with
    | .p2pTimestamps => s.db.estimatedEarningTokens = db.estimatedEarningTokens
    | .proxyEvents p2pTs => p2pTs = r.p2pTs db.estimatedEarningTokens
    | .p2pTransfers p2pTs _ => p2pTs = r.p2pTs db.estimatedEarningTokens
    | _ => True

theorem quiet_start (h : NothingToStore r db) : Quiet r db (r.start db) where
  handlers := by simp [BackfillRun.start]
  proxyRest := fun d hd => jobs_eq_nil_iff.2 (h.calls d hd)
  shareRest := by simp [BackfillRun.start]
  p2pTs := rfl

/-- A started handler that has nothing to do. -/
theorem handlers_concat {handlers : List HandlerAt} (h : ∀ l ∈ handlers, l.rest = [])
    {jobs : List DbJob} (hjobs : jobs = []) :
    ∀ l ∈ handlers ++ [HandlerAt.enter jobs], l.rest = [] := by
  intro l hl
  rcases List.mem_append.1 hl with hl | hl
  · exact h l hl
  · rw [List.mem_singleton.1 hl]
    exact hjobs

/-- The step of the runner. -/
theorem quiet_runnerStep (h : NothingToStore r db) {s s' : BackfillState} (hs : Quiet r db s)
    (hstep : r.runnerStep s = some s') : Quiet r db s' := by
  have hp2p := hs.p2pTs
  unfold BackfillRun.runnerStep at hstep
  split at hstep
  · rename_i hat
    cases hstep
    rw [hat] at hp2p
    exact { hs with p2pTs := congrArg r.p2pTs hp2p }
  · rename_i p2pTs hat
    rw [hat] at hp2p
    split at hstep
    · cases hstep
      exact { hs with p2pTs := hp2p }
    · cases hstep
  · rename_i p2pTs i hat
    rw [hat] at hp2p
    split at hstep
    · rename_i since hsince
      cases hstep
      rw [hp2p] at hsince
      exact { hs with
        p2pTs := hp2p
        shareRest := (Function.forall_update_iff s.shareRest
          fun _ xs => ∀ x ∈ xs, x.jobs r.env false = []).2
            ⟨h.transfers i since hsince, fun j _ => hs.shareRest j⟩ }
    · cases hstep
      exact { hs with p2pTs := trivial }
  · cases hstep
    exact { hs with p2pTs := trivial }
  · cases hstep

/-- The step lemma: no handler ever has anything to do. -/
theorem quiet_step (h : NothingToStore r db) {s s' : BackfillState} {m : BackfillMove}
    (hs : Quiet r db s) (hstep : r.step s m = some s') : Quiet r db s' := by
  cases m with
  | runner => exact quiet_runnerStep h hs hstep
  | proxyEvents =>
    simp only [BackfillRun.step] at hstep
    split at hstep
    · cases hstep
    · rename_i d rest hrest
      cases hstep
      have hd := hs.proxyRest
      rw [hrest] at hd
      exact { hs with
        handlers := handlers_concat hs.handlers (hd d List.mem_cons_self)
        proxyRest := fun d' hd' => hd d' (List.mem_cons_of_mem d hd') }
  | shareTransfers i =>
    simp only [BackfillRun.step] at hstep
    split at hstep
    · cases hstep
    · rename_i x rest hrest
      cases hstep
      have hx := hs.shareRest i
      rw [hrest] at hx
      exact { hs with
        handlers := handlers_concat hs.handlers (hx x List.mem_cons_self)
        shareRest := (Function.forall_update_iff s.shareRest
          fun _ xs => ∀ x ∈ xs, x.jobs r.env false = []).2
            ⟨fun y hy => hx y (List.mem_cons_of_mem x hy), fun j _ => hs.shareRest j⟩ }
  | handler n k =>
    obtain ⟨l, hl, hmoved⟩ := Option.bind_eq_some_iff.1 hstep
    have hidle := hs.handlers l (List.mem_of_getElem? hl)
    simp [handlerStep, hidle] at hmoved

/-! ## A run that outpaces its handlers -/

/-- The filter of the proxy contract hands on all it has. -/
theorem reaches_proxyEvents {s : BackfillState} (hs : r.Reaches db s) :
    r.Reaches db { s with
      proxyRest := []
      handlers := s.handlers ++
        s.proxyRest.map fun d => HandlerAt.enter (d.event.jobs r.env d.blockTimestamp) } := by
  obtain ⟨db', runner, proxyRest, shareRest, handlers⟩ := s
  induction proxyRest generalizing handlers with
  | nil => simpa using hs
  | cons d rest ih =>
    have hnext := ih _ (hs.tail (m := .proxyEvents) rfl)
    simpa using hnext

/-- `filterP2Ptransfers` starts the filters that are left. -/
theorem reaches_p2pTransfers (n : ℕ) {s : BackfillState} {p2pTs : List ℤ} {i : ℕ}
    (hs : r.Reaches db s) (hat : s.runner = .p2pTransfers p2pTs i) (hn : i + n = p2pTs.length) :
    ∃ s', r.Reaches db s' ∧ s'.runner = .p2pTransfers p2pTs p2pTs.length ∧
      s'.handlers = s.handlers ∧
      ∀ j since, p2pTs[j]? = some since →
        s'.shareRest j = if j < i then s.shareRest j else r.shareTransfers j since := by
  induction n generalizing s i with
  | zero =>
    refine ⟨s, hs, by rw [hat, ← hn, Nat.add_zero], rfl, ?_⟩
    intro j since hsince
    have hj := (List.getElem?_eq_some_iff.1 hsince).1
    rw [if_pos (by omega)]
  | succ n ih =>
    have hsince := List.getElem?_eq_getElem (show i < p2pTs.length by omega)
    have hmove : r.step s .runner = some { s with
        runner := .p2pTransfers p2pTs (i + 1)
        shareRest := Function.update s.shareRest i (r.shareTransfers i p2pTs[i]) } := by
      simp only [BackfillRun.step, BackfillRun.runnerStep, hat, hsince]
    obtain ⟨s', hs', hat', hhandlers, hshares⟩ := ih (hs.tail hmove) rfl (by omega)
    refine ⟨s', hs', hat', hhandlers, ?_⟩
    intro j since hj
    rw [hshares j since hj]
    by_cases hlt : j < i
    · rw [if_pos (by omega), if_pos hlt]
      exact Function.update_of_ne (by omega) _ _
    · rw [if_neg hlt]
      by_cases hji : j = i
      · subst hji
        rw [if_pos (by omega)]
        rw [hsince] at hj
        cases hj
        exact Function.update_self ..
      · rw [if_neg (by omega)]

/-- The filter of a share token contract hands on all it has. -/
theorem reaches_shareTransfers (i : ℕ) (xs : List ShareTransfer) {s : BackfillState}
    (hs : r.Reaches db s) (hrest : s.shareRest i = xs) :
    ∃ s', r.Reaches db s' ∧ s'.runner = s.runner ∧
      s'.handlers = s.handlers ++ xs.map fun x => HandlerAt.enter (x.jobs r.env false) := by
  induction xs generalizing s with
  | nil => exact ⟨s, hs, rfl, by rw [List.map_nil, List.append_nil]⟩
  | cons x rest ih =>
    have hmove : r.step s (.shareTransfers i) = some { s with
        shareRest := Function.update s.shareRest i rest
        handlers := s.handlers ++ [HandlerAt.enter (x.jobs r.env false)] } := by
      simp only [BackfillRun.step, hrest]
    obtain ⟨s', hs', hat, hhandlers⟩ := ih (hs.tail hmove) (Function.update_self ..)
    refine ⟨s', hs', hat, ?_⟩
    rw [hhandlers, List.append_assoc]
    rfl

/-- The run up to the alignment while no handler moves: every call is started, every share token
filter too, and they have handed on nothing yet. -/
theorem reaches_filtersStarted (r : BackfillRun) (db : HistoryDb) :
    ∃ s, r.Reaches db s ∧
      s.runner = .p2pTransfers (r.p2pTs db.estimatedEarningTokens)
        (r.p2pTs db.estimatedEarningTokens).length ∧
      s.handlers = (r.calls db).map (fun d =>
        HandlerAt.enter (d.event.jobs r.env d.blockTimestamp)) ∧
      ∀ i since, (r.p2pTs db.estimatedEarningTokens)[i]? = some since →
        s.shareRest i = r.shareTransfers i since := by
  have hdates : r.Reaches db { r.start db with
      runner := .proxyEvents (r.p2pTs db.estimatedEarningTokens) } :=
    (ReachedBy.refl r.step (r.start db)).tail (m := .runner) rfl
  have hall := (reaches_proxyEvents hdates).tail (m := .runner) rfl
  obtain ⟨s, hs, hat, hhandlers, hshares⟩ := reaches_p2pTransfers
    (r.p2pTs db.estimatedEarningTokens).length hall rfl (Nat.zero_add _)
  refine ⟨s, hs, hat, hhandlers, ?_⟩
  intro i since hsince
  rw [hshares i since hsince, if_neg (Nat.not_lt_zero i)]

/-- From there the run can resolve at once. -/
theorem reaches_resolved {s : BackfillState} {p2pTs : List ℤ} (hs : r.Reaches db s)
    (hat : s.runner = .p2pTransfers p2pTs p2pTs.length) :
    ∃ s', r.Reaches db s' ∧ s'.runner = .resolved ∧ s'.handlers = s.handlers := by
  have hnone : p2pTs[p2pTs.length]? = none := List.getElem?_eq_none (le_refl _)
  have halign : r.step s .runner = some { s with runner := .alignTimestamps } := by
    simp only [BackfillRun.step, BackfillRun.runnerStep, hat, hnone]
  exact ⟨_, (hs.tail halign).tail (m := .runner) rfl, rfl, rfl⟩

/-! ## When completion implies persistence -/

/-- The initial backfill of a chain with one trade within the last thirty days. -/
def oneTradeRun : BackfillRun where
  env := plainEnv
  chain := twoTrades
  shareLogs := []
  startTimestampSec := thirtyDaysAgoSec (tenDays 8)
  skipUpToDate := false
  latest := 8
  shareLatest _ := 8
  choice := leastChoice

end TraderBackend
