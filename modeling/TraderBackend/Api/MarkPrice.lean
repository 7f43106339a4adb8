import TraderBackend.Lib.JsString
import TraderBackend.Lib.RingBuffer
import TraderBackend.Api.IndexPrices

/-!
# The mark-price handler

`EventListener.onUpdateMarkPrice` and the check in front of it that an RPC node
does not deliver one event twice.  Prices and premia are exact rationals; what
the SDK computes (`ABK64x64ToFloat`, `probToPrice`, the symbol of a perpetual)
is a parameter.

* **Passage.**  `grantEventControlPassage` offers the hash of an event to the
  ring of its handler; each handler has its own ring of ten hashes.
* **The handler.**  `onUpdateMarkPrice` with every way it can end.
* **What the premia are.**  `premia_follow_events_iff`: the stored premia are
  those of the latest event of each perpetual **if and only if** no event whose
  key is among the last ten granted ones carries premia of its own.  The key is
  the sum of three numbers followed by the perpetual id, so different events can
  share one.
-/

namespace TraderBackend

/-- The handlers that check for repeated events. -/
inductive ControlledEventHandlerName where
  | onTrade
  | onUpdateMarkPrice
  | onPerpetualLimitOrderCreated
  | onExecutionFailed
  deriving DecidableEq

/-- `eventControlCircularBuffer`. -/
abbrev EventControl := ControlledEventHandlerName → RingBuffer String 10

/-- The buffers of a fresh `EventListener`. -/
def EventControl.init : EventControl := fun _ => RingBuffer.empty String 10 (by decide)

/-- `grantEventControlPassage`. -/
def grantEventControlPassage (control : EventControl) (hash : String)
    (eventHandlerName : ControlledEventHandlerName) : EventControl × Bool :=
  let offered := (control eventHandlerName).offer hash
  (Function.update control eventHandlerName offered.1, offered.2)

/-- The arguments of `onUpdateMarkPrice`, as the chain emits them. -/
structure UpdateMarkPrice where
  perpetualId : ℕ
  fMidPricePremium : ℤ
  fMarkPricePremium : ℤ
  fMarkIndexPrice : ℤ
  deriving DecidableEq

/-- What the handler asks of the SDK and of the open-interest store. -/
structure MarkPriceEnv where
  ABK64x64ToFloat : ℤ → ℚ
  probToPrice : ℚ → ℚ
  /-- `sdkInterface.getSymbolFromPerpId`. -/
  getSymbolFromPerpId : ℕ → Option String
  /-- `traderInterface.getSymbolFromPerpId`. -/
  traderSymbolFromPerpId : ℕ → Option String
  /-- `redisOITimeSeries.get`. -/
  openInterest : ℕ → ℚ

/-- The fields of the listener the handler reads and writes. -/
structure MarkPriceListener where
  isInitialized : Bool
  prices : PriceState
  fundingRate : OrdMap ℕ ℚ
  eventControl : EventControl

/-- The exchange-info update a handled event ends with. -/
structure ExchangeInfoNumbers where
  symbol : String
  values : List ℚ
  propertyNames : List String
  deriving DecidableEq

/-- How a call of the handler ends. -/
inductive MarkPriceOutcome where
  | notInitialized
  /-- `process.exit(1)`: the perpetual is missing from `isPredictionMkt`. -/
  | exit
  | duplicate
  | noSymbol
  | noIndex
  | updated (broadcast : PriceCall) (update : ExchangeInfoNumbers)
  deriving DecidableEq

/-- `pxIdxName`: the first two parts of the long symbol. -/
def pxIdxName (longSym : String) : String :=
  let parts := JsString.split longSym '-'
  parts[0]?.getD "undefined" ++ "-" ++ parts[1]?.getD "undefined"

/-- The key under which `onUpdateMarkPrice` remembers an event. -/
def UpdateMarkPrice.hash (e : UpdateMarkPrice) : String :=
  toString (e.fMidPricePremium + e.fMarkPricePremium + e.fMarkIndexPrice) ++
    toString e.perpetualId

/-- `onUpdateMarkPrice`. -/
def onUpdateMarkPrice (env : MarkPriceEnv) (s : MarkPriceListener) (e : UpdateMarkPrice) :
    MarkPriceListener × MarkPriceOutcome :=
  if s.isInitialized then
    match s.prices.isPredictionMkt.get? e.perpetualId with
    | none => (s, .exit)
    | some isPred =>
        match grantEventControlPassage s.eventControl e.hash .onUpdateMarkPrice with
        | (eventControl, false) => ({ s with eventControl := eventControl }, .duplicate)
        | (eventControl, true) =>
            let midPrem := env.ABK64x64ToFloat e.fMidPricePremium
            let mrkPrem := env.ABK64x64ToFloat e.fMarkPricePremium
            let prices :=
              { s.prices with
                midPremium := s.prices.midPremium.set e.perpetualId midPrem
                mrkPremium := s.prices.mrkPremium.set e.perpetualId mrkPrem }
            let s := { s with eventControl := eventControl, prices := prices }
            match env.getSymbolFromPerpId e.perpetualId with
            | none => (s, .noSymbol)
            | some longSym =>
                match prices.idxPrices.get? (pxIdxName longSym) with
                | none => (s, .noIndex)
                | some currIdx =>
                    let new := eventPathPrices env.probToPrice isPred currIdx midPrem mrkPrem
                    let fundingRate := (s.fundingRate.get? e.perpetualId).getD 0
                    let oi := env.openInterest e.perpetualId
                    (s, .updated
                      ⟨pxIdxName longSym, e.perpetualId, new.1, new.2.1, new.2.2⟩
                      ⟨(env.traderSymbolFromPerpId e.perpetualId).getD "",
                        [new.1, new.2.1, new.2.2, oi, fundingRate * 10000],
                        ["midPrice", "markPrice", "indexPrice", "openInterestBC",
                          "currentFundingRateBps"]⟩)
  else (s, .notInitialized)

variable (env : MarkPriceEnv)

/-- The listener after a sequence of events. -/
def MarkPriceListener.run (s : MarkPriceListener) (events : List UpdateMarkPrice) :
    MarkPriceListener :=
  events.foldl (fun s e => (onUpdateMarkPrice env s e).1) s

/-- The two premia stored for a perpetual. -/
def MarkPriceListener.premia (s : MarkPriceListener) (perpetualId : ℕ) : Option ℚ × Option ℚ :=
  (s.prices.midPremium.get? perpetualId, s.prices.mrkPremium.get? perpetualId)

/-- The two premia an event carries. -/
def UpdateMarkPrice.premia (e : UpdateMarkPrice) : Option ℚ × Option ℚ :=
  (some (env.ABK64x64ToFloat e.fMidPricePremium), some (env.ABK64x64ToFloat e.fMarkPricePremium))

/-- The premia of the latest event of a perpetual, or the ones stored at first. -/
def latestPremia (s : MarkPriceListener) (events : List UpdateMarkPrice) (perpetualId : ℕ) :
    Option ℚ × Option ℚ :=
  match (events.filter fun e => e.perpetualId = perpetualId).getLast? with
  | some e => e.premia env
  | none => s.premia perpetualId

/-- The key of `e` is among the last ten that were granted after the events `pre`. -/
def KeyRemembered (pre : List UpdateMarkPrice) (e : UpdateMarkPrice) : Prop :=
  e.hash ∈ RingBuffer.window 10 (RingBuffer.granted 10 (pre.map UpdateMarkPrice.hash))

variable {env}

theorem latestPremia_append (s : MarkPriceListener) (pre : List UpdateMarkPrice)
    (e : UpdateMarkPrice) (perpetualId : ℕ) :
    latestPremia env s (pre ++ [e]) perpetualId =
      if e.perpetualId = perpetualId then e.premia env else latestPremia env s pre perpetualId := by
  rw [latestPremia, List.filter_append]
  by_cases h : e.perpetualId = perpetualId
  · simp [h]
  · simp [h, latestPremia]

theorem run_append (s : MarkPriceListener) (pre : List UpdateMarkPrice) (e : UpdateMarkPrice) :
    s.run env (pre ++ [e]) = (onUpdateMarkPrice env (s.run env pre) e).1 := by
  rw [MarkPriceListener.run, List.foldl_append]
  rfl

/-- The invariant of a run: initialised, no perpetual forgotten, and the ring holds the
keys granted so far. -/
structure Listening (s₀ : MarkPriceListener) (pre : List UpdateMarkPrice)
    (s : MarkPriceListener) : Prop where
  initialized : s.isInitialized = true
  known : s.prices.isPredictionMkt = s₀.prices.isPredictionMkt
  ring : (s.eventControl .onUpdateMarkPrice).Holds
    (RingBuffer.granted 10 (pre.map UpdateMarkPrice.hash))

section

variable (env)

/-- One event: a remembered key leaves the premia alone, any other key stores the premia
of the event, and the invariant is kept. -/
theorem onUpdateMarkPrice_spec {s₀ s : MarkPriceListener} {pre : List UpdateMarkPrice}
    {e : UpdateMarkPrice} (h : Listening s₀ pre s)
    (hknown : (s₀.prices.isPredictionMkt.get? e.perpetualId).isSome = true) :
    Listening s₀ (pre ++ [e]) (onUpdateMarkPrice env s e).1 ∧
      (KeyRemembered pre e → ∀ p, (onUpdateMarkPrice env s e).1.premia p = s.premia p) ∧
      (¬ KeyRemembered pre e → ∀ p, (onUpdateMarkPrice env s e).1.premia p =
        if e.perpetualId = p then e.premia env else s.premia p) := by
  obtain ⟨isPred, hpred⟩ := Option.isSome_iff_exists.1 hknown
  rw [← h.known] at hpred
  have hoffer := RingBuffer.offer_eq h.ring e.hash
  have hring : ((s.eventControl .onUpdateMarkPrice).offer e.hash).1.Holds
      (RingBuffer.granted 10 ((pre ++ [e]).map UpdateMarkPrice.hash)) := by
    rw [List.map_append, List.map_singleton, RingBuffer.granted_append]
    exact RingBuffer.holds_offer h.ring e.hash
  by_cases hkey : KeyRemembered pre e
  · have hoffer := hoffer.trans (if_pos hkey)
    rw [hoffer] at hring
    have hrun : onUpdateMarkPrice env s e =
        (⟨s.isInitialized, s.prices, s.fundingRate, Function.update s.eventControl
          .onUpdateMarkPrice (s.eventControl .onUpdateMarkPrice)⟩, .duplicate) := by
      simp only [onUpdateMarkPrice, h.initialized, if_true, hpred, grantEventControlPassage, hoffer]
    rw [hrun]
    refine ⟨⟨h.initialized, h.known, ?_⟩, fun _ p => rfl, fun hno => absurd hkey hno⟩
    simpa using hring
  · have hoffer := hoffer.trans (if_neg hkey)
    rw [hoffer] at hring
    -- the three ways to go on share the state they leave behind
    have hrun : (onUpdateMarkPrice env s e).1 =
        { s with
          eventControl := Function.update s.eventControl .onUpdateMarkPrice
            ((s.eventControl .onUpdateMarkPrice).push e.hash)
          prices :=
            { s.prices with
              midPremium := s.prices.midPremium.set e.perpetualId
                (env.ABK64x64ToFloat e.fMidPricePremium)
              mrkPremium := s.prices.mrkPremium.set e.perpetualId
                (env.ABK64x64ToFloat e.fMarkPricePremium) } } := by
      simp only [onUpdateMarkPrice, h.initialized, if_true, hpred, grantEventControlPassage, hoffer]
      cases env.getSymbolFromPerpId e.perpetualId with
      | none => rfl
      | some longSym =>
        dsimp only
        cases s.prices.idxPrices.get? (pxIdxName longSym) with
        | none => rfl
        | some currIdx => rfl
    rw [hrun]
    refine ⟨⟨h.initialized, h.known, ?_⟩, fun hc => absurd hc hkey, fun _ p => ?_⟩
    · simpa using hring
    · simp only [MarkPriceListener.premia, OrdMap.get?_set]
      by_cases hp : e.perpetualId = p
      · simp [hp, UpdateMarkPrice.premia]
      · simp [hp]

/-- The run lemma. -/
theorem listening_run {s₀ : MarkPriceListener} (hinit : s₀.isInitialized = true)
    (hring : s₀.eventControl .onUpdateMarkPrice = RingBuffer.empty String 10 (by decide))
    (events : List UpdateMarkPrice)
    (hknown : ∀ e ∈ events, (s₀.prices.isPredictionMkt.get? e.perpetualId).isSome = true) :
    Listening s₀ events (s₀.run env events) := by
  induction events using List.reverseRecOn with
  | nil => exact ⟨hinit, rfl, hring ▸ RingBuffer.holds_empty _⟩
  | append_singleton pre e ih =>
    have hpre := ih fun e' he' => hknown e' (List.mem_append_left _ he')
    have he := hknown e (List.mem_append_right _ (List.mem_singleton_self e))
    rw [run_append]
    exact (onUpdateMarkPrice_spec env hpre he).1

end

/-- After every event the premia of its perpetual are the ones it carries. -/
def PremiaFollow (env : MarkPriceEnv) (s₀ : MarkPriceListener) (events : List UpdateMarkPrice) :
    Prop :=
  ∀ pre e suf, events = pre ++ e :: suf →
    (s₀.run env (pre ++ [e])).premia e.perpetualId = e.premia env

/-- While the premia follow the events, the stored ones are those of the latest event. -/
theorem premia_run_of_follow {s₀ : MarkPriceListener} (hinit : s₀.isInitialized = true)
    (hring : s₀.eventControl .onUpdateMarkPrice = RingBuffer.empty String 10 (by decide))
    (events : List UpdateMarkPrice)
    (hknown : ∀ e ∈ events, (s₀.prices.isPredictionMkt.get? e.perpetualId).isSome = true)
    (hfollow : PremiaFollow env s₀ events) (p : ℕ) :
    (s₀.run env events).premia p = latestPremia env s₀ events p := by
  induction events using List.reverseRecOn with
  | nil => rfl
  | append_singleton pre e ih =>
    have hknown' : ∀ e' ∈ pre, (s₀.prices.isPredictionMkt.get? e'.perpetualId).isSome = true :=
      fun e' he' => hknown e' (List.mem_append_left _ he')
    have he := hknown e (List.mem_append_right _ (List.mem_singleton_self e))
    have hfollow' : PremiaFollow env s₀ pre := by
      intro a e' b hab
      exact hfollow a e' (b ++ [e]) (by rw [hab]; simp)
    rw [latestPremia_append]
    by_cases hp : e.perpetualId = p
    · rw [if_pos hp, ← hp]
      exact hfollow pre e [] rfl
    · rw [if_neg hp, ← ih hknown' hfollow', run_append]
      have hspec := onUpdateMarkPrice_spec env (listening_run env hinit hring pre hknown') he
      by_cases hkey : KeyRemembered pre e
      · exact hspec.2.1 hkey p
      · rw [hspec.2.2 hkey p, if_neg hp]

/-- **When no update is hidden.**  After every event the stored premia of its perpetual
are the ones it carries, if and only if every event whose key is among the last ten
granted ones repeats the premia its perpetual already has. -/
theorem premia_follow_events_iff {s₀ : MarkPriceListener} (hinit : s₀.isInitialized = true)
    (hring : s₀.eventControl .onUpdateMarkPrice = RingBuffer.empty String 10 (by decide))
    (events : List UpdateMarkPrice)
    (hknown : ∀ e ∈ events, (s₀.prices.isPredictionMkt.get? e.perpetualId).isSome = true) :
    PremiaFollow env s₀ events ↔
      ∀ pre e suf, events = pre ++ e :: suf → KeyRemembered pre e →
        latestPremia env s₀ pre e.perpetualId = e.premia env := by
  constructor
  · intro hfollow pre e suf hev hkey
    subst hev
    have hknown' : ∀ e' ∈ pre, (s₀.prices.isPredictionMkt.get? e'.perpetualId).isSome = true :=
      fun e' he' => hknown e' (List.mem_append_left _ he')
    have hpre : PremiaFollow env s₀ pre := by
      intro a e' b hab
      exact hfollow a e' (b ++ e :: suf) (by rw [hab]; simp)
    have he := hknown e (List.mem_append_right _ (List.mem_cons_self ..))
    have hspec := onUpdateMarkPrice_spec env (listening_run env hinit hring pre hknown') he
    rw [← premia_run_of_follow hinit hring pre hknown' hpre, ← hspec.2.1 hkey, ← run_append]
    exact hfollow pre e suf rfl
  · intro hcond
    induction events using List.reverseRecOn with
    | nil => intro pre e suf h; simp at h
    | append_singleton all e ih =>
      have hknown' : ∀ e' ∈ all, (s₀.prices.isPredictionMkt.get? e'.perpetualId).isSome = true :=
        fun e' he' => hknown e' (List.mem_append_left _ he')
      have hall : PremiaFollow env s₀ all := by
        apply ih hknown'
        intro pre e' suf hev hkey
        exact hcond pre e' (suf ++ [e]) (by rw [hev]; simp) hkey
      intro pre e' suf hev
      rcases List.eq_nil_or_concat suf with rfl | ⟨suf', last, rfl⟩
      · obtain ⟨rfl, hlast⟩ := List.append_inj' hev (by simp)
        obtain rfl := List.singleton_injective hlast
        have he := hknown e (List.mem_append_right _ (List.mem_singleton_self e))
        have hspec := onUpdateMarkPrice_spec env (listening_run env hinit hring all hknown') he
        rw [run_append]
        by_cases hkey : KeyRemembered all e
        · rw [hspec.2.1 hkey, premia_run_of_follow hinit hring all hknown' hall]
          exact hcond all e [] rfl hkey
        · rw [hspec.2.2 hkey, if_pos rfl]
      · have hsplit : all = pre ++ e' :: suf' := by
          rw [List.concat_eq_append, ← List.cons_append, ← List.append_assoc] at hev
          exact (List.append_inj' hev rfl).1
        exact hall pre e' suf' hsplit

/-- A fresh listener that knows one perpetual, with no premia stored. -/
def oneMarket : MarkPriceListener where
  isInitialized := true
  prices :=
    { idxNamesToPerpetualIds := OrdMap.empty
      idxPrices := OrdMap.empty
      midPremium := OrdMap.empty
      mrkPremium := OrdMap.empty
      isPredictionMkt := ⟨[(100001, false)], by simp⟩ }
  fundingRate := OrdMap.empty
  eventControl := EventControl.init

/-- An SDK that reads a signed 64.64 number exactly and knows no symbol. -/
def exactEnv : MarkPriceEnv where
  ABK64x64ToFloat x := x / 2 ^ 64
  probToPrice p := 1 + p
  getSymbolFromPerpId _ := none
  traderSymbolFromPerpId _ := none
  openInterest _ := 0

/-- Two events of one perpetual whose three numbers add up to the same sum. -/
def sameSum : List UpdateMarkPrice :=
  [⟨100001, 2 ^ 60, 0, 2 ^ 64⟩, ⟨100001, 0, 2 ^ 60, 2 ^ 64⟩]

/-- The second event is taken for a repetition of the first: its premia are not stored. -/
theorem sameSum_hides_update : ¬ PremiaFollow exactEnv oneMarket sameSum := by
  intro h
  have hlast := h [⟨100001, 2 ^ 60, 0, 2 ^ 64⟩] ⟨100001, 0, 2 ^ 60, 2 ^ 64⟩ [] rfl
  have hstored : (oneMarket.run exactEnv sameSum).premia 100001 =
      UpdateMarkPrice.premia exactEnv ⟨100001, 2 ^ 60, 0, 2 ^ 64⟩ := rfl
  have hmid := congrArg Prod.fst (hstored.symm.trans hlast)
  norm_num [UpdateMarkPrice.premia, exactEnv] at hmid

/-- The law at work on two events with different keys. -/
theorem differentSum_follows :
    PremiaFollow exactEnv oneMarket [⟨100001, 2 ^ 60, 0, 2 ^ 64⟩, ⟨100001, 0, 2 ^ 61, 2 ^ 64⟩] := by
  apply (premia_follow_events_iff rfl rfl _ (by decide)).2
  intro pre e suf hev hkey
  exfalso
  rcases pre with _ | ⟨a, _ | ⟨b, pre⟩⟩
  · exact absurd hkey (by simp [KeyRemembered, RingBuffer.granted, RingBuffer.window])
  · obtain ⟨rfl, rfl, -⟩ : ⟨100001, 2 ^ 60, 0, 2 ^ 64⟩ = a ∧ ⟨100001, 0, 2 ^ 61, 2 ^ 64⟩ = e ∧
        ([] : List UpdateMarkPrice) = suf := by simpa using hev
    revert hkey
    unfold KeyRemembered
    decide
  · simp at hev

end TraderBackend
