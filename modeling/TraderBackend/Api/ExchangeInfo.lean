import TraderBackend.Lib.JsString
import TraderBackend.Lib.Interleave

/-!
# The cached exchange info

The whole exchange info is one JSON document in the field `content` of a Redis
hash.  `updateExchangeInfoNumbersOfPerpetual` reads it, changes the numbers of
one perpetual and writes it back; `cacheExchangeInfo` replaces it by what the
SDK answers.  Neither holds a lock over its awaits, though a refresh that is
under way is shared by later callers.  Numbers are exact rationals.

* `ExchangeInfo`, `updateNumbers` — the document and what an update makes of it.
* `callStep`, `exchangeInfoCalls` — the calls, one Redis or SDK answer a step.
* `Operation.alone` — what a call does to the content when nobody interferes;
  `serial_run` says that calls made one after another do just that.
* `content_serializable` — if no update overwrites a document that was changed
  since it read it, the content is that of the calls made one after another.
-/

namespace TraderBackend

open JsString (split)

/-! ## The document -/

structure PerpetualState where
  id : ℕ
  baseCurrency : String
  quoteCurrency : String
  indexPrice : ℚ
  markPrice : ℚ
  midPrice : ℚ
  currentFundingRateBps : ℚ
  openInterestBC : ℚ
  openInterestBC24h : Option ℚ
  deriving DecidableEq

structure PoolState where
  poolSymbol : String
  isRunning : Bool
  perpetuals : List PerpetualState
  deriving DecidableEq

structure ExchangeInfo where
  pools : List PoolState
  deriving DecidableEq

/-- The properties an update can name. -/
inductive NumberProperty where
  | indexPrice
  | markPrice
  | currentFundingRateBps
  | midPrice
  | openInterestBC
  deriving DecidableEq

/-- The cases of the switch over `propertyNames[m]`. -/
def NumberProperty.ofName : String → Option NumberProperty
  | "indexPrice" => some .indexPrice
  | "markPrice" => some .markPrice
  | "currentFundingRateBps" => some .currentFundingRateBps
  | "midPrice" => some .midPrice
  | "openInterestBC" => some .openInterestBC
  | _ => none

/-- A zero open interest or funding rate is not taken over. -/
def NumberProperty.takes : NumberProperty → ℚ → Bool
  | .currentFundingRateBps, value => decide (value ≠ 0)
  | .openInterestBC, value => decide (value ≠ 0)
  | _, _ => true

namespace PerpetualState

def number (perpState : PerpetualState) : NumberProperty → ℚ
  | .indexPrice => perpState.indexPrice
  | .markPrice => perpState.markPrice
  | .currentFundingRateBps => perpState.currentFundingRateBps
  | .midPrice => perpState.midPrice
  | .openInterestBC => perpState.openInterestBC

def setNumber (perpState : PerpetualState) (value : ℚ) : NumberProperty → PerpetualState
  | .indexPrice => { perpState with indexPrice := value }
  | .markPrice => { perpState with markPrice := value }
  | .currentFundingRateBps => { perpState with currentFundingRateBps := value }
  | .midPrice => { perpState with midPrice := value }
  | .openInterestBC => { perpState with openInterestBC := value }

/-- The loop over `values`; `propertyNames` may be too short. -/
def assign (perpState : PerpetualState) : List ℚ → List String → Except String PerpetualState
  | [], _ => .ok perpState
  | value :: values, propertyNames =>
      match propertyNames.head?.bind NumberProperty.ofName with
      | none => .error ("unknown property name " ++ propertyNames.head?.getD "undefined")
      | some property =>
          (if property.takes value then perpState.setNumber value property else perpState).assign
            values propertyNames.tail

end PerpetualState

/-- `findPoolIdx`, `none` for -1. -/
def findPoolIdx (poolSymbol : Option String) (pools : List PoolState) : Option ℕ :=
  pools.findIdx? fun pool => decide (some pool.poolSymbol = poolSymbol)

/-- `findPerpetualInPool`, `none` for -1. -/
def findPerpetualInPool (base quote : Option String) (perpetuals : List PerpetualState) :
    Option ℕ :=
  perpetuals.findIdx? fun perpetual =>
    decide (some perpetual.baseCurrency = base ∧ some perpetual.quoteCurrency = quote)

namespace ExchangeInfo

/-- `info.pools[k].perpetuals`, empty if there is no such pool. -/
def perpetuals (info : ExchangeInfo) (k : ℕ) : List PerpetualState :=
  (info.pools[k]?.map PoolState.perpetuals).getD []

/-- The document with `info.pools[k].perpetuals[j]` replaced. -/
def setPerpetual (info : ExchangeInfo) (k j : ℕ) (perpState : PerpetualState) : ExchangeInfo where
  pools := info.pools.modify k fun pool =>
    { pool with perpetuals := pool.perpetuals.set j perpState }

end ExchangeInfo

/-- `findPoolAndPerpIdx`. -/
def findPoolAndPerpIdx (symbol : String) (info : ExchangeInfo) : Except String (ℕ × ℕ) :=
  let symbols := split symbol '-'
  match findPoolIdx symbols[2]? info.pools with
  | none => .error ("No pool found with symbol '" ++ symbol ++ "'")
  | some k =>
      match findPerpetualInPool symbols[0]? symbols[1]? (info.perpetuals k) with
      | none => .error ("No perpetual found with symbol" ++ symbol)
      | some j => .ok (k, j)

/-- The arguments of `updateExchangeInfoNumbersOfPerpetual`. -/
structure NumbersUpdate where
  symbol : String
  values : List ℚ
  propertyNames : List String

/-- What an update makes of the content it has read: an exception, or the document it
writes back, or nothing for an unknown symbol. -/
def updateNumbers (u : NumbersUpdate) : Option ExchangeInfo → Except String (Option ExchangeInfo)
  | none => .error "\"undefined\" is not valid JSON"
  | some info =>
      match findPoolAndPerpIdx u.symbol info with
      | .error _ => .ok none
      | .ok (k, j) =>
          match (info.perpetuals k)[j]? with
          | none => .ok none
          | some perpState =>
              (perpState.assign u.values u.propertyNames).map fun perpState =>
                some (info.setPerpetual k j perpState)

/-! ## The calls -/

/-- What a refresh is told: the SDK's answer, nothing if the query fails, and the largest
open interest of the last 24 hours of a perpetual. -/
structure Refresh where
  xchInfo : Option ExchangeInfo
  getMax24h : ℕ → ℚ

/-- The indices of the loop over pools and perpetuals. -/
def ExchangeInfo.positions (info : ExchangeInfo) : List (ℕ × ℕ) :=
  (List.range info.pools.length).flatMap fun j =>
    (List.range (info.perpetuals j).length).map fun k => (j, k)

/-- The body of that loop. -/
def Refresh.setOpenInterest (r : Refresh) (info : ExchangeInfo) (p : ℕ × ℕ) : ExchangeInfo :=
  match (info.perpetuals p.1)[p.2]? with
  | none => info
  | some perp =>
      info.setPerpetual p.1 p.2 { perp with openInterestBC24h := some (r.getMax24h perp.id) }

inductive Operation where
  | update (u : NumbersUpdate)
  | refresh (r : Refresh)

/-- The Redis hash `exchangeInfo` and `cacheExchangeInfoInflight` (the call that runs it).
`committed` is no part of the program: the calls whose effect on the content is final, in
order. -/
structure InfoStore (ι : Type*) where
  content : Option ExchangeInfo
  tsQuery : Option ℕ
  tsResponse : Option ℕ
  cacheExchangeInfoInflight : Option ι
  committed : List ι
  deriving DecidableEq

/-- Where a call stands: before its next Redis command or SDK query. -/
inductive CallAt (ι : Type*) where
  | start
  | hSetNumbers (read : Option ExchangeInfo) (info : ExchangeInfo)
  | hSetQuery (tsQuery : ℕ)
  | query
  | hGetContent
  | readOI (xchInfo : ExchangeInfo) (rest : List (ℕ × ℕ))
  | release
  /-- The promise of another call is returned. -/
  | reuse (inflight : ι)
  | returned
  | rejected (error : String)
  deriving DecidableEq

variable {ι : Type*}

def InfoStore.commit (s : InfoStore ι) (i : ι) : InfoStore ι :=
  { s with committed := s.committed ++ [i] }

def InfoStore.hSetContent (s : InfoStore ι) (now : ℕ) (info : ExchangeInfo) : InfoStore ι :=
  { s with content := some info, tsResponse := some now }

/-- The next step of a call of `updateExchangeInfoNumbersOfPerpetual` or `cacheExchangeInfo`
at `Date.now()`. -/
def callStep (i : ι) (now : ℕ) (s : InfoStore ι) :
    Operation → CallAt ι → Option (InfoStore ι × CallAt ι)
  | .update u, .start =>
      match updateNumbers u s.content with
      | .error e => some (s.commit i, .rejected e)
      | .ok none => some (s.commit i, .returned)
      | .ok (some info) => some (s, .hSetNumbers s.content info)
  | .update _, .hSetNumbers _ info => some ((s.hSetContent now info).commit i, .returned)
  | .refresh _, .start =>
      match s.cacheExchangeInfoInflight with
      | some inflight => some (s, .reuse inflight)
      | none => some ({ s with cacheExchangeInfoInflight := some i }, .hSetQuery now)
  | .refresh _, .hSetQuery tsQuery => some ({ s with tsQuery := some tsQuery }, .query)
  | .refresh r, .query =>
      match r.xchInfo with
      | none => some (s, .hGetContent)
      | some xchInfo => some (s, .readOI xchInfo xchInfo.positions)
  | .refresh _, .hGetContent => some (s.commit i, .release)
  | .refresh r, .readOI xchInfo (p :: rest) =>
      some (s, .readOI (r.setOpenInterest xchInfo p) rest)
  | .refresh _, .readOI xchInfo [] => some ((s.hSetContent now xchInfo).commit i, .release)
  | .refresh _, .release => some ({ s with cacheExchangeInfoInflight := none }, .returned)
  | _, _ => none

/-- The calls of a family. -/
def exchangeInfoCalls (ops : ι → Operation) : Tasks ι ℕ (InfoStore ι) (CallAt ι) where
  step i now s l := callStep i now s (ops i) l

/-- No call has begun and no refresh is under way. -/
def callsStart (content : Option ExchangeInfo) : Tasks.Config ι (InfoStore ι) (CallAt ι) where
  shared := ⟨content, none, none, none, []⟩
  locals := fun _ => .start

/-- What a call does to the content when nobody interferes. -/
def Operation.alone : Operation → Option ExchangeInfo → Option ExchangeInfo
  | .update u, content =>
      match updateNumbers u content with
      | .ok (some info) => some info
      | _ => content
  | .refresh r, content =>
      match r.xchInfo with
      | none => content
      | some xchInfo => some (xchInfo.positions.foldl r.setOpenInterest xchInfo)

/-! ## Overwriting numbers -/

/-- The properties the values of an update are written to. -/
def overwrites : List ℚ → List String → NumberProperty → Bool
  | [], _, _ => false
  | value :: values, propertyNames, property =>
      decide (propertyNames.head?.bind NumberProperty.ofName = some property) &&
          property.takes value || overwrites values propertyNames.tail property

/-- Equal up to some of the numbers. -/
structure PerpetualState.AgreesOff (off : NumberProperty → Bool) (p q : PerpetualState) :
    Prop where
  id : p.id = q.id
  baseCurrency : p.baseCurrency = q.baseCurrency
  quoteCurrency : p.quoteCurrency = q.quoteCurrency
  openInterestBC24h : p.openInterestBC24h = q.openInterestBC24h
  number : ∀ property, off property = false → p.number property = q.number property

namespace PerpetualState

theorem number_setNumber (p : PerpetualState) (value : ℚ) (property other : NumberProperty) :
    (p.setNumber value property).number other =
      if other = property then value else p.number other := by
  cases property <;> cases other <;> rfl

theorem AgreesOff.setNumber {off off' : NumberProperty → Bool} {p q : PerpetualState}
    (h : p.AgreesOff off q) (value : ℚ) (property : NumberProperty)
    (hoff : ∀ other, other ≠ property → off' other = false → off other = false) :
    (p.setNumber value property).AgreesOff off' (q.setNumber value property) where
  id := by cases property <;> exact h.id
  baseCurrency := by cases property <;> exact h.baseCurrency
  quoteCurrency := by cases property <;> exact h.quoteCurrency
  openInterestBC24h := by cases property <;> exact h.openInterestBC24h
  number other hother := by
    rw [number_setNumber, number_setNumber]
    by_cases heq : other = property
    · rw [if_pos heq, if_pos heq]
    · rw [if_neg heq, if_neg heq]
      exact h.number other (hoff other heq hother)

theorem AgreesOff.eq {p q : PerpetualState} (h : p.AgreesOff (fun _ => false) q) : p = q := by
  obtain ⟨hid, hbase, hquote, hoi, hnumber⟩ := h
  have h₁ := hnumber .indexPrice rfl
  have h₂ := hnumber .markPrice rfl
  have h₃ := hnumber .midPrice rfl
  have h₄ := hnumber .currentFundingRateBps rfl
  have h₅ := hnumber .openInterestBC rfl
  cases p
  cases q
  simp only [PerpetualState.number] at *
  subst_vars
  rfl

/-- An update does not see the numbers it overwrites. -/
theorem AgreesOff.assign {values : List ℚ} {propertyNames : List String} {p q : PerpetualState}
    (h : p.AgreesOff (overwrites values propertyNames) q) :
    p.assign values propertyNames = q.assign values propertyNames := by
  induction values generalizing propertyNames p q with
  | nil => rw [PerpetualState.assign, PerpetualState.assign, AgreesOff.eq h]
  | cons value values ih =>
    rw [PerpetualState.assign, PerpetualState.assign]
    cases hprop : propertyNames.head?.bind NumberProperty.ofName with
    | none => rfl
    | some property =>
      apply ih
      by_cases htakes : property.takes value = true
      · rw [if_pos htakes, if_pos htakes]
        apply h.setNumber
        intro other hne hother
        simp [overwrites, hprop, Ne.symm hne, hother]
      · rw [if_neg htakes, if_neg htakes]
        refine ⟨h.id, h.baseCurrency, h.quoteCurrency, h.openInterestBC24h, fun other hother => ?_⟩
        apply h.number
        by_cases hne : property = other
        · subst hne
          simp [overwrites, htakes, hother]
        · simp [overwrites, hprop, hne, hother]

end PerpetualState

namespace ExchangeInfo

variable (info : ExchangeInfo) (k j : ℕ)

theorem perpetuals_setPerpetual (p : PerpetualState) :
    (info.setPerpetual k j p).perpetuals k = (info.perpetuals k).set j p := by
  simp only [perpetuals, setPerpetual, List.getElem?_modify]
  cases info.pools[k]? <;> simp

theorem setPerpetual_setPerpetual (p q : PerpetualState) :
    (info.setPerpetual k j p).setPerpetual k j q = info.setPerpetual k j q := by
  simp [setPerpetual, List.modify_modify_eq, Function.comp_def]

theorem findPoolIdx_setPerpetual (poolSymbol : Option String) (p : PerpetualState) :
    findPoolIdx poolSymbol (info.setPerpetual k j p).pools = findPoolIdx poolSymbol info.pools := by
  have hsymbols : (info.setPerpetual k j p).pools.map PoolState.poolSymbol =
      info.pools.map PoolState.poolSymbol := by
    apply List.ext_getElem?
    intro m
    simp only [setPerpetual, List.getElem?_map, List.getElem?_modify]
    cases info.pools[m]? <;> simp
    split <;> rfl
  have hfind : ∀ pools : List PoolState, findPoolIdx poolSymbol pools =
      (pools.map PoolState.poolSymbol).findIdx? fun x => decide (some x = poolSymbol) := by
    intro pools
    rw [List.findIdx?_map]
    rfl
  rw [hfind, hsymbols, ← hfind]

end ExchangeInfo

theorem findPerpetualInPool_set {base quote : Option String} {perpetuals : List PerpetualState}
    {j : ℕ} {p q : PerpetualState} (hp : perpetuals[j]? = some p)
    (hbase : q.baseCurrency = p.baseCurrency) (hquote : q.quoteCurrency = p.quoteCurrency) :
    findPerpetualInPool base quote (perpetuals.set j q) =
      findPerpetualInPool base quote perpetuals := by
  obtain ⟨hlt, rfl⟩ := List.getElem?_eq_some_iff.1 hp
  have hpairs : (perpetuals.set j q).map (fun x => (x.baseCurrency, x.quoteCurrency)) =
      perpetuals.map fun x => (x.baseCurrency, x.quoteCurrency) :=
    calc (perpetuals.set j q).map (fun x => (x.baseCurrency, x.quoteCurrency))
        = (perpetuals.set j perpetuals[j]).map fun x => (x.baseCurrency, x.quoteCurrency) := by
          rw [List.map_set, List.map_set, hbase, hquote]
      _ = perpetuals.map fun x => (x.baseCurrency, x.quoteCurrency) := by
          rw [List.set_getElem_self]
  have hfind : ∀ l : List PerpetualState, findPerpetualInPool base quote l =
      (l.map fun x => (x.baseCurrency, x.quoteCurrency)).findIdx? fun x =>
        decide (some x.1 = base ∧ some x.2 = quote) := by
    intro l
    rw [List.findIdx?_map]
    rfl
  rw [hfind, hpairs, ← hfind]

/-- The content differs from the one that was read at most in numbers the update
overwrites. -/
def NumbersUpdate.Ignores (u : NumbersUpdate) (read content : Option ExchangeInfo) : Prop :=
  content = read ∨ ∃ info k j p q, read = some info ∧
    findPoolAndPerpIdx u.symbol info = .ok (k, j) ∧ (info.perpetuals k)[j]? = some p ∧
    q.AgreesOff (overwrites u.values u.propertyNames) p ∧
    content = some (info.setPerpetual k j q)

theorem findPoolAndPerpIdx_eq_ok {symbol : String} {info : ExchangeInfo} {k j : ℕ} :
    findPoolAndPerpIdx symbol info = .ok (k, j) ↔
      findPoolIdx (split symbol '-')[2]? info.pools = some k ∧
        findPerpetualInPool (split symbol '-')[0]? (split symbol '-')[1]? (info.perpetuals k) =
          some j := by
  unfold findPoolAndPerpIdx
  cases hk : findPoolIdx (split symbol '-')[2]? info.pools with
  | none => simp [hk]
  | some k' =>
    cases hj : findPerpetualInPool (split symbol '-')[0]? (split symbol '-')[1]?
        (info.perpetuals k') with
    | none =>
      simp only [hk, hj, reduceCtorEq, false_iff, not_and]
      rintro ⟨⟩
      simp [hj]
    | some j' =>
      simp only [hk, hj, Except.ok.injEq, Prod.mk.injEq, Option.some.injEq]
      constructor
      · rintro ⟨rfl, rfl⟩
        exact ⟨rfl, hj⟩
      · rintro ⟨rfl, h⟩
        exact ⟨rfl, Option.some.inj (hj.symm.trans h)⟩

/-- What an update writes is what it would write had it read the present content. -/
theorem updateNumbers_of_ignores {u : NumbersUpdate} {read content : Option ExchangeInfo}
    (h : u.Ignores read content) {info' : ExchangeInfo}
    (hread : updateNumbers u read = .ok (some info')) :
    updateNumbers u content = .ok (some info') := by
  rcases h with rfl | ⟨info, k, j, p, q, rfl, hfind, hp, hagree, rfl⟩
  · exact hread
  · obtain ⟨hk, hj⟩ := findPoolAndPerpIdx_eq_ok.1 hfind
    have hfind' : findPoolAndPerpIdx u.symbol (info.setPerpetual k j q) = .ok (k, j) := by
      rw [findPoolAndPerpIdx_eq_ok, ExchangeInfo.findPoolIdx_setPerpetual,
        ExchangeInfo.perpetuals_setPerpetual,
        findPerpetualInPool_set hp hagree.baseCurrency hagree.quoteCurrency]
      exact ⟨hk, hj⟩
    have hq : ((info.setPerpetual k j q).perpetuals k)[j]? = some q := by
      rw [ExchangeInfo.perpetuals_setPerpetual, List.getElem?_set_self]
      exact (List.getElem?_eq_some_iff.1 hp).1
    simp only [updateNumbers, hfind, hp] at hread
    simp only [updateNumbers, hfind', hq, hagree.assign,
      ExchangeInfo.setPerpetual_setPerpetual]
    exact hread

/-! ## Every interleaving -/

/-- An update that is about to write finds the content it has read, up to numbers it
overwrites. -/
def FreshWrite (ops : ι → Operation) (i : ι) (s : InfoStore ι) : CallAt ι → Prop
  | .hSetNumbers read _ => ∀ u, ops i = .update u → u.Ignores read s.content
  | _ => True

/-- Where the effect of a call is final. -/
def CallAt.Committed : CallAt ι → Prop
  | .release => True
  | .returned => True
  | .rejected _ => True
  | _ => False

/-- What a call knows in the middle. -/
def CallAt.Knows (ops : ι → Operation) (i : ι) : CallAt ι → Prop
  | .hSetNumbers read info => ∃ u, ops i = .update u ∧ updateNumbers u read = .ok (some info)
  | .hGetContent => ∃ r, ops i = .refresh r ∧ r.xchInfo = none
  | .readOI info rest => ∃ r xchInfo, ops i = .refresh r ∧ r.xchInfo = some xchInfo ∧
      rest.foldl r.setOpenInterest info = xchInfo.positions.foldl r.setOpenInterest xchInfo
  | .reuse inflight => ∃ r, ops inflight = .refresh r
  | _ => True

/-- The content is what the committed calls make of the first one, in their order, and only
a refresh is in flight. -/
structure Serialized (ops : ι → Operation) (content₀ : Option ExchangeInfo) (s : InfoStore ι) :
    Prop where
  content : s.content = s.committed.foldl (fun content i => (ops i).alone content) content₀
  nodup : s.committed.Nodup
  inflight : ∀ i, s.cacheExchangeInfoInflight = some i → ∃ r, ops i = .refresh r

/-- A call is committed once it is past its effect. -/
def CallAt.Stands (ops : ι → Operation) (i : ι) (l : CallAt ι) (s : InfoStore ι) : Prop :=
  (i ∈ s.committed ↔ l.Committed) ∧ l.Knows ops i

section

variable {ops : ι → Operation} {content₀ : Option ExchangeInfo} {i : ι} {now : ℕ}
  {s s' : InfoStore ι} {l l' : CallAt ι}

/-- What a step can do to the content and the list of committed calls: commit its call with
the effect the call has on its own, or leave both alone. -/
def CommitsOrKeeps (ops : ι → Operation) (i : ι) (s s' : InfoStore ι) (l l' : CallAt ι) : Prop :=
  (l'.Committed ∧ ¬ l.Committed ∧ s'.committed = s.committed ++ [i] ∧
      s'.content = (ops i).alone s.content) ∨
    ((l'.Committed ↔ l.Committed) ∧ s'.committed = s.committed ∧ s'.content = s.content)

/-- A step of an update. -/
theorem callStep_update {u : NumbersUpdate} (hop : ops i = .update u)
    (hfresh : FreshWrite ops i s l) (hknows : l.Knows ops i)
    (h : callStep i now s (.update u) l = some (s', l')) :
    CommitsOrKeeps ops i s s' l l' ∧ l'.Knows ops i ∧
      s'.cacheExchangeInfoInflight = s.cacheExchangeInfoInflight := by
  cases l with
  | start =>
    simp only [callStep] at h
    cases hu : updateNumbers u s.content with
    | error e =>
      rw [hu] at h
      cases h
      exact ⟨Or.inl ⟨trivial, id, rfl, by simp [Operation.alone, hop, hu, InfoStore.commit]⟩,
        trivial, rfl⟩
    | ok written =>
      cases written with
      | none =>
        rw [hu] at h
        cases h
        exact ⟨Or.inl ⟨trivial, id, rfl, by simp [Operation.alone, hop, hu, InfoStore.commit]⟩,
          trivial, rfl⟩
      | some info =>
        rw [hu] at h
        cases h
        exact ⟨Or.inr ⟨Iff.rfl, rfl, rfl⟩, ⟨u, hop, hu⟩, rfl⟩
  | hSetNumbers read info =>
    cases h
    obtain ⟨u', hop', hread⟩ := hknows
    obtain rfl : u = u' := Operation.update.inj (hop.symm.trans hop')
    -- the content may have changed since, but nowhere the update would notice
    have hnow := updateNumbers_of_ignores (hfresh u hop) hread
    exact ⟨Or.inl ⟨trivial, id, rfl, by simp [Operation.alone, hop, hnow, InfoStore.commit,
      InfoStore.hSetContent]⟩, trivial, rfl⟩
  | _ => cases h

/-- A step of a refresh. -/
theorem callStep_refresh {r : Refresh} (hop : ops i = .refresh r)
    (hinflight : ∀ j, s.cacheExchangeInfoInflight = some j → ∃ r, ops j = .refresh r)
    (hknows : l.Knows ops i) (h : callStep i now s (.refresh r) l = some (s', l')) :
    CommitsOrKeeps ops i s s' l l' ∧ l'.Knows ops i ∧
      ∀ j, s'.cacheExchangeInfoInflight = some j → ∃ r, ops j = .refresh r := by
  cases l with
  | start =>
    simp only [callStep] at h
    cases hfl : s.cacheExchangeInfoInflight with
    | none =>
      rw [hfl] at h
      cases h
      exact ⟨Or.inr ⟨Iff.rfl, rfl, rfl⟩, trivial, fun j hj => ⟨r, Option.some.inj hj ▸ hop⟩⟩
    | some owner =>
      rw [hfl] at h
      cases h
      exact ⟨Or.inr ⟨Iff.rfl, rfl, rfl⟩, hinflight owner hfl, hinflight⟩
  | hSetQuery tsQuery =>
    cases h
    exact ⟨Or.inr ⟨Iff.rfl, rfl, rfl⟩, trivial, hinflight⟩
  | query =>
    simp only [callStep] at h
    cases hx : r.xchInfo with
    | none =>
      rw [hx] at h
      cases h
      exact ⟨Or.inr ⟨Iff.rfl, rfl, rfl⟩, ⟨r, hop, hx⟩, hinflight⟩
    | some xchInfo =>
      rw [hx] at h
      cases h
      exact ⟨Or.inr ⟨Iff.rfl, rfl, rfl⟩, ⟨r, xchInfo, hop, hx, rfl⟩, hinflight⟩
  | hGetContent =>
    cases h
    obtain ⟨r', hop', hx⟩ := hknows
    obtain rfl : r = r' := Operation.refresh.inj (hop.symm.trans hop')
    exact ⟨Or.inl ⟨trivial, id, rfl, by simp [Operation.alone, hop, hx, InfoStore.commit]⟩,
      trivial, hinflight⟩
  | readOI info rest =>
    obtain ⟨r', xchInfo, hop', hx, hfold⟩ := hknows
    obtain rfl : r = r' := Operation.refresh.inj (hop.symm.trans hop')
    cases rest with
    | nil =>
      cases h
      refine ⟨Or.inl ⟨trivial, id, rfl, ?_⟩, trivial, hinflight⟩
      simp only [List.foldl_nil] at hfold
      simp [Operation.alone, hop, hx, hfold, InfoStore.commit, InfoStore.hSetContent]
    | cons p rest =>
      cases h
      exact ⟨Or.inr ⟨Iff.rfl, rfl, rfl⟩, ⟨r, xchInfo, hop, hx, hfold⟩, hinflight⟩
  | release =>
    cases h
    exact ⟨Or.inr ⟨Iff.rfl, rfl, rfl⟩, trivial, fun j hj => by cases hj⟩
  | _ => cases h

/-- The calls, writing only on what they have read, commit one after another. -/
theorem exchangeInfoCalls_outline (ops : ι → Operation) (content₀ : Option ExchangeInfo) :
    ((exchangeInfoCalls ops).restrict (FreshWrite ops)).Outline (Serialized ops content₀)
      fun i l s => l.Stands ops i s := by
  have hspec : ∀ (i : ι) (now : ℕ) (s : InfoStore ι) (l : CallAt ι) (s' : InfoStore ι)
      (l' : CallAt ι),
      ((exchangeInfoCalls ops).restrict (FreshWrite ops)).step i now s l = some (s', l') →
      Serialized ops content₀ s → l.Stands ops i s →
      CommitsOrKeeps ops i s s' l l' ∧ l'.Knows ops i ∧
        ∀ j, s'.cacheExchangeInfoInflight = some j → ∃ r, ops j = .refresh r := by
    intro i now s l s' l' h hs hl
    obtain ⟨hfresh, hstep⟩ := Tasks.restrict_step h
    simp only [exchangeInfoCalls] at hstep
    cases hop : ops i with
    | update u =>
      rw [hop] at hstep
      obtain ⟨heffect, hknows, hfl⟩ := callStep_update hop hfresh hl.2 hstep
      exact ⟨heffect, hknows, fun j hj => hs.inflight j (hfl ▸ hj)⟩
    | refresh r =>
      rw [hop] at hstep
      exact callStep_refresh hop hs.inflight hl.2 hstep
  constructor
  · intro i now s l s' l' h hs hl
    obtain ⟨heffect, hknows, hfl⟩ := hspec i now s l s' l' h hs hl
    rcases heffect with ⟨hc', hc, hcommitted, hcontent⟩ | ⟨hc, hcommitted, hcontent⟩
    · have hnot : i ∉ s.committed := fun hin => hc (hl.1.1 hin)
      refine ⟨⟨?_, ?_, hfl⟩, ⟨?_, hknows⟩⟩
      · rw [hcontent, hcommitted, List.foldl_append, ← hs.content]
        rfl
      · rw [hcommitted]
        exact hs.nodup.append (List.nodup_singleton i) (by simpa using hnot)
      · simp [hcommitted, hc']
    · refine ⟨⟨?_, ?_, hfl⟩, ⟨?_, hknows⟩⟩
      · rw [hcontent, hcommitted, hs.content]
      · rw [hcommitted]
        exact hs.nodup
      · rw [hcommitted, hc]
        exact hl.1
  · intro i now s l s' l' j m hij h hs hl hm
    refine ⟨?_, hm.2⟩
    rw [← hm.1]
    rcases (hspec i now s l s' l' h hs hl).1 with ⟨-, -, hcommitted, -⟩ | ⟨-, hcommitted, -⟩
    · simp [hcommitted, Ne.symm hij]
    · rw [hcommitted]

end

/-- The call whose steps do the work: for a caller that got the promise of a refresh under
way it is that refresh. -/
def CallAt.performer (i : ι) : CallAt ι → ι
  | .reuse inflight => inflight
  | _ => i

/-- The call has come to its end. -/
def CallAt.Settled : CallAt ι → Prop
  | .returned => True
  | .rejected _ => True
  | _ => False

/-- The promise the caller got is settled. -/
def Completed (c : Tasks.Config ι (InfoStore ι) (CallAt ι)) (i : ι) : Prop :=
  (c.locals ((c.locals i).performer i)).Settled

/-! ## One after another -/

section

variable (ops : ι → Operation) (now : ℕ)

/-- The loop of a refresh and what follows it. -/
theorem solo_readOI {i : ι} {r : Refresh} (hop : ops i = .refresh r) (s : InfoStore ι)
    (rest : List (ℕ × ℕ)) (info : ExchangeInfo) :
    (exchangeInfoCalls ops).solo i now (rest.length + 2) (s, .readOI info rest) =
      some ({ (s.hSetContent now (rest.foldl r.setOpenInterest info)).commit i with
        cacheExchangeInfoInflight := none }, .returned) := by
  induction rest generalizing info with
  | nil => simp [Tasks.solo, exchangeInfoCalls, hop, callStep]
  | cons p rest ih =>
    rw [List.length_cons, Nat.add_right_comm, Tasks.solo]
    simp only [exchangeInfoCalls, hop, callStep, Option.bind_some]
    exact ih (r.setOpenInterest info p)

/-- Alone, an update comes to its end and has its effect. -/
theorem solo_update {i : ι} {u : NumbersUpdate} (hop : ops i = .update u) {s : InfoStore ι}
    (hidle : s.cacheExchangeInfoInflight = none) :
    ∃ n s' l', (exchangeInfoCalls ops).solo i now n (s, .start) = some (s', l') ∧
      l'.Settled ∧ s'.cacheExchangeInfoInflight = none ∧
      s'.content = (ops i).alone s.content := by
  cases hu : updateNumbers u s.content with
  | error e =>
    refine ⟨1, s.commit i, .rejected e, ?_, trivial, hidle,
      by simp [Operation.alone, hop, hu, InfoStore.commit]⟩
    simp [Tasks.solo, exchangeInfoCalls, hop, callStep, hu]
  | ok written =>
    cases written with
    | none =>
      refine ⟨1, s.commit i, .returned, ?_, trivial, hidle,
        by simp [Operation.alone, hop, hu, InfoStore.commit]⟩
      simp [Tasks.solo, exchangeInfoCalls, hop, callStep, hu]
    | some info =>
      refine ⟨2, (s.hSetContent now info).commit i, .returned, ?_, trivial, hidle,
        by simp [Operation.alone, hop, hu, InfoStore.commit, InfoStore.hSetContent]⟩
      simp [Tasks.solo, exchangeInfoCalls, hop, callStep, hu]

/-- Alone, a refresh comes to its end and has its effect. -/
theorem solo_refresh {i : ι} {r : Refresh} (hop : ops i = .refresh r) {s : InfoStore ι}
    (hidle : s.cacheExchangeInfoInflight = none) :
    ∃ n s' l', (exchangeInfoCalls ops).solo i now n (s, .start) = some (s', l') ∧
      l'.Settled ∧ s'.cacheExchangeInfoInflight = none ∧
      s'.content = (ops i).alone s.content := by
  let queried : InfoStore ι :=
    { s with cacheExchangeInfoInflight := some i, tsQuery := some now }
  cases hx : r.xchInfo with
  | none =>
    refine ⟨5, { queried.commit i with cacheExchangeInfoInflight := none }, .returned, ?_,
      trivial, rfl, by simp [Operation.alone, hop, hx, InfoStore.commit, queried]⟩
    simp [Tasks.solo, exchangeInfoCalls, hop, callStep, hidle, hx, queried, InfoStore.commit]
  | some xchInfo =>
    have hloop := solo_readOI ops now hop queried xchInfo.positions xchInfo
    have hfirst : (exchangeInfoCalls ops).solo i now (xchInfo.positions.length + 2 + 3)
        (s, .start) = (exchangeInfoCalls ops).solo i now (xchInfo.positions.length + 2)
          (queried, .readOI xchInfo xchInfo.positions) := by
      simp only [Tasks.solo, exchangeInfoCalls, hop, callStep, hidle, hx, Option.bind_some]
      rfl
    exact ⟨_, _, .returned, hfirst.trans hloop, trivial, rfl,
      by simp [Operation.alone, hop, hx, InfoStore.commit, InfoStore.hSetContent]⟩

/-- Alone, a call comes to its end and has its effect. -/
theorem solo_start (i : ι) {s : InfoStore ι} (hidle : s.cacheExchangeInfoInflight = none) :
    ∃ n s' l', (exchangeInfoCalls ops).solo i now n (s, .start) = some (s', l') ∧
      l'.Settled ∧ s'.cacheExchangeInfoInflight = none ∧
      s'.content = (ops i).alone s.content := by
  cases hop : ops i with
  | update u =>
    rw [← hop]
    exact solo_update ops now hop hidle
  | refresh r =>
    rw [← hop]
    exact solo_refresh ops now hop hidle

/-- Run one after another, the calls make of the content what they do alone, in turn. -/
theorem serial_run [DecidableEq ι] {order : List ι} (hnodup : order.Nodup)
    {c : Tasks.Config ι (InfoStore ι) (CallAt ι)} (hstart : ∀ i ∈ order, c.locals i = .start)
    (hidle : c.shared.cacheExchangeInfoInflight = none) :
    ∃ (turns : List ℕ) (d : Tasks.Config ι (InfoStore ι) (CallAt ι)),
      (exchangeInfoCalls ops).run
        (List.zipWith (fun i n => List.replicate n (i, now)) order turns).flatten c = some d ∧
      (∀ i ∈ order, (d.locals i).Settled) ∧ (∀ i ∉ order, d.locals i = c.locals i) ∧
      d.shared.content = order.foldl (fun content i => (ops i).alone content) c.shared.content := by
  induction order generalizing c with
  | nil => exact ⟨[], c, rfl, by simp, by simp, rfl⟩
  | cons i order ih =>
    obtain ⟨hi, hnodup⟩ := List.nodup_cons.1 hnodup
    obtain ⟨n, s', l', hsolo, hsettled, hidle', hcontent⟩ := solo_start ops now i hidle
    rw [← hstart i List.mem_cons_self] at hsolo
    obtain ⟨turns, d, hrun, hall, hrest, hd⟩ :=
      ih (c := ⟨s', Function.update c.locals i l'⟩) hnodup
        (fun j hj => by
          have hji : j ≠ i := fun hc => hi (hc ▸ hj)
          simpa [hji] using hstart j (List.mem_cons_of_mem i hj)) hidle'
    refine ⟨n :: turns, d, ?_, fun j hj => ?_, fun j hj => ?_, ?_⟩
    · rw [List.zipWith_cons_cons, List.flatten_cons, Tasks.run_append, Tasks.run_replicate, hsolo]
      exact hrun
    · rcases List.mem_cons.1 hj with rfl | hj
      · simpa [hrest j hi] using hsettled
      · exact hall j hj
    · have hji : j ≠ i := fun hc => hj (hc ▸ List.mem_cons_self)
      simpa [hji] using hrest j fun hc => hj (List.mem_cons_of_mem i hc)
    · rw [hd, List.foldl_cons, hcontent]

end

/-! ## Serializability -/

/-- Refreshing once more before a refresh changes nothing. -/
theorem alone_foldl_refresh {ops : ι → Operation} {i : ι} {r : Refresh}
    (hop : ops i = .refresh r) {performer : ι → ι} {callers : List ι}
    (h : ∀ j ∈ callers, performer j = i)
    (content : Option ExchangeInfo) :
    (ops i).alone (callers.foldl (fun content j => (ops (performer j)).alone content) content) =
      (ops i).alone content := by
  induction callers generalizing content with
  | nil => rfl
  | cons j callers ih =>
    rw [List.foldl_cons, ih fun m hm => h m (List.mem_cons_of_mem j hm), h j List.mem_cons_self,
      hop]
    cases hx : r.xchInfo <;> simp [Operation.alone, hx]

section

variable [DecidableEq ι] [Fintype ι]

/-- The callers that were given the promise of `j`. -/
noncomputable def sharers (c : Tasks.Config ι (InfoStore ι) (CallAt ι)) (j : ι) : List ι :=
  (Finset.univ.filter fun i => c.locals i = .reuse j).toList

/-- A call that works itself, after those that share it: these are the calls it performs. -/
theorem mem_sharers_append {c : Tasks.Config ι (InfoStore ι) (CallAt ι)} {i j : ι}
    (hj : (c.locals j).performer j = j) :
    i ∈ sharers c j ++ [j] ↔ (c.locals i).performer i = j := by
  have hmem : i ∈ sharers c j ↔ c.locals i = .reuse j := by simp [sharers]
  rw [List.mem_append, List.mem_singleton, hmem]
  constructor
  · rintro (h | rfl)
    · rw [h]; rfl
    · exact hj
  · intro h
    cases hl : c.locals i <;> rw [hl] at h
    case reuse inflight => exact Or.inl (congrArg CallAt.reuse h)
    all_goals exact Or.inr h

/-- **The content is serializable while writes are fresh.**  In every run in which no update
writes over a content that was changed, other than in numbers the update overwrites, since
it read it, the calls can be put in an order that contains the completed ones and yields the
same content when they are made one after another. -/
theorem content_serializable (ops : ι → Operation) (content₀ : Option ExchangeInfo)
    {schedule : List (ι × ℕ)} {c : Tasks.Config ι (InfoStore ι) (CallAt ι)}
    (hrun : (exchangeInfoCalls ops).run schedule (callsStart content₀) = some c)
    (hfresh : (exchangeInfoCalls ops).Meets (FreshWrite ops) schedule (callsStart content₀)) :
    ∃ order : List ι, order.Nodup ∧ (∀ i, Completed c i → i ∈ order) ∧
      (∀ i ∈ order, c.locals i ≠ .start) ∧
      c.shared.content = order.foldl
        (fun content i => (ops ((c.locals i).performer i)).alone content) content₀ := by
  have hstart : Serialized ops content₀ (callsStart content₀ : Tasks.Config ι _ _).shared :=
    ⟨rfl, List.nodup_nil, fun i hi => by cases hi⟩
  have hstands : ∀ i, ((callsStart content₀ : Tasks.Config ι _ _).locals i).Stands ops i
      (callsStart content₀ : Tasks.Config ι _ _).shared :=
    fun i => ⟨by simp [callsStart, CallAt.Committed], trivial⟩
  obtain ⟨hs, hall⟩ := (exchangeInfoCalls_outline ops content₀).run hstart hstands
    ((Tasks.run_restrict hfresh).trans hrun)
  have hperformer : ∀ j ∈ c.shared.committed, (c.locals j).performer j = j := by
    intro j hj
    have hcommitted := (hall j).1.1 hj
    cases hl : c.locals j <;> rw [hl] at hcommitted <;> first | rfl | exact hcommitted.elim
  have hblock : ∀ j ∈ c.shared.committed, ∀ i,
      i ∈ sharers c j ++ [j] ↔ (c.locals i).performer i = j :=
    fun j hj i => mem_sharers_append (hperformer j hj)
  -- every caller that shares a refresh goes right before it
  refine ⟨c.shared.committed.flatMap fun j => sharers c j ++ [j], ?_, fun i hi => ?_, ?_, ?_⟩
  · rw [List.nodup_flatMap]
    refine ⟨fun j hj => ?_, ?_⟩
    · apply (Finset.nodup_toList _).append (List.nodup_singleton j)
      intro i hi hij
      obtain rfl := List.mem_singleton.1 hij
      have hreuse : c.locals i = .reuse i := by simpa using hi
      simpa [hreuse, CallAt.Committed] using (hall i).1.1 hj
    · apply hs.nodup.imp_of_mem
      intro j j' hj hj' hne i hi hi'
      exact hne (((hblock j hj i).1 hi).symm.trans ((hblock j' hj' i).1 hi'))
  · have hsettled : (c.locals ((c.locals i).performer i)).Settled := hi
    have hcommitted : (c.locals i).performer i ∈ c.shared.committed := by
      apply (hall _).1.2
      cases hl : c.locals ((c.locals i).performer i) <;> rw [hl] at hsettled <;> trivial
    exact List.mem_flatMap.2 ⟨_, hcommitted, (hblock _ hcommitted i).2 rfl⟩
  · intro i hi hc
    obtain ⟨j, hj, hij⟩ := List.mem_flatMap.1 hi
    have hperf := (hblock j hj i).1 hij
    rw [hc] at hperf
    obtain rfl : i = j := hperf
    simpa [hc, CallAt.Committed] using (hall i).1.1 hj
  · rw [hs.content, List.foldl_flatMap]
    apply List.foldl_ext
    intro content j hj
    rw [List.foldl_append, List.foldl_cons, List.foldl_nil, hperformer j hj]
    rcases List.eq_nil_or_concat (sharers c j) with hnil | ⟨_, i, hlast⟩
    · rw [hnil, List.foldl_nil]
    · have hi : i ∈ sharers c j := by simp [hlast]
      have hreuse : c.locals i = .reuse j := by simpa [sharers] using hi
      have hknows := (hall i).2
      rw [hreuse] at hknows
      obtain ⟨r, hop⟩ : ∃ r, ops j = .refresh r := hknows
      rw [alone_foldl_refresh hop]
      intro m hm
      exact (hblock j hj m).1 (List.mem_append_left [j] hm)

end

/-- A pool with two perpetuals. -/
def twoPerpetuals : ExchangeInfo :=
  ⟨[⟨"MATIC", true, [⟨100001, "BTC", "USD", 10, 10, 10, 1, 5, some 5⟩,
    ⟨100002, "ETH", "USD", 20, 20, 20, 1, 5, some 5⟩]⟩]⟩

/-- The update `onUpdateMarkPrice` starts for a perpetual with all prices at `px`. -/
def pricesUpdate (symbol : String) (px : ℚ) : NumbersUpdate where
  symbol := symbol
  values := [px, px, px, 5, 1]
  propertyNames :=
    ["midPrice", "markPrice", "indexPrice", "openInterestBC", "currentFundingRateBps"]

/-- Updates of the two perpetuals. -/
def bothUpdated : Fin 2 → Operation
  | 0 => .update (pricesUpdate "BTC-USD-MATIC" 11)
  | 1 => .update (pricesUpdate "ETH-USD-MATIC" 21)

/-- An update and a refresh. -/
def updatedAndRefreshed : Fin 2 → Operation
  | 0 => .update (pricesUpdate "BTC-USD-MATIC" 11)
  | 1 => .refresh ⟨some ⟨[⟨"MATIC", true, [⟨100001, "BTC", "USD", 12, 12, 12, 1, 5, none⟩]⟩]⟩,
      fun _ => 6⟩

/-- Both updates read before either writes: the prices of the first are lost, which no order
of the two explains. -/
theorem overlapping_updates_lose :
    ∃ c, (exchangeInfoCalls bothUpdated).run [(0, 0), (1, 0), (0, 1), (1, 1)]
        (callsStart (some twoPerpetuals)) = some c ∧ (∀ i, Completed c i) ∧
      ∀ order : List (Fin 2), order.Nodup → (∀ i, i ∈ order) →
        c.shared.content ≠ order.foldl
          (fun content i => (bothUpdated ((c.locals i).performer i)).alone content)
          (some twoPerpetuals) := by
  refine ⟨((exchangeInfoCalls bothUpdated).run [(0, 0), (1, 0), (0, 1), (1, 1)]
    (callsStart (some twoPerpetuals))).get (by decide), (Option.some_get _).symm, ?_, ?_⟩
  · intro i
    fin_cases i <;> trivial
  · intro order hnodup hall
    have hperm : order.Perm [0, 1] := by
      rw [List.perm_ext_iff_of_nodup hnodup (by decide)]
      intro i
      fin_cases i <;> simp [hall]
    obtain ⟨i, j, rfl⟩ := List.length_eq_two.1 hperm.length_eq
    revert i j
    decide

/-- The law at work on an update that falls between the steps of a refresh. -/
theorem updated_during_refresh :
    ∃ c, (exchangeInfoCalls updatedAndRefreshed).run
        [(1, 0), (0, 1), (0, 2), (1, 3), (1, 4), (1, 5), (1, 6), (1, 7)]
        (callsStart (some twoPerpetuals)) = some c ∧
      ∃ order : List (Fin 2), order.Nodup ∧ (∀ i, Completed c i → i ∈ order) ∧
        (∀ i ∈ order, c.locals i ≠ .start) ∧
        c.shared.content = order.foldl
          (fun content i => (updatedAndRefreshed ((c.locals i).performer i)).alone content)
          (some twoPerpetuals) := by
  refine ⟨((exchangeInfoCalls updatedAndRefreshed).run
    [(1, 0), (0, 1), (0, 2), (1, 3), (1, 4), (1, 5), (1, 6), (1, 7)]
    (callsStart (some twoPerpetuals))).get (by decide), (Option.some_get _).symm, ?_⟩
  refine content_serializable updatedAndRefreshed (some twoPerpetuals)
    (Option.some_get _).symm ?_
  iterate 2
    refine Tasks.meets_cons.2 ⟨trivial, fun d hd => ?_⟩
    obtain rfl := Option.some.inj hd
  -- the refresh has not touched the content yet
  refine Tasks.meets_cons.2 ⟨fun u _ => Or.inl rfl, fun d hd => ?_⟩
  obtain rfl := Option.some.inj hd
  iterate 5
    refine Tasks.meets_cons.2 ⟨trivial, fun d hd => ?_⟩
    obtain rfl := Option.some.inj hd
  exact Tasks.meets_nil

end TraderBackend
