import MarketCow.Sdk.PriceState

/-!
# The trades of the supplier

A trade arrives as a row of the recent-trades answer or as a frame of the
socket. The rows of an answer carry consecutive identifiers, and the times of
the trades of one attempt never regress.
-/

namespace MarketCow.BtcLive

open Library List
open MarketCow.Core (Decimal)
open Live (Codec)
open Sdk (Trade PriceFrame checkedSucc)

/-- What the packages provide: reading a decimal and why it is refused, checked
products and sums of decimals, fresh identifiers by number, the identity of the
producer, and the length of an encoded frame. -/
structure Setting where
  codec : Codec
  refusal : String → String
  checkedMul : Decimal → Decimal → Option Decimal
  checkedAdd : Decimal → Decimal → Option Decimal
  uuid : Nat → String
  producerInstanceId : String
  encodedLen : PriceFrame → Nat

/-- An error as it is logged, and whether a parser of JSON caused it. -/
structure Failure where
  text : String
  parse : Bool
  deriving DecidableEq

def failure (text : String) : Failure where
  text
  parse := false

def ensure (condition : Bool) (text : String) : Except Failure Unit :=
  if condition then .ok () else .error (failure text)

def need {α : Type} (value : Option α) (text : String) : Except Failure α :=
  match value with
  | some value => .ok value
  | none => .error (failure text)

variable {text : String}

/-- What follows a check that passed. -/
theorem ensure_bind_ok {α : Type} {condition : Bool} {next : Unit → Except Failure α} {value : α} :
    (ensure condition text >>= next) = .ok value ↔ condition = true ∧ next () = .ok value := by
  cases condition with
  | false =>
    constructor
    · intro never
      cases never
    · rintro ⟨never, _⟩
      cases never
  | true => exact (and_iff_right rfl).symm

theorem need_bind_ok {α β : Type} {found : Option α} {next : α → Except Failure β} {value : β} :
    (need found text >>= next) = .ok value ↔ ∃ item, found = some item ∧ next item = .ok value := by
  cases found with
  | none =>
    constructor
    · intro never
      cases never
    · rintro ⟨_, never, _⟩
      cases never
  | some item =>
    constructor
    · intro succeeds
      exact ⟨item, rfl, succeeds⟩
    · rintro ⟨_, same, succeeds⟩
      cases same
      exact succeeds

def parseDecimal (setting : Setting) (value : String) : Except Failure Decimal :=
  need (setting.codec.parse value) (setting.refusal value)

/-! ## Rows and frames -/

structure WsTrade where
  e : String
  eventTimeMs : Int
  s : String
  t : Nat
  p : String
  q : String
  tradeTimeMs : Int
  m : Bool
  deriving DecidableEq

structure RestTrade where
  id : Nat
  price : String
  qty : String
  time : Int
  isBuyerMaker : Bool
  deriving DecidableEq

def validateDecimal (setting : Setting) (value : String) : Except Failure Unit := do
  let decimal ← parseDecimal setting value
  ensure (decide (0 < decimal)) "BTC trade nonpositive decimal"

def restPoint (setting : Setting) (row : RestTrade) (receivedAtNs : Option Int) :
    Except Failure Trade := do
  validateDecimal setting row.price
  validateDecimal setting row.qty
  ensure (decide (0 < row.time)) "BTC trade invalid time"
  .ok
    { tradeId := row.id
      tradeTimeMs := row.time
      eventTimeMs := none
      price := row.price
      quantity := row.qty
      buyerIsMaker := some row.isBuyerMaker
      receivedAtNs
      evidence := none }

def wsPoint (setting : Setting) (row : WsTrade) (receivedAtNs : Option Int) :
    Except Failure Trade := do
  validateDecimal setting row.p
  validateDecimal setting row.q
  ensure (decide (0 < row.tradeTimeMs) && decide (0 < row.eventTimeMs)) "BTC trade invalid time"
  .ok
    { tradeId := row.t
      tradeTimeMs := row.tradeTimeMs
      eventTimeMs := some row.eventTimeMs
      price := row.p
      quantity := row.q
      buyerIsMaker := some row.m
      receivedAtNs
      evidence := none }

/-- A trade is the same when it is seen again: a row has no event time. -/
def sameTrade (codec : Codec) (a b : Trade) : Bool :=
  a.tradeId == b.tradeId && a.tradeTimeMs == b.tradeTimeMs && a.buyerIsMaker == b.buyerIsMaker &&
    codec.parse a.price == codec.parse b.price &&
    codec.parse a.quantity == codec.parse b.quantity &&
    (a.eventTimeMs.isNone || b.eventTimeMs.isNone || a.eventTimeMs == b.eventTimeMs)

/-- The trades of an answer, after the identifier of the row before. -/
def restPoints (setting : Setting) (receivedAtNs : Option Int) :
    Option Nat → List RestTrade → Except Failure (List Trade)
  | _, [] => .ok []
  | previous, row :: rows => do
    ensure (previous.all fun id => checkedSucc id == some row.id)
      "BTC recent trades ID discontinuity"
    let point ← restPoint setting row receivedAtNs
    let points ← restPoints setting receivedAtNs (some row.id) rows
    .ok (point :: points)

/-- The trades of an answer of between one and a thousand rows, and the
identifier of the last one. -/
def recentTrades (setting : Setting) (receivedAtNs : Option Int) (rows : List RestTrade) :
    Except Failure (List Trade × Nat) := do
  ensure (!rows.isEmpty && decide (rows.length ≤ 1000)) "BTC recent trades empty/oversized"
  let trades ← restPoints setting receivedAtNs none rows
  let restLast ← need (rows.getLast?.map RestTrade.id) "BTC recent trades lack last ID"
  .ok (trades, restLast)

/-! ## Consecutive identifiers -/

/-- Each trade follows the one before it. -/
def Consecutive (trades : List Trade) : Prop :=
  trades.IsChain fun before after => after.tradeId = before.tradeId + 1

variable {setting : Setting} {receivedAtNs : Option Int}

theorem tradeId_of_restPoint
    {row : RestTrade} {point : Trade} (made : restPoint setting row receivedAtNs = .ok point) :
    point.tradeId = row.id := by
  unfold restPoint at made
  iterate 2 obtain ⟨_, _, made⟩ := bind_ok.mp made
  obtain ⟨_, made⟩ := ensure_bind_ok.mp made
  rw [← ok.inj made]

variable {rows : List RestTrade} {trades : List Trade} {previous : Option Nat}

section

variable (made : restPoints setting receivedAtNs previous rows = .ok trades)
include made

/-- The trades of an answer carry the identifiers of its rows. -/
theorem tradeIds_of_restPoints :
    trades.map Trade.tradeId = rows.map RestTrade.id := by
  induction rows generalizing previous trades with
  | nil =>
    cases made
    rfl
  | cons row rows ih =>
    unfold restPoints at made
    obtain ⟨_, made⟩ := ensure_bind_ok.mp made
    obtain ⟨point, first, points, others, made⟩ := bind₂_ok.mp made
    cases made
    rw [map_cons, map_cons, tradeId_of_restPoint first, ih others]

/-- What follows a trade in an answer has the next identifier. -/
theorem consecutive_of_restPoints :
    Consecutive trades ∧
      ∀ id first, previous = some id → trades.head? = some first → first.tradeId = id + 1 := by
  induction rows generalizing previous trades with
  | nil =>
    cases made
    exact ⟨List.IsChain.nil, fun _ _ _ never => by cases never⟩
  | cons row rows ih =>
    unfold restPoints at made
    obtain ⟨follows, made⟩ := ensure_bind_ok.mp made
    obtain ⟨point, first, points, others, made⟩ := bind₂_ok.mp made
    cases made
    have samePoint := tradeId_of_restPoint first
    obtain ⟨chain, starts⟩ := ih others
    constructor
    · refine isChain_cons.mpr ⟨?_, chain⟩
      intro next isHead
      rw [samePoint]
      exact starts row.id next rfl isHead
    · intro id _ isPrevious isHead
      cases isHead
      subst isPrevious
      rw [samePoint]
      exact Sdk.eq_succ_of_checkedSucc (beq_iff_eq.mp follows)

end

/-- The trades of an answer: some, consecutive, and the last one is named. -/
theorem of_recentTrades
    {restLast : Nat} (answered : recentTrades setting receivedAtNs rows = .ok (trades, restLast)) :
    Consecutive trades ∧ trades.getLast?.map Trade.tradeId = some restLast ∧
      trades.length ≤ 1000 := by
  unfold recentTrades at answered
  obtain ⟨sized, answered⟩ := ensure_bind_ok.mp answered
  obtain ⟨points, made, answered⟩ := bind_ok.mp answered
  obtain ⟨last, isLast, answered⟩ := need_bind_ok.mp answered
  cases answered
  have sameIds := tradeIds_of_restPoints made
  refine ⟨(consecutive_of_restPoints made).1, ?_, ?_⟩
  · rw [← getLast?_map, sameIds, getLast?_map, isLast]
  · have sameLength := congrArg List.length sameIds
    rw [length_map, length_map] at sameLength
    rw [sameLength]
    exact of_decide_eq_true (Bool.and_eq_true_iff.mp sized).2

/-! ## The time-weighted price -/

def twapHistorySeconds : Nat := 720

structure PriceSecond where
  startMs : Int
  priceMilliseconds : Decimal
  coveredMs : Int
  deriving DecidableEq

structure TradeTwap where
  seconds : List PriceSecond
  lastTimeMs : Option Int
  lastPrice : Option Decimal
  deriving DecidableEq

def TradeTwap.empty : TradeTwap where
  seconds := []
  lastTimeMs := none
  lastPrice := none

/-- The seconds before the one that starts at a time, and that one: the last
one kept, or a new one. -/
def atSecond (seconds : List PriceSecond) (second : Int) : List PriceSecond × PriceSecond :=
  match seconds.getLast? with
  | some entry =>
    if entry.startMs = second then (seconds.dropLast, entry) else (seconds, ⟨second, 0, 0⟩)
  | none => (seconds, ⟨second, 0, 0⟩)

/-- The last price covers the time from a cursor on, second by second. The fuel
bounds the seconds of the history, so it never runs out. -/
def cover (setting : Setting) (lastPrice : Decimal) (timeMs : Int) :
    Nat → Int → List PriceSecond → Except Failure (List PriceSecond)
  | 0, _, seconds => .ok seconds
  | fuel + 1, cursor, seconds =>
    if cursor < timeMs then do
      let second := cursor / 1000 * 1000
      let stop := min timeMs (second + 1000)
      let (front, entry) := atSecond seconds second
      let increment ← need (setting.checkedMul lastPrice (stop - cursor : Int))
        "BTC trade TWAP area overflow"
      let area ← need (setting.checkedAdd entry.priceMilliseconds increment)
        "BTC trade TWAP area overflow"
      cover setting lastPrice timeMs fuel stop
        (front ++ [⟨entry.startMs, area, entry.coveredMs + (stop - cursor)⟩])
    else .ok seconds

/-- The time since the last trade, at its price. -/
def TradeTwap.carried (setting : Setting) (twap : TradeTwap) (timeMs : Int) :
    Except Failure (List PriceSecond) :=
  match twap.lastTimeMs, twap.lastPrice with
  | some lastTime, some lastPrice => do
    ensure (decide (lastTime ≤ timeMs)) "BTC trade source time regressed"
    cover setting lastPrice timeMs (twapHistorySeconds + 1)
      (max lastTime (timeMs - twapHistorySeconds * 1000)) twap.seconds
  | _, _ => .ok twap.seconds

def TradeTwap.observe (setting : Setting) (twap : TradeTwap) (timeMs : Int) (price : Decimal) :
    Except Failure TradeTwap := do
  ensure (decide (0 < timeMs) && decide (0 < price)) "invalid BTC trade TWAP input"
  let seconds ← twap.carried setting timeMs
  .ok
    { seconds := seconds.drop (seconds.length - twapHistorySeconds)
      lastTimeMs := some timeMs
      lastPrice := some price }

/-- The price of a trade joins the average. -/
def TradeTwap.take (setting : Setting) (twap : TradeTwap) (trade : Trade) :
    Except Failure TradeTwap := do
  let price ← parseDecimal setting trade.price
  twap.observe setting trade.tradeTimeMs price

variable {seconds : List PriceSecond}

/-- More fuel than one step for each second that is left changes nothing. -/
theorem cover_eq_of_fuel {lastPrice : Decimal} {timeMs cursor : Int} {fuel more : Nat}
    (enough : cursor < timeMs → (timeMs + 999) / 1000 - cursor / 1000 ≤ fuel)
    (least : fuel ≤ more) :
    cover setting lastPrice timeMs more cursor seconds =
      cover setting lastPrice timeMs fuel cursor seconds := by
  induction more generalizing cursor fuel seconds with
  | zero =>
    obtain rfl := Nat.le_zero.mp least
    rfl
  | succ more ih =>
    by_cases behind : cursor < timeMs
    · have left := enough behind
      cases fuel with
      | zero => omega
      | succ fuel =>
        unfold cover
        rw [if_pos behind, if_pos behind]
        refine congrArg _ (funext fun increment => congrArg _ (funext fun area => ?_))
        apply ih
        · intro stillBehind
          have whole : min timeMs (cursor / 1000 * 1000 + 1000) = cursor / 1000 * 1000 + 1000 := by
            omega
          rw [whole]
          omega
        · omega
    · cases fuel with
      | zero => rw [cover, cover, if_neg behind]
      | succ fuel => rw [cover, cover, if_neg behind, if_neg behind]

/-- The fuel of an observation is enough: any other amount above it gives the
same seconds. -/
theorem cover_history {lastTime timeMs : Int} (least : twapHistorySeconds + 1 ≤ more) :
    cover setting lastPrice timeMs more
        (max lastTime (timeMs - twapHistorySeconds * 1000)) seconds =
      cover setting lastPrice timeMs (twapHistorySeconds + 1)
        (max lastTime (timeMs - twapHistorySeconds * 1000)) seconds := by
  apply cover_eq_of_fuel _ least
  intro _
  unfold twapHistorySeconds
  omega

end MarketCow.BtcLive
