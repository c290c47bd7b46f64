import MarketCow.Core.Book
import MarketCow.Library.Accumulator
import MarketCow.Library.Effect
import MarketCow.Library.Fallible
import MarketCow.Library.Json
import MarketCow.Library.Lines
import MarketCow.Library.Text

/-!
# Depth of one token under PN1

A book of decimal texts with an accumulator that is updated level by level, and
the application of one depth frame to it. A frame that fails leaves the rows it
has applied behind and fences the token.
-/

namespace MarketCow.Polynode

open Library
open MarketCow.Core (Decimal Side)
open Effect (ensure fail get lift modify need)

/-- Functions of external packages: SHA-256, the JSON parser and the decimal
parser. -/
structure Provider where
  sha256 : Bytes → Vector UInt8 32
  fromStr : String → Option Json
  decimalFromStr : String → Option Decimal

def maxLevelsPerToken : Nat := 40000

abbrev Digest := Vector UInt8 32

/-- One side of a book: canonical prices with canonical sizes. -/
abbrev Levels := TreeMap String String

/-! ## Decimals -/

/-- The canonical text of a decimal: no leading zeros, no trailing ones. -/
def decimal (raw : String) : Except String String :=
  let characters := raw.toList
  if raw.isEmpty || 64 < raw.utf8ByteSize ||
      characters.any (fun character => !(character == '.' || character.isDigit)) ||
      1 < characters.count '.' || !characters.any Char.isDigit then
    .error "PN1 decimal syntax"
  else
    let whole := (characters.takeWhile (· != '.')).dropWhile (· == '0')
    let fraction := ((characters.dropWhile (· != '.')).drop 1).rdropWhile (· == '0')
    let whole := if whole.isEmpty then ['0'] else whole
    .ok (String.ofList (if fraction.isEmpty then whole else whole ++ '.' :: fraction))

example : decimal ".50" = .ok "0.5" := by decide +kernel

example : decimal "000.000" = .ok "0" := by decide +kernel

/-! ## Digests -/

def sideTag : Side → UInt8
  | .bid => 66
  | .ask => 65

def levelHash (provider : Provider) (side : Side) (price size : String) : Digest :=
  provider.sha256
    ("pn1:level\x00".toUTF8.toList ++ [sideTag side, 0] ++ price.toUTF8.toList ++ [0] ++
      size.toUTF8.toList)

def xorInto (accumulator digest : Digest) : Digest :=
  accumulator.zipWith (· ^^^ ·) digest

def zeroDigest : Digest := Vector.replicate 32 0

theorem xorInto_assoc (first second third : Digest) :
    xorInto (xorInto first second) third = xorInto first (xorInto second third) := by
  ext position bound
  simp [xorInto, UInt8.xor_assoc]

theorem xorInto_comm (first second : Digest) : xorInto first second = xorInto second first := by
  ext position bound
  simp [xorInto, UInt8.xor_comm]

instance : Std.Associative xorInto := ⟨xorInto_assoc⟩

instance : Std.Commutative xorInto := ⟨xorInto_comm⟩

/-- What is added twice is gone. -/
theorem xorInto_cancel (accumulator digest : Digest) :
    xorInto (xorInto digest accumulator) digest = accumulator := by
  ext position bound
  simp [xorInto, UInt8.xor_comm]

/-! ## Books -/

structure TokenBook where
  bids : Levels
  asks : Levels
  accumulator : Digest
  sequence : Option Nat
  verified : Bool
  deriving DecidableEq

namespace TokenBook

/-- The default book. -/
def empty : TokenBook where
  bids := ∅
  asks := ∅
  accumulator := zeroDigest
  sequence := none
  verified := false

def levels (book : TokenBook) : Side → Levels
  | .bid => book.bids
  | .ask => book.asks

def withLevels
    (book : TokenBook) (side : Side) (levels : Levels) (accumulator : Digest) : TokenBook :=
  match side with
  | .bid => { book with bids := levels, accumulator }
  | .ask => { book with asks := levels, accumulator }

def checksum (provider : Provider) (book : TokenBook) : String :=
  Text.hexEncode (provider.sha256
    ("pn1:book\x00".toUTF8.toList ++ (toString book.bids.size).toUTF8.toList ++ [0] ++
      (toString book.asks.size).toUTF8.toList ++ [0] ++ book.accumulator.toList)).toList

def invalidate (book : TokenBook) : TokenBook :=
  { book with verified := false, sequence := none }

end TokenBook

/-! ## Rows -/

variable (provider : Provider)

/-- Remove one level, if it is there, and its hash with it. -/
def removeLevel
    (levels : Levels) (side : Side) (accumulator : Digest) (price : String) : Levels × Digest :=
  match levels[price]? with
  | some previous =>
    (levels.erase price, xorInto accumulator (levelHash provider side price previous))
  | none => (levels, accumulator)

/-- Set one level, or remove it at size zero, and carry the accumulator along. -/
def put
    (levels : Levels) (side : Side) (accumulator : Digest)
    (rawPrice rawSize : String) : Except String (Levels × Digest) := do
  let price ← decimal rawPrice
  let size ← decimal rawSize
  let (levels, accumulator) := removeLevel provider levels side accumulator price
  if size = "0" then .ok (levels, accumulator)
  else
    .ok (levels.insert price size, xorInto accumulator (levelHash provider side price size))

/-- A text field of a row. -/
def rowText (row : Json) (field : String) : Except String String :=
  match (row.get? field).bind Json.asString? with
  | some text => .ok text
  | none => .error ("PN1 " ++ field)

def rows (value : Json) (field : String) : Except String (List Json) :=
  match (value.get? field).bind Json.asArray? with
  | some items => .ok items
  | none => .error ("PN1 " ++ field ++ " missing")

/-- Put one level of the book itself. -/
def putLevel
    (side : Side) (price size : String) : Effect TokenBook String Unit := do
  let book ← get
  let (levels, accumulator) ←
    lift (put provider (book.levels side) side book.accumulator price size)
  modify fun book => book.withLevels side levels accumulator

def applyRow
    (side : Side) (anchor : Bool) (row : Json) : Effect TokenBook String Unit := do
  let price ← lift (rowText row "price")
  let size ← lift (rowText row "size")
  let canonicalPrice ← lift (decimal price)
  let book ← get
  ensure (!(anchor && (book.levels side).contains canonicalPrice))
    "duplicate PN1 anchor level"
  putLevel provider side price size

def applyRows (side : Side) (anchor : Bool) (rows : List Json) : Effect TokenBook String Unit :=
  Effect.forEach (applyRow provider side anchor) rows

/-! ## Depth frames -/

/-- The envelope of a depth frame. -/
structure Envelope where
  integrity : Json
  sequence : Nat
  expected : String
  kind : String

def readEnvelope (frame : Json) : Except String Envelope := do
  let integrity ← (frame.get? "integrity").elim (.error "PN1 integrity missing") .ok
  if (integrity.get? "protocol").bind Json.asString? ≠ some "pn1" then
    .error "PN1 protocol"
  else
    let sequence ← ((integrity.get? "seq").bind Json.asU64?).elim (.error "PN1 seq") .ok
    let expected ← ((integrity.get? "checksum").bind Json.asString?).elim
      (.error "PN1 checksum") .ok
    if !Text.isDigest expected then .error "PN1 checksum format"
    else
      let kind ← ((frame.get? "type").bind Json.asString?).elim (.error "PN1 depth type") .ok
      .ok { integrity, sequence, expected, kind }

def isAnchor (frame : Json) : Bool :=
  ((frame.get? "integrity").bind (·.get? "anchor")) == some (.bool true)

/-- The rows of both sides of a frame, bids first. -/
def applySides
    (anchor : Bool) (frame : Json) : Effect TokenBook String Unit := do
  let bids ← lift (rows frame "bids")
  applyRows provider .bid anchor bids
  let asks ← lift (rows frame "asks")
  applyRows provider .ask anchor asks

def TokenBook.withinBudget (book : TokenBook) : Bool :=
  book.bids.size + book.asks.size ≤ maxLevelsPerToken

/-- The book of an anchor, built from nothing. -/
def anchorBook
    (frame : Json) (envelope : Envelope) : Except String TokenBook := do
  if envelope.kind ≠ "book_snapshot" then .error "PN1 anchor must be book snapshot"
  else
    match applySides provider true frame TokenBook.empty with
    | (.error cause, _) => .error cause
    | (.ok (), next) =>
      if !next.withinBudget then .error "PN1 anchor level budget"
      else if next.checksum provider ≠ envelope.expected then
        .error "PN1 anchor checksum mismatch"
      else .ok { next with sequence := some envelope.sequence, verified := true }

/-- The one row of a price change. -/
def priceChangeRow (frame : Json) (cause : String) : Except String Json := do
  match ← rows frame "assets" with
  | [row] => .ok row
  | _ => .error cause

def priceChangeSide (row : Json) : Except String Side :=
  match (row.get? "side").bind Json.asString? with
  | some "BUY" => .ok .bid
  | some "SELL" => .ok .ask
  | _ => .error "PN1 price change side"

def applyPriceChange
    (frame : Json) : Effect TokenBook String Unit := do
  let row ← lift (priceChangeRow frame "PN1 price change must be token scoped")
  let price ← lift (rowText row "price")
  let size ← lift (rowText row "size")
  let side ← lift (priceChangeSide row)
  putLevel provider side price size

def applyChange (frame : Json) (kind : String) : Effect TokenBook String Unit :=
  if kind = "book_update" then applySides provider false frame
  else if kind = "price_change" then applyPriceChange provider frame
  else fail "unsupported PN1 depth type"

def applyDepthInner
    (frame : Json) : Effect TokenBook String Unit := do
  let envelope ← lift (readEnvelope frame)
  if isAnchor frame then
    let next ← lift (anchorBook provider frame envelope)
    modify fun _ => next
  else
    let book ← get
    ensure book.verified "PN1 token has no verified anchor"
    let previous ← need ((envelope.integrity.get? "prev_seq").bind Json.asU64?)
      "PN1 prev_seq"
    ensure
      (book.sequence == some previous && previous + 1 == envelope.sequence)
      "PN1 sequence gap"
    applyChange provider frame envelope.kind
    let book ← get
    ensure book.withinBudget "PN1 token level budget"
    ensure (book.checksum provider == envelope.expected) "PN1 depth checksum mismatch"
    modify fun book => { book with sequence := some envelope.sequence }

/-- A failed frame fences the token. -/
def TokenBook.applyDepth
    (frame : Json) : Effect TokenBook String Unit := fun book =>
  match applyDepthInner provider frame book with
  | (.ok (), after) => (.ok (), after)
  | (.error cause, after) => (.error cause, after.invalidate)

end MarketCow.Polynode
