import MarketCow.Core.Book
import MarketCow.Library.Json
import MarketCow.Library.Text

/-!
# Third-party code

The functions of external packages the core calls: the hash, the compact JSON
printer and the texts of decimals and timestamps.
-/

namespace MarketCow.Core

open Library

structure Platform where
  /-- SHA-256. -/
  sha256 : List UInt8 → Vector UInt8 32
  /-- Compact JSON text of a value. -/
  toVec : Json → List UInt8
  decimalText : Decimal → String
  dateTimeText : DateTime → String

namespace Platform

/-- Lower-case hexadecimal SHA-256 of some bytes. -/
def hexDigest (platform : Platform) (bytes : List UInt8) : String :=
  Text.hexEncode (platform.sha256 bytes).toList

/-- Lower-case hexadecimal SHA-256 of a text. -/
def textDigest (platform : Platform) (text : String) : String :=
  platform.hexDigest text.toUTF8.toList

/-- Lower-case hexadecimal SHA-256 of a JSON value. -/
def contentSha256 (platform : Platform) (value : Json) : String :=
  platform.hexDigest (platform.toVec value)

theorem asciiLowercase_hexDigest (platform : Platform) (bytes : List UInt8) :
    Text.asciiLowercase (platform.hexDigest bytes) = platform.hexDigest bytes :=
  Text.asciiLowercase_hexEncode _

end Platform

end MarketCow.Core
