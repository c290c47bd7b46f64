import Mathlib
import MarketCow.Library.Lines

/-!
# SHA-256 and CRC-32C

The two checksums of bytes, computed.
-/

namespace MarketCow
namespace Library

namespace Sha256

/-- Words are numbers below 2 ^ 32. -/
def roundConstants : List Nat :=
  [0x428a2f98, 0x71374491, 0xb5c0fbcf, 0xe9b5dba5, 0x3956c25b, 0x59f111f1, 0x923f82a4, 0xab1c5ed5,
    0xd807aa98, 0x12835b01, 0x243185be, 0x550c7dc3, 0x72be5d74, 0x80deb1fe, 0x9bdc06a7, 0xc19bf174,
    0xe49b69c1, 0xefbe4786, 0x0fc19dc6, 0x240ca1cc, 0x2de92c6f, 0x4a7484aa, 0x5cb0a9dc, 0x76f988da,
    0x983e5152, 0xa831c66d, 0xb00327c8, 0xbf597fc7, 0xc6e00bf3, 0xd5a79147, 0x06ca6351, 0x14292967,
    0x27b70a85, 0x2e1b2138, 0x4d2c6dfc, 0x53380d13, 0x650a7354, 0x766a0abb, 0x81c2c92e, 0x92722c85,
    0xa2bfe8a1, 0xa81a664b, 0xc24b8b70, 0xc76c51a3, 0xd192e819, 0xd6990624, 0xf40e3585, 0x106aa070,
    0x19a4c116, 0x1e376c08, 0x2748774c, 0x34b0bcb5, 0x391c0cb3, 0x4ed8aa4a, 0x5b9cca4f, 0x682e6ff3,
    0x748f82ee, 0x78a5636f, 0x84c87814, 0x8cc70208, 0x90befffa, 0xa4506ceb, 0xbef9a3f7, 0xc67178f2]

structure State where
  a : Nat
  b : Nat
  c : Nat
  d : Nat
  e : Nat
  f : Nat
  g : Nat
  h : Nat

def State.initial : State where
  a := 0x6a09e667
  b := 0xbb67ae85
  c := 0x3c6ef372
  d := 0xa54ff53a
  e := 0x510e527f
  f := 0x9b05688c
  g := 0x1f83d9ab
  h := 0x5be0cd19

def State.words (state : State) : List Nat :=
  [state.a, state.b, state.c, state.d, state.e, state.f, state.g, state.h]

def truncate (word : Nat) : Nat := word % 2 ^ 32

def rotateRight (word count : Nat) : Nat :=
  truncate ((word >>> count) ||| (word <<< (32 - count)))

/-- The message, a one bit, zeros and the length in bits, to whole blocks. -/
def pad (message : Bytes) : Bytes :=
  let zeros := (119 - message.length % 64) % 64
  let bits := 8 * message.length
  let size : Bytes :=
    (List.range 8).map fun position => UInt8.ofNat (bits >>> (8 * (7 - position)))
  message ++ [0x80] ++ List.replicate zeros 0 ++ size

/-- The pieces of a list of the given size. -/
def pieces {α : Type} (size count : Nat) (items : List α) : List (List α) :=
  match count with
  | 0 => []
  | count + 1 => items.take size :: pieces size count (items.drop size)

def wordOf (bytes : Bytes) : Nat :=
  bytes.foldl (fun word byte => 256 * word + byte.toNat) 0

/-- The next word after a window of sixteen. -/
def nextWord (window : List Nat) : Nat :=
  let first := window.getD 1 0
  let second := window.getD 14 0
  let mixedFirst := rotateRight first 7 ^^^ rotateRight first 18 ^^^ (first >>> 3)
  let mixedSecond := rotateRight second 17 ^^^ rotateRight second 19 ^^^ (second >>> 10)
  truncate (window.getD 0 0 + mixedFirst + window.getD 9 0 + mixedSecond)

/-- The words of a block, extended by some more. -/
def schedule (more : Nat) (window : List Nat) : List Nat :=
  match more with
  | 0 => window
  | more + 1 => window.take 1 ++ schedule more (window.drop 1 ++ [nextWord window])

/-- One round with the sum of a constant and a word. -/
def round (state : State) (added : Nat) : State :=
  let choice := (state.e &&& state.f) ^^^ ((state.e ^^^ 0xffffffff) &&& state.g)
  let majority := (state.a &&& state.b) ^^^ (state.a &&& state.c) ^^^ (state.b &&& state.c)
  let mixedE := rotateRight state.e 6 ^^^ rotateRight state.e 11 ^^^ rotateRight state.e 25
  let mixedA := rotateRight state.a 2 ^^^ rotateRight state.a 13 ^^^ rotateRight state.a 22
  let first := state.h + mixedE + choice + added
  { a := truncate (first + mixedA + majority)
    b := state.a
    c := state.b
    d := state.c
    e := truncate (state.d + first)
    f := state.e
    g := state.f
    h := state.g }

def compress (state : State) (block : Bytes) : State :=
  let words := schedule 48 ((pieces 4 16 block).map wordOf)
  let after := (List.zipWith (fun left right => left + right) roundConstants words).foldl round state
  { a := truncate (state.a + after.a)
    b := truncate (state.b + after.b)
    c := truncate (state.c + after.c)
    d := truncate (state.d + after.d)
    e := truncate (state.e + after.e)
    f := truncate (state.f + after.f)
    g := truncate (state.g + after.g)
    h := truncate (state.h + after.h) }

def hash (message : Bytes) : Vector UInt8 32 :=
  let padded := pad message
  let state := (pieces 64 (padded.length / 64) padded).foldl compress State.initial
  let byte (position : Fin 32) : UInt8 :=
    UInt8.ofNat (state.words.getD (position.val / 4) 0 >>> (8 * (3 - position.val % 4)))
  ⟨(List.ofFn byte).toArray, by simp⟩

end Sha256

example : (Sha256.hash [97, 98, 99]).toList.take 8 =
    [0xba, 0x78, 0x16, 0xbf, 0x8f, 0x01, 0xcf, 0xea] := by
  decide +kernel

/-- CRC-32 of the Castagnoli polynomial, bit by bit. -/
def crc32c (bytes : Bytes) : UInt32 :=
  let step (sum : UInt32) : UInt32 :=
    if sum &&& 1 = 1 then (sum >>> 1) ^^^ 0x82f63b78 else sum >>> 1
  ~~~bytes.foldl (fun sum byte => Nat.repeat step 8 (sum ^^^ byte.toUInt32)) 0xffffffff

example : crc32c [49, 50, 51, 52, 53, 54, 55, 56, 57] = 0xe3069283 := by
  decide +kernel

end Library
end MarketCow
