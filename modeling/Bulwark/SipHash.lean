/-!
# SipHash

A keyed hash of bytes to 64 bits.  The message is cut into words of eight bytes, lowest byte first;
the last one has the bytes that are left over, and the length of the message in its highest byte.
Four words of state take in one word after the other with some rounds each, and more rounds follow
at the end.

`SipHash.digest c d` makes `c` rounds for a word and `d` at the end.
-/

namespace Bulwark

/-- The state that a message is mixed into. -/
structure SipHash where
  v0 : UInt64
  v1 : UInt64
  v2 : UInt64
  v3 : UInt64
  deriving DecidableEq, Repr

namespace SipHash

/-- The state before the first word, for a key of two words. -/
def start (k0 k1 : UInt64) : SipHash :=
  ⟨k0 ^^^ 0x736f6d6570736575, k1 ^^^ 0x646f72616e646f6d, k0 ^^^ 0x6c7967656e657261,
    k1 ^^^ 0x7465646279746573⟩

/-- The bits moved up by `n`, the highest ones to the low end, for `n` from 1 to 63. -/
def rotate (w n : UInt64) : UInt64 := w <<< n ||| w >>> (64 - n)

/-- Half a round: two sums, and two words turned and set off against them. -/
def halfRound (n m : UInt64) (s : SipHash) : SipHash :=
  let v0 := s.v0 + s.v1
  let v2 := s.v2 + s.v3
  ⟨v0, rotate s.v1 n ^^^ v0, v2, rotate s.v3 m ^^^ v2⟩

/-- The state with its even words exchanged, the first of them with its halves exchanged too. -/
def exchange (s : SipHash) : SipHash := ⟨s.v2, s.v1, rotate s.v0 32, s.v3⟩

/-- One round: two halves that pair the words differently. -/
def round (s : SipHash) : SipHash :=
  ((s.halfRound 13 16).exchange.halfRound 17 21).exchange

/-- So many rounds. -/
def rounds : Nat → SipHash → SipHash
  | 0, s => s
  | n + 1, s => rounds n s.round

/-- Takes in one word of the message. -/
def absorb (c : Nat) (s : SipHash) (word : UInt64) : SipHash :=
  let s := rounds c { s with v3 := s.v3 ^^^ word }
  { s with v0 := s.v0 ^^^ word }

/-- The hash that a state ends in. -/
def finish (d : Nat) (s : SipHash) : UInt64 :=
  let s := rounds d { s with v2 := s.v2 ^^^ 0xff }
  s.v0 ^^^ s.v1 ^^^ s.v2 ^^^ s.v3

/-- The word of at most eight bytes, lowest byte first. -/
def wordOf (bytes : List UInt8) : UInt64 := bytes.foldr (fun b w => w <<< 8 ||| b.toUInt64) 0

/-- The words of a message of so many bytes. -/
def words (length : Nat) : List UInt8 → List UInt64
  | b0 :: b1 :: b2 :: b3 :: b4 :: b5 :: b6 :: b7 :: rest =>
    wordOf [b0, b1, b2, b3, b4, b5, b6, b7] :: words length rest
  | tail => [length.toUInt64 <<< 56 ||| wordOf tail]

/-- The hash of a message under a key of two words, with `c` rounds for a word and `d` at the
end. -/
def digest (c d : Nat) (k0 k1 : UInt64) (message : List UInt8) : UInt64 :=
  ((words message.length message).foldl (absorb c) (start k0 k1)).finish d

end SipHash
end Bulwark
