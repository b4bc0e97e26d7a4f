/-! # Object ids: 96-bit keys that the store can issue

An object id is 96 bits, written as 24 hexadecimal digits and ordered as a number. A supply issues
ids one after the other, and nothing is said about which; one that counts from a start is at
hand. -/

namespace DocStore

/-- A 96-bit key. -/
structure ObjectId where
  /-- The key as a number. -/
  value : BitVec 96
  deriving DecidableEq

namespace ObjectId

/-- The digit of value `n` below sixteen. -/
def hexDigit (n : Nat) : Char := Nat.digitChar (n % 16)

/-- The lowest `count` hexadecimal digits of `n`, highest first. -/
def hexDigits : Nat → Nat → List Char
  | 0, _ => []
  | count + 1, n => hexDigits count (n / 16) ++ [hexDigit n]

/-- The 24 hexadecimal digits. -/
def toHex (id : ObjectId) : String := String.ofList (hexDigits 24 id.value.toNat)

/-- Order as numbers, which is the order of the bytes. -/
def order (x y : ObjectId) : Ordering := compare x.value.toNat y.value.toNat

/-- **A supply of ids**: any ids, in the order in which they are issued. -/
structure Supply where
  /-- The ids, counted from the first. -/
  issue : Nat → ObjectId
  /-- How many have been issued. -/
  issued : Nat

namespace Supply

/-- The id that is issued next. -/
def peek (supply : Supply) : ObjectId := supply.issue supply.issued

/-- The supply after it has issued an id. -/
def advance (supply : Supply) : Supply := { supply with issued := supply.issued + 1 }

end Supply

/-- **A source of ids** that counts: its ids are told apart from those of others by the time of its
start and a number of its own. -/
structure Source where
  /-- Seconds since the epoch, the top 32 bits. -/
  seconds : Nat
  /-- What tells this source from others, 40 bits. -/
  owner : Nat
  /-- How many ids it has issued, 24 bits. -/
  issued : Nat

/-- The ids of a source. -/
def Supply.ofSource (source : Source) : Supply where
  issue count :=
    ⟨BitVec.ofNat 96 ((source.seconds * Nat.pow 2 40 + source.owner) * Nat.pow 2 24 + count)⟩
  issued := source.issued

instance : Coe Source Supply := ⟨Supply.ofSource⟩

end ObjectId

end DocStore
