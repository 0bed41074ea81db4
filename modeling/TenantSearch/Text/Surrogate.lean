-- A JSON escape can write one half of a surrogate pair without the other. Such a half is
-- no character; it is kept as a private one, 2^20 above it, and written back as the half
-- that it is. These 2048 characters at the end of the last private plane have no other use
-- here: a text that has one of its own is taken to have the half.

namespace TenantSearch

/-- The number of a surrogate: the high halves come first, then the low ones. -/
def isSurrogate (unit : Nat) : Bool := 0xD800 ≤ unit && unit < 0xE000

def isHighSurrogate (unit : Nat) : Bool := 0xD800 ≤ unit && unit < 0xDC00

def isLowSurrogate (unit : Nat) : Bool := 0xDC00 ≤ unit && unit < 0xE000

/-- The code point of a pair. -/
def joinSurrogates (high low : Nat) : Nat := 0x10000 + (high - 0xD800) * 0x400 + (low - 0xDC00)

/-- The character of a code point; a lone surrogate is kept as a private character, which then
stands for nothing else. -/
def charOfUnit (unit : Nat) : Char :=
  if isSurrogate unit then Char.ofNat (0x100000 + unit) else Char.ofNat unit

/-- The lone surrogate that a character stands for. -/
def surrogate? (c : Char) : Option Nat :=
  if 0x10D800 ≤ c.toNat ∧ c.toNat < 0x10E000 then some (c.toNat - 0x100000) else none

/-- Whether a text has a lone surrogate in it, which no encoding can write. -/
def hasSurrogate (s : String) : Bool := s.toList.any fun c => (surrogate? c).isSome

end TenantSearch
