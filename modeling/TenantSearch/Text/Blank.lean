-- Which characters separate words, and the three things done with them: trimming,
-- splitting into words, and collapsing a text to its words with single spaces between.

namespace TenantSearch

/-- White space, by the Unicode property. -/
def isSpace (c : Char) : Bool :=
  let n := c.toNat
  (9 ≤ n && n ≤ 13) || n == 32 || n == 0x85 || n == 0xA0 || n == 0x1680 ||
    (0x2000 ≤ n && n ≤ 0x200A) || n == 0x2028 || n == 0x2029 || n == 0x202F || n == 0x205F ||
    n == 0x3000

/-- A blank: white space, or one of the four information separators. -/
def isBlank (c : Char) : Bool := isSpace c || (28 ≤ c.toNat && c.toNat ≤ 31)

/-- The characters without those at both ends that satisfy `p`. -/
def trimEnds (p : Char → Bool) (cs : List Char) : List Char :=
  ((cs.dropWhile p).reverse.dropWhile p).reverse

/-- The text without blanks at its ends. -/
def trim (s : String) : String := String.ofList (trimEnds isBlank s.toList)

/-- Nothing but blanks, or nothing at all. -/
def isBlankText (s : String) : Bool := s.toList.all isBlank

/-- One character more: a blank ends the word being read, any other character joins it. The
state holds the finished words and the current one, both reversed. -/
def wordStep (p : Char → Bool) (state : List (List Char) × List Char) (c : Char) :
    List (List Char) × List Char :=
  if p c then (if state.2.isEmpty then state.1 else state.2.reverse :: state.1, [])
  else (state.1, c :: state.2)

/-- The words of a text, parted by characters that satisfy `p`; no word is empty. -/
def wordsBy (p : Char → Bool) (cs : List Char) : List (List Char) :=
  let last := cs.foldl (wordStep p) ([], [])
  (if last.2.isEmpty then last.1 else last.2.reverse :: last.1).reverse

/-- The words of a text. -/
def words (s : String) : List String := (wordsBy isBlank s.toList).map String.ofList

/-- The words of a text with single spaces between. -/
def collapse (s : String) : String := " ".intercalate (words s)

/-- The pieces of a text between the characters that satisfy `p`, the empty ones included. -/
def piecesBy (p : Char → Bool) (cs : List Char) : List (List Char) :=
  let last := cs.foldl
    (fun (state : List (List Char) × List Char) c =>
      if p c then (state.2.reverse :: state.1, []) else (state.1, c :: state.2)) ([], [])
  (last.2.reverse :: last.1).reverse

/-- The pieces of a comma-separated list. -/
def commaPieces (s : String) : List String := (piecesBy (· == ',') s.toList).map String.ofList

/-- The trimmed pieces of a comma-separated list that are not blank. -/
def commaNames (s : String) : List String :=
  ((commaPieces s).map trim).filter (!·.isEmpty)

end TenantSearch
