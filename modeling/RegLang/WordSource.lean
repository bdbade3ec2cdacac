/-!
This module contains the source of randomness for choices: a sequence of 32-bit words, and the
choice of one of several alternatives by the words.
-/

namespace RegLang

/--
A source of random words. It hands out the pending words in order and zeros after them.
-/
structure WordSource where
  pending : List UInt32
  drawn : Nat := 0
  deriving Repr, DecidableEq

namespace WordSource

/--
The alternative that a word points at among `n`: the words are divided into `n` stretches.
-/
def slot (n : Nat) (word : UInt32) : Nat := word.toNat * n / UInt32.size

/--
Whether a word may decide among `n` alternatives. Each stretch of words is cut to the same length,
the greatest product of `n` and a power of two below `2 ^ 32`, so that no alternative is favoured.
-/
def decides (n : Nat) (word : UInt32) : Bool :=
  word.toNat * n % UInt32.size < n <<< (31 - Nat.log2 n)

/--
An index below `n`, by the first of the words that may decide. A zero always may.
-/
def drawIndex (n : Nat) : List UInt32 → Nat → Nat × WordSource
  | [], drawn => (0, ⟨[], drawn + 1⟩)
  | word :: words, drawn =>
    if decides n word then
      (slot n word, ⟨words, drawn + 1⟩)
    else
      drawIndex n words (drawn + 1)

def choose {α : Type} (source : WordSource) (alternatives : List α) : Option α × WordSource :=
  if alternatives.isEmpty then
    (none, source)
  else
    let (i, source) := drawIndex alternatives.length source.pending source.drawn
    (alternatives[i]?, source)

end WordSource

end RegLang
