/-!
Signed words of 64 bits, as integers in a range. A sum or a difference that leaves the range has no
result; an unsigned word is read as the signed word with the same bits. Half of the unsigned words are read as
they are, and the first one behind them as the least signed word.
-/
namespace Transcript.Word

/-- Words are below this number and not below its negative: two to the power of 63. -/
def bound : Int := 9223372036854775808

/-- How many words there are: two to the power of 64. -/
def count : Nat := 18446744073709551616

/-- An integer as a word, if it is one. -/
def ofInt? (n : Int) : Option Int := if -bound ≤ n ∧ n < bound then some n else none

/-- The word with the same bits. -/
def ofBits (n : Nat) : Int := Int.bmod n count

/-- Half of the unsigned words are the signed words that are not negative. -/
theorem ofBits_of_lt {n : Nat} (h : (n : Int) < bound) : ofBits n = n := by
  simp only [ofBits, Int.bmod, count, bound] at *
  omega

theorem ofBits_bounds (n : Nat) : -bound ≤ ofBits n ∧ ofBits n < bound := by
  have hle := Int.le_bmod (x := n) (m := count) (by decide)
  have hlt := Int.bmod_lt (x := n) (m := count) (by decide)
  simp only [ofBits, count, bound] at *
  omega

/-- The first unsigned word that is not a signed one is read as the least. -/
theorem ofBits_bound : ofBits bound.toNat = -bound := by decide +kernel

/-! ## Sums and differences -/

/-- The sum of two words. -/
def add? (a b : Int) : Option Int := ofInt? (a + b)

def sub? (a b : Int) : Option Int := ofInt? (a - b)

theorem add?_of_bounds {a b : Int} (hlower : -bound ≤ a + b) (hupper : a + b < bound) : add? a b = some (a + b) :=
  if_pos ⟨hlower, hupper⟩

theorem sub?_of_bounds {a b : Int} (hlower : -bound ≤ a - b) (hupper : a - b < bound) : sub? a b = some (a - b) :=
  if_pos ⟨hlower, hupper⟩

theorem add?_eq_none {a b : Int} (h : a + b < -bound ∨ bound ≤ a + b) : add? a b = none :=
  if_neg (by omega)

theorem sub?_eq_none {a b : Int} (h : a - b < -bound ∨ bound ≤ a - b) : sub? a b = none :=
  if_neg (by omega)

end Transcript.Word
