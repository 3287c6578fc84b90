import Std.Data.TreeSet
import QuerySynth.Grammar.Kind
import QuerySynth.Random.Range

/-!
# Pools of names

A pool holds the bare names that synonyms of each kind are drawn from.  Names
of a generated pool are distinct within a kind; a name that comes up again is
drawn anew.
-/

namespace QuerySynth

/-- The bare names of every kind. -/
structure Pool where
  names : PerKind (List String)
  deriving DecidableEq, Repr

namespace Pool

/-- The pool without names. -/
def empty : Pool := ⟨.fill []⟩

/-- The pool of listed names.  A repeated name counts once, and the last entry
of a kind is the one that counts. -/
def ofNames (entries : List (Kind × List String)) : Pool :=
  ⟨entries.foldl (fun names (kind, listed) => names.set kind listed.eraseDups) (.fill [])⟩

/-- The characters of generated names: letters and digits. -/
def alphabet : List Char :=
  "ABCDEFGHIJKLMNOPQRSTUVWXYZabcdefghijklmnopqrstuvwxyz0123456789".toList

/-- The largest number a 64-bit word holds. -/
def maxCount : Nat := UInt64.size - 1

/-- Continues a count of names over `n` more lengths, where `width` names have
the length before; the count stops at the largest number of a word. -/
def capacityFrom (width total : Nat) : Nat → Nat
  | 0 => total
  | n + 1 =>
      let width := min (width * alphabet.length) maxCount
      let total := min (total + width) maxCount
      if total = maxCount then total else capacityFrom width total n

/-- How many names there are of length one up to the given length. -/
def capacity (length : Nat) : Nat := capacityFrom 1 0 length

variable {σ : Type} [WordSource σ]

/-- A character of the alphabet. -/
def drawLetter : Draw σ Char := do
  return alphabet.getD (← Draw.below64 alphabet.length) 'A'

/-- A name of a given length. -/
def drawLetters : Nat → Draw σ (List Char)
  | 0 => pure []
  | n + 1 => do
      let letter ← drawLetter
      return letter :: (← drawLetters n)

/-- A name of random length up to a limit. -/
def drawName (limit : Nat) : Draw σ String := do
  let length ← Draw.below64 limit
  return String.ofList (← drawLetters (length + 1))

/-- A name that is not among those seen. -/
def drawFresh (limit : Nat) (seen : Std.TreeSet String) : Draw σ String :=
  Draw.retry do
    let name ← drawName limit
    return if seen.contains name then none else some name

/-- So many names, distinct from one another and from those seen. -/
def drawDistinct (limit : Nat) (seen : Std.TreeSet String) : Nat → Draw σ (List String)
  | 0 => pure []
  | n + 1 => do
      let name ← drawFresh limit seen
      return name :: (← drawDistinct limit (seen.insert name) n)

end Pool

end QuerySynth
