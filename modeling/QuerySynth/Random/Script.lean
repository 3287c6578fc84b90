import QuerySynth.Random.Source

/-!
# Scripted words

A script answers with given words first and then with a fixed mixing sequence,
so that a run can be steered through chosen draws and still never runs short.
Every draw takes one 64-bit word; a 32-bit draw keeps its low half.
-/

namespace QuerySynth

/-- Given words, and the state of the mixing sequence behind them. -/
structure Script where
  words : List UInt64
  state : UInt64

namespace Script

/-- A script from its beginning. -/
def ofWords (words : List UInt64) : Script := ⟨words, 0⟩

/-- The finalizer of the mixing sequence. -/
def mix (z : UInt64) : UInt64 :=
  let z := (z ^^^ (z >>> 30)) * 0xbf58476d1ce4e5b9
  let z := (z ^^^ (z >>> 27)) * 0x94d049bb133111eb
  z ^^^ (z >>> 31)

/-- The next word. -/
def word64 : Script → UInt64 × Script
  | ⟨w :: rest, state⟩ => (w, ⟨rest, state⟩)
  | ⟨[], state⟩ =>
      let state := state + 0x9e3779b97f4a7c15
      (mix state, ⟨[], state⟩)

/-- The low half of the next word. -/
def word32 (s : Script) : UInt32 × Script :=
  let (w, s) := s.word64
  (w.toUInt32, s)

instance : Generator Script := ⟨word32, word64⟩

end Script

end QuerySynth
