/-!
# Sources of random words

All choices of the synthesizer are made from words handed out by a source.  A
source may run dry, and a computation that needs a word from a dry source has
no result; nothing else can stop a draw.  `left` bounds the words still to
come, so a loop that draws a word in every round ends.

A computation that draws is a `Draw`; one that may also fail for a reason of
its own is an `ExceptT` over it, which keeps the source after a failure.
-/

namespace QuerySynth

/-- A finite supply of random words of two widths. -/
class WordSource (σ : Type) where
  /-- The next 32-bit word and the source after it. -/
  next32? : σ → Option (UInt32 × σ)
  /-- The next 64-bit word and the source after it. -/
  next64? : σ → Option (UInt64 × σ)
  /-- A bound on the number of words still to come. -/
  left : σ → Nat
  left_next32? : ∀ {s t : σ} {w : UInt32}, next32? s = some (w, t) → left t < left s
  left_next64? : ∀ {s t : σ} {w : UInt64}, next64? s = some (w, t) → left t < left s

/-- A machine that answers with a word whenever it is asked. -/
class Generator (σ : Type) where
  /-- The next 32-bit word and the machine after it. -/
  word32 : σ → UInt32 × σ
  /-- The next 64-bit word and the machine after it. -/
  word64 : σ → UInt64 × σ

/-- A generator that may be asked for `left` more words. -/
structure Metered (σ : Type) where
  machine : σ
  left : Nat

namespace Metered

variable {σ : Type}

/-- One more answer, unless the allowance is used up. -/
def ask {α : Type} (answer : σ → α × σ) : Metered σ → Option (α × Metered σ)
  | ⟨_, 0⟩ => none
  | ⟨machine, left + 1⟩ =>
      let (a, next) := answer machine
      some (a, ⟨next, left⟩)

theorem left_ask {α : Type} {answer : σ → α × σ} {s t : Metered σ} {a : α}
    (h : ask answer s = some (a, t)) : t.left < s.left := by
  obtain ⟨machine, left⟩ := s
  cases left with
  | zero => simp [ask] at h
  | succ left =>
      simp only [ask, Option.some.injEq, Prod.mk.injEq] at h
      simp [← h.2]

instance [Generator σ] : WordSource (Metered σ) where
  next32? := ask Generator.word32
  next64? := ask Generator.word64
  left := Metered.left
  left_next32? := left_ask
  left_next64? := left_ask

end Metered

/-- A written-out sequence of words; a 32-bit draw takes a word and keeps its
low half. -/
structure Tape where
  words : List UInt64

namespace Tape

/-- Takes one word off the tape. -/
def next? {α : Type} (read : UInt64 → α) : Tape → Option (α × Tape)
  | ⟨[]⟩ => none
  | ⟨w :: rest⟩ => some (read w, ⟨rest⟩)

theorem length_next? {α : Type} {read : UInt64 → α} {s t : Tape} {a : α}
    (h : next? read s = some (a, t)) : t.words.length < s.words.length := by
  obtain ⟨words⟩ := s
  cases words with
  | nil => simp [next?] at h
  | cons w rest =>
      simp only [next?, Option.some.injEq, Prod.mk.injEq] at h
      simp [← h.2]

instance : WordSource Tape where
  next32? := next? UInt64.toUInt32
  next64? := next? id
  left s := s.words.length
  left_next32? := length_next?
  left_next64? := length_next?

end Tape

/-- A computation that takes words from a source. -/
abbrev Draw (σ : Type) : Type → Type := StateT σ Option

namespace Draw

variable {σ : Type} {α : Type}

/-- The next 32-bit word, as a number. -/
def word32 [WordSource σ] : Draw σ Nat := fun s =>
  (WordSource.next32? s).map fun (w, t) => (w.toNat, t)

/-- The next 64-bit word, as a number. -/
def word64 [WordSource σ] : Draw σ Nat := fun s =>
  (WordSource.next64? s).map fun (w, t) => (w.toNat, t)

/-- Repeats an attempt until it yields a value, at most the given number of
times. -/
def retryUpTo (attempt : Draw σ (Option α)) : Nat → Draw σ α
  | 0 => failure
  | n + 1 => do
      match ← attempt with
      | some a => pure a
      | none => retryUpTo attempt n

/-- Repeats an attempt until it yields a value.  An attempt takes at least one
word, so there is no need for more rounds than there are words. -/
def retry [WordSource σ] (attempt : Draw σ (Option α)) : Draw σ α := fun s =>
  retryUpTo attempt (WordSource.left s) s

end Draw

end QuerySynth
