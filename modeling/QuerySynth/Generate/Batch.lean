import QuerySynth.Generate.Query

/-!
# Batches

A batch is the run of numbered queries that fills one file.  It ends early when
a query cannot be drawn, or when the place it is written to has no room left;
queries written before stay written.
-/

namespace QuerySynth

/-- Why a batch ended early. -/
inductive BatchStop where
  /-- The query with this number could not be drawn. -/
  | undrawable (index : Nat) (cause : ChoiceError)
  /-- This text did not fit any more. -/
  | full (text : String)
  deriving DecidableEq, Repr

/-- The text shown for a batch that ended early. -/
def BatchStop.message : BatchStop → String
  | .undrawable index _ => "query " ++ index.repr ++ " could not be generated"
  | .full _ => "write failed"

/-- The texts of the queries written, and why there are no more of them. -/
structure Batch where
  texts : List String
  stop : Option BatchStop
  deriving DecidableEq, Repr

namespace Batch

/-- The batch with a text in front. -/
def cons (text : String) (batch : Batch) : Batch := ⟨text :: batch.texts, batch.stop⟩

/-- The complete queries. -/
def text (batch : Batch) : String := String.join batch.texts

/-- The bytes that a place with limited room has taken. -/
def bytes (batch : Batch) (room : Option Nat) : ByteArray :=
  let offered := batch.text ++
    match batch.stop with
    | some (.full text) => text
    | _ => ""
  match room with
  | some room => offered.toUTF8.extract 0 room
  | none => offered.toUTF8

end Batch

namespace Setup

variable {σ : Type} [WordSource σ]

/-- Writes `n` more queries from number `index` on, into the given room. -/
def writeFrom (setup : Setup) (room : Option Nat) (index : Nat) : Nat → Draw σ Batch
  | 0 => return ⟨[], none⟩
  | n + 1 => do
      match ← (setup.drawQuery index).run with
      | .error cause => return ⟨[], some (.undrawable index cause)⟩
      | .ok query =>
          let text := query.render
          if room.any (· < text.utf8ByteSize) then
            return ⟨[], some (.full text)⟩
          let rest ← setup.writeFrom (room.map (· - text.utf8ByteSize)) (index + 1) n
          return rest.cons text

/-- Writes the queries of one file, numbered from one. -/
def write (setup : Setup) (room : Option Nat) : Draw σ Batch :=
  setup.writeFrom room 1 setup.config.numQueries.toNat

end Setup

end QuerySynth
