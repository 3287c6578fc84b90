import QuerySynth.Proofs.Reading.Line

/-!
# The normal form of declaration lines

What is read from a line can be written again with one group for every synonym, and that
line is read as the same.

* A list is read from some line exactly if all of its texts are readable: solid, and
  without separators.
* A line is read group by group.  Nothing is carried from one group to the next, so two
  lines with a semicolon between them are read one after the other, and the first fault
  is the one that is told.
-/

namespace QuerySynth.Declarations

open Text

/-- The group of one synonym: keyword, text, semicolon and space. -/
def writePair (pair : Kind × String) : String := pair.1.keyword ++ " " ++ pair.2 ++ "; "

/-- The line with a group for every synonym. -/
def writePairs (pairs : List (Kind × String)) : String := String.join (pairs.map writePair)

variable {pairs : List (Kind × String)}

theorem writePairs_cons (pair : Kind × String) (pairs : List (Kind × String)) :
    (writePairs (pair :: pairs)).toList =
      pair.1.keyword.toList ++ ' ' :: pair.2.toList ++ ';' :: ' ' :: (writePairs pairs).toList := by
  simp [writePairs, writePair]

/-- The group of a readable text is read back. -/
theorem readGroups_single (kind : Kind) {text : String} (h : Readable text) :
    readGroups (kind.keyword.toList ++ ' ' :: text.toList) = .ok [(kind, text)] := by
  have hgroup := readGroups_group kind (List.cons_ne_nil text [])
    (List.forall_mem_singleton.mpr h)
  rwa [List.map_singleton, List.intercalate_singleton] at hgroup

theorem readGroups_writePairs (h : ∀ pair ∈ pairs, Readable pair.2) :
    readGroups (writePairs pairs).toList = .ok pairs := by
  induction pairs with
  | nil => rfl
  | cons pair pairs ih =>
      obtain ⟨hpair, hpairs⟩ := List.forall_mem_cons.mp h
      rw [writePairs_cons, readGroups_append, readGroups_cons_space,
        readGroups_single pair.1 hpair, ih hpairs]
      rfl

/-- The lists that are read from lines are those of readable texts. -/
theorem exists_readLine_eq_ok_iff :
    (∃ line, readLine line = .ok pairs) ↔ ∀ pair ∈ pairs, Readable pair.2 := by
  constructor
  · rintro ⟨line, hline⟩
    exact readable_of_readGroups hline
  · exact fun h => ⟨writePairs pairs, readGroups_writePairs h⟩

/-- What is read of two lines with a semicolon between them. -/
def readBoth (front back : Except DeclarationError (List (Kind × String))) :
    Except DeclarationError (List (Kind × String)) :=
  match front, back with
  | .ok first, .ok second => .ok (first ++ second)
  | .ok _, .error e => .error e
  | .error e, _ => .error e

theorem readLine_append (a b : String) :
    readLine (a ++ ";" ++ b) = readBoth (readLine a) (readLine b) := by
  have hline : (a ++ ";" ++ b).toList = a.toList ++ ';' :: b.toList := by simp
  rw [readLine_eq, readLine_eq, readLine_eq, hline, readGroups_append]
  cases readGroups a.toList with
  | error e => rfl
  | ok first =>
      cases readGroups b.toList with
      | error e => rfl
      | ok second => rfl

/-- What is read from a line is readable and is read again from its normal form, and a
line that is put together from two is read as the one and then the other. -/
theorem readLine_normalForm :
    (∀ line pairs, readLine line = .ok pairs →
      (∀ pair ∈ pairs, Readable pair.2) ∧ readLine (writePairs pairs) = .ok pairs) ∧
    ∀ a b : String, readLine (a ++ ";" ++ b) = readBoth (readLine a) (readLine b) := by
  refine ⟨?_, readLine_append⟩
  intro line pairs hline
  have hreadable := exists_readLine_eq_ok_iff.mp ⟨line, hline⟩
  exact ⟨hreadable, readGroups_writePairs hreadable⟩

/-- A line with blanks of several kinds, and a blank group. -/
theorem readLine_loose_normalForm :
    readLine "stmt\t s1 ,\u3000s b;; if\u2003i " =
        .ok [(.stmt, "s1"), (.stmt, "s b"), (.ifStmt, "i")] ∧
      writePairs [(.stmt, "s1"), (.stmt, "s b"), (.ifStmt, "i")] =
        "stmt s1; stmt s b; if i; " ∧
      readLine "stmt s1; stmt s b; if i; " =
        .ok [(.stmt, "s1"), (.stmt, "s b"), (.ifStmt, "i")] := by
  have hloose : readLine "stmt\t s1 ,\u3000s b;; if\u2003i " =
      .ok [(.stmt, "s1"), (.stmt, "s b"), (.ifStmt, "i")] := by rfl
  have hwritten : writePairs [(.stmt, "s1"), (.stmt, "s b"), (.ifStmt, "i")] =
      "stmt s1; stmt s b; if i; " := by rfl
  refine ⟨hloose, hwritten, ?_⟩
  rw [← hwritten]
  exact (readLine_normalForm.1 _ _ hloose).2

end QuerySynth.Declarations
