import QuerySynth.Generate.Batch
import QuerySynth.Proofs.Generate.Query
import QuerySynth.Proofs.Random.Run

/-!
# Queries in a row

The queries of a file are drawn one after the other, and the files one after the
other from the words that are left.  `Draws` and `Fills` follow both loops as far
as queries can be drawn.

* Queries drawn in a row are numbered in a row.
* A batch writes the queries that are drawn, and then stops where a query cannot be
  drawn, or has no result where the words run out.
* Every loop gets to its end, to a query that cannot be drawn, or to the end of the
  words.
-/

namespace QuerySynth

/-- The text of a file of queries. -/
def fileText (queries : List Query) : String := String.join (queries.map Query.render)

namespace Setup

open Draw

variable {σ : Type} [WordSource σ]

/-- Queries drawn one after the other, numbered from `index` on, with the words before
and behind them. -/
inductive Draws (setup : Setup) : Nat → σ → List Query → σ → Prop
  | nil (index : Nat) (s : σ) : Draws setup index s [] s
  | cons {index : Nat} {s t u : σ} {query : Query} {queries : List Query}
      (hquery : (setup.drawQuery index).run s = some (.ok query, t))
      (hrest : Draws setup (index + 1) t queries u) : Draws setup index s (query :: queries) u

/-- Files of queries drawn one after the other, each with as many queries as the
configuration asks for, numbered from one on. -/
inductive Fills (setup : Setup) : σ → List (List Query) → σ → Prop
  | nil (s : σ) : Fills setup s [] s
  | cons {s t u : σ} {queries : List Query} {files : List (List Query)}
      (hqueries : setup.Draws 1 s queries t)
      (hnumbers : queries.map Query.index = List.range' 1 setup.config.numQueries.toNat)
      (hrest : Fills setup t files u) : Fills setup s (queries :: files) u

variable {setup : Setup} {s t u : σ} {index n : Nat} {queries : List Query}
  {files : List (List Query)}

/-! ## Queries of a file -/

theorem Draws.map_index (h : setup.Draws index s queries t) :
    queries.map Query.index = List.range' index queries.length := by
  induction h with
  | nil => rfl
  | cons hquery _ ih =>
      have hindex := (succeeds_drawQuery (succeeds_of_run hquery)).1
      rw [List.map_cons, hindex, ih, List.length_cons, List.range'_succ]

theorem length_eq_of_map_index (h : queries.map Query.index = List.range' index n) :
    queries.length = n := by
  have hlength := congrArg List.length h
  rwa [List.length_map, List.length_range'] at hlength

theorem run_writeFrom_of_ok {query : Query}
    (h : (setup.drawQuery index).run s = some (.ok query, t)) :
    (setup.writeFrom none index (n + 1)).run s =
      ((setup.writeFrom none (index + 1) n).run t).map
        fun (batch, u) => (batch.cons query.render, u) := by
  refine (run_bind_of_some h).trans ?_
  cases hrest : (setup.writeFrom none (index + 1) n).run t with
  | none => exact run_bind_of_none hrest
  | some outcome => exact run_bind_of_some hrest

theorem run_writeFrom_of_error {cause : ChoiceError}
    (h : (setup.drawQuery index).run s = some (.error cause, t)) :
    (setup.writeFrom none index (n + 1)).run s =
      some (⟨[], some (.undrawable index cause)⟩, t) :=
  run_bind_of_some h

theorem run_writeFrom_of_none (h : (setup.drawQuery index).run s = none) :
    (setup.writeFrom none index (n + 1)).run s = none :=
  run_bind_of_none h

/-- A batch starts with the queries drawn. -/
theorem Draws.run_writeFrom (h : setup.Draws index s queries t) (n : Nat) :
    (setup.writeFrom none index (queries.length + n)).run s =
      ((setup.writeFrom none (index + queries.length) n).run t).map
        fun (batch, u) => (⟨queries.map Query.render ++ batch.texts, batch.stop⟩, u) := by
  induction h with
  | nil index s =>
      rw [List.length_nil, Nat.zero_add, Nat.add_zero]
      exact (Option.map_id' ..).symm
  | @cons index s t u query queries hquery hrest ih =>
      have hlength : (query :: queries).length + n = queries.length + n + 1 := by
        rw [List.length_cons]
        omega
      have hindex : index + (query :: queries).length = index + 1 + queries.length := by
        rw [List.length_cons]
        omega
      rw [hlength, hindex, run_writeFrom_of_ok hquery, ih, Option.map_map]
      rfl

/-- As many queries are drawn as are asked for, or as many as can be drawn. -/
theorem exists_draws (setup : Setup) (index n : Nat) (s : σ) :
    ∃ queries t, setup.Draws index s queries t ∧
      (queries.length = n ∨ queries.length < n ∧
        ∀ query u, (setup.drawQuery (index + queries.length)).run t ≠ some (.ok query, u)) := by
  induction n generalizing index s with
  | zero => exact ⟨[], s, .nil index s, .inl rfl⟩
  | succ n ih =>
      by_cases hstuck : ∃ query t, (setup.drawQuery index).run s = some (.ok query, t)
      · obtain ⟨query, t, hquery⟩ := hstuck
        obtain ⟨queries, u, hrest, hend⟩ := ih (index + 1) t
        refine ⟨query :: queries, u, .cons hquery hrest, ?_⟩
        have hindex : index + (query :: queries).length = index + 1 + queries.length := by
          rw [List.length_cons]
          omega
        rw [hindex, List.length_cons, Nat.add_right_cancel_iff, Nat.add_lt_add_iff_right]
        exact hend
      · refine ⟨[], s, .nil index s, .inr ⟨Nat.succ_pos n, ?_⟩⟩
        exact fun query u h => hstuck ⟨query, u, h⟩

/-! ## Batches -/

theorem Draws.run_write (h : setup.Draws 1 s queries t)
    (hlength : queries.length = setup.config.numQueries.toNat) :
    (setup.write none).run s = some (⟨queries.map Query.render, none⟩, t) := by
  have hrun := h.run_writeFrom 0
  rw [Nat.add_zero, hlength] at hrun
  refine hrun.trans ?_
  simp [writeFrom]

theorem Draws.run_write_of_error {cause : ChoiceError} (h : setup.Draws 1 s queries t)
    (hlength : queries.length < setup.config.numQueries.toNat)
    (hcause : (setup.drawQuery (queries.length + 1)).run t = some (.error cause, u)) :
    (setup.write none).run s =
      some (⟨queries.map Query.render, some (.undrawable (queries.length + 1) cause)⟩, u) := by
  obtain ⟨n, hn⟩ := Nat.exists_eq_add_of_lt hlength
  rw [Nat.add_comm queries.length 1] at hcause ⊢
  rw [write, hn, Nat.add_assoc, h.run_writeFrom, run_writeFrom_of_error hcause, Option.map_some]
  simp only [List.append_nil]

theorem Draws.run_write_of_none (h : setup.Draws 1 s queries t)
    (hlength : queries.length < setup.config.numQueries.toNat)
    (hwords : (setup.drawQuery (queries.length + 1)).run t = none) :
    (setup.write none).run s = none := by
  obtain ⟨n, hn⟩ := Nat.exists_eq_add_of_lt hlength
  rw [Nat.add_comm queries.length 1] at hwords
  rw [write, hn, Nat.add_assoc, h.run_writeFrom, run_writeFrom_of_none hwords, Option.map_none]

/-- A batch that comes to its end is made of as many drawn queries as were asked for,
and they fit into the room. -/
theorem exists_draws_of_writeFrom {room : Option Nat} {batch : Batch}
    (h : (setup.writeFrom room index n).run s = some (batch, t)) (hstop : batch.stop = none) :
    ∃ queries, setup.Draws index s queries t ∧ queries.length = n ∧
      batch.texts = queries.map Query.render ∧
      ∀ limit ∈ room, batch.text.utf8ByteSize ≤ limit := by
  induction n generalizing room index s batch with
  | zero =>
      cases h
      exact ⟨[], .nil index _, rfl, rfl, fun limit _ => Nat.zero_le limit⟩
  | succ n ih =>
      obtain ⟨outcome, u, hquery, h⟩ := run_bind_eq_some_iff.mp h
      cases outcome with
      | error cause =>
          cases h
          cases hstop
      | ok query =>
          by_cases hfull : room.any (· < query.render.utf8ByteSize) = true
          · simp only [hfull, if_true] at h
            cases h
            cases hstop
          · simp only [hfull] at h
            obtain ⟨rest, v, hrest, h⟩ := run_bind_eq_some_iff.mp h
            cases h
            obtain ⟨queries, hqueries, rfl, htexts, hroom⟩ := ih hrest hstop
            refine ⟨query :: queries, .cons hquery hqueries, rfl,
              congrArg (query.render :: ·) htexts, ?_⟩
            rintro limit rfl
            -- the text in front fits, and the others into what it leaves
            have hfits : query.render.utf8ByteSize ≤ limit := by simpa using hfull
            have hrest := hroom (limit - query.render.utf8ByteSize) rfl
            have htext : (rest.cons query.render).text = query.render ++ rest.text :=
              String.join_cons
            rw [htext, String.utf8ByteSize_append]
            omega

/-! ## Files of a run -/

/-- As many files are filled as are asked for, or as many as can be filled. -/
theorem exists_fills (setup : Setup) (n : Nat) (s : σ) :
    ∃ files t, setup.Fills s files t ∧
      (files.length = n ∨ files.length < n ∧
        ∃ queries u, setup.Draws 1 t queries u ∧
          queries.length < setup.config.numQueries.toNat ∧
          ∀ query v, (setup.drawQuery (queries.length + 1)).run u ≠ some (.ok query, v)) := by
  induction n generalizing s with
  | zero => exact ⟨[], s, .nil s, .inl rfl⟩
  | succ n ih =>
      obtain ⟨queries, t, hqueries, hlength | hstuck⟩ :=
        exists_draws setup 1 setup.config.numQueries.toNat s
      · obtain ⟨files, u, hrest, hend⟩ := ih t
        have hnumbers := hqueries.map_index
        rw [hlength] at hnumbers
        refine ⟨queries :: files, u, .cons hqueries hnumbers hrest, ?_⟩
        rw [List.length_cons, Nat.add_right_cancel_iff, Nat.add_lt_add_iff_right]
        exact hend
      · rw [Nat.add_comm 1] at hstuck
        exact ⟨[], s, .nil s, .inr ⟨Nat.succ_pos n, queries, t, hqueries, hstuck⟩⟩

end Setup

end QuerySynth
