import QuerySynth.Proofs.Random.Reach
import QuerySynth.Proofs.Random.Retry

/-!
# Draws that can always be completed

A draw that never gets stuck: whatever words a run begins with, it has ended by then,
or more words make it end.

* Every finished run is given by the words that it has read.  A run that has not
  finished wants words, and some bring it to an end that leaves none of them over.
* This passes through sequences, also those that stop at an error.
* Retries are one attempt after the other, if every attempt takes a word.  They can be
  completed where an attempt can, and where some words make an attempt succeed: an
  attempt that was refused leaves fewer words for the rest of them.
-/

namespace QuerySynth

namespace Draw

variable {ε α β : Type}

/-- Whatever is on the tape, the draw ends, or it would end with more on the tape. -/
structure Completable (draw : Draw Tape α) : Prop where
  finished : ∀ {s t : Tape} {a : α}, draw.run s = some (a, t) →
    ∃ words, s.words = words ++ t.words ∧ BringsAbout draw words a
  unfinished : ∀ {words : List UInt64}, draw.run ⟨words⟩ = none →
    ∃ more a, BringsAbout draw (words ++ more) a

/-- Every finished run takes a word at least; on a tape, this is `Spends`. -/
def Takes (draw : Draw Tape α) : Prop :=
  ∀ ⦃s t : Tape⦄ ⦃a : α⦄, draw.run s = some (a, t) → t.words.length < s.words.length

namespace Completable

variable {draw : Draw Tape α}

theorem length_le (h : Completable draw) {s t : Tape} {a : α} (hrun : draw.run s = some (a, t)) :
    t.words.length ≤ s.words.length := by
  obtain ⟨words, hwords, -⟩ := h.finished hrun
  rw [hwords, List.length_append]
  omega

theorem exists_run (h : Completable draw) (words : List UInt64) :
    ∃ more a t, draw.run ⟨words ++ more⟩ = some (a, t) := by
  cases hrun : draw.run ⟨words⟩ with
  | none =>
      obtain ⟨more, a, hmore⟩ := h.unfinished hrun
      have hends := hmore []
      rw [List.append_nil] at hends
      exact ⟨more, a, ⟨[]⟩, hends⟩
  | some outcome =>
      obtain ⟨a, t⟩ := outcome
      exact ⟨[], a, t, by rw [List.append_nil, hrun]⟩

end Completable

/-! ## Sequences -/

section Sequences

variable {draw : Draw Tape α} {next : α → Draw Tape β}

theorem completable_pure (a : α) : Completable (pure a : Draw Tape α) where
  finished h := by
    cases h
    exact ⟨[], rfl, bringsAbout_pure a⟩
  unfinished h := by cases h

theorem completable_bind (hdraw : Completable draw)
    (hnext : ∀ a, Yields draw a → Completable (next a)) : Completable (draw >>= next) where
  finished {s u b} h := by
    obtain ⟨a, t, hrun, h⟩ := run_bind_eq_some_iff.mp h
    obtain ⟨front, hs, hfront⟩ := hdraw.finished hrun
    obtain ⟨back, ht, hback⟩ := (hnext a ⟨s, t, hrun⟩).finished h
    exact ⟨front ++ back, by rw [hs, ht, List.append_assoc], bringsAbout_bind hfront hback⟩
  unfinished {words} h := by
    cases hrun : draw.run ⟨words⟩ with
    | some outcome =>
        obtain ⟨a, t⟩ := outcome
        rw [run_bind_of_some hrun] at h
        obtain ⟨front, hs, hfront⟩ := hdraw.finished hrun
        obtain ⟨more, b, hback⟩ := (hnext a ⟨_, t, hrun⟩).unfinished h
        have hwords : words = front ++ t.words := hs
        refine ⟨more, b, ?_⟩
        rw [hwords, List.append_assoc]
        exact bringsAbout_bind hfront hback
    | none =>
        obtain ⟨front, a, hfront⟩ := hdraw.unfinished hrun
        -- the first draw has used up all that there is, so the second begins with nothing
        obtain ⟨back, b, hback⟩ : ∃ back b, BringsAbout (next a) back b := by
          have hcompletable := hnext a ⟨_, _, hfront []⟩
          cases hempty : (next a).run ⟨[]⟩ with
          | none => exact hcompletable.unfinished hempty
          | some outcome =>
              obtain ⟨b, t⟩ := outcome
              obtain ⟨back, -, hback⟩ := hcompletable.finished hempty
              exact ⟨back, b, hback⟩
        refine ⟨front ++ back, b, ?_⟩
        rw [← List.append_assoc]
        exact bringsAbout_bind hfront hback

theorem takes_bind (hdraw : Takes draw) (hnext : ∀ a, Completable (next a)) :
    Takes (draw >>= next) := by
  intro s u b h
  obtain ⟨a, t, hrun, h⟩ := run_bind_eq_some_iff.mp h
  exact Nat.lt_of_le_of_lt ((hnext a).length_le h) (hdraw hrun)

end Sequences

/-! ## Sequences that stop at an error -/

section Errors

variable {draw : ExceptT ε (Draw Tape) α} {next : α → ExceptT ε (Draw Tape) β}

theorem completable_lift {draw : Draw Tape α} (h : Completable draw) :
    Completable (ExceptT.lift draw : ExceptT ε (Draw Tape) α).run :=
  completable_bind h fun a _ => completable_pure (Except.ok a)

theorem completable_bind_run (hdraw : Completable draw.run)
    (hnext : ∀ a, Completable (next a).run) : Completable (draw >>= next).run := by
  refine completable_bind hdraw fun outcome _ => ?_
  cases outcome with
  | ok a => exact hnext a
  | error e => exact completable_pure (Except.error e)

end Errors

/-! ## Retries -/

section Retries

variable {attempt : Draw Tape (Option α)}

/-- What follows an attempt. -/
def settle (attempt : Draw Tape (Option α)) : Option α → Draw Tape α
  | some a => pure a
  | none => retry attempt

/-- The rounds are never used up: retries go on as long as there are words. -/
theorem retry_eq_bind (htakes : Takes attempt) : retry attempt = attempt >>= settle attempt := by
  have hspends : Spends attempt := htakes
  funext s
  show (retry attempt).run s = (attempt >>= settle attempt).run s
  cases hrun : attempt.run s with
  | none => rw [run_retry_of_none hspends hrun, run_bind_of_none hrun]
  | some outcome =>
      obtain ⟨found, t⟩ := outcome
      rw [run_bind_of_some hrun]
      cases found with
      | some a => exact run_retry_of_accepted hspends hrun
      | none => exact run_retry_of_refused hspends hrun

theorem bringsAbout_retry_of_accepted (htakes : Takes attempt) {words : List UInt64} {a : α}
    (h : BringsAbout attempt words (some a)) : BringsAbout (retry attempt) words a := by
  rw [retry_eq_bind htakes, ← List.append_nil words]
  exact bringsAbout_bind h (bringsAbout_pure a)

theorem bringsAbout_retry_of_refused (htakes : Takes attempt) {front back : List UInt64} {a : α}
    (hfront : BringsAbout attempt front none) (hback : BringsAbout (retry attempt) back a) :
    BringsAbout (retry attempt) (front ++ back) a := by
  rw [retry_eq_bind htakes]
  exact bringsAbout_bind hfront hback

/-- Both inductions are on the number of words: an attempt that is refused leaves fewer of
them. -/
theorem completable_retry (htakes : Takes attempt) (hattempt : Completable attempt) {b : α}
    (haccepted : Reaches attempt (some b)) : Completable (retry attempt) where
  finished {s t a} h := by
    induction hn : s.words.length using Nat.strongRecOn generalizing s with
    | ind n ih =>
      rw [retry_eq_bind htakes] at h
      obtain ⟨found, u, hrun, h⟩ := run_bind_eq_some_iff.mp h
      obtain ⟨front, hs, hfront⟩ := hattempt.finished hrun
      cases found with
      | some b =>
          cases h
          exact ⟨front, hs, bringsAbout_retry_of_accepted htakes hfront⟩
      | none =>
          obtain ⟨back, hu, hback⟩ := ih u.words.length (hn ▸ htakes hrun) h rfl
          refine ⟨front ++ back, by rw [hs, hu, List.append_assoc], ?_⟩
          exact bringsAbout_retry_of_refused htakes hfront hback
  unfinished {words} h := by
    induction hn : words.length using Nat.strongRecOn generalizing words with
    | ind n ih =>
      cases hrun : attempt.run ⟨words⟩ with
      | none =>
          obtain ⟨front, found, hfront⟩ := hattempt.unfinished hrun
          cases found with
          | some a => exact ⟨front, a, bringsAbout_retry_of_accepted htakes hfront⟩
          | none =>
              obtain ⟨back, hback⟩ := haccepted
              refine ⟨front ++ back, b, ?_⟩
              rw [← List.append_assoc]
              exact bringsAbout_retry_of_refused htakes hfront
                (bringsAbout_retry_of_accepted htakes hback)
      | some outcome =>
          obtain ⟨found, t⟩ := outcome
          rw [retry_eq_bind htakes, run_bind_of_some hrun] at h
          cases found with
          | some a => cases h
          | none =>
              obtain ⟨front, hs, hfront⟩ := hattempt.finished hrun
              obtain ⟨more, a, hmore⟩ := ih t.words.length (hn ▸ htakes hrun) h rfl
              have hwords : words = front ++ t.words := hs
              refine ⟨more, a, ?_⟩
              rw [hwords, List.append_assoc]
              exact bringsAbout_retry_of_refused htakes hfront hmore

theorem takes_retry (htakes : Takes attempt) (hcompletable : Completable (retry attempt)) :
    Takes (retry attempt) := by
  rw [retry_eq_bind htakes]
  refine takes_bind htakes fun found => ?_
  cases found with
  | some a => exact completable_pure a
  | none => exact hcompletable

end Retries

/-! ## Words and numbers -/

theorem completable_next {read : UInt64 → Nat} {draw : Draw Tape Nat}
    (hcons : ∀ word words, draw.run ⟨word :: words⟩ = some (read word, ⟨words⟩))
    (hnil : draw.run ⟨[]⟩ = none) : Completable draw where
  finished {s t w} h := by
    obtain ⟨words⟩ := s
    cases words with
    | nil => cases hnil.symm.trans h
    | cons word words =>
        cases (hcons word words).symm.trans h
        exact ⟨[word], rfl, hcons word⟩
  unfinished {words} h := by
    cases words with
    | nil => exact ⟨[0], read 0, hcons 0⟩
    | cons word words => cases (hcons word words).symm.trans h

theorem word32_spec : Takes (word32 : Draw Tape Nat) ∧ Completable (word32 : Draw Tape Nat) :=
  ⟨spends_word32, completable_next (fun _ _ => rfl) rfl⟩

theorem word64_spec : Takes (word64 : Draw Tape Nat) ∧ Completable (word64 : Draw Tape Nat) :=
  ⟨spends_word64, completable_next (fun _ _ => rfl) rfl⟩

theorem scaled_spec {bits n zone : Nat} {word : Draw Tape Nat}
    (hword : Takes word ∧ Completable word) (hzero : Reaches word 0) :
    Takes (scaled bits n zone word) ∧ Completable (scaled bits n zone word) := by
  have htakes := takes_bind hword.1 fun w => completable_pure (scale? bits n zone w)
  have hattempt := completable_bind hword.2 fun w _ => completable_pure (scale? bits n zone w)
  -- the word zero passes the test, whatever the bound
  have haccepted : Reaches (do return scale? bits n zone (← word)) (some 0) :=
    reaches_bind hzero (by rw [scale?_zero]; exact reaches_pure _)
  have hretry := completable_retry htakes hattempt haccepted
  exact ⟨takes_retry htakes hretry, hretry⟩

theorem below64_spec (n : Nat) :
    Takes (below64 n : Draw Tape Nat) ∧ Completable (below64 n : Draw Tape Nat) := by
  unfold below64
  split
  · exact word64_spec
  · exact scaled_spec word64_spec (reaches_word64 (by decide))

theorem evenBelow64_spec (n : Nat) :
    Takes (evenBelow64 n : Draw Tape Nat) ∧ Completable (evenBelow64 n : Draw Tape Nat) :=
  scaled_spec word64_spec (reaches_word64 (by decide))

theorem place_spec (length : Nat) :
    Takes (place length : Draw Tape Nat) ∧ Completable (place length : Draw Tape Nat) := by
  unfold place
  split
  · exact scaled_spec word32_spec (reaches_word32 (by decide))
  · exact below64_spec length

end Draw

/-! ## Choices -/

namespace Choose

open Draw

variable {α : Type}

theorem completable_inRange (found : Option α) :
    Completable (inRange found : Choose Tape α).run := by
  cases found with
  | none => exact completable_pure (Except.error ChoiceError.outOfRange)
  | some a => exact completable_pure (Except.ok a)

theorem completable_weighted (group : String) (options : Options α) :
    Completable (weighted group options : Choose Tape α).run := by
  by_cases htotal : 0 < options.total
  · rw [weighted_eq_bind htotal]
    exact completable_bind_run (completable_lift (evenBelow64_spec _).2) fun drawn =>
      completable_inRange _
  · have hnone := options.total_eq_zero_iff.mp (Nat.eq_zero_of_not_pos htotal)
    have hrun : (weighted group options : Choose Tape α).run =
        pure (.error (.zeroWeights group)) := funext (run_weighted_of_not_possible hnone)
    rw [hrun]
    exact completable_pure _

theorem completable_uniform (what : String) (items : List α) :
    Completable (uniform what items : Choose Tape α).run := by
  by_cases hempty : items = []
  · rw [hempty]
    exact completable_pure (Except.error (ChoiceError.emptyCandidates what))
  · rw [uniform_eq_bind hempty]
    exact completable_bind_run (completable_lift (place_spec _).2) fun drawn =>
      completable_inRange _

end Choose

end QuerySynth
