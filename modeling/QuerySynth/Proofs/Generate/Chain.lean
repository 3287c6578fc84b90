import QuerySynth.Generate.Chain
import QuerySynth.Proofs.Random.Run

/-!
# The steps of a chain

A chain is told step by step: calls of the generator and coins, in the order in
which they take words from the source.

* A finished chain is known by its steps.  They are the calls that gave its
  elements, with a coin before each but the first, and one coin more where the
  limit leaves room.
* A failed chain is known by the elements before the failure.  The limit does not
  show in its steps.
* Under a smaller limit the steps of a finished chain are cut short, and those of
  a failed chain are the same.
-/

namespace QuerySynth

/-- What a chain does with its source. -/
inductive ChainStep (α : Type) where
  /-- The generator is called, with this outcome. -/
  | call (outcome : Except ChoiceError α)
  /-- A coin with this chance is thrown for another element. -/
  | coin (chance : Float) (more : Bool)

namespace ChainStep

variable {σ α : Type}

/-- The outcome of a call. -/
def call? : ChainStep α → Option (Except ChoiceError α)
  | call outcome => some outcome
  | coin _ _ => none

variable [WordSource σ] {next : Choose σ α}

/-- The step takes one state of the source to the other. -/
def Leads (next : Choose σ α) : ChainStep α → σ → σ → Prop
  | call outcome, s, t => next.run s = some (outcome, t)
  | coin chance more, s, t => (Draw.coin chance).run s = some (more, t)

/-- The steps, one after the other, take one state of the source to the other. -/
def Replays (next : Choose σ α) : List (ChainStep α) → σ → σ → Prop
  | [], s, t => s = t
  | step :: steps, s, u => ∃ t, step.Leads next s t ∧ Replays next steps t u

theorem replays_append {front back : List (ChainStep α)} {s u : σ} :
    Replays next (front ++ back) s u ↔ ∃ t, Replays next front s t ∧ Replays next back t u := by
  induction front generalizing s with
  | nil => simp [Replays]
  | cons step front ih =>
      simp only [List.cons_append, Replays, ih]
      constructor
      · rintro ⟨r, hstep, t, hfront, hback⟩
        exact ⟨t, ⟨r, hstep, hfront⟩, hback⟩
      · rintro ⟨t, ⟨r, hstep, hfront⟩, hback⟩
        exact ⟨r, hstep, t, hfront, hback⟩

end ChainStep

namespace ChainPolicy

open ChainStep Draw

variable {σ α : Type}

/-! ## What the steps are -/

/-- The steps that add these elements, with room for `n`.  Where room is left the
last coin says no; where none is left there is no last coin. -/
def growth (decay chance : Float) : Nat → List α → List (ChainStep α)
  | 0, _ => []
  | _ + 1, [] => [.coin chance false]
  | n + 1, a :: rest =>
      .coin chance true :: .call (.ok a) :: growth decay (clamp (chance * decay)) n rest

/-- The steps that add these elements and go on to the call for another. -/
def approach (decay chance : Float) : List α → List (ChainStep α)
  | [] => [.coin chance true]
  | a :: rest => .coin chance true :: .call (.ok a) :: approach decay (clamp (chance * decay)) rest

/-- The steps of a chain of these elements. -/
def steps (policy : ChainPolicy) : List α → List (ChainStep α)
  | [] => []
  | a :: rest => .call (.ok a) :: growth policy.decay 0.5 policy.limit rest

/-- The steps of a chain that goes on to a call behind these elements. -/
def stepsTo (policy : ChainPolicy) : List α → List (ChainStep α)
  | [] => []
  | a :: rest => .call (.ok a) :: approach policy.decay 0.5 rest

theorem growth_take_initial (decay chance : Float) {n m : Nat} (hle : n ≤ m) (elements : List α) :
    growth decay chance n (elements.take n) <+: growth decay chance m elements := by
  induction n generalizing chance m elements with
  | zero => exact List.nil_prefix
  | succ n ih =>
      obtain ⟨m, rfl⟩ := Nat.exists_eq_add_one_of_ne_zero (Nat.ne_zero_of_lt hle)
      cases elements with
      | nil => exact List.prefix_refl _
      | cons a rest =>
          have hrest := ih (clamp (chance * decay)) (Nat.le_of_succ_le_succ hle) rest
          exact (List.prefix_cons_inj _).mpr ((List.prefix_cons_inj _).mpr hrest)

/-- The elements are the outcomes of the calls, one call for each and in order. -/
theorem calls_growth (decay chance : Float) {n : Nat} {elements : List α}
    (hlength : elements.length ≤ n) :
    (growth decay chance n elements).filterMap call? = elements.map .ok := by
  induction n generalizing chance elements with
  | zero => simp [growth, List.length_eq_zero_iff.mp (Nat.le_zero.mp hlength)]
  | succ n ih =>
      cases elements with
      | nil => rfl
      | cons a rest =>
          simp [growth, List.filterMap_cons, call?,
            ih (clamp (chance * decay)) (Nat.le_of_succ_le_succ hlength)]

theorem calls_approach (decay chance : Float) (elements : List α) :
    (approach decay chance elements).filterMap call? = elements.map .ok := by
  induction elements generalizing chance with
  | nil => rfl
  | cons a rest ih => simp [approach, List.filterMap_cons, call?, ih]

/-- Nothing is done behind the call that fills the room. -/
theorem eq_nil_of_growth_eq_append {decay chance : Float} {n : Nat} {elements : List α}
    {front back : List (ChainStep α)} (h : growth decay chance n elements = front ++ back)
    (hcalls : (front.filterMap call?).length = n) : back = [] := by
  induction n generalizing chance elements front with
  | zero => exact (List.append_eq_nil_iff.mp h.symm).2
  | succ n ih =>
      -- a call stands behind its coin, so the front has at least these two
      cases front with
      | nil => cases hcalls
      | cons _ front =>
          cases elements with
          | nil =>
              obtain ⟨rfl, hrest⟩ := List.cons.inj h
              exact (List.append_eq_nil_iff.mp hrest.symm).2
          | cons a rest =>
              obtain ⟨rfl, hrest⟩ := List.cons.inj h
              cases front with
              | nil => cases hcalls
              | cons _ front =>
                  obtain ⟨rfl, hgrowth⟩ := List.cons.inj hrest
                  exact ih hgrowth (Nat.succ.inj hcalls)

theorem steps_take_initial (decay : Float) {limit larger : Nat} (hle : limit ≤ larger)
    (elements : List α) :
    steps ⟨limit, decay⟩ (elements.take (limit + 1)) <+: steps ⟨larger, decay⟩ elements := by
  cases elements with
  | nil => exact List.prefix_refl _
  | cons a rest => exact (List.prefix_cons_inj _).mpr (growth_take_initial decay 0.5 hle rest)

theorem calls_steps {policy : ChainPolicy} {elements : List α}
    (hlength : elements.length ≤ policy.limit + 1) :
    (policy.steps elements).filterMap call? = elements.map .ok := by
  cases elements with
  | nil => rfl
  | cons a rest =>
      simp [steps, call?,
        calls_growth policy.decay 0.5 (Nat.le_of_succ_le_succ hlength)]

theorem calls_stepsTo (policy : ChainPolicy) (elements : List α) :
    (policy.stepsTo elements).filterMap call? = elements.map .ok := by
  cases elements with
  | nil => rfl
  | cons a rest => simp [stepsTo, call?, calls_approach]

theorem eq_nil_of_steps_eq_append {policy : ChainPolicy} {elements : List α}
    {front back : List (ChainStep α)} (h : policy.steps elements = front ++ back)
    (hcalls : (front.filterMap call?).length = policy.limit + 1) : back = [] := by
  cases front with
  | nil => cases hcalls
  | cons _ front =>
      cases elements with
      | nil => cases h
      | cons a rest =>
          obtain ⟨rfl, hgrowth⟩ := List.cons.inj h
          exact eq_nil_of_growth_eq_append hgrowth (Nat.succ.inj hcalls)

/-! ## Which runs have them -/

variable [WordSource σ] {next : Choose σ α} {policy : ChainPolicy} {s t : σ}

/-- The further elements of a chain, drawn behind its first. -/
abbrev extendDrawn (decay : Float) (next : Choose σ α) (chance : Float) (n : Nat) :
    Choose σ (List α) :=
  extend decay (fun chance => ExceptT.lift (Draw.coin chance)) next chance n

theorem run_extendDrawn_eq_ok_iff {decay chance : Float} {n : Nat} {elements : List α} :
    (extendDrawn decay next chance n).run s = some (.ok elements, t) ↔
      elements.length ≤ n ∧ Replays next (growth decay chance n elements) s t := by
  induction n generalizing chance elements s with
  | zero =>
      rw [extendDrawn, extend, run_pure_eq_ok_iff]
      simp [growth, Replays, List.length_eq_zero_iff, eq_comm]
  | succ n ih =>
      rw [extendDrawn, extend, run_bind_eq_ok_iff]
      simp only [run_lift_eq_ok_iff]
      constructor
      · rintro ⟨more, u, hcoin, h⟩
        cases more with
        | false =>
            obtain ⟨rfl, rfl⟩ := run_pure_eq_ok_iff.mp h
            exact ⟨Nat.zero_le _, u, hcoin, rfl⟩
        | true =>
            obtain ⟨a, v, hcall, h⟩ := run_bind_eq_ok_iff.mp h
            obtain ⟨rest, w, hrest, h⟩ := run_bind_eq_ok_iff.mp h
            obtain ⟨rfl, rfl⟩ := run_pure_eq_ok_iff.mp h
            obtain ⟨hlength, hreplay⟩ := ih.mp hrest
            exact ⟨Nat.succ_le_succ hlength, u, hcoin, v, hcall, hreplay⟩
      · rintro ⟨hlength, h⟩
        cases elements with
        | nil =>
            obtain ⟨u, hcoin, rfl⟩ := h
            exact ⟨false, u, hcoin, rfl⟩
        | cons a rest =>
            obtain ⟨u, hcoin, v, hcall, hreplay⟩ := h
            have hrest := ih.mpr ⟨Nat.le_of_succ_le_succ hlength, hreplay⟩
            exact ⟨true, u, hcoin, run_bind_eq_ok_iff.mpr
              ⟨a, v, hcall, run_bind_eq_ok_iff.mpr ⟨rest, t, hrest, rfl⟩⟩⟩

/-- How much room there is does not show in a failure, so long as there is enough. -/
theorem run_extendDrawn_eq_error_iff {decay chance : Float} {n : Nat} {e : ChoiceError} :
    (extendDrawn decay next chance n).run s = some (.error e, t) ↔
      ∃ elements : List α, elements.length < n ∧
        Replays next (approach decay chance elements ++ [.call (.error e)]) s t := by
  induction n generalizing chance s with
  | zero =>
      exact iff_of_false run_pure_ne_error fun ⟨_, hlength, _⟩ => Nat.not_lt_zero _ hlength
  | succ n ih =>
      rw [extendDrawn, extend, run_bind_eq_error_iff]
      simp only [run_lift_eq_ok_iff]
      constructor
      · rintro (h | ⟨more, u, hcoin, h⟩)
        · exact absurd h run_lift_ne_error
        cases more with
        | false => exact absurd h run_pure_ne_error
        | true =>
            rcases run_bind_eq_error_iff.mp h with hcall | ⟨a, v, hcall, h⟩
            · exact ⟨[], Nat.succ_pos n, u, hcoin, t, hcall, rfl⟩
            rcases run_bind_eq_error_iff.mp h with hrest | ⟨_, _, -, h⟩
            · obtain ⟨elements, hlength, hreplay⟩ := ih.mp hrest
              exact ⟨a :: elements, Nat.succ_lt_succ hlength, u, hcoin, v, hcall, hreplay⟩
            · exact absurd h run_pure_ne_error
      · rintro ⟨elements, hlength, h⟩
        cases elements with
        | nil =>
            obtain ⟨u, hcoin, _, hcall, rfl⟩ := h
            exact .inr ⟨true, u, hcoin, run_bind_eq_error_iff.mpr (.inl hcall)⟩
        | cons a rest =>
            obtain ⟨u, hcoin, v, hcall, hreplay⟩ := h
            have hrest := ih.mpr ⟨rest, Nat.lt_of_succ_lt_succ hlength, hreplay⟩
            exact .inr ⟨true, u, hcoin, run_bind_eq_error_iff.mpr
              (.inr ⟨a, v, hcall, run_bind_eq_error_iff.mpr (.inl hrest)⟩)⟩

theorem run_chain_eq_ok_iff {elements : List α} :
    (policy.chain next).run s = some (.ok elements, t) ↔
      (0 < elements.length ∧ elements.length ≤ policy.limit + 1) ∧
        Replays next (policy.steps elements) s t := by
  rw [chain, chainWith, run_bind_eq_ok_iff]
  constructor
  · rintro ⟨a, u, hcall, h⟩
    obtain ⟨rest, v, hrest, h⟩ := run_bind_eq_ok_iff.mp h
    obtain ⟨rfl, rfl⟩ := run_pure_eq_ok_iff.mp h
    obtain ⟨hlength, hreplay⟩ := run_extendDrawn_eq_ok_iff.mp hrest
    exact ⟨⟨Nat.succ_pos _, Nat.succ_le_succ hlength⟩, u, hcall, hreplay⟩
  · rintro ⟨⟨hpos, hle⟩, h⟩
    cases elements with
    | nil => cases hpos
    | cons a rest =>
        obtain ⟨u, hcall, hreplay⟩ := h
        have hrest := run_extendDrawn_eq_ok_iff.mpr ⟨Nat.le_of_succ_le_succ hle, hreplay⟩
        exact ⟨a, u, hcall, run_bind_eq_ok_iff.mpr ⟨rest, t, hrest, rfl⟩⟩

theorem run_chain_eq_error_iff {e : ChoiceError} :
    (policy.chain next).run s = some (.error e, t) ↔
      ∃ elements : List α, elements.length ≤ policy.limit ∧
        Replays next (policy.stepsTo elements ++ [.call (.error e)]) s t := by
  rw [chain, chainWith, run_bind_eq_error_iff]
  constructor
  · rintro (hcall | ⟨a, u, hcall, h⟩)
    · exact ⟨[], Nat.zero_le _, t, hcall, rfl⟩
    rcases run_bind_eq_error_iff.mp h with hrest | ⟨_, _, -, h⟩
    · obtain ⟨elements, hlength, hreplay⟩ := run_extendDrawn_eq_error_iff.mp hrest
      exact ⟨a :: elements, hlength, u, hcall, hreplay⟩
    · exact absurd h run_pure_ne_error
  · rintro ⟨elements, hlength, h⟩
    cases elements with
    | nil =>
        obtain ⟨_, hcall, rfl⟩ := h
        exact .inl hcall
    | cons a rest =>
        obtain ⟨u, hcall, hreplay⟩ := h
        have hrest := run_extendDrawn_eq_error_iff.mpr ⟨rest, hlength, hreplay⟩
        exact .inr ⟨a, u, hcall, run_bind_eq_error_iff.mpr (.inl hrest)⟩

/-! ## Two limits -/

/-- Under a smaller limit a chain from the same source has the first elements of the chain
under the larger one, and a chain that fails under the smaller limit fails under the larger
in the same way.  The elements of a chain are the values of its calls, and there is no step
behind the call that fills it up or the call that fails.

A generator may keep a state of its own: it is a part of what is called the source here. -/
theorem chain_truncation {σ α : Type} [WordSource σ] (next : Choose σ α) (decay : Float)
    {limit larger : Nat} (hle : limit ≤ larger) (s : σ) :
    (∀ elements t, (chain ⟨larger, decay⟩ next).run s = some (.ok elements, t) →
        ∃ u, (chain ⟨limit, decay⟩ next).run s =
          some (.ok (elements.take (limit + 1)), u)) ∧
      (∀ e t, (chain ⟨limit, decay⟩ next).run s = some (.error e, t) →
        (chain ⟨larger, decay⟩ next).run s = some (.error e, t)) ∧
      (∀ elements t, (chain ⟨limit, decay⟩ next).run s = some (.ok elements, t) →
        (0 < elements.length ∧ elements.length ≤ limit + 1) ∧
          Replays next (steps ⟨limit, decay⟩ elements) s t ∧
          (steps ⟨limit, decay⟩ elements).filterMap call? = elements.map .ok ∧
          ∀ front back, steps ⟨limit, decay⟩ elements = front ++ back →
            (front.filterMap call?).length = limit + 1 → back = []) ∧
      ∀ e t, (chain ⟨limit, decay⟩ next).run s = some (.error e, t) →
        ∃ elements : List α, elements.length ≤ limit ∧
          Replays next (stepsTo ⟨limit, decay⟩ elements ++ [.call (.error e)]) s t ∧
          (stepsTo ⟨limit, decay⟩ elements).filterMap call? = elements.map .ok := by
  refine ⟨?_, ?_, ?_, ?_⟩
  · intro elements t hrun
    obtain ⟨⟨hpos, -⟩, hreplay⟩ := run_chain_eq_ok_iff.mp hrun
    obtain ⟨back, hback⟩ := steps_take_initial decay hle elements
    rw [← hback] at hreplay
    obtain ⟨u, hfront, -⟩ := replays_append.mp hreplay
    refine ⟨u, run_chain_eq_ok_iff.mpr ⟨⟨?_, ?_⟩, hfront⟩⟩
    · rw [List.length_take]
      omega
    · exact List.length_take_le _ _
  · intro e t hrun
    obtain ⟨elements, hlength, hreplay⟩ := run_chain_eq_error_iff.mp hrun
    exact run_chain_eq_error_iff.mpr ⟨elements, Nat.le_trans hlength hle, hreplay⟩
  · intro elements t hrun
    obtain ⟨hlength, hreplay⟩ := run_chain_eq_ok_iff.mp hrun
    exact ⟨hlength, hreplay, calls_steps hlength.2, fun _ _ => eq_nil_of_steps_eq_append⟩
  · intro e t hrun
    obtain ⟨elements, hlength, hreplay⟩ := run_chain_eq_error_iff.mp hrun
    exact ⟨elements, hlength, hreplay, calls_stepsTo _ elements⟩

/-! ### A generator that counts -/

/-- A source with a state beside it, which no word changes. -/
structure WithState (σ γ : Type) where
  source : σ
  state : γ

instance {σ γ : Type} [WordSource σ] : WordSource (WithState σ γ) where
  next32? s := (WordSource.next32? s.source).map fun (w, t) => (w, ⟨t, s.state⟩)
  next64? s := (WordSource.next64? s.source).map fun (w, t) => (w, ⟨t, s.state⟩)
  left s := WordSource.left s.source
  left_next32? := by
    intro s t w h
    obtain ⟨_, hnext, heq⟩ := Option.map_eq_some_iff.mp h
    cases heq
    exact WordSource.left_next32? hnext
  left_next64? := by
    intro s t w h
    obtain ⟨_, hnext, heq⟩ := Option.map_eq_some_iff.mp h
    cases heq
    exact WordSource.left_next64? hnext

/-- Adds a word to the number of the call; there is no fourth call. -/
def numbered : Choose (WithState Tape Nat) Nat := do
  let word ← ExceptT.lift Draw.word64
  let s ← get
  if s.state = 3 then
    throw (.emptyCandidates "numeral")
  set { s with state := s.state + 1 }
  return s.state + word

/-- Heads, and words for the calls. -/
def headsTape : Tape := ⟨[10, 0, 20, 0, 30, 0, 40, 0]⟩

set_option maxRecDepth 1024 in
theorem chain_numbered_truncation :
    ((chain ⟨2, 0.5⟩ numbered).run ⟨headsTape, 0⟩ =
        some (.ok [10, 21, 32], ⟨⟨[0, 40, 0]⟩, 3⟩) ∧
      ∃ u, (chain ⟨1, 0.5⟩ numbered).run ⟨headsTape, 0⟩ = some (.ok [10, 21], u)) ∧
    (chain ⟨3, 0.5⟩ numbered).run ⟨headsTape, 0⟩ =
      some (.error (.emptyCandidates "numeral"), ⟨⟨[0]⟩, 3⟩) ∧
    (chain ⟨7, 0.5⟩ numbered).run ⟨headsTape, 0⟩ =
      some (.error (.emptyCandidates "numeral"), ⟨⟨[0]⟩, 3⟩) := by
  have hchain : (chain ⟨2, 0.5⟩ numbered).run ⟨headsTape, 0⟩ =
      some (.ok [10, 21, 32], ⟨⟨[0, 40, 0]⟩, 3⟩) := rfl
  have hfailed : (chain ⟨3, 0.5⟩ numbered).run ⟨headsTape, 0⟩ =
      some (.error (.emptyCandidates "numeral"), ⟨⟨[0]⟩, 3⟩) := rfl
  exact ⟨⟨hchain, (chain_truncation numbered 0.5 (by decide) _).1 _ _ hchain⟩, hfailed,
    (chain_truncation numbered 0.5 (by decide) _).2.1 _ _ hfailed⟩

end ChainPolicy

end QuerySynth
