import QuerySynth.Proofs.Pool.Capacity
import QuerySynth.Proofs.Random.Completion

/-!
# Pools that can be filled

A pool is refused just where a kind is to have more names than there are, and a pool
that is not refused can be filled from every state of its filling.

* Every name under the limit can be drawn.  As long as fewer names are taken than there
  are, one is left, so that drawing a fresh one can be completed.
* A state of the filling holds the names of the kinds that are done and those collected
  for the current kind.  What remains to be done is the whole of the filling in the
  state it begins with, and from each state to the one after it a draw less, or a kind
  less.
-/

namespace QuerySynth

open Draw

namespace PerKind

variable {ε α : Type}

theorem completable_generate {entry : Kind → ExceptT ε (Draw Tape) α}
    (h : ∀ kind, Completable (entry kind).run) : Completable (generate entry).run := by
  -- one step for each kind, in declaration order
  repeat refine completable_bind_run (h _) fun _ => ?_
  exact completable_pure _

theorem generate_pure {m : Type → Type} [Monad m] [LawfulMonad m] (table : PerKind α) :
    generate (fun kind => pure (table.get kind)) = (pure table : m (PerKind α)) := by
  simp only [generate, pure_bind]
  rfl

/-- Where nothing is to be done for the kinds before one, a draw that comes first for that
kind comes first of all. -/
theorem generate_bind {m : Type → Type} [Monad m] [LawfulMonad m] {β : Type}
    (filled : PerKind α) (kind : Kind) {entry : Kind → m α} {draw : m β} {next : β → Kind → m α}
    (hbefore : ∀ other, other.position < kind.position →
      entry other = pure (filled.get other) ∧ ∀ b, next b other = pure (filled.get other))
    (hkind : entry kind = draw >>= fun b => next b kind)
    (hafter : ∀ other, kind.position < other.position → ∀ b, next b other = entry other) :
    generate entry = draw >>= fun b => generate (next b) := by
  have hpast := fun other h => (hbefore other h).1
  have hstill := fun other h => (hbefore other h).2
  -- one case for each place in declaration order
  cases kind
  all_goals
    simp (disch := decide) only [generate, hpast, hstill, hkind, hafter, pure_bind, bind_assoc]

end PerKind

namespace Pool

/-! ## Names that can be drawn -/

section Names

variable {limit : Nat}

theorem reaches_drawLetter {c : Char} (h : c ∈ alphabet) : Reaches drawLetter c := by
  obtain ⟨i, hi, hc⟩ := List.mem_iff_getElem.mp h
  have hlength := length_alphabet
  have hletter : alphabet.getD i 'A' = c := by
    rw [List.getD_eq_getElem?_getD, List.getElem?_eq_getElem hi, hc, Option.getD_some]
  refine reaches_bind (reaches_below64 hi (by omega)) ?_
  rw [hletter]
  exact reaches_pure c

theorem reaches_drawLetters {letters : List Char} (h : ∀ c ∈ letters, c ∈ alphabet) :
    Reaches (drawLetters letters.length) letters := by
  induction letters with
  | nil => exact reaches_pure []
  | cons c letters ih =>
      obtain ⟨hc, hletters⟩ := List.forall_mem_cons.mp h
      exact reaches_bind (reaches_drawLetter hc) (reaches_bind (ih hletters) (reaches_pure _))

/-- Every name under the limit can be drawn, if words can tell the lengths apart. -/
theorem reaches_drawName (hlimit : limit ≤ 2 ^ 64) {name : String} (h : IsName limit name) :
    Reaches (drawName limit) name := by
  have hpos := h.length_pos
  have hle := h.length_le
  refine reaches_bind (reaches_below64 (d := name.toList.length - 1) (by omega) hlimit) ?_
  rw [Nat.sub_add_cancel hpos]
  refine reaches_bind (reaches_drawLetters h.letters) ?_
  rw [String.ofList_toList]
  exact reaches_pure name

theorem completable_drawLetters (n : Nat) :
    Completable (drawLetters n : Draw Tape (List Char)) := by
  induction n with
  | zero => exact completable_pure []
  | succ n ih =>
      refine completable_bind ?_ fun _ _ => completable_bind ih fun _ _ => completable_pure _
      exact completable_bind (below64_spec _).2 fun _ _ => completable_pure _

theorem drawName_spec (limit : Nat) :
    Takes (drawName limit : Draw Tape String) ∧
      Completable (drawName limit : Draw Tape String) := by
  have hrest : ∀ length, Completable (do
      return String.ofList (← drawLetters (length + 1)) : Draw Tape String) := fun length =>
    completable_bind (completable_drawLetters _) fun _ _ => completable_pure _
  obtain ⟨htakes, hcompletable⟩ := below64_spec limit
  exact ⟨takes_bind htakes hrest, completable_bind hcompletable fun length _ => hrest length⟩

/-- A fresh name can be drawn as long as there is one. -/
theorem completable_drawFresh (hlimit : limit ≤ 2 ^ 64) {seen : Std.TreeSet String}
    (h : seen.size < nameCount limit) :
    Completable (drawFresh limit seen : Draw Tape String) := by
  rw [← Std.TreeSet.length_toList] at h
  obtain ⟨name, hname, hfresh⟩ := exists_isName_not_mem h
  have hseen : ¬ seen.contains name = true := fun hseen =>
    hfresh (Std.TreeSet.mem_toList.mpr (Std.TreeSet.mem_iff_contains.mpr hseen))
  have haccepted : Reaches (do
      let name ← drawName limit
      return if seen.contains name then none else some name) (some name) :=
    reaches_bind (reaches_drawName hlimit hname) (by rw [if_neg hseen]; exact reaches_pure _)
  obtain ⟨htakes, hcompletable⟩ := drawName_spec limit
  exact completable_retry (takes_bind htakes fun _ => completable_pure _)
    (completable_bind hcompletable fun _ _ => completable_pure _) haccepted

/-- So can as many names as are left. -/
theorem completable_drawDistinct (hlimit : limit ≤ 2 ^ 64) {seen : Std.TreeSet String} {n : Nat}
    (h : seen.size + n ≤ nameCount limit) :
    Completable (drawDistinct limit seen n : Draw Tape (List String)) := by
  induction n generalizing seen with
  | zero => exact completable_pure []
  | succ n ih =>
      refine completable_bind (completable_drawFresh hlimit (by omega)) fun name _ => ?_
      have hsize : (seen.insert name).size ≤ seen.size + 1 := Std.TreeSet.size_insert_le
      exact completable_bind (ih (by omega)) fun _ _ => completable_pure _

end Names

/-! ## Refusal -/

/-- A name may not have a character, or some kind is to have more names than there are. -/
def Impossible (sizes : PoolSizes) (length : Nat) : Prop :=
  length = 0 ∨ ∃ kind, nameCount length < (sizes.count kind).toNat

theorem impossible_of_fails {σ : Type} [WordSource σ] {sizes : PoolSizes} {length : Nat}
    {e : SettingError} (h : Fails (generate sizes length : Filling σ Pool) e) :
    Impossible sizes length := by
  rcases fails_guard h with ⟨hzero, -⟩ | ⟨-, h⟩
  · exact .inl hzero
  · obtain ⟨kind, h⟩ := PerKind.fails_generate (fails_of_fails_bind_pure h)
    rcases fails_guard h with ⟨hcount, -⟩ | ⟨-, h⟩
    · exact .inr ⟨kind, (capacity_lt_iff _ _).mp hcount⟩
    · exact absurd h not_fails_lift

theorem not_impossible_of_succeeds {σ : Type} [WordSource σ] {sizes : PoolSizes} {length : Nat}
    {pool : Pool} (h : Succeeds (generate sizes length : Filling σ Pool) pool) :
    ¬ Impossible sizes length := by
  obtain ⟨hlength, h⟩ := succeeds_guard h
  obtain ⟨names, hnames, -⟩ := succeeds_bind_pure h
  rintro (hzero | ⟨kind, hcount⟩)
  · exact hlength hzero
  · obtain ⟨hcapacity, -⟩ := succeeds_guard (PerKind.succeeds_generate hnames kind)
    exact hcapacity ((capacity_lt_iff _ _).mpr hcount)

theorem not_capacity_lt_of_not_impossible {sizes : PoolSizes} {length : Nat}
    (h : ¬ Impossible sizes length) (kind : Kind) :
    ¬ capacity length < (sizes.count kind).toNat := fun hcapacity =>
  h (.inr ⟨kind, (capacity_lt_iff _ _).mp hcapacity⟩)

/-! ## States of the filling -/

/-- How far a filling has come: the names of the kinds before the current one, and the names
collected for it. -/
structure Progress where
  filled : PerKind (List String)
  kind : Kind
  collected : List String

namespace Progress

variable {σ : Type} [WordSource σ] {sizes : PoolSizes} {length : Nat}

/-- Nothing is done before the first kind. -/
def start : Progress := ⟨.fill [], .procedure, []⟩

/-- The collected names, as the set that a drawn name is looked up in. -/
def seen (progress : Progress) : Std.TreeSet String :=
  progress.collected.foldl (fun seen name => seen.insert name) ∅

/-- One more name is collected. -/
def collect (progress : Progress) (name : String) : Progress :=
  { progress with collected := progress.collected ++ [name] }

/-- The collected names become those of the current kind, and another kind is begun. -/
def turn (progress : Progress) (next : Kind) : Progress :=
  ⟨progress.filled.set progress.kind progress.collected, next, []⟩

/-- How many names the current kind still wants. -/
def wanted (sizes : PoolSizes) (progress : Progress) : Nat :=
  (sizes.count progress.kind).toNat - progress.collected.length

/-- What remains to be done for a kind. -/
def entry (sizes : PoolSizes) (length : Nat) (progress : Progress) (kind : Kind) :
    Filling σ (List String) :=
  if kind.position < progress.kind.position then pure (progress.filled.get kind)
  else if kind = progress.kind then do
    let names ← ExceptT.lift (drawDistinct length progress.seen (progress.wanted sizes))
    return progress.collected ++ names
  else fillKind sizes length kind

/-- What remains to be done for the pool. -/
def resume (sizes : PoolSizes) (length : Nat) (progress : Progress) : Filling σ Pool := do
  return ⟨← PerKind.generate (progress.entry sizes length)⟩

/-! ### From state to state -/

variable {progress : Progress} {kind : Kind}

theorem entry_of_before (h : kind.position < progress.kind.position) :
    (progress.entry sizes length kind : Filling σ (List String)) =
      pure (progress.filled.get kind) :=
  if_pos h

theorem entry_kind (progress : Progress) :
    (progress.entry sizes length progress.kind : Filling σ (List String)) = do
      let names ← ExceptT.lift (drawDistinct length progress.seen (progress.wanted sizes))
      return progress.collected ++ names := by
  rw [entry, if_neg (Nat.lt_irrefl _), if_pos rfl]

theorem entry_of_after (h : progress.kind.position < kind.position) :
    (progress.entry sizes length kind : Filling σ (List String)) = fillKind sizes length kind := by
  have hne : kind ≠ progress.kind := by
    rintro rfl
    exact Nat.lt_irrefl _ h
  rw [entry, if_neg (Nat.lt_asymm h), if_neg hne]

/-- A kind that has all its names. -/
theorem entry_of_wanted_eq_zero (h : progress.wanted sizes = 0) :
    (progress.entry sizes length progress.kind : Filling σ (List String)) =
      pure progress.collected := by
  rw [entry_kind, h]
  show (do return progress.collected ++ (← pure []) : Filling σ (List String)) = _
  rw [pure_bind, List.append_nil]

/-- A kind that has none of its names. -/
theorem entry_of_collected_eq_nil (h : progress.collected = [])
    (hcount : ¬ capacity length < (sizes.count progress.kind).toNat) :
    (progress.entry sizes length progress.kind : Filling σ (List String)) =
      fillKind sizes length progress.kind := by
  have hseen : progress.seen = ∅ := by rw [seen, h, List.foldl_nil]
  have hwanted : progress.wanted sizes = (sizes.count progress.kind).toNat := by
    rw [wanted, h, List.length_nil, Nat.sub_zero]
  rw [entry_kind, hseen, hwanted, h]
  simp only [fillKind, hcount, if_false, List.nil_append, bind_pure]

theorem start_entry (h : ∀ kind, ¬ capacity length < (sizes.count kind).toNat) :
    (start.entry sizes length : Kind → Filling σ (List String)) = fillKind sizes length := by
  funext kind
  cases kind with
  | procedure => exact entry_of_collected_eq_nil rfl (h _)
  | _ => exact entry_of_after (by decide)

/-- The whole of a filling is what remains to be done at its start. -/
theorem generate_eq_resume (h : ¬ Impossible sizes length) :
    (generate sizes length : Filling σ Pool) = start.resume sizes length := by
  have hlength : length ≠ 0 := fun hzero => h (.inl hzero)
  rw [resume, start_entry (not_capacity_lt_of_not_impossible h)]
  simp only [generate, hlength, if_false]

/-- As long as a name is wanted, it is drawn before all else. -/
theorem entry_eq_bind (h : progress.wanted sizes ≠ 0) :
    (progress.entry sizes length progress.kind : Filling σ (List String)) =
      ExceptT.lift (drawFresh length progress.seen) >>= fun name =>
        (progress.collect name).entry sizes length progress.kind := by
  obtain ⟨n, hn⟩ := Nat.exists_eq_succ_of_ne_zero h
  rw [entry_kind, hn, drawDistinct, lift_bind, bind_assoc]
  refine bind_congr fun name => ?_
  have hentry : ((progress.collect name).entry sizes length progress.kind :
      Filling σ (List String)) = _ := (progress.collect name).entry_kind
  have hseen : (progress.collect name).seen = progress.seen.insert name := List.foldl_concat ..
  have hwanted : (progress.collect name).wanted sizes = n := by
    simp only [wanted, collect, List.length_append, List.length_singleton] at hn ⊢
    omega
  rw [hentry, hseen, hwanted, lift_bind, bind_assoc]
  refine bind_congr fun names => ?_
  rw [lift_pure, pure_bind, collect, List.append_assoc, List.singleton_append]

theorem resume_eq_bind (h : progress.wanted sizes ≠ 0) :
    (progress.resume sizes length : Filling σ Pool) =
      ExceptT.lift (drawFresh length progress.seen) >>= fun name =>
        (progress.collect name).resume sizes length := by
  have hgenerate : PerKind.generate (progress.entry sizes length : Kind → Filling σ _) =
      ExceptT.lift (drawFresh length progress.seen) >>= fun name =>
        PerKind.generate ((progress.collect name).entry sizes length) := by
    refine PerKind.generate_bind progress.filled progress.kind ?_ (entry_eq_bind h) ?_
    · intro other hother
      exact ⟨entry_of_before hother, fun _ => entry_of_before hother⟩
    · intro other hother name
      rw [entry_of_after hother]
      exact entry_of_after hother
  unfold resume
  rw [hgenerate, bind_assoc]

/-- Where none is wanted, the next kind is begun. -/
theorem resume_eq_turn (himpossible : ¬ Impossible sizes length) (h : progress.wanted sizes = 0)
    (hnext : kind.position = progress.kind.position + 1) :
    (progress.resume sizes length : Filling σ Pool) =
      (progress.turn kind).resume sizes length := by
  have hentry : (progress.entry sizes length : Kind → Filling σ (List String)) =
      (progress.turn kind).entry sizes length := by
    funext other
    have hturn : (progress.turn kind).kind.position = progress.kind.position + 1 := hnext
    rcases Nat.lt_trichotomy other.position progress.kind.position with hlt | heq | hgt
    · have hne : other ≠ progress.kind := fun heq => Nat.ne_of_lt hlt (congrArg _ heq)
      rw [entry_of_before hlt, entry_of_before (by omega), turn, PerKind.get_set, if_neg hne]
    · obtain rfl := Kind.position_inj heq
      rw [entry_of_wanted_eq_zero h, entry_of_before (by omega), turn, PerKind.get_set, if_pos rfl]
    · rw [entry_of_after hgt]
      rcases Nat.lt_or_eq_of_le (Nat.succ_le_of_lt hgt) with hgt | heq
      · rw [entry_of_after (by omega)]
      · obtain rfl : other = kind := Kind.position_inj (by omega)
        have hbegun : (progress.turn other).collected = [] := rfl
        exact (entry_of_collected_eq_nil hbegun
          (not_capacity_lt_of_not_impossible himpossible other)).symm
  rw [resume, resume, hentry]

/-- Behind the last kind there is nothing to do. -/
theorem resume_eq_pure (h : progress.wanted sizes = 0) (hlast : progress.kind = .const) :
    (progress.resume sizes length : Filling σ Pool) =
      pure ⟨progress.filled.set .const progress.collected⟩ := by
  have hentry : (progress.entry sizes length : Kind → Filling σ (List String)) = fun kind =>
      pure ((progress.filled.set .const progress.collected).get kind) := by
    funext kind
    rw [PerKind.get_set]
    by_cases hkind : kind = .const
    · rw [if_pos hkind, hkind, ← hlast]
      exact entry_of_wanted_eq_zero h
    · rw [if_neg hkind]
      refine entry_of_before ?_
      rw [hlast]
      cases kind <;> first | decide | contradiction
  rw [resume, hentry, PerKind.generate_pure, pure_bind]

/-- What remains to be done in a state is one move of the filling, and then what remains
behind that: another fresh name, the turn to the next kind, or the end. -/
structure Moves (σ : Type) [WordSource σ] (sizes : PoolSizes) (length : Nat)
    (progress : Progress) : Prop where
  draws : progress.wanted sizes ≠ 0 → (progress.resume sizes length : Filling σ Pool) =
    ExceptT.lift (drawFresh length progress.seen) >>= fun name =>
      (progress.collect name).resume sizes length
  turns : progress.wanted sizes = 0 → ∀ kind : Kind,
    kind.position = progress.kind.position + 1 →
      (progress.resume sizes length : Filling σ Pool) =
        (progress.turn kind).resume sizes length
  ends : progress.wanted sizes = 0 → progress.kind = .const →
    (progress.resume sizes length : Filling σ Pool) =
      pure ⟨progress.filled.set .const progress.collected⟩

theorem moves {σ : Type} [WordSource σ] (h : ¬ Impossible sizes length) (progress : Progress) :
    progress.Moves σ sizes length where
  draws := resume_eq_bind
  turns hwanted _ := resume_eq_turn h hwanted
  ends := resume_eq_pure

/-! ### Completion -/

theorem size_seen_le (progress : Progress) : progress.seen.size ≤ progress.collected.length := by
  unfold seen
  induction progress.collected using List.reverseRecOn with
  | nil => exact Nat.le_refl 0
  | append_singleton names name ih =>
      rw [List.foldl_concat, List.length_append, List.length_singleton]
      exact Nat.le_trans Std.TreeSet.size_insert_le (Nat.succ_le_succ ih)

theorem completable_entry (hlength : length ≤ 2 ^ 64) (h : ¬ Impossible sizes length)
    (progress : Progress) (kind : Kind) :
    Completable (progress.entry sizes length kind : Filling Tape (List String)).run := by
  have hroom : ∀ kind, (sizes.count kind).toNat ≤ nameCount length := fun kind =>
    Nat.le_of_not_lt fun hcount => h (.inr ⟨kind, hcount⟩)
  have hsize := progress.size_seen_le
  unfold entry
  split
  · exact completable_pure _
  split
  · refine completable_bind_run (completable_lift ?_) fun _ => completable_pure _
    rcases Nat.eq_zero_or_pos (progress.wanted sizes) with hzero | hpos
    · rw [hzero]
      exact completable_pure _
    -- the names that are seen and those that are wanted are together no more than the kind has
    · have hkind := hroom progress.kind
      refine completable_drawDistinct hlength ?_
      unfold wanted at hpos ⊢
      omega
  · simp only [fillKind, not_capacity_lt_of_not_impossible h kind, if_false]
    refine completable_lift (completable_drawDistinct hlength ?_)
    rw [Std.TreeSet.size_emptyc, Nat.zero_add]
    exact hroom kind

theorem not_fails_resume {σ : Type} [WordSource σ] (h : ¬ Impossible sizes length)
    {e : SettingError} : ¬ Fails (progress.resume sizes length : Filling σ Pool) e := by
  intro hfails
  obtain ⟨kind, hfails⟩ := PerKind.fails_generate (fails_of_fails_bind_pure hfails)
  unfold entry at hfails
  split at hfails
  · exact not_fails_pure hfails
  split at hfails
  · exact not_fails_lift (fails_of_fails_bind_pure hfails)
  · rcases fails_guard hfails with ⟨hcapacity, -⟩ | ⟨-, hfails⟩
    · exact not_capacity_lt_of_not_impossible h kind hcapacity
    · exact not_fails_lift hfails

/-- Where the pool is possible, some words behind any others fill it. -/
theorem exists_run_resume (hlength : length ≤ 2 ^ 64) (h : ¬ Impossible sizes length)
    (progress : Progress) (words : List UInt64) :
    ∃ more pool t, (progress.resume sizes length : Filling Tape Pool).run ⟨words ++ more⟩ =
      some (.ok pool, t) := by
  have hcompletable : Completable (progress.resume sizes length : Filling Tape Pool).run :=
    completable_bind_run (PerKind.completable_generate (completable_entry hlength h progress))
      fun _ => completable_pure _
  obtain ⟨more, outcome, t, hrun⟩ := hcompletable.exists_run words
  cases outcome with
  | ok pool => exact ⟨more, pool, t, hrun⟩
  | error e => exact absurd (fails_of_run hrun) (not_fails_resume h)

end Progress

/-! ## Pools are refused just where they are impossible -/

/-- A filling that ends has refused the pool just where no name may have a character or some
kind is to have more names than there are, and to count the names in words makes no
difference to that.

A pool that is not refused never gets stuck.  The filling moves through its states from
the start on, and whatever words have been read in any of them, some words behind those
fill the pool. -/
theorem generate_refuses_iff (sizes : PoolSizes) (length : UInt64) :
    (∀ {σ : Type} [WordSource σ] (s t : σ) (outcome : Except SettingError Pool),
      (generate sizes length.toNat : Filling σ Pool).run s = some (outcome, t) →
        ((∃ e, outcome = .error e) ↔ Impossible sizes length.toNat)) ∧
      (∀ count : UInt64, capacity length.toNat < count.toNat ↔
        nameCount length.toNat < count.toNat) ∧
      (¬ Impossible sizes length.toNat →
        (∀ {σ : Type} [WordSource σ],
          (generate sizes length.toNat : Filling σ Pool) =
              Progress.start.resume sizes length.toNat ∧
            ∀ progress : Progress, progress.Moves σ sizes length.toNat) ∧
        ∀ (progress : Progress) (words : List UInt64), ∃ more pool t,
          (progress.resume sizes length.toNat : Filling Tape Pool).run ⟨words ++ more⟩ =
            some (.ok pool, t)) := by
  refine ⟨?_, capacity_lt_iff length.toNat, fun h => ⟨?_, ?_⟩⟩
  · intro σ _ s t outcome hrun
    cases outcome with
    | error e => exact ⟨fun _ => impossible_of_fails (fails_of_run hrun), fun _ => ⟨e, rfl⟩⟩
    | ok pool =>
        have hpossible := not_impossible_of_succeeds (succeeds_of_run hrun)
        exact ⟨nofun, fun himpossible => absurd himpossible hpossible⟩
  · intro σ _
    exact ⟨Progress.generate_eq_resume h, Progress.moves h⟩
  · exact Progress.exists_run_resume (Nat.le_of_lt length.toNat_lt) h

/-- So many variables and nothing else. -/
def variablesOnly (count : Int64) : PoolSizes := ⟨0, (PerKind.fill none).set .var (some count)⟩

/-- All variables of one character but the last. -/
def lastWanted : Progress := ⟨.fill [], .var, alphabet.dropLast.map String.singleton⟩

/-- There are sixty-two names of one character, and the last of them is drawn also where the
first comes up once more. -/
theorem generate_refuses_at_capacity :
    ((generate (variablesOnly 63) 1 : Filling Tape Pool).run ⟨[]⟩ =
        some (.error (.tooManyNames 63 .var 1), ⟨[]⟩) ∧ Impossible (variablesOnly 63) 1) ∧
      ¬ Impossible (variablesOnly 62) 1 ∧ lastWanted.wanted (variablesOnly 62) = 1 ∧
      ∃ more pool t, (lastWanted.resume (variablesOnly 62) 1 : Filling Tape Pool).run
        ⟨[0, 0] ++ more⟩ = some (.ok pool, t) := by
  have hrun : (generate (variablesOnly 63) 1 : Filling Tape Pool).run ⟨[]⟩ =
      some (.error (.tooManyNames 63 .var 1), ⟨[]⟩) := rfl
  have hpossible : ¬ Impossible (variablesOnly 62) 1 := by
    rintro (h | ⟨kind, h⟩)
    · cases h
    · cases kind <;> revert h <;> decide
  have hrefused := ((generate_refuses_iff (variablesOnly 63) 1).1 _ _ _ hrun).mp ⟨_, rfl⟩
  have hfilled := ((generate_refuses_iff (variablesOnly 62) 1).2.2 hpossible).2 lastWanted [0, 0]
  exact ⟨⟨hrun, hrefused⟩, hpossible, by decide, hfilled⟩

end Pool

end QuerySynth
