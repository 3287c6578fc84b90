import QuerySynth.Command.Arguments
import QuerySynth.Proofs.Steps

/-!
# Options that were given

An option has the arguments behind it up to the next option as its values, and reads as
all values that were given for it.  An option of one value cannot be given again, so it
reads as the argument behind it, whatever the arguments after that are.
-/

namespace QuerySynth.Arguments

/-! ## Readings -/

namespace Reading

variable {α : Type} {reading middle after : Reading} {given : Given} {name : String}

/-- An option has its values behind those that were given for it before. -/
theorem values?_cons (given : Given) (reading : Reading) (name : String) :
    values? (given :: reading) name =
      if given.spec.name = name then some ((reading.values? name).getD [] ++ given.values)
      else reading.values? name := by
  have hfilter : List.filter (·.spec.name == name) (given :: reading).reverse =
      reading.reverse.filter (·.spec.name == name) ++
        if given.spec.name = name then [given] else [] := by
    rw [List.reverse_cons, List.filter_append]
    by_cases hname : given.spec.name = name <;> simp [hname]
  rw [values?, hfilter, values?]
  by_cases hname : given.spec.name = name
  · rw [if_pos hname, if_pos hname]
    cases reading.reverse.filter (·.spec.name == name) <;> simp
  · rw [if_neg hname, if_neg hname, List.append_nil]

theorem has_iff : reading.has name = true ↔ ∃ given ∈ reading, given.spec.name = name := by
  induction reading with
  | nil => exact ⟨nofun, nofun⟩
  | cons given reading ih =>
      rw [has, values?_cons]
      by_cases hname : given.spec.name = name
      · simp [hname]
      · rw [if_neg hname, ← has, ih]
        simp [hname]

theorem add_eq_ok_iff : reading.add given = .ok after ↔
    given.spec.arity.admits given.values.length = true ∧
      (given.spec.arity.repeats = true ∨ ¬ reading.has given.spec.name = true) ∧
        after = given :: reading := by
  have hany : reading.any (·.spec.name == given.spec.name) = reading.has given.spec.name := by
    rw [Bool.eq_iff_iff, has_iff]
    simp
  rw [add, hany]
  cases given.spec.arity.admits given.values.length <;>
    cases given.spec.arity.repeats <;> cases reading.has given.spec.name <;>
    simp [eq_comm]

/-- An option of one value that was given reads as that value. -/
theorem one?_of_add {spec : Spec} {value : String} (h : reading.add ⟨spec, [value]⟩ = .ok after)
    (harity : spec.arity = .one) (reader : String → Option α) :
    after.one? spec.name reader = (readValue spec.name reader value).map some := by
  obtain ⟨-, hfirst, rfl⟩ := add_eq_ok_iff.mp h
  have hnone : reading.values? spec.name = none := by
    simpa [harity, Arity.repeats, has] using hfirst
  rw [one?, several?, values?_cons, if_pos rfl, hnone]
  cases hvalue : readValue spec.name reader value <;>
    simp [hvalue, Except.map, bind, Except.bind, pure, Except.pure]

/-- An option that was given has the same values later on. -/
def Keeps (reading after : Reading) (name : String) : Prop :=
  reading.has name = true → after.values? name = reading.values? name

theorem Keeps.refl (reading : Reading) (name : String) : reading.Keeps reading name := fun _ => rfl

theorem Keeps.trans (h : reading.Keeps middle name) (h' : middle.Keeps after name) :
    reading.Keeps after name := by
  intro hhas
  have hmiddle := h hhas
  exact (h' (by rw [has, hmiddle]; exact hhas)).trans hmiddle

theorem keeps_of_add (honce : given.spec.name = name → given.spec.arity.repeats = false)
    (h : reading.add given = .ok after) : reading.Keeps after name := by
  intro hhas
  obtain ⟨-, hfirst, rfl⟩ := add_eq_ok_iff.mp h
  rw [values?_cons]
  by_cases hname : given.spec.name = name
  · rw [honce hname, hname, hhas] at hfirst
    simp at hfirst
  · rw [if_neg hname]

end Reading

variable {α : Type} {specs : List Spec} {spec : Spec} {reading after : Reading} {given : Given}
  {name value : String}

/-! ## Steps of the reader -/

/-- Options that can be told apart: each has a name of its own, without an equals sign. -/
structure Distinct (specs : List Spec) : Prop where
  names : (specs.map Spec.name).Nodup
  plain : ∀ spec ∈ specs, spec.name ≠ "" ∧ '=' ∉ spec.name.toList

theorem Distinct.find?_name (h : Distinct specs) (hspec : spec ∈ specs) :
    specs.find? (·.name == spec.name) = some spec := by
  obtain ⟨front, back, rfl⟩ := List.append_of_mem hspec
  have hnames := h.names
  rw [List.map_append, List.map_cons, List.nodup_append] at hnames
  obtain ⟨-, -, hfront⟩ := hnames
  rw [List.find?_append, List.find?_cons_of_pos (by simp), Option.or_eq_some_iff]
  refine .inr ⟨List.find?_eq_none.mpr fun other hother => ?_, rfl⟩
  have hne := hfront other.name (List.mem_map_of_mem hother) spec.name List.mem_cons_self
  simpa using hne

theorem Distinct.eq_of_name (h : Distinct specs) {other : Spec} (hspec : spec ∈ specs)
    (hother : other ∈ specs) (hname : other.name = spec.name) : other = spec := by
  have hfound := h.find?_name hother
  rw [hname, h.find?_name hspec] at hfound
  exact (Option.some.inj hfound).symm

theorem splitName_of_not_mem {text : List Char} (h : '=' ∉ text) :
    splitName text = (String.ofList text, none) := by
  have hplain : ∀ c ∈ text, (c != '=') = true := fun c hc => by
    simpa using fun heq : c = '=' => h (heq ▸ hc)
  have hdrop : (text ++ []).dropWhile (· != '=') = [] := List.dropWhile_append_of_pos hplain
  rw [List.append_nil] at hdrop
  have htake := List.takeWhile_append_dropWhile (p := (· != '=')) (l := text)
  rw [hdrop, List.append_nil] at htake
  rw [splitName, hdrop, htake]

/-- The name of an option opens it, and its values are collected from then on. -/
theorem read_name (hspecs : Distinct specs) (hspec : spec ∈ specs) (harity : spec.arity ≠ .flag)
    (reading : Reading) (rest : List String) :
    read specs reading none (("--" ++ spec.name) :: rest) =
      read specs reading (some ⟨spec, []⟩) rest := by
  obtain ⟨hname, hequals⟩ := hspecs.plain spec hspec
  have hlist : ("--" ++ spec.name).toList = '-' :: '-' :: spec.name.toList := by simp
  obtain ⟨c, cs, hcons⟩ : ∃ c cs, spec.name.toList = c :: cs :=
    List.exists_cons_of_ne_nil (mt String.toList_eq_nil_iff.mp hname)
  rw [read.eq_def]
  dsimp only
  -- there is a character behind the hyphens, so they are not the end of the options
  rw [hlist, hcons]
  simp only
  rw [← hcons, splitName_of_not_mem hequals, String.ofList_toList]
  simp only [hspecs.find?_name hspec]
  cases harity' : spec.arity with
  | flag => exact absurd harity' harity
  | one | two | several => rfl

/-- An argument without a hyphen in front is a value of the open option. -/
theorem read_value (hvalue : value.toList.head? ≠ some '-') (reading : Reading)
    (rest : List String) :
    read specs reading (some given) (value :: rest) =
      if given.spec.arity.takesMore (given.values ++ [value]).length then
        read specs reading (some ⟨given.spec, given.values ++ [value]⟩) rest
      else (do read specs (← reading.add ⟨given.spec, given.values ++ [value]⟩) none rest) := by
  rw [read.eq_def]
  dsimp only
  split
  · simp_all
  · simp_all
  · simp_all
  · rfl

/-- An option of one value is given the argument behind it. -/
theorem read_option_of_one (hspecs : Distinct specs) (hspec : spec ∈ specs)
    (harity : spec.arity = .one) (hvalue : value.toList.head? ≠ some '-') (reading : Reading)
    (rest : List String) :
    read specs reading none (("--" ++ spec.name) :: value :: rest) =
      (do read specs (← reading.add ⟨spec, [value]⟩) none rest) := by
  rw [read_name hspecs hspec (by rw [harity]; decide), read_value hvalue]
  simp only [harity, Arity.takesMore]
  rfl

theorem read_values_of_several (harity : given.spec.arity = .several) {values : List String}
    (hvalues : ∀ value ∈ values, value.toList.head? ≠ some '-') (reading : Reading)
    (rest : List String) :
    read specs reading (some given) (values ++ rest) =
      read specs reading (some ⟨given.spec, given.values ++ values⟩) rest := by
  induction values generalizing given with
  | nil => rw [List.nil_append, List.append_nil]
  | cons value values ih =>
      obtain ⟨hvalue, hvalues⟩ := List.forall_mem_cons.mp hvalues
      rw [List.cons_append, read_value hvalue, harity, Arity.takesMore, if_pos rfl]
      refine (ih ?_ hvalues).trans ?_
      · exact harity
      · rw [List.append_assoc, List.singleton_append]

/-- An option of several values is given all arguments up to the next option. -/
theorem read_option_of_several (hspecs : Distinct specs) (hspec : spec ∈ specs)
    (harity : spec.arity = .several) {values : List String}
    (hvalues : ∀ value ∈ values, value.toList.head? ≠ some '-') (reading : Reading)
    (rest : List String) :
    read specs reading none (("--" ++ spec.name) :: (values ++ rest)) =
      read specs reading (some ⟨spec, values⟩) rest := by
  rw [read_name hspecs hspec (by rw [harity]; decide)]
  refine read_values_of_several ?_ hvalues reading rest
  exact harity

/-! ## Whole readings -/

section

variable (honce : ∀ spec ∈ specs, spec.name = name → spec.arity.repeats = false)

include honce

theorem keeps_of_flush {open? : Option Given} (hopen : ∀ given ∈ open?, given.spec ∈ specs)
    (h : reading.flush open? = .ok after) : reading.Keeps after name := by
  cases open? with
  | none =>
      cases h
      exact .refl _ name
  | some given => exact Reading.keeps_of_add (honce _ (hopen given rfl)) h

theorem keeps_of_addLetters {argument : String} {letters : List Char}
    (h : reading.addLetters specs argument letters = .ok after) : reading.Keeps after name := by
  induction letters generalizing reading with
  | nil =>
      cases h
      exact .refl _ name
  | cons letter letters ih =>
      rw [Reading.addLetters] at h
      cases hfound : specs.find? (·.letter == some letter) with
      | none => simp [hfound] at h
      | some spec =>
          simp only [hfound] at h
          obtain ⟨middle, hadd, h⟩ := bind_eq_ok_iff.mp h
          have hmem := List.mem_of_find?_eq_some hfound
          exact (Reading.keeps_of_add (honce spec hmem) hadd).trans (ih h)

/-- An option that cannot be given again keeps its values up to the last argument. -/
theorem keeps_of_read {open? : Option Given} {arguments : List String}
    (hopen : ∀ given ∈ open?, given.spec ∈ specs)
    (h : read specs reading open? arguments = .ok after) : reading.Keeps after name := by
  induction arguments generalizing reading open? with
  | nil => exact keeps_of_flush honce hopen h
  | cons argument arguments ih =>
      have hnone : ∀ given ∈ (none : Option Given), given.spec ∈ specs := by simp
      have hvalue : ∀ given : Given, given.spec ∈ specs →
          (if given.spec.arity.takesMore (given.values ++ [argument]).length then
            read specs reading (some ⟨given.spec, given.values ++ [argument]⟩) arguments
          else do
            read specs (← reading.add ⟨given.spec, given.values ++ [argument]⟩) none arguments) =
              .ok after → reading.Keeps after name := by
        intro given hgiven h
        split at h
        · exact ih (by simpa using hgiven) h
        · obtain ⟨middle, hadd, h⟩ := bind_eq_ok_iff.mp h
          refine (Reading.keeps_of_add ?_ hadd).trans (ih hnone h)
          exact honce _ hgiven
      rw [read.eq_def] at h
      dsimp only at h
      split at h
      -- the end of the options
      · cases arguments with
        | nil => exact keeps_of_flush honce hopen h
        | cons extra rest => cases h
      -- an option with two hyphens
      · obtain ⟨middle, hflush, h⟩ := bind_eq_ok_iff.mp h
        refine (keeps_of_flush honce hopen hflush).trans ?_
        split at h
        · cases h
        · next spec hfound =>
          have hmem := List.mem_of_find?_eq_some hfound
          split at h
          · obtain ⟨next, hadd, h⟩ := bind_eq_ok_iff.mp h
            exact (Reading.keeps_of_add (honce spec hmem) hadd).trans (ih hnone h)
          · obtain ⟨next, hadd, h⟩ := bind_eq_ok_iff.mp h
            exact (Reading.keeps_of_add (honce spec hmem) hadd).trans (ih hnone h)
          · exact ih (by simpa using hmem) h
      -- letters behind one hyphen, or a negative number
      · cases open? with
        | none =>
            obtain ⟨next, hletters, h⟩ := bind_eq_ok_iff.mp h
            exact (keeps_of_addLetters honce hletters).trans (ih hnone h)
        | some given =>
            simp only at h
            split at h
            · exact hvalue given (hopen given rfl) h
            · obtain ⟨middle, hflush, h⟩ := bind_eq_ok_iff.mp h
              obtain ⟨next, hletters, h⟩ := bind_eq_ok_iff.mp h
              exact (keeps_of_flush honce hopen hflush).trans
                ((keeps_of_addLetters honce hletters).trans (ih hnone h))
      -- a value
      · cases open? with
        | none => cases h
        | some given => exact hvalue given (hopen given rfl) h

end

/-- An option of one value reads as the argument behind it, whatever is given after it. -/
theorem one?_of_read {rest : List String} (hspecs : Distinct specs) (hspec : spec ∈ specs)
    (harity : spec.arity = .one) (hvalue : value.toList.head? ≠ some '-')
    (h : read specs reading none (("--" ++ spec.name) :: value :: rest) = .ok after)
    (reader : String → Option α) :
    after.one? spec.name reader = (readValue spec.name reader value).map some := by
  rw [read_option_of_one hspecs hspec harity hvalue] at h
  obtain ⟨middle, hadd, h⟩ := bind_eq_ok_iff.mp h
  have honce : ∀ other ∈ specs, other.name = spec.name → other.arity.repeats = false := by
    intro other hother hname
    rw [hspecs.eq_of_name hspec hother hname, harity]
    rfl
  have hhas : middle.has spec.name = true := by
    obtain ⟨-, -, rfl⟩ := Reading.add_eq_ok_iff.mp hadd
    exact Reading.has_iff.mpr ⟨_, List.mem_cons_self, rfl⟩
  have hkeeps := keeps_of_read honce (by simp) h hhas
  rw [← Reading.one?_of_add hadd harity reader, Reading.one?, Reading.one?, Reading.several?,
    Reading.several?, hkeeps]

/-- An option of several values at the end reads as the arguments behind it, after the
values that were given for it before. -/
theorem several?_of_read {values : List String} (hspecs : Distinct specs) (hspec : spec ∈ specs)
    (harity : spec.arity = .several)
    (hvalues : ∀ value ∈ values, value.toList.head? ≠ some '-')
    (h : read specs reading none (("--" ++ spec.name) :: values) = .ok after)
    (reader : String → Option α) :
    after.several? spec.name reader =
      (((reading.values? spec.name).getD [] ++ values).mapM (readValue spec.name reader)).map
        some := by
  rw [← List.append_nil values, read_option_of_several hspecs hspec harity hvalues] at h
  have hadd : reading.add ⟨spec, values⟩ = .ok after := h
  obtain ⟨-, -, rfl⟩ := Reading.add_eq_ok_iff.mp hadd
  rw [Reading.several?, Reading.values?_cons, if_pos rfl]

end QuerySynth.Arguments
