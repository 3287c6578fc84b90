import QuerySynth.Config.Basic
import QuerySynth.Proofs.Declaration
import QuerySynth.Proofs.Random.Range

/-!
# Names of generated pools

Every name of a generated pool has at least one character and at most as many as
the limit allows, all of them letters or digits.
-/

namespace QuerySynth.Pool

open Draw

/-- A name that can be drawn under the limit. -/
structure IsName (limit : Nat) (name : String) : Prop where
  length_pos : 0 < name.toList.length
  length_le : name.toList.length ≤ limit
  letters : ∀ c ∈ name.toList, c ∈ alphabet

theorem isAlphanum_of_mem_alphabet {c : Char} (h : c ∈ alphabet) : c.isAlphanum = true := by
  have hall : alphabet.all Char.isAlphanum = true := by decide +kernel
  exact List.all_eq_true.mp hall c h

theorem getD_mem_alphabet (i : Nat) : alphabet.getD i 'A' ∈ alphabet := by
  rw [List.getD_eq_getElem?_getD]
  cases hfound : alphabet[i]? with
  | none => decide
  | some c => exact List.mem_of_getElem? hfound

variable {σ : Type} [WordSource σ] {limit : Nat}

theorem drawLetter_mem {c : Char} (h : Yields (drawLetter : Draw σ Char) c) : c ∈ alphabet := by
  obtain ⟨i, -, h⟩ := yields_bind h
  rw [yields_pure h]
  exact getD_mem_alphabet i

theorem drawLetters_spec {n : Nat} {letters : List Char}
    (h : Yields (drawLetters n : Draw σ (List Char)) letters) :
    letters.length = n ∧ ∀ c ∈ letters, c ∈ alphabet := by
  induction n generalizing letters with
  | zero =>
      rw [yields_pure h]
      exact ⟨rfl, nofun⟩
  | succ n ih =>
      obtain ⟨letter, hletter, h⟩ := yields_bind h
      obtain ⟨rest, hrest, h⟩ := yields_bind h
      obtain ⟨hlength, hletters⟩ := ih hrest
      rw [yields_pure h]
      exact ⟨congrArg Nat.succ hlength,
        List.forall_mem_cons.mpr ⟨drawLetter_mem hletter, hletters⟩⟩

theorem drawName_isName {name : String} (hlimit : 0 < limit)
    (h : Yields (drawName limit : Draw σ String) name) : IsName limit name := by
  obtain ⟨length, hlength, h⟩ := yields_bind h
  obtain ⟨letters, hletters, h⟩ := yields_bind h
  have hlt : length < limit := below64_lt hlimit hlength
  obtain ⟨hcount, hmem⟩ := drawLetters_spec hletters
  have htext : name.toList = letters := by rw [yields_pure h, String.toList_ofList]
  exact ⟨by rw [htext]; omega, by rw [htext]; omega, by rw [htext]; exact hmem⟩

theorem drawFresh_isName {seen : Std.TreeSet String} {name : String} (hlimit : 0 < limit)
    (h : Yields (drawFresh limit seen : Draw σ String) name) : IsName limit name := by
  obtain ⟨drawn, hdrawn, h⟩ := yields_bind (yields_retry h)
  have hfresh := yields_pure h
  split at hfresh
  · cases hfresh
  · rw [Option.some.inj hfresh]
    exact drawName_isName hlimit hdrawn

theorem drawDistinct_isName {seen : Std.TreeSet String} {n : Nat} {names : List String}
    (hlimit : 0 < limit) (h : Yields (drawDistinct limit seen n : Draw σ (List String)) names) :
    ∀ name ∈ names, IsName limit name := by
  induction n generalizing seen names with
  | zero =>
      rw [yields_pure h]
      exact nofun
  | succ n ih =>
      obtain ⟨name, hname, h⟩ := yields_bind h
      obtain ⟨rest, hrest, h⟩ := yields_bind h
      rw [yields_pure h]
      exact List.forall_mem_cons.mpr ⟨drawFresh_isName hlimit hname, ih hrest⟩

/-- Every name of a generated pool could be drawn under its limit. -/
theorem generate_isName {sizes : PoolSizes} {pool : Pool}
    (h : Succeeds (generate sizes limit : Filling σ Pool) pool) (kind : Kind) :
    ∀ name ∈ pool.names.get kind, IsName limit name := by
  obtain ⟨hlimit, h⟩ := succeeds_guard h
  obtain ⟨names, hnames, rfl⟩ := succeeds_bind_pure h
  obtain ⟨-, hkind⟩ := succeeds_guard (PerKind.succeeds_generate hnames kind)
  exact drawDistinct_isName (Nat.pos_of_ne_zero hlimit) (succeeds_lift hkind)

end QuerySynth.Pool
