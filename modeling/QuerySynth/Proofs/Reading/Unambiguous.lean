/-!
# Texts that can be read back from the front

`Unambiguous valid follows text` says that a value can be told from its text where
the text goes on: of two values whose texts go on to the same text, both the
values and what follows are the same.

* `valid` limits the values, and `follows` limits what stands behind them; the
  text of a word, for one, needs something behind it that does not go on the word.
* Such texts are put together from prefix-free codes, runs of one sort of
  character, and lists with a separator in front of every further item.
* It is a property of the written form alone; no reader is defined.
-/

namespace QuerySynth

variable {α : Type}

/-- Valid values, and what follows them, can be told from the text. -/
def Unambiguous (valid : α → Prop) (follows : List Char → Prop) (text : α → List Char) : Prop :=
  ∀ a b u v, valid a → valid b → follows u → follows v → text a ++ u = text b ++ v →
    a = b ∧ u = v

/-- No text of the code is the front of another. -/
def PrefixFree (code : α → List Char) : Prop := ∀ a b, code a <+: code b → a = b

/-- A prefix-free code can be read whatever stands behind it. -/
theorem PrefixFree.append_inj {code : α → List Char} (hcode : PrefixFree code) {a b : α}
    {u v : List Char} (h : code a ++ u = code b ++ v) : a = b ∧ u = v := by
  have hfront : code a <+: code b ++ v := ⟨u, h⟩
  have hab : a = b := by
    rcases List.prefix_or_prefix_of_prefix hfront (List.prefix_append (code b) v) with hab | hba
    · exact hcode a b hab
    · exact (hcode b a hba).symm
  subst hab
  exact ⟨rfl, List.append_cancel_left h⟩

/-- The text does not go on with a character of the sort. -/
def StopsAt (sort : Char → Bool) (u : List Char) : Prop := ∀ c ∈ u.head?, sort c = false

theorem stopsAt_nil (sort : Char → Bool) : StopsAt sort [] := nofun

theorem stopsAt_cons {sort : Char → Bool} {c : Char} {u : List Char} (hc : sort c = false) :
    StopsAt sort (c :: u) := by
  intro d hd
  cases hd
  exact hc

/-- A run of one sort of characters ends where the sort does. -/
theorem unambiguous_run (sort : Char → Bool) :
    Unambiguous (fun run => ∀ c ∈ run, sort c = true) (StopsAt sort) id := by
  intro a
  induction a with
  | nil =>
      intro b u v _ hb hu hv h
      cases b with
      | nil => exact ⟨rfl, h⟩
      | cons c b =>
          have huc : u = c :: (b ++ v) := h
          have hstop : sort c = false := hu c (by rw [huc]; rfl)
          rw [hb c List.mem_cons_self] at hstop
          cases hstop
  | cons c a ih =>
      intro b u v ha hb hu hv h
      cases b with
      | nil =>
          have hvc : v = c :: (a ++ u) := h.symm
          have hstop : sort c = false := hv c (by rw [hvc]; rfl)
          rw [ha c List.mem_cons_self] at hstop
          cases hstop
      | cons d b =>
          obtain ⟨hcd, htail⟩ := List.cons.inj h
          obtain ⟨hab, huv⟩ := ih b u v (fun x hx => ha x (List.mem_cons_of_mem _ hx))
            (fun x hx => hb x (List.mem_cons_of_mem _ hx)) hu hv htail
          exact ⟨by rw [hcd, hab], huv⟩

/-! ## Lists -/

section Lists

variable {valid : α → Prop} {follows final : List Char → Prop} {text : α → List Char}
  {sep : List Char}

/-- Texts with a separator in front of each.  Behind the last of them comes
something that does not look like a separator. -/
theorem Unambiguous.flatMap (h : Unambiguous valid follows text)
    (hfinal : ∀ u, final u → follows u ∧ ¬ sep <+: u)
    (hnext : ∀ a u, valid a → follows (sep ++ text a ++ u)) :
    Unambiguous (fun items : List α => ∀ a ∈ items, valid a) final
      (fun items => items.flatMap fun a => sep ++ text a) := by
  -- whether the list ends or goes on, an item is followed by what may follow it
  have hbehind : ∀ (items : List α) (u : List Char), (∀ a ∈ items, valid a) → final u →
      follows ((items.flatMap fun a => sep ++ text a) ++ u) := by
    intro items u hitems hu
    cases items with
    | nil => exact (hfinal u hu).1
    | cons a items =>
        rw [List.flatMap_cons, List.append_assoc]
        exact hnext a _ (hitems a List.mem_cons_self)
  have hends : ∀ (a : α) (items : List α) (u v : List Char), final u →
      u ≠ ((a :: items).flatMap fun a => sep ++ text a) ++ v := by
    intro a items u v hu heq
    rw [List.flatMap_cons, List.append_assoc, List.append_assoc] at heq
    exact (hfinal u hu).2 ⟨_, heq.symm⟩
  intro items
  induction items with
  | nil =>
      intro others u v _ hothers hu hv heq
      cases others with
      | nil => exact ⟨rfl, heq⟩
      | cons b others => exact absurd heq (hends b others u v hu)
  | cons a items ih =>
      intro others u v hitems hothers hu hv heq
      cases others with
      | nil => exact absurd heq.symm (hends a items v u hv)
      | cons b others =>
          obtain ⟨ha, hitems⟩ := List.forall_mem_cons.mp hitems
          obtain ⟨hb, hothers⟩ := List.forall_mem_cons.mp hothers
          simp only [List.flatMap_cons, List.append_assoc] at heq
          obtain ⟨hab, htail⟩ := h a b _ _ ha hb (hbehind items u hitems hu)
            (hbehind others v hothers hv) (List.append_cancel_left heq)
          obtain ⟨hrest, huv⟩ := ih others u v hitems hothers hu hv htail
          exact ⟨by rw [hab, hrest], huv⟩

theorem intercalate_map_cons (a : α) (items : List α) :
    sep.intercalate ((a :: items).map text) =
      text a ++ items.flatMap fun b => sep ++ text b := by
  induction items generalizing a with
  | nil => simp [List.intercalate_singleton]
  | cons b items ih =>
      rw [List.map_cons, List.map_cons, List.intercalate_cons_cons, ← List.map_cons, ih,
        List.flatMap_cons]
      simp only [List.append_assoc]

/-- Texts with a separator between each two, at least one of them. -/
theorem Unambiguous.intercalate (h : Unambiguous valid follows text)
    (hfinal : ∀ u, final u → follows u ∧ ¬ sep <+: u)
    (hnext : ∀ a u, valid a → follows (sep ++ text a ++ u)) :
    Unambiguous (fun items : List α => items ≠ [] ∧ ∀ a ∈ items, valid a) final
      (fun items => sep.intercalate (items.map text)) := by
  rintro items others u v ⟨hitems, hvalid⟩ ⟨hothers, hvalid'⟩ hu hv heq
  -- a separator put in front of both lists makes them lists of the other form
  have hfront : ∀ items : List α, items ≠ [] →
      sep ++ sep.intercalate (items.map text) = items.flatMap fun a => sep ++ text a := by
    intro items hne
    cases items with
    | nil => exact absurd rfl hne
    | cons a items =>
        rw [intercalate_map_cons, List.flatMap_cons, List.append_assoc]
  refine h.flatMap hfinal hnext items others u v hvalid hvalid' hu hv ?_
  show (items.flatMap fun a => sep ++ text a) ++ u = (others.flatMap fun a => sep ++ text a) ++ v
  rw [← hfront items hitems, ← hfront others hothers, List.append_assoc, List.append_assoc]
  exact congrArg (sep ++ ·) heq

end Lists

end QuerySynth
