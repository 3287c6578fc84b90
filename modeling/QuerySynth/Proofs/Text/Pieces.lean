import Mathlib.Data.List.DropRight
import QuerySynth.Text.Pieces

/-!
# Pieces and trimmed texts

* Cutting at a character is a homomorphism: the pieces of two texts with a
  separator between them are the pieces of the first and those of the second.
* A text is solid if it has something in it and no blank at either end.  These are
  the texts that trimming leaves alone, and what trimming leaves of a text is solid
  or nothing.
-/

namespace QuerySynth.Text

variable {sep c : Char} {text piece : List Char}

/-! ## Cutting at a character -/

@[simp]
theorem piecesAt_nil (sep : Char) : piecesAt sep [] = [[]] := rfl

theorem piecesAt_cons_self (sep : Char) (text : List Char) :
    piecesAt sep (sep :: text) = [] :: piecesAt sep text := by
  simp [piecesAt]

theorem piecesAt_cons_of_ne (h : c ≠ sep) (text : List Char) :
    piecesAt sep (c :: text) = consPiece c (piecesAt sep text) := by
  simp [piecesAt, h]

theorem exists_piecesAt_eq_cons (sep : Char) (text : List Char) :
    ∃ first others, piecesAt sep text = first :: others := by
  induction text with
  | nil => exact ⟨[], [], rfl⟩
  | cons c text ih =>
      by_cases hc : c = sep
      · subst hc
        exact ⟨[], _, piecesAt_cons_self c text⟩
      · obtain ⟨first, others, heq⟩ := ih
        refine ⟨c :: first, others, ?_⟩
        rw [piecesAt_cons_of_ne hc, heq]
        rfl

theorem piecesAt_append (sep : Char) (a b : List Char) :
    piecesAt sep (a ++ sep :: b) = piecesAt sep a ++ piecesAt sep b := by
  induction a with
  | nil => exact piecesAt_cons_self sep b
  | cons c a ih =>
      by_cases hc : c = sep
      · subst hc
        rw [List.cons_append, piecesAt_cons_self, piecesAt_cons_self, ih, List.cons_append]
      · obtain ⟨first, others, heq⟩ := exists_piecesAt_eq_cons sep a
        rw [List.cons_append, piecesAt_cons_of_ne hc, piecesAt_cons_of_ne hc, ih, heq]
        rfl

theorem piecesAt_of_not_mem (h : sep ∉ text) : piecesAt sep text = [text] := by
  induction text with
  | nil => rfl
  | cons c text ih =>
      obtain ⟨hne, htext⟩ := List.ne_and_not_mem_of_not_mem_cons h
      rw [piecesAt_cons_of_ne hne.symm, ih htext]
      rfl

theorem piecesAt_intercalate {sep : Char} {texts : List (List Char)} (hne : texts ≠ [])
    (h : ∀ text ∈ texts, sep ∉ text) : piecesAt sep ([sep].intercalate texts) = texts := by
  induction texts with
  | nil => exact absurd rfl hne
  | cons text texts ih =>
      obtain ⟨htext, htexts⟩ := List.forall_mem_cons.mp h
      cases texts with
      | nil => rw [List.intercalate_singleton, piecesAt_of_not_mem htext]
      | cons next texts =>
          rw [List.intercalate_cons_cons, List.append_assoc, List.singleton_append,
            piecesAt_append, ih (List.cons_ne_nil _ _) htexts, piecesAt_of_not_mem htext]
          rfl

/-- A piece is made of characters of the text, and the separator is not one of
them. -/
theorem mem_of_mem_piecesAt (h : piece ∈ piecesAt sep text) :
    ∀ c ∈ piece, c ∈ text ∧ c ≠ sep := by
  induction text generalizing piece with
  | nil =>
      rw [List.mem_singleton.mp h]
      exact nofun
  | cons d text ih =>
      have hbehind : ∀ {piece : List Char}, piece ∈ piecesAt sep text →
          ∀ c ∈ piece, c ∈ d :: text ∧ c ≠ sep := by
        intro piece hpiece c hc
        exact ⟨List.mem_cons_of_mem _ (ih hpiece c hc).1, (ih hpiece c hc).2⟩
      by_cases hd : d = sep
      · subst hd
        rw [piecesAt_cons_self] at h
        rcases List.mem_cons.mp h with rfl | h
        · exact nofun
        · exact hbehind h
      · obtain ⟨first, others, heq⟩ := exists_piecesAt_eq_cons sep text
        rw [piecesAt_cons_of_ne hd, heq] at h
        rw [heq] at hbehind
        rcases List.mem_cons.mp h with rfl | h
        · refine List.forall_mem_cons.mpr ⟨⟨List.mem_cons_self, hd⟩, ?_⟩
          exact hbehind List.mem_cons_self
        · exact hbehind (List.mem_cons_of_mem _ h)

/-! ## Trimming -/

/-- There is something in the text, and no blank at either end. -/
structure Solid (text : List Char) : Prop where
  opens : ∃ c rest, text = c :: rest ∧ isBlank c = false
  closes : ∃ front c, text = front ++ [c] ∧ isBlank c = false

theorem Solid.ne_nil (h : Solid text) : text ≠ [] := by
  obtain ⟨c, rest, rfl, -⟩ := h.opens
  exact List.cons_ne_nil c rest

/-- Solid texts can be put together with anything between them. -/
theorem Solid.append_append {a b : List Char} (ha : Solid a) (hb : Solid b)
    (between : List Char) : Solid (a ++ between ++ b) := by
  obtain ⟨c, rest, rfl, hc⟩ := ha.opens
  obtain ⟨front, d, rfl, hd⟩ := hb.closes
  exact ⟨⟨c, rest ++ between ++ (front ++ [d]), by simp, hc⟩,
    ⟨c :: rest ++ between ++ front, d, by simp, hd⟩⟩

theorem Solid.append_of_getLast? {a b : List Char} (ha : Solid a)
    (hb : ∀ c ∈ b.getLast?, isBlank c = false) : Solid (a ++ b) := by
  obtain ⟨c, rest, hopens, hc⟩ := ha.opens
  refine ⟨⟨c, rest ++ b, by rw [hopens, List.cons_append], hc⟩, ?_⟩
  by_cases hnil : b = []
  · rw [hnil, List.append_nil]
    exact ha.closes
  · refine ⟨a ++ b.dropLast, b.getLast hnil, ?_, hb _ (List.getLast?_eq_some_getLast hnil)⟩
    rw [List.append_assoc, List.dropLast_append_getLast hnil]

/-- Letters and digits have codes from that of `0` to that of `z`, where there are no
blanks. -/
theorem isBlank_eq_false_of_isAlphanum (h : c.isAlphanum = true) : isBlank c = false := by
  have hrange : '0'.val ≤ c.val ∧ c.val ≤ 'z'.val := by
    have hsort : (decide (65 ≤ c.val ∧ c.val ≤ 90) ||
        decide (97 ≤ c.val) && decide (c.val ≤ 122) ||
        decide (48 ≤ c.val) && decide (c.val ≤ 57)) = true := h
    simp only [Bool.or_eq_true, Bool.and_eq_true, decide_eq_true_eq] at hsort
    rcases hsort with (⟨hlow, hhigh⟩ | ⟨hlow, hhigh⟩) | ⟨hlow, hhigh⟩
    · exact ⟨UInt32.le_trans (by decide) hlow, UInt32.le_trans hhigh (by decide)⟩
    · exact ⟨UInt32.le_trans (by decide) hlow, hhigh⟩
    · exact ⟨hlow, UInt32.le_trans hhigh (by decide)⟩
  have hlow : 48 ≤ c.toNat := UInt32.le_iff_toNat_le.mp hrange.1
  have hhigh : c.toNat ≤ 122 := UInt32.le_iff_toNat_le.mp hrange.2
  simp only [isBlank, Bool.or_eq_false_iff, Bool.and_eq_false_iff, decide_eq_false_iff_not,
    beq_eq_false_iff_ne]
  omega

theorem solid_of_not_any_isBlank (hne : text ≠ []) (h : text.any isBlank = false) :
    Solid text := by
  have hblank : ∀ c ∈ text, isBlank c = false := by simpa using h
  obtain ⟨c, rest, hcons⟩ := List.exists_cons_of_ne_nil hne
  exact ⟨⟨c, rest, hcons, hblank c (by simp [hcons])⟩,
    ⟨_, _, (List.dropLast_append_getLast hne).symm, hblank _ (List.getLast_mem hne)⟩⟩

theorem solid_intercalate {texts : List (List Char)} (hne : texts ≠ [])
    (h : ∀ text ∈ texts, Solid text) (between : List Char) :
    Solid (between.intercalate texts) := by
  induction texts with
  | nil => exact absurd rfl hne
  | cons text texts ih =>
      obtain ⟨htext, htexts⟩ := List.forall_mem_cons.mp h
      cases texts with
      | nil =>
          rw [List.intercalate_singleton]
          exact htext
      | cons next texts =>
          rw [List.intercalate_cons_cons]
          exact htext.append_append (ih (List.cons_ne_nil _ _) htexts) between

theorem not_mem_intercalate {texts : List (List Char)} {between : List Char}
    (hbetween : c ∉ between) (h : ∀ text ∈ texts, c ∉ text) : c ∉ between.intercalate texts := by
  induction texts with
  | nil => exact nofun
  | cons text texts ih =>
      obtain ⟨htext, htexts⟩ := List.forall_mem_cons.mp h
      cases texts with
      | nil =>
          rw [List.intercalate_singleton]
          exact htext
      | cons next texts =>
          rw [List.intercalate_cons_cons, List.mem_append, List.mem_append]
          exact not_or.mpr ⟨not_or.mpr ⟨htext, hbetween⟩, ih htexts⟩

theorem trimEnd_eq_rdropWhile (text : List Char) : trimEnd text = text.rdropWhile isBlank := rfl

theorem trim_of_solid (h : Solid text) : trim text = text := by
  obtain ⟨c, rest, hopens, hc⟩ := h.opens
  have hstart : trimStart text = text := by
    rw [hopens, trimStart, List.dropWhile_cons_of_neg (by simp [hc])]
  obtain ⟨front, d, hcloses, hd⟩ := h.closes
  rw [trim, hstart, trimEnd_eq_rdropWhile, hcloses]
  exact List.rdropWhile_concat_neg isBlank front d (by simp [hd])

theorem trim_cons_of_isBlank (h : isBlank c = true) (text : List Char) :
    trim (c :: text) = trim text := by
  rw [trim, trimStart, List.dropWhile_cons_of_pos h]
  rfl

theorem mem_of_mem_trim (h : c ∈ trim text) : c ∈ text :=
  (List.dropWhile_suffix isBlank).subset ((List.rdropWhile_prefix isBlank _).subset h)

/-- What trimming leaves still opens where it opened before its end was trimmed. -/
theorem trim_eq_nil_or_solid (text : List Char) : trim text = [] ∨ Solid (trim text) := by
  by_cases htrim : trim text = []
  · exact .inl htrim
  obtain ⟨c, rest, hcons⟩ := List.exists_cons_of_ne_nil htrim
  obtain ⟨dropped, hdropped⟩ := List.rdropWhile_prefix isBlank (trimStart text)
  have hstart : text.dropWhile isBlank = c :: (rest ++ dropped) := by
    rw [← List.cons_append, ← hcons]
    exact hdropped.symm
  have hopens := List.head?_dropWhile_not isBlank text
  rw [hstart] at hopens
  have hcloses := List.rdropWhile_last_not isBlank (trimStart text) htrim
  exact .inr ⟨⟨c, rest, hcons, hopens⟩,
    ⟨_, _, (List.dropLast_append_getLast htrim).symm, Bool.eq_false_iff.mpr hcloses⟩⟩

/-! ## Trimmed pieces -/

theorem trimmed_append (a b : List (List Char)) : trimmed (a ++ b) = trimmed a ++ trimmed b := by
  simp [trimmed]

theorem trimmed_of_solid (h : Solid text) : trimmed [text] = [text] := by
  simp [trimmed, trim_of_solid h, h.ne_nil]

theorem trimmed_consPiece_of_isBlank (h : isBlank c = true) (pieces : List (List Char)) :
    trimmed (consPiece c pieces) = trimmed pieces := by
  cases pieces with
  | nil =>
      have htrim : trim [c] = [] := trim_cons_of_isBlank h []
      simp [trimmed, consPiece, htrim]
  | cons piece pieces => simp [trimmed, consPiece, trim_cons_of_isBlank h]

end QuerySynth.Text
