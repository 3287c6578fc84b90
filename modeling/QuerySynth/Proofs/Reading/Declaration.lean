import QuerySynth.Proofs.Declaration
import QuerySynth.Proofs.Reading.Word

/-!
# Reading the declaration line back

The declarations of plain names can be told from their line.  The kinds come in a
fixed order, so all there is to see in front of a group is whether it is that of
the next kind: the rest of the line opens with the keyword of a later kind, or is
empty.
-/

namespace QuerySynth

theorem Kind.keyword_prefixFree : PrefixFree fun kind : Kind => kind.keyword.toList ++ [' '] := by
  have hall : ∀ a ∈ all, ∀ b ∈ all,
      a.keyword.toList ++ [' '] <+: b.keyword.toList ++ [' '] → a = b := by
    decide
  exact fun a b => hall a a.mem_all b b.mem_all

namespace Declarations

/-- The bare names of all declared synonyms are plain. -/
def Plain (declared : Declarations) : Prop := ∀ s, declared.contains s = true → s.Plain

theorem renderKind_of_eq_nil {declared : Declarations} {kind : Kind}
    (h : declared.ofKind kind = []) : (declared.renderKind kind).toList = [] := by
  rw [renderKind, h]
  rfl

theorem renderKind_of_ne_nil {declared : Declarations} {kind : Kind}
    (h : declared.ofKind kind ≠ []) :
    (declared.renderKind kind).toList = (kind.keyword.toList ++ [' ']) ++
      (", ".toList.intercalate ((declared.ofKind kind).map fun s => s.render.toList) ++
        [';', ' ']) := by
  unfold renderKind
  split
  · next hnil => exact absurd hnil h
  · simp only [String.toList_append, String.toList_intercalate, List.map_map, List.append_assoc]
    rfl

/-- The synonyms of a group, up to the semicolon. -/
theorem unambiguous_synonyms :
    Unambiguous (fun synonyms : List Synonym => synonyms ≠ [] ∧ ∀ s ∈ synonyms, s.Plain)
      (fun u => ∃ w, u = ';' :: w)
      (fun synonyms => ", ".toList.intercalate (synonyms.map fun s => s.render.toList)) := by
  refine Synonym.unambiguous.intercalate ?_ fun _ _ _ => stopsAt_cons (by decide)
  rintro u ⟨w, rfl⟩
  exact ⟨stopsAt_cons (by decide), by simp⟩

/-- The groups of some kinds, one after the other. -/
def groups (declared : Declarations) (kinds : List Kind) : List Char :=
  kinds.flatMap fun kind => (declared.renderKind kind).toList

theorem groups_cons (declared : Declarations) (kind : Kind) (kinds : List Kind) :
    declared.groups (kind :: kinds) = (declared.renderKind kind).toList ++ declared.groups kinds :=
  List.flatMap_cons

/-- The groups of other kinds do not open with the keyword of this one. -/
theorem not_keyword_opens_groups {declared : Declarations} {kind : Kind} {kinds : List Kind}
    (hkind : kind ∉ kinds) : ¬ kind.keyword.toList ++ [' '] <+: declared.groups kinds := by
  induction kinds with
  | nil =>
      intro hfront
      exact absurd (List.prefix_nil.mp hfront) (List.append_ne_nil_of_right_ne_nil _ (by decide))
  | cons other kinds ih =>
      obtain ⟨hne, hkind⟩ := List.ne_and_not_mem_of_not_mem_cons hkind
      rw [groups_cons]
      by_cases hnone : declared.ofKind other = []
      · rw [renderKind_of_eq_nil hnone]
        exact ih hkind
      · rw [renderKind_of_ne_nil hnone, List.append_assoc (_ ++ [' '])]
        rintro ⟨rest, hrest⟩
        exact hne (Kind.keyword_prefixFree.append_inj hrest).1

/-- A group, or its absence, can be told in front of the groups of other kinds. -/
theorem Plain.renderKind_append_inj {a b : Declarations} (ha : a.Plain) (hb : b.Plain)
    {kind : Kind} {kinds : List Kind} (hkind : kind ∉ kinds)
    (h : (a.renderKind kind).toList ++ a.groups kinds =
      (b.renderKind kind).toList ++ b.groups kinds) :
    a.ofKind kind = b.ofKind kind ∧ a.groups kinds = b.groups kinds := by
  by_cases hnone : a.ofKind kind = []
  · by_cases hnone' : b.ofKind kind = []
    · rw [renderKind_of_eq_nil hnone, renderKind_of_eq_nil hnone'] at h
      exact ⟨hnone.trans hnone'.symm, h⟩
    · rw [renderKind_of_eq_nil hnone, renderKind_of_ne_nil hnone'] at h
      exact absurd ⟨_, (h.trans (List.append_assoc _ _ _)).symm⟩ (not_keyword_opens_groups hkind)
  · by_cases hnone' : b.ofKind kind = []
    · rw [renderKind_of_ne_nil hnone, renderKind_of_eq_nil hnone'] at h
      exact absurd ⟨_, (List.append_assoc _ _ _).symm.trans h⟩ (not_keyword_opens_groups hkind)
    · rw [renderKind_of_ne_nil hnone, renderKind_of_ne_nil hnone'] at h
      simp only [List.append_assoc] at h
      have hgroup := List.append_cancel_left (List.append_cancel_left h)
      obtain ⟨hsynonyms, hrest⟩ := unambiguous_synonyms _ _ _ _
        ⟨hnone, fun s hs => ha s (contains_of_mem_ofKind hs)⟩
        ⟨hnone', fun s hs => hb s (contains_of_mem_ofKind hs)⟩ ⟨_, rfl⟩ ⟨_, rfl⟩ hgroup
      exact ⟨hsynonyms, (List.cons.inj (List.cons.inj hrest).2).2⟩

/-- Equal groups, in the same order of kinds, declare the same. -/
theorem Plain.ofKind_eq_of_groups_eq {a b : Declarations} (ha : a.Plain) (hb : b.Plain)
    {kinds : List Kind} (hkinds : kinds.Nodup) (h : a.groups kinds = b.groups kinds) :
    ∀ kind ∈ kinds, a.ofKind kind = b.ofKind kind := by
  induction kinds with
  | nil => exact nofun
  | cons kind kinds ih =>
      obtain ⟨hkind, hkinds⟩ := List.nodup_cons.mp hkinds
      rw [groups_cons, groups_cons] at h
      obtain ⟨heq, hrest⟩ := ha.renderKind_append_inj hb hkind h
      exact List.forall_mem_cons.mpr ⟨heq, ih hkinds hrest⟩

/-- Plain declarations with the same line are the same. -/
theorem Plain.render_inj {a b : Declarations} (ha : a.Plain) (hb : b.Plain)
    (h : a.render = b.render) : a = b := by
  have hline := congrArg String.toList h
  simp only [render, String.toList_join, List.flatMap_map] at hline
  have hofKind := ha.ofKind_eq_of_groups_eq hb Kind.all_nodup hline
  have hnames : a.names = b.names := by
    ext1 kind
    have hmap := congrArg (List.map Synonym.name) (hofKind kind kind.mem_all)
    simpa [ofKind, Function.comp_def] using hmap
  cases a
  cases b
  exact congrArg Declarations.mk hnames

end Declarations

end QuerySynth
