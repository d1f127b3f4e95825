import PojoGraph.PojoSet

/-!
# Steps to the final set

The final set begins with the resolved schemas, of which some that are plain types may be left
out. Each further step but the last replaces references or passes on descriptions, type by type;
types keep their names and their order. What a type refers to, and the set does not have, is
reported unless it is excluded.

## Main statements

* `PojoSet.described_induction` — what replacements and descriptions keep holds before the last
  steps, if it holds of the resolved schemas.
* `names_ofResolved_sublist`, `names_describe` — types keep their names, and some are left out.
* `exists_danglingReference` — a reference to a type that the set does not have is reported.
-/

namespace PojoGraph

/-! ## Revisions of all types -/

/-- What each of several changes to all types keeps, they keep one after the other. -/
theorem Pojo.map_foldl_induction {α : Type} {P : List Pojo → Prop} {f : Pojo → α → Pojo}
    (hstep : ∀ a pojos, P pojos → P (pojos.map (f · a))) (as : List α) {pojos : List Pojo}
    (h : P pojos) : P (pojos.map fun pojo => as.foldl f pojo) := by
  induction as generalizing pojos with
  | nil => simpa using h
  | cons a rest ih =>
    have hrest := ih (hstep a pojos h)
    rw [List.map_map] at hrest
    exact hrest

/-- **What holds of the resolved types before names are mapped**: all that holds of any list of
them with all that are no plain types, and is kept where references are replaced and descriptions
passed on. -/
theorem PojoSet.described_induction {P : List Pojo → Prop} {entries : List Resolved}
    (inlining : ReferenceInlining)
    (hkept : ∀ pojos : List Pojo, (∀ pojo, .pojo pojo ∈ entries → pojo ∈ pojos) →
      (∀ pojo ∈ pojos, .pojo pojo ∈ entries ∨ ∃ plain : PlainMember, pojo = plain.toAlias) →
      P pojos)
    (hsubstitute : ∀ replacement pojos, P pojos → P (pojos.map (Pojo.substitute replacement)))
    (hdescribe : ∀ described pojos, P pojos → P (pojos.map (Pojo.describe described))) :
    P (ofResolved inlining entries).describe.pojos := by
  refine Pojo.map_foldl_induction hdescribe _ ?_
  cases inlining with
  | never =>
    refine hkept _ ?_ ?_
    · intro pojo hpojo
      exact List.mem_map.mpr ⟨_, hpojo, rfl⟩
    · intro pojo hpojo
      obtain ⟨resolved, hresolved, rfl⟩ := List.mem_map.mp hpojo
      cases resolved with
      | pojo pojo => exact .inl hresolved
      | plain plain => exact .inr ⟨plain, rfl⟩
  | simple =>
    refine Pojo.map_foldl_induction hsubstitute _ (hkept _ ?_ ?_)
    · intro pojo hpojo
      exact List.mem_filterMap.mpr ⟨_, hpojo, rfl⟩
    · intro pojo hpojo
      obtain ⟨resolved, hresolved, hkeep⟩ := List.mem_filterMap.mp hpojo
      cases resolved with
      | pojo pojo =>
        cases hkeep
        exact .inl hresolved
      | plain plain =>
        dsimp only at hkeep
        split at hkeep
        · cases hkeep
          exact .inr ⟨plain, rfl⟩
        · cases hkeep

/-! ## Names -/

/-- Revisions that keep names keep the name of a type, one after the other. -/
theorem Pojo.name_foldl {α : Type} {f : Pojo → α → Pojo}
    (hname : ∀ pojo a, (f pojo a).name = pojo.name) (as : List α) (pojo : Pojo) :
    (as.foldl f pojo).name = pojo.name := by
  induction as generalizing pojo with
  | nil => rfl
  | cons a rest ih => rw [List.foldl_cons, ih, hname]

/-- The types that a list of schemas leaves have names of these, in their order. -/
theorem names_filterMap_sublist {keep : Resolved → Option Pojo}
    (hname : ∀ resolved pojo, keep resolved = some pojo → pojo.name = resolved.name)
    (entries : List Resolved) :
    List.Sublist ((entries.filterMap keep).map (·.name)) (entries.map (·.name)) := by
  induction entries with
  | nil => exact .slnil
  | cons resolved rest ih =>
    cases hkeep : keep resolved with
    | none =>
      rw [List.filterMap_cons_none hkeep]
      exact ih.cons _
    | some pojo =>
      rw [List.filterMap_cons_some hkeep, List.map_cons, List.map_cons, hname resolved pojo hkeep]
      exact ih.cons_cons _

/-- **Types have the names of the schemas that they come from**, in their order; under `simple`
some schemas are left out. -/
theorem names_ofResolved_sublist (inlining : ReferenceInlining) (entries : List Resolved) :
    List.Sublist ((PojoSet.ofResolved inlining entries).pojos.map (·.name))
      (entries.map (·.name)) := by
  cases inlining with
  | never =>
    have hnames : (keepPlains entries).pojos.map (·.name) = entries.map (·.name) := by
      rw [keepPlains, List.map_map]
      refine List.map_congr_left fun resolved _ => ?_
      cases resolved <;> rfl
    exact hnames ▸ List.Sublist.refl _
  | simple =>
    rw [PojoSet.ofResolved, inlinePlains, List.map_map]
    have hfold : (fun pojo : Pojo => pojo.name) ∘ (fun pojo =>
        (Replacement.ofPlains (plainMembers entries)).foldl
          (fun pojo replacement => pojo.substitute replacement) pojo) = (·.name) := by
      funext pojo
      exact Pojo.name_foldl (fun pojo replacement => pojo.name_substitute replacement) _ pojo
    rw [hfold]
    refine names_filterMap_sublist ?_ entries
    intro resolved pojo hkeep
    cases resolved with
    | pojo p => cases hkeep; rfl
    | plain plain =>
      dsimp only at hkeep
      split at hkeep
      · cases hkeep
        rfl
      · cases hkeep

theorem names_describe (set : PojoSet) :
    set.describe.pojos.map (·.name) = set.pojos.map (·.name) := by
  rw [PojoSet.describe, attachDescriptions, List.map_map]
  refine List.map_congr_left fun pojo _ => ?_
  exact Pojo.name_foldl (fun pojo described => pojo.name_describe described) _ pojo

/-! ## References -/

/-- Each key of a list is kept once. -/
theorem exists_mem_distinctNames {seen : List String} {names : List PojoName} {name : PojoName}
    (h : name ∈ names) (hseen : name.key ∉ seen) :
    ∃ kept ∈ distinctNames seen names, kept.key = name.key := by
  induction names generalizing seen with
  | nil => cases h
  | cons first rest ih =>
    by_cases hfirst : first.key ∈ seen
    · rw [distinctNames, if_pos hfirst]
      rcases List.mem_cons.mp h with rfl | hrest
      · exact absurd hfirst hseen
      · exact ih hrest hseen
    · rw [distinctNames, if_neg hfirst]
      by_cases hsame : first.key = name.key
      · exact ⟨first, List.mem_cons_self, hsame⟩
      · have hrest : name ∈ rest := by
          rcases List.mem_cons.mp h with rfl | hrest
          · exact absurd rfl hsame
          · exact hrest
        have hnew : name.key ∉ first.key :: seen := by
          simp [hseen, Ne.symm hsame]
        obtain ⟨kept, hkept, hkey⟩ := ih hrest hnew
        exact ⟨kept, List.mem_cons_of_mem _ hkept, hkey⟩

/-- **A reference to a type that is neither in the set nor excluded is reported** for the type
that has it, under its key. -/
theorem exists_danglingReference {exclusion : Exclusion} {pojos : List Pojo} {pojo : Pojo}
    {name : PojoName} (hpojo : pojo ∈ pojos) (hname : name ∈ pojo.references)
    (hdefined : ∀ other ∈ pojos, other.name.key ≠ name.key)
    (hexcluded : exclusion.excludes name.raw = false) :
    ∃ reported, reported.key = name.key
      ∧ .danglingReference pojo.name reported ∈ danglingReferences exclusion pojos := by
  have hmem : name ∈ pojo.references.filter fun name =>
      !(pojos.map (·.name.key)).contains name.key && !exclusion.excludes name.raw := by
    simpa [hname, hexcluded] using hdefined
  obtain ⟨reported, hreported, hkey⟩ := exists_mem_distinctNames hmem (List.not_mem_nil)
  exact ⟨reported, hkey, List.mem_flatMap.mpr ⟨pojo, hpojo, List.mem_map_of_mem hreported⟩⟩

end PojoGraph
