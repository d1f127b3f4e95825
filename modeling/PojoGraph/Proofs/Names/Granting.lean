import PojoGraph.Proofs.Names.Claiming

/-!
# Names claimed as they are

A list of names is granted if claiming them in order gives each name itself, so that none gets a
number. This is so if and only if the names have different keys, none of which is taken before.
So the order of the names does not matter, nor does the order of those taken before.

## Main definitions

* `Registry.Grants` — all names of a list are claimed as they are.

## Main statements

* `Registry.grants_iff` — which lists of names are granted.
* `Registry.Grants.of_perm` — the order of names does not matter.
-/

namespace PojoGraph

namespace Registry

variable {registry registry' : Registry} {name : PojoName} {names names' others : List PojoName}

/-- All names of the list are claimed as they are. -/
def Grants (registry : Registry) (names : List PojoName) : Prop :=
  (registry.claimAll names).1 = names

theorem choose_eq_self_iff : registry.choose name = name ↔ name.key ∉ registry.keys := by
  constructor
  · intro h
    rw [← h]
    exact registry.key_choose_not_mem name
  · intro h
    exact choose_of_isFree (isFree_iff.mpr h)

theorem grants_cons_iff : registry.Grants (name :: names)
    ↔ name.key ∉ registry.keys ∧ (registry.claim name).2.Grants names := by
  rw [Grants, claimAll, List.cons.injEq, fst_claim, choose_eq_self_iff, Grants]

/-- **Names are granted if their keys are different and free**, and only then. -/
theorem grants_iff : registry.Grants names
    ↔ (names.map (·.key)).Nodup ∧ ∀ name ∈ names, name.key ∉ registry.keys := by
  induction names generalizing registry with
  | nil => simp [Grants, claimAll]
  | cons name rest ih =>
    rw [grants_cons_iff, ih, keys_claim, List.map_cons, List.nodup_cons, List.forall_mem_cons]
    constructor
    · rintro ⟨hfree, hnodup, hrest⟩
      rw [choose_eq_self_iff.mpr hfree] at hrest
      refine ⟨⟨?_, hnodup⟩, hfree, fun other hother hmem => ?_⟩
      · intro hmem
        obtain ⟨other, hother, hkey⟩ := List.mem_map.mp hmem
        exact hrest other hother (hkey ▸ List.mem_cons_self)
      · exact hrest other hother (List.mem_cons_of_mem _ hmem)
    · rintro ⟨⟨hfirst, hnodup⟩, hfree, hrest⟩
      refine ⟨hfree, hnodup, fun other hother hmem => ?_⟩
      rw [choose_eq_self_iff.mpr hfree] at hmem
      rcases List.mem_cons.mp hmem with hkey | hmem
      · exact hfirst (hkey ▸ List.mem_map_of_mem hother)
      · exact hrest other hother hmem

/-- **The order of names does not matter**, be they claimed or taken before. -/
theorem Grants.of_perm (h : registry.Grants names) (hnames : names.Perm names')
    (hkeys : registry.keys.Perm registry'.keys) : registry'.Grants names' := by
  obtain ⟨hnodup, hfree⟩ := grants_iff.mp h
  refine grants_iff.mpr ⟨(hnames.map _).nodup_iff.mp hnodup, fun name hname hmem => ?_⟩
  exact hfree name (hnames.mem_iff.mpr hname) (hkeys.mem_iff.mpr hmem)

/-- The keys of granted names are taken. -/
theorem Grants.keys (h : registry.Grants names) :
    (registry.claimAll names).2.keys = (names.map (·.key)).reverse ++ registry.keys := by
  rw [keys_claimAll, h]

/-- Names are granted one list after the other. -/
theorem grants_append_iff : registry.Grants (names ++ others)
    ↔ registry.Grants names ∧ (registry.claimAll names).2.Grants others := by
  have hlength : (registry.claimAll names).1.length = names.length := by
    induction names generalizing registry with
    | nil => rfl
    | cons name rest ih => exact congrArg (· + 1) ih
  rw [Grants, claimAll_append]
  constructor
  · intro h
    obtain ⟨hnames, hothers⟩ := List.append_inj h hlength
    exact ⟨hnames, hothers⟩
  · rintro ⟨hnames, hothers⟩
    exact congrArg₂ _ hnames hothers

end Registry

end PojoGraph
