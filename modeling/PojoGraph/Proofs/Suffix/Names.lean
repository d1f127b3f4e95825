import PojoGraph.Proofs.Names.Ascii
import PojoGraph.Proofs.Names.Claiming

/-!
# Claims under a suffix

A suffix comes last in the key of an ASCII name. So two names have one key with it if and only if
they have one key without it, and claims come out alike: a name is taken with the suffix where it
is taken without, and then gets the same number.

## Main definitions

* `Registry.withSuffix` — the names taken, all with a suffix.

## Main statements

* `Registry.claim_withSuffix` — a name is claimed with a suffix as it is without.
* `PojoName.IsUnsuffixed.claimAll` — claims make no other than ASCII names.
-/

namespace PojoGraph

open Text

theorem PojoName.numbered_withSuffix (name : PojoName) (suffix : String) (number : Nat) :
    (name.withSuffix suffix).numbered number = (name.numbered number).withSuffix suffix := rfl

theorem PojoName.append_withSuffix (name : PojoName) (suffix tail : String) :
    (name.withSuffix suffix).append tail = (name.append tail).withSuffix suffix := rfl

theorem PojoName.ofMember_withSuffix (name : PojoName) (suffix member : String) :
    (name.withSuffix suffix).ofMember member = (name.ofMember member).withSuffix suffix := rfl

theorem PojoName.IsUnsuffixed.choose (registry : Registry) {name : PojoName}
    (h : name.IsUnsuffixed) : (registry.choose name).IsUnsuffixed := by
  by_cases htaken : name.key ∈ registry.keys
  · obtain ⟨number, -, hchoose, -⟩ := Registry.exists_number_of_choose htaken
    rw [hchoose]
    exact h.numbered number
  · rwa [Registry.choose_of_isFree (Registry.isFree_iff.mpr htaken)]

namespace Registry

variable {registry : Registry} {name : PojoName} {suffix : String}

/-- The registry of the same names with a suffix. -/
def withSuffix (suffix : String) (registry : Registry) : Registry :=
  ⟨registry.keys.map (· ++ lower suffix)⟩

section

variable (hsuffix : IsAscii suffix) (hname : name.IsUnsuffixed)

include hsuffix hname

theorem isFree_withSuffix :
    (registry.withSuffix suffix).isFree (name.withSuffix suffix) = registry.isFree name := by
  rw [Bool.eq_iff_iff, isFree_iff, isFree_iff, PojoName.key_withSuffix hname hsuffix, withSuffix,
    List.mem_map_of_injective (PojoName.append_lower_injective suffix)]

/-- **The same number is chosen with a suffix as without.** -/
theorem choose_withSuffix : (registry.withSuffix suffix).choose (name.withSuffix suffix)
    = (registry.choose name).withSuffix suffix := by
  have hnumbered : ∀ number, (registry.withSuffix suffix).isFree
      ((name.withSuffix suffix).numbered number) = registry.isFree (name.numbered number) :=
    fun number => by rw [PojoName.numbered_withSuffix, isFree_withSuffix hsuffix
      (hname.numbered number)]
  have hlength : (registry.withSuffix suffix).keys.length = registry.keys.length :=
    List.length_map _
  rw [choose, choose, isFree_withSuffix hsuffix hname]
  simp only [candidates, hlength, hnumbered]
  cases registry.isFree name with
  | true => rfl
  | false =>
    cases (List.range' 2 (registry.keys.length + 1)).find? fun number =>
      registry.isFree (name.numbered number) <;> rfl

variable (registry) in
/-- A name is claimed with a suffix as it is without. -/
theorem claim_withSuffix : (registry.withSuffix suffix).claim (name.withSuffix suffix)
    = ((registry.claim name).1.withSuffix suffix, (registry.claim name).2.withSuffix suffix) := by
  have hkey := PojoName.key_withSuffix (hname.choose registry) hsuffix
  rw [claim, claim, choose_withSuffix hsuffix hname, hkey]
  rfl

end

end Registry

/-- Claims make no other than ASCII names of ASCII names. -/
theorem PojoName.IsUnsuffixed.claimAll {registry : Registry} {names : List PojoName}
    (h : ∀ name ∈ names, name.IsUnsuffixed) :
    ∀ name ∈ (registry.claimAll names).1, name.IsUnsuffixed := by
  induction names generalizing registry with
  | nil => exact fun _ hname => (List.not_mem_nil hname).elim
  | cons name rest ih =>
    rw [Registry.claimAll]
    exact List.forall_mem_cons.mpr ⟨(h name List.mem_cons_self).choose _,
      ih fun other hother => h other (List.mem_cons_of_mem _ hother)⟩

end PojoGraph
