import PojoGraph.Proofs.PojoSet.Inlining
import PojoGraph.Proofs.PojoSet.Revisions
import PojoGraph.Proofs.Resolution.Scope

/-!
# Steps to the final set within a scope

If all names in resolved schemas are in some scope, so are the names in what references are
replaced by, in the types that are left, and in these with replacements made and descriptions
passed on.

## Main definitions

* `Replacement.Within` — all names in a replacement are in scope.

## Main statements

* `PojoSet.within_ofResolved`, `PojoSet.within_describe` — the first two steps stay within the
  scope.
-/

namespace PojoGraph

variable {P : PojoName → Prop}

/-! ## Replacements and descriptions -/

/-- All names in the replacement are in scope. -/
structure Replacement.Within (P : PojoName → Prop) (replacement : Replacement) : Prop where
  name : P replacement.name
  type : replacement.type.Within P

theorem DataType.Within.substitute {replacement : Replacement} (hreplacement : replacement.Within P)
    {type : DataType} (h : type.Within P) : (type.substitute replacement).Within P := by
  intro name hname
  rw [references_substitute] at hname
  obtain ⟨original, horiginal, hname⟩ := List.mem_flatMap.mp hname
  split at hname
  · exact hreplacement.type name hname
  · rw [List.mem_singleton.mp hname]
    exact h original horiginal

theorem Revision.keepsWithin_substitute {replacement : Replacement}
    (h : replacement.Within P) : (substitute replacement).KeepsWithin P :=
  ⟨fun _ hname => hname, fun _ hmember => hmember.substitute h, fun _ htype => htype.substitute h⟩

theorem Revision.keepsWithin_describe (described : Described) :
    (describe described).KeepsWithin P := by
  refine ⟨fun _ hname => hname, fun member hmember => ?_, fun _ htype => htype⟩
  simp only [describe, Member.describe]
  split <;> exact hmember

theorem Revision.AgreesOn.andThen_right {r s : Revision} (h : r.AgreesOn P s) (t : Revision) :
    (r.andThen t).AgreesOn P (s.andThen t) :=
  ⟨fun name hname => congrArg t.name (h.name name hname),
    fun member hmember => congrArg t.member (h.member member hmember),
    fun type htype => congrArg t.type (h.type type htype)⟩

/-! ## Plain types -/

section

variable {plains : List PlainMember} (hplains : ∀ plain ∈ plains, plain.Within P)

include hplains

theorem within_finalTypeFrom {steps : Nat} {type final : DataType} (htype : type.Within P)
    (h : finalTypeFrom plains steps type = some final) : final.Within P := by
  induction steps generalizing type with
  | zero => cases h
  | succ steps ih =>
    rw [finalTypeFrom] at h
    split at h
    · cases h
      exact htype
    · rename_i next hnext
      exact ih (hplains next (mem_of_plainTarget? hnext)).type h

theorem within_ofPlains : ∀ replacement ∈ Replacement.ofPlains plains, replacement.Within P := by
  intro replacement hreplacement
  obtain ⟨plain, hplain, final, hfinal, rfl⟩ := mem_ofPlains_iff.mp hreplacement
  exact ⟨(hplains plain hplain).name,
    within_finalTypeFrom hplains (hplains plain hplain).type hfinal⟩

end

theorem within_plainMembers {entries : List Resolved} (h : ∀ resolved ∈ entries, resolved.Within P) :
    ∀ plain ∈ plainMembers entries, plain.Within P := by
  intro plain hplain
  cases h _ (mem_plainMembers_iff.mp hplain) with
  | plain hwithin => exact hwithin

theorem PlainMember.Within.toAlias {plain : PlainMember} (h : plain.Within P) :
    plain.toAlias.Within P :=
  .typeAlias h.name h.type

/-! ## Sets -/

section

variable {entries : List Resolved} (hentries : ∀ resolved ∈ entries, resolved.Within P)
  (inlining : ReferenceInlining)

include hentries

theorem within_keptPojos : ∀ pojo ∈ keptPojos inlining entries, pojo.Within P := by
  intro pojo hpojo
  rcases mem_keptPojos_iff.mp hpojo with hresolved | ⟨plain, hplain, rfl, -⟩
  · cases hentries _ hresolved with
    | pojo hwithin => exact hwithin
  · cases hentries _ hplain with
    | plain hwithin => exact hwithin.toAlias

theorem within_replacementsOf :
    ∀ replacement ∈ replacementsOf inlining entries, replacement.Within P := by
  cases inlining with
  | never => exact fun _ hmem => (List.not_mem_nil hmem).elim
  | simple => exact within_ofPlains (within_plainMembers hentries)

theorem PojoSet.within_ofResolved : ∀ pojo ∈ (ofResolved inlining entries).pojos, pojo.Within P := by
  rw [pojos_ofResolved]
  exact List.forall_mem_map.mpr fun pojo hpojo =>
    (within_keptPojos hentries inlining pojo hpojo).revise (.sequence fun replacement hmem =>
      Revision.keepsWithin_substitute (within_replacementsOf hentries inlining replacement hmem))

end

theorem PojoSet.within_describe {set : PojoSet} (hset : ∀ pojo ∈ set.pojos, pojo.Within P) :
    ∀ pojo ∈ set.describe.pojos, pojo.Within P := by
  rw [pojos_describe]
  exact List.forall_mem_map.mpr fun pojo hpojo =>
    (hset pojo hpojo).revise (.sequence fun described _ => Revision.keepsWithin_describe described)

end PojoGraph
