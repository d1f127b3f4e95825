import PojoGraph.Proofs.PojoSet.Inlining
import PojoGraph.Proofs.PojoSet.Steps
import PojoGraph.Proofs.PojoSet.Substitution

/-!
# The final set in another order

The steps to the final set go through plain types and descriptions one after the other. Their
order does not matter: plain types are replaced by leaves that are no references to replaced types
any more, so that each reference is replaced once at most; and each member takes over one
description at most. So entries in another order give the same types and the same warnings.

## Main definitions

* `Replacement.AreFinal` — replacements by types in which nothing more is replaced.

## Main statements

* `Replacement.AreFinal.sequence_of_perm`, `Revision.sequence_describe_of_perm` — replacements and
  descriptions can be put in any order.
* `pojos_ofEntries_of_perm`, `warnings_ofEntries_of_perm` — so can the entries of a set.
-/

namespace PojoGraph

/-! ## Replacements -/

/-- The replacements have different keys, and stand for leaves that are references to none of
them. -/
structure Replacement.AreFinal (replacements : List Replacement) : Prop where
  nodup : (replacements.map (·.name.key)).Nodup
  isLeaf : ∀ replacement ∈ replacements, replacement.type.IsLeaf
  avoids : ∀ replacement ∈ replacements, ∀ name, replacement.type.objectName? = some name →
    ∀ other ∈ replacements, name.key ≠ other.name.key

namespace Replacement.AreFinal

variable {replacements replacements' : List Replacement} (h : AreFinal replacements)

include h

/-- A leaf refers to the name that it is a reference to, and to no other. -/
theorem pairwise_areApart : replacements.Pairwise AreApart := by
  have havoids : ∀ first ∈ replacements, ∀ second ∈ replacements,
      ∀ name ∈ first.type.references, name.key ≠ second.name.key := by
    intro first hfirst second hsecond name hname
    refine h.avoids first hfirst name ?_ second hsecond
    have hleaf := h.isLeaf first hfirst
    cases htype : first.type with
    | leaf leaf traits =>
      rw [htype] at hname
      cases leaf with
      | object target => rw [List.mem_singleton.mp hname]; rfl
      | _ => cases hname
    | list item traits => rw [htype] at hleaf; exact hleaf.elim
    | map key value traits => rw [htype] at hleaf; exact hleaf.elim
  have hkeys : replacements.Pairwise fun first second => first.name.key ≠ second.name.key :=
    List.pairwise_map.mp h.nodup
  refine hkeys.imp_of_mem fun hfirst hsecond hne => ?_
  exact ⟨hne, havoids _ hfirst _ hsecond, havoids _ hsecond _ hfirst⟩

/-- **Final replacements can be made in any order.** -/
theorem sequence_of_perm (hperm : replacements.Perm replacements') :
    Revision.sequence Revision.substitute replacements
      = Revision.sequence Revision.substitute replacements' :=
  Revision.sequence_substitute_of_perm h.pairwise_areApart hperm

end Replacement.AreFinal

/-! ## Descriptions -/

theorem Member.refersTo_describe (described : Described) (name : PojoName) (member : Member) :
    (member.describe described).refersTo name = member.refersTo name := by
  unfold describe
  split <;> rfl

theorem Member.describe_of_not_refersTo {member : Member} {described : Described}
    (h : member.refersTo described.name = false) : member.describe described = member := by
  simp [describe, h]

/-- Members take over descriptions of types with different keys in either order: they are
references to one of them at most. -/
theorem Member.describe_comm {first second : Described}
    (hkeys : first.name.key ≠ second.name.key) (member : Member) :
    (member.describe first).describe second = (member.describe second).describe first := by
  cases hfirst : member.refersTo first.name with
  | false =>
    have hafter : (member.describe second).refersTo first.name = false := by
      rw [refersTo_describe, hfirst]
    rw [describe_of_not_refersTo hfirst, describe_of_not_refersTo hafter]
  | true =>
    have hsecond := refersTo_eq_false hkeys hfirst
    have hafter : (member.describe first).refersTo second.name = false := by
      rw [refersTo_describe, hsecond]
    rw [describe_of_not_refersTo hsecond, describe_of_not_refersTo hafter]

theorem Revision.sequence_describe_of_perm {described described' : List Described}
    (hnodup : (described.map (·.name.key)).Nodup) (hperm : described.Perm described') :
    sequence describe described = sequence describe described' := by
  refine ext_of (fun name => ?_) (fun member => ?_) (fun type => ?_)
  · simp only [name_sequence_describe]
  · refine hperm.foldl_eq' (fun first hfirst second hsecond member => ?_) member
    by_cases hkeys : first.name.key = second.name.key
    · rw [List.inj_on_of_nodup_map hnodup hfirst hsecond hkeys]
    · exact member.describe_comm hkeys
  · simp only [type_sequence_describe]

/-! ## Plain types -/

section

variable {plains plains' : List PlainMember} (hperm : plains.Perm plains')
  (hnodup : (plains.map (·.name.key)).Nodup)

include hperm hnodup

theorem finalType?_of_perm (plain : PlainMember) :
    plain.finalType? plains = plain.finalType? plains' := by
  have hnodup' : (plains'.map (·.name.key)).Nodup := (hperm.map _).nodup_iff.mp hnodup
  have htarget : plainTarget? plains = plainTarget? plains' := by
    funext type
    ext plain
    rw [plainTarget?_eq_some_iff hnodup, plainTarget?_eq_some_iff hnodup', hperm.mem_iff]
  have hfrom : ∀ steps type,
      finalTypeFrom plains steps type = finalTypeFrom plains' steps type := by
    intro steps
    induction steps with
    | zero => intro type; rfl
    | succ steps ih =>
      intro type
      simp only [finalTypeFrom, htarget, ih]
  rw [PlainMember.finalType?, PlainMember.finalType?, hfrom, hperm.length_eq]

theorem ofPlains_of_perm :
    (Replacement.ofPlains plains).Perm (Replacement.ofPlains plains') := by
  simp only [Replacement.ofPlains, finalType?_of_perm hperm hnodup]
  exact hperm.filterMap _

theorem cyclicPlains_of_perm : (cyclicPlains plains).Perm (cyclicPlains plains') := by
  simp only [cyclicPlains, finalType?_of_perm hperm hnodup]
  exact hperm.filter _

omit hperm in
/-- Plain types that are leaves are replaced by what their chains end in, in which nothing more
is replaced. -/
theorem areFinal_ofPlains (hleaf : ∀ plain ∈ plains, plain.type.IsLeaf) :
    Replacement.AreFinal (Replacement.ofPlains plains) where
  nodup := nodup_keys_ofPlains hnodup
  isLeaf replacement hreplacement := by
    obtain ⟨plain, hplain, final, hfinal, rfl⟩ := mem_ofPlains_iff.mp hreplacement
    obtain ⟨path, hleads⟩ := (finalType?_eq_some_iff hplain).mp hfinal
    exact hleads.isLeaf hleaf (hleaf plain hplain)
  avoids replacement hreplacement name hname other hother hkey := by
    obtain ⟨plain, hplain, final, hfinal, rfl⟩ := mem_ofPlains_iff.mp hreplacement
    obtain ⟨path, hleads⟩ := (finalType?_eq_some_iff hplain).mp hfinal
    obtain ⟨plain', hplain', final', -, rfl⟩ := mem_ofPlains_iff.mp hother
    have hnext : plainTarget? plains final = some plain' :=
      (plainTarget?_eq_some_iff hnodup).mpr ⟨hplain', name, hname, hkey⟩
    rw [hleads.plainTarget?_eq_none] at hnext
    cases hnext

end

/-! ## Final sets -/

theorem keys_describedTypes_sublist (pojos : List Pojo) :
    List.Sublist ((describedTypes pojos).map (·.name.key)) (pojos.map (·.name.key)) := by
  induction pojos with
  | nil => exact .slnil
  | cons pojo rest ih =>
    cases hdescription : pojo.description with
    | none =>
      rw [describedTypes, List.filterMap_cons_none (by rw [hdescription]; rfl)]
      exact ih.cons _
    | some description =>
      rw [describedTypes, List.filterMap_cons_some (by rw [hdescription]; rfl)]
      exact ih.cons_cons _

theorem AreSettled.nodup_keys_describedTypes {entries : List Resolved} (h : AreSettled entries)
    (inlining : ReferenceInlining) :
    ((describedTypes (PojoSet.ofResolved inlining entries).pojos).map (·.name.key)).Nodup := by
  have hnames := (names_ofResolved_sublist inlining entries).map PojoName.key
  rw [List.map_map, List.map_map] at hnames
  exact (keys_describedTypes_sublist _).nodup (hnames.nodup h.nodup)

section

variable {entries entries' : List Resolved} (h : AreSettled entries)
  (hperm : entries.Perm entries')

include h hperm

/-- The types that are left are the same up to order. -/
theorem keptPojos_of_perm (inlining : ReferenceInlining) :
    (keptPojos inlining entries).Perm (keptPojos inlining entries') := by
  have hplains : (plainMembers entries).Perm (plainMembers entries') := hperm.filterMap _
  have hfinal := finalType?_of_perm hplains ((keys_plainMembers_sublist entries).nodup h.nodup)
  simp only [keptPojos, hfinal]
  exact hperm.filterMap _

/-- What is put in place of references comes to the same. -/
theorem sequence_replacementsOf_of_perm (inlining : ReferenceInlining) :
    Revision.sequence Revision.substitute (replacementsOf inlining entries)
      = Revision.sequence Revision.substitute (replacementsOf inlining entries') := by
  cases inlining with
  | never => rfl
  | simple =>
    have hnodup := (keys_plainMembers_sublist entries).nodup h.nodup
    have hfinal : Replacement.AreFinal (Replacement.ofPlains (plainMembers entries)) :=
      areFinal_ofPlains hnodup fun plain hplain => h.isLeaf plain (mem_plainMembers_iff.mp hplain)
    exact hfinal.sequence_of_perm (ofPlains_of_perm (hperm.filterMap _) hnodup)

theorem pojos_ofResolved_of_perm (inlining : ReferenceInlining) :
    (PojoSet.ofResolved inlining entries).pojos.Perm
      (PojoSet.ofResolved inlining entries').pojos := by
  rw [pojos_ofResolved, pojos_ofResolved, sequence_replacementsOf_of_perm h hperm]
  exact (keptPojos_of_perm h hperm inlining).map _

/-- So do the descriptions that are passed on. -/
theorem sequence_describedTypes_of_perm (inlining : ReferenceInlining) :
    Revision.sequence Revision.describe
        (describedTypes (PojoSet.ofResolved inlining entries).pojos)
      = Revision.sequence Revision.describe
        (describedTypes (PojoSet.ofResolved inlining entries').pojos) :=
  Revision.sequence_describe_of_perm (h.nodup_keys_describedTypes inlining)
    ((pojos_ofResolved_of_perm h hperm inlining).filterMap _)

theorem pojos_describe_of_perm (inlining : ReferenceInlining) :
    (PojoSet.ofResolved inlining entries).describe.pojos.Perm
      (PojoSet.ofResolved inlining entries').describe.pojos := by
  rw [pojos_describe, pojos_describe, sequence_describedTypes_of_perm h hperm]
  exact (pojos_ofResolved_of_perm h hperm inlining).map _

/-- **Entries in another order give the same types.** -/
theorem pojos_ofEntries_of_perm (settings : Settings) (exclusion : Exclusion) :
    (PojoSet.ofEntries settings exclusion entries).pojos.Perm
      (PojoSet.ofEntries settings exclusion entries').pojos :=
  (pojos_describe_of_perm h hperm settings.referenceInlining).map _

theorem warnings_ofResolved_of_perm (inlining : ReferenceInlining) :
    (PojoSet.ofResolved inlining entries).warnings.Perm
      (PojoSet.ofResolved inlining entries').warnings := by
  cases inlining with
  | never => exact .refl []
  | simple =>
    exact (cyclicPlains_of_perm (hperm.filterMap _)
      ((keys_plainMembers_sublist entries).nodup h.nodup)).map _

omit h hperm in
theorem danglingReferences_of_perm {pojos pojos' : List Pojo} (hpojos : pojos.Perm pojos')
    (exclusion : Exclusion) :
    (danglingReferences exclusion pojos).Perm (danglingReferences exclusion pojos') := by
  have hdefined : ∀ name : PojoName, (pojos.map (·.name.key)).contains name.key
      = (pojos'.map (·.name.key)).contains name.key := by
    intro name
    rw [Bool.eq_iff_iff, List.contains_iff_mem, List.contains_iff_mem]
    exact (hpojos.map _).mem_iff
  simp only [danglingReferences, hdefined]
  exact hpojos.flatMap_right _

/-- **They give the same warnings.** -/
theorem warnings_ofEntries_of_perm (settings : Settings) (exclusion : Exclusion) :
    (PojoSet.ofEntries settings exclusion entries).warnings.Perm
      (PojoSet.ofEntries settings exclusion entries').warnings :=
  (warnings_ofResolved_of_perm h hperm settings.referenceInlining).append
    (danglingReferences_of_perm (pojos_describe_of_perm h hperm settings.referenceInlining)
      exclusion)

end

end PojoGraph
