import PojoGraph.Proofs.Order.PojoSet
import PojoGraph.Proofs.Resolution.Revised

/-!
# Descriptions passed on

On the way to the final set, members take over the descriptions of the types that they are
references to: first that of the plain type at which a chain begins, which is replaced by the type
in which the chain ends, then that of the generated type to which the member refers after that.

Some members may have taken over such a description before: they would take it over anyway, since
a reference to a described type is never replaced, and a member that has a description keeps it. So
the final set is the same.

## Main statements

* `LeadsTo.member_substitute` — a member takes over the description of the first plain type on its
  chain.
* `Revision.description_sequence_describe` — and then that of the type to which it refers.
* `Revision.describe_absorbs` — descriptions passed on beforehand are passed on anyway.
* `ofEntries_described` — **the final set of entries with some descriptions passed on**.
-/

namespace PojoGraph

/-! ## Members -/

namespace Member

theorem type_describe (described : Described) (member : Member) :
    (member.describe described).type = member.type := by
  unfold describe
  split <;> rfl

theorem describe_describe (described : Described) (member : Member) :
    (member.describe described).describe described = member.describe described := by
  cases hrefers : member.refersTo described.name with
  | false => rw [describe_of_not_refersTo hrefers, describe_of_not_refersTo hrefers]
  | true =>
    have hafter : (member.describe described).refersTo described.name = true := by
      rw [refersTo_describe, hrefers]
    rw [describe, if_pos hafter]
    simp only [describe, hrefers, if_true]
    cases member.description <;> rfl

/-- A reference contains no other types. -/
theorem isLeaf_of_refersTo {member : Member} {name : PojoName}
    (h : member.refersTo name = true) : member.type.IsLeaf := by
  obtain ⟨target, htarget, -⟩ := refersTo_iff.mp h
  rw [DataType.eq_of_objectName? htarget]
  trivial

/-- A leaf that is no reference to what is replaced stays as it is. -/
theorem substitute_of_not_refersTo {member : Member} {replacement : Replacement}
    (hleaf : member.type.IsLeaf) (h : member.refersTo replacement.name = false) :
    member.substitute replacement = member := by
  obtain ⟨name, description, type, necessity, nullability⟩ := member
  cases type with
  | leaf leaf traits =>
    have htype : (DataType.leaf leaf traits).substitute replacement = .leaf leaf traits := by
      refine DataType.substitute_leaf ?_ traits
      rintro name rfl hkey
      exact Bool.false_ne_true (h.symm.trans (refersTo_iff.mpr ⟨name, rfl, hkey⟩))
    simp only [substitute, htype, h, Bool.false_eq_true, if_false]
  | list item traits => exact hleaf.elim
  | map key value traits => exact hleaf.elim

/-- A member that refers to what is replaced becomes what it is replaced by. -/
theorem substitute_of_refersTo {member : Member} {replacement : Replacement}
    (h : member.refersTo replacement.name = true) : member.substitute replacement
      = { member with
          type := replacement.type
          description := member.description <|> replacement.description } := by
  obtain ⟨target, htarget, hkey⟩ := refersTo_iff.mp h
  have htype : member.type.substitute replacement = replacement.type := by
    rw [DataType.eq_of_objectName? htarget]
    simp [DataType.substitute, hkey]
  rw [substitute, htype, if_pos h]

end Member

/-! ## Replacements -/

theorem Revision.member_sequence_substitute {replacements : List Replacement} {member : Member}
    (hleaf : member.type.IsLeaf)
    (h : ∀ replacement ∈ replacements, member.refersTo replacement.name = false) :
    (sequence substitute replacements).member member = member := by
  induction replacements with
  | nil => rfl
  | cons first rest ih =>
    have hfirst : member.substitute first = member :=
      member.substitute_of_not_refersTo hleaf (h first List.mem_cons_self)
    change (sequence substitute rest).member (member.substitute first) = member
    rw [hfirst]
    exact ih fun replacement hmem => h replacement (List.mem_cons_of_mem _ hmem)

/-- Of final replacements a member goes through the one that it refers to. -/
theorem Replacement.AreFinal.member_sequence {replacements : List Replacement}
    (h : AreFinal replacements) {replacement : Replacement} (hmem : replacement ∈ replacements)
    {member : Member} (hrefers : member.refersTo replacement.name = true) :
    (Revision.sequence Revision.substitute replacements).member member
      = { member with
          type := replacement.type
          description := member.description <|> replacement.description } := by
  -- The order is no matter, so that this one may come first.
  obtain ⟨before, after, rfl⟩ := List.append_of_mem hmem
  have hothers : ∀ other ∈ before ++ after, other ∈ before ++ replacement :: after :=
    fun other hother => List.perm_middle.mem_iff.mpr (List.mem_cons_of_mem _ hother)
  rw [h.sequence_of_perm List.perm_middle]
  change (Revision.sequence Revision.substitute (before ++ after)).member
    (member.substitute replacement) = _
  rw [Member.substitute_of_refersTo hrefers]
  refine Revision.member_sequence_substitute (h.isLeaf _ hmem) fun other hother => ?_
  rw [← Bool.not_eq_true, Member.refersTo_iff]
  rintro ⟨target, htarget, hkey⟩
  exact h.avoids _ hmem target htarget other (hothers other hother) hkey

section

variable {plains : List PlainMember} (hnodup : (plains.map (·.name.key)).Nodup) {member : Member}
  (hleaf : member.type.IsLeaf)

include hnodup hleaf

/-- A member from which no chain leads through a plain type stays as it is. -/
theorem member_substitute_of_not_leadsTo
    (h : ∀ plain path final, ¬ LeadsTo plains member.type (plain :: path) final) :
    (Revision.sequence Revision.substitute (Replacement.ofPlains plains)).member member
      = member := by
  refine Revision.member_sequence_substitute hleaf fun replacement hmem => ?_
  rw [← Bool.not_eq_true]
  intro hrefers
  obtain ⟨plain, hplain, final, hfinal, rfl⟩ := mem_ofPlains_iff.mp hmem
  obtain ⟨path, hleads⟩ := (finalType?_eq_some_iff hplain).mp hfinal
  have hnext : plainTarget? plains member.type = some plain :=
    (plainTarget?_eq_some_iff hnodup).mpr ⟨hplain, Member.refersTo_iff.mp hrefers⟩
  exact h _ _ _ (.there hnext hleads)

/-- **A member becomes the type in which its chain ends**, and takes over the description of the
first plain type on the chain if it has none. -/
theorem LeadsTo.member_substitute {path : List PlainMember} {final : DataType}
    (h : LeadsTo plains member.type path final)
    (hplains : ∀ plain ∈ plains, plain.type.IsLeaf) :
    (Revision.sequence Revision.substitute (Replacement.ofPlains plains)).member member
      = { member with
          type := final
          description := member.description <|> path.head?.bind (·.description) } := by
  cases h with
  | here hend =>
    rw [member_substitute_of_not_leadsTo hnodup hleaf fun plain path final hleads => ?_]
    · simp
    · cases (hleads.unique (.here hend)).1
  | @there _ _ next path hnext hrest =>
    obtain ⟨hplain, hrefers⟩ := (plainTarget?_eq_some_iff hnodup).mp hnext
    have hmem : ⟨next.name, next.description, final⟩ ∈ Replacement.ofPlains plains :=
      mem_ofPlains_iff.mpr
        ⟨next, hplain, final, (finalType?_eq_some_iff hplain).mpr ⟨path, hrest⟩, rfl⟩
    exact (areFinal_ofPlains hnodup hplains).member_sequence hmem (Member.refersTo_iff.mpr hrefers)

end

/-! ## Descriptions -/

namespace Revision

/-- **Members get the description of the type that they refer to**, if they have none. Of several
types with the name, the first has the description. -/
theorem description_sequence_describe (all : List Described) (member : Member) :
    ((sequence describe all).member member).description
      = (member.description <|> member.type.objectName?.bind fun name =>
        (all.find? (·.name.isSame name)).map (·.description)) := by
  induction all generalizing member with
  | nil => cases member.type.objectName? <;> simp [sequence]
  | cons first rest ih =>
    refine (ih (member.describe first)).trans ?_
    rw [Member.type_describe]
    cases hrefers : member.refersTo first.name with
    | false =>
      rw [Member.describe_of_not_refersTo hrefers]
      cases hname : member.type.objectName? with
      | none => rfl
      | some name =>
        have hother : first.name.isSame name = false := by
          rw [Member.refersTo, hname, Option.any_some] at hrefers
          rw [PojoName.isSame, Bool.beq_comm]
          exact hrefers
        rw [Option.bind_some, Option.bind_some, List.find?_cons, hother]
    | true =>
      obtain ⟨name, hname, hkey⟩ := Member.refersTo_iff.mp hrefers
      have hsame : first.name.isSame name = true := by simpa [PojoName.isSame] using hkey.symm
      rw [hname, Member.describe, if_pos hrefers, Option.bind_some, Option.bind_some,
        List.find?_cons, hsame]
      cases member.description <;> simp

end Revision

/-- Among types with different names, the first described one with a name is the one with that name,
if it has a description. -/
theorem find?_describedTypes {pojos : List Pojo} (hnodup : (pojos.map (·.name.key)).Nodup)
    (name : PojoName) : ((describedTypes pojos).find? (·.name.isSame name)).map (·.description)
      = (pojos.find? (·.name.isSame name)).bind (·.description) := by
  induction pojos with
  | nil => rfl
  | cons first rest ih =>
    rw [List.map_cons, List.nodup_cons] at hnodup
    have hrest := ih hnodup.2
    cases hsame : first.name.isSame name with
    | false =>
      rw [List.find?_cons, hsame, ← hrest]
      cases hdescription : first.description with
      | none => simp [describedTypes, hdescription]
      | some text => simp [describedTypes, hdescription, hsame]
    | true =>
      rw [List.find?_cons, hsame]
      cases hdescription : first.description with
      | some text => simp [describedTypes, hdescription, hsame]
      | none =>
        have hnone : rest.find? (·.name.isSame name) = none := by
          refine List.find?_eq_none.mpr fun other hother hsame' => hnodup.1 ?_
          simp only [PojoName.isSame, beq_iff_eq] at hsame hsame'
          exact List.mem_map.mpr ⟨other, hother, hsame'.trans hsame.symm⟩
        rw [hnone] at hrest
        simpa [describedTypes, hdescription] using hrest

/-! ## Descriptions passed on beforehand -/

namespace Revision

section

variable {all : List Described} (hnodup : (all.map (·.name.key)).Nodup)

include hnodup

/-- A member may take over a description before it takes over any of a list with this one in
it. -/
theorem member_describe_absorbs {described : Described} (hmem : described ∈ all)
    (member : Member) : (sequence describe all).member (member.describe described)
      = (sequence describe all).member member := by
  obtain ⟨before, after, rfl⟩ := List.append_of_mem hmem
  rw [sequence_describe_of_perm hnodup List.perm_middle]
  exact congrArg (sequence describe (before ++ after)).member (member.describe_describe described)

/-- **Descriptions passed on beforehand are passed on anyway**, if the types that they are of are
not replaced. -/
theorem describe_absorbs {replacements : List Replacement} {given : List Described}
    (hgiven : ∀ described ∈ given, described ∈ all ∧
      ∀ replacement ∈ replacements, described.name.key ≠ replacement.name.key) :
    (sequence describe given).andThen ((sequence substitute replacements).andThen
        (sequence describe all))
      = (sequence substitute replacements).andThen (sequence describe all) := by
  have hmember : ∀ member, ((sequence substitute replacements).andThen
      (sequence describe all)).member ((sequence describe given).member member)
        = ((sequence substitute replacements).andThen (sequence describe all)).member member := by
    induction given with
    | nil => exact fun member => rfl
    | cons described rest ih =>
      intro member
      obtain ⟨hmem, hkeys⟩ := hgiven described List.mem_cons_self
      refine (ih (fun other hother => hgiven other (List.mem_cons_of_mem _ hother))
        (member.describe described)).trans ?_
      cases hrefers : member.refersTo described.name with
      | false => rw [Member.describe_of_not_refersTo hrefers]
      | true =>
        have hafter : (member.describe described).refersTo described.name = true := by
          rw [Member.refersTo_describe, hrefers]
        have hstays : ∀ other : Member, other.refersTo described.name = true →
            (sequence substitute replacements).member other = other :=
          fun other hother => member_sequence_substitute (Member.isLeaf_of_refersTo hother)
            fun replacement hreplacement =>
              Member.refersTo_eq_false (hkeys replacement hreplacement) hother
        simp only [andThen, Function.comp_apply, hstays _ hrefers, hstays _ hafter]
        exact member_describe_absorbs hnodup hmem member
  refine ext_of (fun name => ?_) hmember (fun type => ?_)
  · simp [andThen]
  · simp [andThen]

end

end Revision

/-! ## Final sets -/

/-- Descriptions stay where they are when others are passed on. -/
theorem describedTypes_revise {r : Revision} (hname : r.name = id) (pojos : List Pojo) :
    describedTypes (pojos.map (Pojo.revise r)) = describedTypes pojos := by
  rw [describedTypes, describedTypes, List.filterMap_map]
  refine List.filterMap_congr fun pojo _ => ?_
  rw [Function.comp_apply, Pojo.description_revise, Pojo.name_revise, hname]
  rfl

section

variable (given : List Described)

theorem name_describeAll : (Revision.sequence Revision.describe given).name = id :=
  funext (Revision.name_sequence_describe given)

theorem revise_plain_describe (plain : PlainMember) :
    plain.revise (.sequence Revision.describe given) = plain := by
  simp [PlainMember.revise]

theorem plainMembers_describe (entries : List Resolved) :
    plainMembers (entries.map (Resolved.revise (.sequence Revision.describe given)))
      = plainMembers entries := by
  rw [plainMembers, plainMembers, List.filterMap_map]
  refine List.filterMap_congr fun resolved _ => ?_
  cases resolved with
  | pojo pojo => rfl
  | plain plain => exact congrArg some (revise_plain_describe given plain)

theorem keptPojos_describe (inlining : ReferenceInlining) (entries : List Resolved) :
    keptPojos inlining (entries.map (Resolved.revise (.sequence Revision.describe given)))
      = (keptPojos inlining entries).map (Pojo.revise (.sequence Revision.describe given)) := by
  have halias : ∀ plain : PlainMember,
      plain.toAlias.revise (.sequence Revision.describe given) = plain.toAlias := by
    intro plain
    simp [PlainMember.toAlias, Pojo.revise]
  rw [keptPojos, keptPojos, plainMembers_describe, List.filterMap_map, List.map_filterMap]
  refine List.filterMap_congr fun resolved _ => ?_
  cases resolved with
  | pojo pojo => rfl
  | plain plain =>
    rw [Function.comp_apply, Resolved.revise, revise_plain_describe]
    cases inlining with
    | never => exact congrArg some (halias plain).symm
    | simple =>
      dsimp only
      split <;> simp [halias]

end

theorem Resolved.name_revise (r : Revision) (resolved : Resolved) :
    (resolved.revise r).name = r.name resolved.name := by
  cases resolved with
  | pojo pojo => exact pojo.name_revise r
  | plain plain => rfl

section

variable {entries : List Resolved} (h : AreSettled entries) {given : List Described}

include h

variable (given) in
/-- Entries stay settled when descriptions are passed on. -/
theorem AreSettled.describe :
    AreSettled (entries.map (Resolved.revise (.sequence Revision.describe given))) where
  nodup := by
    simp only [List.map_map, Function.comp_def, Resolved.name_revise,
      Revision.name_sequence_describe]
    exact h.nodup
  isLeaf plain hplain := by
    rw [← mem_plainMembers_iff, plainMembers_describe, mem_plainMembers_iff] at hplain
    exact h.isLeaf plain hplain
  notAlias pojo hpojo := by
    obtain ⟨resolved, hresolved, hrevise⟩ := List.mem_map.mp hpojo
    cases resolved with
    | plain plain => cases hrevise
    | pojo other =>
      cases hrevise
      rw [Pojo.aliased?_revise, h.notAlias other hresolved]
      rfl

/-- A type of its own is put in place of no reference. -/
theorem AreSettled.key_ne_of_mem_replacementsOf {pojo : Pojo} (hpojo : .pojo pojo ∈ entries)
    {inlining : ReferenceInlining} {replacement : Replacement}
    (hreplacement : replacement ∈ replacementsOf inlining entries) :
    pojo.name.key ≠ replacement.name.key := by
  cases inlining with
  | never => cases hreplacement
  | simple =>
    obtain ⟨plain, hplain, final, -, rfl⟩ := mem_ofPlains_iff.mp hreplacement
    intro hkey
    cases List.inj_on_of_nodup_map h.nodup hpojo (mem_plainMembers_iff.mp hplain) hkey

variable (hgiven : ∀ described ∈ given, ∃ pojo, .pojo pojo ∈ entries
  ∧ pojo.name = described.name ∧ pojo.description = some described.description)

include hgiven

theorem describe_ofResolved (inlining : ReferenceInlining) :
    (PojoSet.ofResolved inlining
        (entries.map (Resolved.revise (.sequence Revision.describe given)))).describe
      = (PojoSet.ofResolved inlining entries).describe := by
  have hreplacements : replacementsOf inlining
      (entries.map (Resolved.revise (.sequence Revision.describe given)))
        = replacementsOf inlining entries := by
    cases inlining with
    | never => rfl
    | simple => exact congrArg Replacement.ofPlains (plainMembers_describe given entries)
  have hpojos := pojos_ofResolved inlining
    (entries.map (Resolved.revise (.sequence Revision.describe given)))
  rw [hreplacements, keptPojos_describe, List.map_map] at hpojos
  have hdescribed : describedTypes (PojoSet.ofResolved inlining
      (entries.map (Resolved.revise (.sequence Revision.describe given)))).pojos
        = describedTypes (PojoSet.ofResolved inlining entries).pojos := by
    have hname : (Revision.sequence Revision.substitute (replacementsOf inlining entries)).name
        = id := funext (Revision.name_sequence_substitute _)
    rw [hpojos, ← List.map_map, describedTypes_revise hname,
      describedTypes_revise (name_describeAll given), pojos_ofResolved,
      describedTypes_revise hname]
  have hall : ∀ described ∈ given,
      described ∈ describedTypes (PojoSet.ofResolved inlining entries).pojos
        ∧ ∀ replacement ∈ replacementsOf inlining entries,
          described.name.key ≠ replacement.name.key := by
    intro described hdescribed
    obtain ⟨pojo, hpojo, hname, hdescription⟩ := hgiven described hdescribed
    refine ⟨?_, fun replacement hreplacement => ?_⟩
    · have hkept : pojo ∈ keptPojos inlining entries := List.mem_filterMap.mpr ⟨_, hpojo, rfl⟩
      rw [pojos_ofResolved]
      refine List.mem_filterMap.mpr ⟨_, List.mem_map_of_mem hkept, ?_⟩
      rw [Pojo.description_revise, hdescription, Pojo.name_revise,
        Revision.name_sequence_substitute, hname]
      rfl
    · rw [← hname]
      exact h.key_ne_of_mem_replacementsOf hpojo hreplacement
  have hwarnings : (PojoSet.ofResolved inlining
      (entries.map (Resolved.revise (.sequence Revision.describe given)))).warnings
        = (PojoSet.ofResolved inlining entries).warnings := by
    cases inlining with
    | never => rfl
    | simple =>
      rw [PojoSet.ofResolved, PojoSet.ofResolved, inlinePlains, inlinePlains, plainMembers_describe]
  have habsorbs := Revision.describe_absorbs (h.nodup_keys_describedTypes inlining) hall
  refine congrArg₂ PojoSet.mk ?_ hwarnings
  change (PojoSet.ofResolved inlining _).describe.pojos
    = (PojoSet.ofResolved inlining entries).describe.pojos
  rw [pojos_ofResolved] at habsorbs
  rw [pojos_describe, pojos_describe, hdescribed, hpojos, pojos_ofResolved, List.map_map,
    List.map_map]
  refine List.map_congr_left fun pojo _ => ?_
  simp only [Function.comp_apply, Pojo.revise_revise]
  exact congrArg pojo.revise habsorbs

/-- **Passing some of the descriptions on beforehand makes no difference** to the final set. -/
theorem ofEntries_described (settings : Settings) (exclusion : Exclusion) :
    PojoSet.ofEntries settings exclusion
        (entries.map (Resolved.revise (.sequence Revision.describe given)))
      = PojoSet.ofEntries settings exclusion entries := by
  rw [PojoSet.ofEntries, PojoSet.ofEntries, describe_ofResolved h hgiven]

end

end PojoGraph
