import Mathlib.Data.List.Find
import Mathlib.Data.List.Flatten
import PojoGraph.Proofs.Frame.Resolution
import PojoGraph.Proofs.Order.PojoSet
import PojoGraph.Proofs.PojoSet.ScopedSteps

/-!
# Final sets of a part of the resolved schemas

If a part of the resolved schemas mentions no name of the rest, the steps to the final set do the
same with it, be the rest there or not: no plain type of the rest stands in place of a reference,
no description of the rest is passed on to a member, and the references that are reported are the
same.

## Main definitions

* `part` — the resolved schemas with some names.

## Main statements

* `finalType?_part` — plain types of a part stand for the same.
* `pojos_describe_part` — the types of a part are those of the whole that have its names.
* `warnings_ofEntries_part` — the warnings of a part are among those of the whole.
-/

namespace PojoGraph

/-- The resolved schemas at the given keys. -/
def part (isOwn : String → Bool) (entries : List Resolved) : List Resolved :=
  entries.filter fun resolved => isOwn resolved.name.key

variable {isOwn : String → Bool}

/-! ## Plain types -/

/-- A chain that meets only types with the same target among two lists of plain types is the same
in both. -/
theorem LeadsTo.congr {P : PojoName → Prop} {plains others : List PlainMember}
    (htarget : ∀ type : DataType, type.Within P → plainTarget? plains type = plainTarget? others type)
    (hclosed : ∀ (type : DataType) (next : PlainMember), type.Within P →
      plainTarget? plains type = some next → next.type.Within P)
    {type final : DataType} {path : List PlainMember} (h : LeadsTo plains type path final)
    (htype : type.Within P) : LeadsTo others type path final := by
  induction h with
  | here hend => exact .here (htarget _ htype ▸ hend)
  | there hnext _ ih => exact .there (htarget _ htype ▸ hnext) (ih (hclosed _ _ htype hnext))

section

variable {plains : List PlainMember}

theorem plainTarget?_part {type : DataType} (htype : type.Within (Owns isOwn)) :
    plainTarget? (plains.filter fun plain => isOwn plain.name.key) type
      = plainTarget? plains type := by
  rw [plainTarget?, plainTarget?]
  cases htarget : type.objectName? with
  | none => rfl
  | some target =>
    have hown : isOwn target.key = true := htype.of_objectName? htarget
    rw [Option.bind_some, Option.bind_some, List.find?_filter]
    refine List.find?_congr fun plain _ => ?_
    cases hsame : plain.name.isSame target with
    | false => simp
    | true => simp [PojoName.isSame_iff.mp hsame, hown]

variable (hplains : ∀ plain ∈ plains.filter fun plain => isOwn plain.name.key,
  plain.Within (Owns isOwn))

include hplains

/-- **The rest does not matter to what plain types of the part stand for.** -/
theorem finalType?_part {plain : PlainMember} (hplain : plain ∈ plains)
    (hown : isOwn plain.name.key = true) :
    plain.finalType? (plains.filter fun plain => isOwn plain.name.key)
      = plain.finalType? plains := by
  have hpart : plain ∈ plains.filter fun plain => isOwn plain.name.key :=
    List.mem_filter.mpr ⟨hplain, hown⟩
  have htype := (hplains plain hpart).type
  have hclosed : ∀ (type : DataType) (next : PlainMember), type.Within (Owns isOwn) →
      plainTarget? (plains.filter fun plain => isOwn plain.name.key) type = some next →
        next.type.Within (Owns isOwn) := by
    intro type next _ hnext
    exact (hplains next (mem_of_plainTarget? hnext)).type
  ext final
  rw [finalType?_eq_some_iff hpart, finalType?_eq_some_iff hplain]
  refine exists_congr fun path => ⟨fun h => ?_, fun h => ?_⟩
  · exact h.congr (fun _ => plainTarget?_part) hclosed htype
  · refine h.congr (fun _ hother => (plainTarget?_part hother).symm) ?_ htype
    intro type next hother hnext
    exact hclosed type next hother ((plainTarget?_part hother).trans hnext)

theorem ofPlains_part : Replacement.ofPlains (plains.filter fun plain => isOwn plain.name.key)
    = (Replacement.ofPlains plains).filter fun replacement => isOwn replacement.name.key := by
  rw [Replacement.ofPlains, Replacement.ofPlains, List.filterMap_filter, List.filter_filterMap]
  refine List.filterMap_congr fun plain hplain => ?_
  cases hown : isOwn plain.name.key with
  | true =>
    rw [if_pos rfl, finalType?_part hplains hplain hown]
    cases plain.finalType? plains with
    | none => rfl
    | some final => simp [Option.filter, hown]
  | false =>
    cases plain.finalType? plains with
    | none => rfl
    | some final => simp [Option.filter, hown]

theorem cyclicPlains_part : cyclicPlains (plains.filter fun plain => isOwn plain.name.key)
    = (cyclicPlains plains).filter fun plain => isOwn plain.name.key := by
  rw [cyclicPlains, cyclicPlains]
  conv_rhs => rw [List.filter_comm]
  refine List.filter_congr fun plain hplain => ?_
  obtain ⟨hmem, hown⟩ := List.mem_filter.mp hplain
  rw [finalType?_part hplains hmem hown]

end

/-! ## Types -/

section

variable {entries : List Resolved}
  (hentries : ∀ resolved ∈ part isOwn entries, resolved.Within (Owns isOwn))
  (inlining : ReferenceInlining)

theorem plainMembers_part : plainMembers (part isOwn entries)
    = (plainMembers entries).filter fun plain => isOwn plain.name.key := by
  rw [part, plainMembers, plainMembers, List.filterMap_filter, List.filter_filterMap]
  refine List.filterMap_congr fun resolved _ => ?_
  cases resolved with
  | pojo pojo => simp
  | plain plain => rfl

include hentries

theorem within_plainMembers_part :
    ∀ plain ∈ (plainMembers entries).filter fun plain => isOwn plain.name.key,
      plain.Within (Owns isOwn) := by
  rw [← plainMembers_part]
  exact within_plainMembers hentries

theorem keptPojos_part : keptPojos inlining (part isOwn entries)
    = (keptPojos inlining entries).filter fun pojo => isOwn pojo.name.key := by
  have hplains := within_plainMembers_part hentries
  rw [keptPojos, keptPojos, plainMembers_part, part, List.filterMap_filter, List.filter_filterMap]
  refine List.filterMap_congr fun resolved hresolved => ?_
  cases resolved with
  | pojo pojo => rfl
  | plain plain =>
    have hname : plain.toAlias.name = plain.name := rfl
    cases hown : isOwn plain.name.key with
    | false =>
      cases inlining with
      | never => simp [Resolved.name, Option.filter, hname, hown]
      | simple =>
        by_cases hkept : plain.finalType? (plainMembers entries) = none <;>
          simp [Resolved.name, Option.filter, hname, hown, hkept]
    | true =>
      have hfinal := finalType?_part hplains (mem_plainMembers_iff.mpr hresolved) hown
      cases inlining with
      | never => simp [Resolved.name, Option.filter, hname, hown]
      | simple =>
        by_cases hkept : plain.finalType? (plainMembers entries) = none <;>
          simp [Resolved.name, Option.filter, hname, hown, hkept, hfinal]

theorem replacementsOf_part : replacementsOf inlining (part isOwn entries)
    = (replacementsOf inlining entries).filter fun replacement => isOwn replacement.name.key := by
  cases inlining with
  | never => rfl
  | simple =>
    rw [replacementsOf, replacementsOf, plainMembers_part]
    exact ofPlains_part (within_plainMembers_part hentries)

end

/-! ## Revisions -/

theorem Owns.key_ne {name other : PojoName} (h : Owns isOwn name)
    (hother : isOwn other.key = false) : name.key ≠ other.key := by
  intro heq
  rw [Owns, heq, hother] at h
  cases h

/-- A member that mentions no name of the rest is no reference to one. -/
theorem refersTo_rest {member : Member} (hmember : member.type.Within (Owns isOwn))
    {name : PojoName} (hname : isOwn name.key = false) : member.refersTo name = false := by
  rw [← Bool.not_eq_true, Member.refersTo_iff]
  rintro ⟨target, htarget, heq⟩
  exact Owns.key_ne (hmember.of_objectName? htarget) hname heq

theorem substitute_rest {replacement : Replacement} (h : isOwn replacement.name.key = false)
    {type : DataType} (htype : type.Within (Owns isOwn)) : type.substitute replacement = type :=
  DataType.substitute_of_references fun name hname => Owns.key_ne (htype name hname) h

namespace Revision

/-- A replacement of the rest replaces nothing in types that mention no name of the rest. -/
theorem agreesOn_substitute_rest {replacement : Replacement}
    (h : isOwn replacement.name.key = false) :
    (substitute replacement).AgreesOn (Owns isOwn) (rename id) := by
  refine ⟨fun _ _ => rfl, fun member hmember => ?_, fun type htype => ?_⟩
  · change member.substitute replacement = member.rename id
    rw [Member.rename_id]
    simp only [Member.substitute, refersTo_rest hmember h, substitute_rest h hmember]
    rfl
  · exact (substitute_rest h htype).trans type.rename_id.symm

/-- A description of the rest is not passed on to members that mention no name of the rest. -/
theorem agreesOn_describe_rest {described : Described} (h : isOwn described.name.key = false) :
    (describe described).AgreesOn (Owns isOwn) (rename id) := by
  refine ⟨fun _ _ => rfl, fun member hmember => ?_, fun type _ => type.rename_id.symm⟩
  change member.describe described = member.rename id
  rw [Member.rename_id, Member.describe_of_not_refersTo (refersTo_rest hmember h)]

end Revision

/-- Types of a part are revised by the revisions of the part as by all. -/
theorem map_revise_part {r s : Revision} {pojos : List Pojo}
    (hpojos : ∀ pojo ∈ pojos.filter fun pojo => isOwn pojo.name.key, pojo.Within (Owns isOwn))
    (hagrees : r.AgreesOn (Owns isOwn) s) (hname : ∀ name, s.name name = name) :
    (pojos.filter fun pojo => isOwn pojo.name.key).map (Pojo.revise r)
      = (pojos.map (Pojo.revise s)).filter fun pojo => isOwn pojo.name.key := by
  have hfilter : (pojos.map (Pojo.revise s)).filter (fun pojo => isOwn pojo.name.key)
      = (pojos.filter fun pojo => isOwn pojo.name.key).map (Pojo.revise s) := by
    simp only [List.filter_map, Function.comp_def, Pojo.name_revise, hname]
  rw [hfilter]
  exact List.map_congr_left fun pojo hpojo => (hpojos pojo hpojo).revise_congr hagrees

/-! ## Sets -/

section

variable {entries : List Resolved}
  (hentries : ∀ resolved ∈ part isOwn entries, resolved.Within (Owns isOwn))
  (inlining : ReferenceInlining)

include hentries

/-- **The types that are left of a part** are those that are left of the whole, with references
replaced alike. -/
theorem pojos_ofResolved_part : (PojoSet.ofResolved inlining (part isOwn entries)).pojos
    = (PojoSet.ofResolved inlining entries).pojos.filter fun pojo => isOwn pojo.name.key := by
  have hkept := within_keptPojos hentries inlining
  have hreplacements := within_replacementsOf hentries inlining
  rw [keptPojos_part hentries] at hkept
  rw [replacementsOf_part hentries] at hreplacements
  rw [pojos_ofResolved, pojos_ofResolved, keptPojos_part hentries, replacementsOf_part hentries]
  refine map_revise_part hkept (Revision.agreesOn_filter (fun replacement hmem hown => ?_)
    fun replacement _ hrest => Revision.agreesOn_substitute_rest hrest) fun name => by simp
  exact Revision.keepsWithin_substitute (hreplacements replacement (List.mem_filter.mpr ⟨hmem, hown⟩))

/-- **Descriptions are passed on alike.** -/
theorem pojos_describe_part : (PojoSet.ofResolved inlining (part isOwn entries)).describe.pojos
    = (PojoSet.ofResolved inlining entries).describe.pojos.filter
      fun pojo => isOwn pojo.name.key := by
  have hwithin := PojoSet.within_ofResolved hentries inlining
  rw [pojos_ofResolved_part hentries] at hwithin
  rw [pojos_describe, pojos_describe, pojos_ofResolved_part hentries]
  generalize (PojoSet.ofResolved inlining entries).pojos = pojos at hwithin ⊢
  have hdescribed : describedTypes (pojos.filter fun pojo => isOwn pojo.name.key)
      = (describedTypes pojos).filter fun described => isOwn described.name.key := by
    rw [describedTypes, describedTypes, List.filterMap_filter, List.filter_filterMap]
    refine List.filterMap_congr fun pojo _ => ?_
    cases hown : isOwn pojo.name.key <;> cases pojo.description <;> simp [Option.filter, hown]
  rw [hdescribed]
  exact map_revise_part hwithin (Revision.agreesOn_filter
    (fun described _ _ => Revision.keepsWithin_describe described)
    fun described _ hrest => Revision.agreesOn_describe_rest hrest) fun name => by simp

theorem warnings_ofResolved_part : List.Sublist
    (PojoSet.ofResolved inlining (part isOwn entries)).warnings
    (PojoSet.ofResolved inlining entries).warnings := by
  cases inlining with
  | never => exact .slnil
  | simple =>
    have hcyclic := cyclicPlains_part (within_plainMembers_part hentries)
    rw [← plainMembers_part] at hcyclic
    simp only [PojoSet.ofResolved, inlinePlains, hcyclic]
    exact List.filter_sublist.map _

omit hentries in
/-- Types that mention no name of the rest have the same references to types that do not exist. -/
theorem danglingReferences_part {pojos : List Pojo}
    (hpojos : ∀ pojo ∈ pojos.filter fun pojo => isOwn pojo.name.key, pojo.Within (Owns isOwn))
    (exclusion : Exclusion) :
    List.Sublist (danglingReferences exclusion (pojos.filter fun pojo => isOwn pojo.name.key))
      (danglingReferences exclusion pojos) := by
  have hdefined : ∀ name : PojoName, Owns isOwn name →
      ((pojos.filter fun pojo => isOwn pojo.name.key).map (·.name.key)).contains name.key
        = (pojos.map (·.name.key)).contains name.key := by
    intro name hname
    rw [Bool.eq_iff_iff, List.contains_iff_mem, List.contains_iff_mem, List.mem_map, List.mem_map]
    constructor
    · rintro ⟨pojo, hpojo, hkey⟩
      exact ⟨pojo, (List.mem_filter.mp hpojo).1, hkey⟩
    · rintro ⟨pojo, hpojo, hkey⟩
      exact ⟨pojo, List.mem_filter.mpr ⟨hpojo, hkey ▸ hname⟩, hkey⟩
  have hsame : danglingReferences exclusion (pojos.filter fun pojo => isOwn pojo.name.key)
      = (pojos.filter fun pojo => isOwn pojo.name.key).flatMap fun pojo =>
        (distinctNames [] (pojo.references.filter fun name =>
          !(pojos.map (·.name.key)).contains name.key && !exclusion.excludes name.raw)).map
            (.danglingReference pojo.name) := by
    refine List.flatMap_congr fun pojo hpojo => ?_
    refine congrArg (fun names => (distinctNames [] names).map _) (List.filter_congr ?_)
    intro name hname
    rw [hdefined name ((hpojos pojo hpojo).references name hname)]
  rw [hsame]
  exact List.filter_sublist.flatMap _

/-- **The warnings of a part are among those of the whole.** -/
theorem warnings_ofEntries_part (settings : Settings) (exclusion : Exclusion) : List.Sublist
    (PojoSet.ofEntries settings exclusion (part isOwn entries)).warnings
    (PojoSet.ofEntries settings exclusion entries).warnings := by
  have hwithin := PojoSet.within_describe (PojoSet.within_ofResolved hentries
    settings.referenceInlining)
  rw [pojos_describe_part hentries] at hwithin
  refine (warnings_ofResolved_part hentries settings.referenceInlining).append ?_
  rw [pojos_describe_part hentries]
  exact danglingReferences_part hwithin exclusion

end

end PojoGraph
