import PojoGraph.Proofs.Run.Flattening
import PojoGraph.Proofs.Run.Inlining

/-!
# Plain types of a run

A schema that is just a type is not generated where plain types are put in place of references,
unless its references run into a circle. What becomes of a type in the final set is then the type
in which its chain of plain types ends.

## Main definitions

* `Course.plains` — the plain types of a run.

## Main statements

* `Course.exists_pojo_iff_of_mem_plains` — the plain types that are generated.
* `Course.type_revision_of_leadsTo` — the final type of a leaf.
-/

namespace PojoGraph

/-! ## Types that are left -/

/-- A chain through plain types of different keys ends, or it runs into a circle. -/
theorem not_chainEnds_next_iff {plains : List PlainMember}
    (hnodup : (plains.map (·.name.key)).Nodup) (plain : PlainMember) :
    ¬ ChainEnds (PlainMember.Next plains) plain
      ↔ RunsIntoCycle (PlainMember.Next plains) plain := by
  refine not_chainEnds_iff (fun _ _ _ hnext hnext' => ?_)
    fun _ _ hnext => ((plainTarget?_eq_some_iff hnodup).mp hnext).1
  rw [PlainMember.Next] at hnext hnext'
  exact Option.some.inj (hnext.symm.trans hnext')

namespace AreSettled

variable {entries : List Resolved} (h : AreSettled entries) {plain : PlainMember}

include h

theorem nodup_keys_plainMembers : ((plainMembers entries).map (·.name.key)).Nodup :=
  (keys_plainMembers_sublist entries).nodup h.nodup

/-- Under the name of a plain type there is nothing but that plain type. -/
theorem eq_toAlias_of_mem_keptPojos (hplain : plain ∈ plainMembers entries)
    {inlining : ReferenceInlining} {pojo : Pojo} (hpojo : pojo ∈ keptPojos inlining entries)
    (hname : pojo.name = plain.name) : pojo = plain.toAlias := by
  have hsame : ∀ resolved ∈ entries, resolved.name = plain.name → resolved = .plain plain :=
    fun resolved hresolved heq => List.inj_on_of_nodup_map h.nodup hresolved
      (mem_plainMembers_iff.mp hplain) (congrArg PojoName.key heq)
  rcases mem_keptPojos_iff.mp hpojo with hentry | ⟨other, hother, rfl, -⟩
  · cases hsame _ hentry hname
  · cases hsame _ hother hname
    rfl

/-- **The plain types that are left** are all of them, or those whose chains run into a circle. -/
theorem toAlias_mem_keptPojos_iff (hplain : plain ∈ plainMembers entries)
    {inlining : ReferenceInlining} : plain.toAlias ∈ keptPojos inlining entries
      ↔ inlining = .never ∨ RunsIntoCycle (PlainMember.Next (plainMembers entries)) plain := by
  have hentry := mem_plainMembers_iff.mp hplain
  rw [← not_chainEnds_next_iff h.nodup_keys_plainMembers, ← isNone_finalType?_iff hplain,
    mem_keptPojos_iff]
  constructor
  · rintro (hpojo | ⟨other, hother, heq, hkept⟩)
    · cases h.notAlias _ hpojo
    · have hname : other.name = plain.name := congrArg Pojo.name heq
      cases List.inj_on_of_nodup_map h.nodup hother hentry (congrArg PojoName.key hname)
      exact hkept
  · exact fun hkept => .inr ⟨plain, hentry, rfl, hkept⟩

end AreSettled

/-! ## Types in the final set -/

namespace Revision

theorem type_ofEntries_eq (settings : Settings) (entries : List Resolved) (type : DataType) :
    (ofEntries settings entries).type type
      = (type.substituteAll (replacementsOf settings.referenceInlining entries)).rename
        settings.mapName := by
  simp only [ofEntries, andThen, rename, Function.comp_apply, type_sequence_describe]
  rfl

/-- Members get the types that stand outside of members too. -/
theorem type_member_ofEntries_eq (settings : Settings) (entries : List Resolved)
    (member : Member) : ((ofEntries settings entries).member member).type
      = (ofEntries settings entries).type member.type := by
  rw [type_ofEntries_eq]
  simp only [ofEntries, andThen, rename, Function.comp_apply, Member.rename,
    type_member_sequence_describe, type_member_sequence_substitute]

end Revision

/-! ## Plain types of a run -/

namespace Course

variable {settings : Settings} {isLoaded : String → Bool} {documents : List Document}
  (course : Course settings isLoaded documents)

/-- The plain types of the run. -/
def plains : List PlainMember :=
  plainMembers course.final.entries

/-- Before names are mapped, the types that are left have their names, and only types and
descriptions have been put in place. -/
theorem exists_pojos_eq : ∃ r : Revision, (∀ name, r.name name = name)
    ∧ course.pojos
      = (keptPojos settings.referenceInlining course.final.entries).map (Pojo.revise r) := by
  refine ⟨(Revision.sequence Revision.substitute
      (replacementsOf settings.referenceInlining course.final.entries)).andThen
    (Revision.sequence Revision.describe (describedTypes
      (PojoSet.ofResolved settings.referenceInlining course.final.entries).pojos)),
    fun name => by simp [Revision.andThen], ?_⟩
  rw [pojos, pojos_describe, pojos_ofResolved, List.map_map]
  exact List.map_congr_left fun pojo _ => Pojo.revise_revise _ _ pojo

variable {course} {plain : PlainMember}

theorem nodup_keys_plains : (course.plains.map (·.name.key)).Nodup :=
  course.areSettled.nodup_keys_plainMembers

theorem isLeaf_of_mem_plains : ∀ plain ∈ course.plains, plain.type.IsLeaf :=
  fun plain hplain => course.areSettled.isLeaf plain (mem_plainMembers_iff.mp hplain)

/-- **Which plain types are generated.** Each of these is an alias, which records whether null is
among the values of the plain type. -/
theorem exists_pojo_iff_of_mem_plains (h : plain ∈ course.plains) :
    ((∃ pojo ∈ course.pojos, pojo.name = plain.name)
        ↔ settings.referenceInlining = .never
          ∨ RunsIntoCycle (PlainMember.Next course.plains) plain)
      ∧ ∀ pojo ∈ course.pojos, pojo.name = plain.name →
        ∃ type, pojo = .typeAlias plain.name plain.description type plain.nullability := by
  obtain ⟨r, hrename, hpojos⟩ := course.exists_pojos_eq
  have hsettled := course.areSettled
  have halias : ∀ kept ∈ keptPojos settings.referenceInlining course.final.entries,
      (kept.revise r).name = plain.name → kept = plain.toAlias := by
    intro kept hkept hname
    rw [Pojo.name_revise, hrename] at hname
    exact hsettled.eq_toAlias_of_mem_keptPojos h hkept hname
  rw [hpojos]
  refine ⟨?_, fun pojo hpojo hname => ?_⟩
  · rw [plains, ← hsettled.toAlias_mem_keptPojos_iff h]
    constructor
    · rintro ⟨pojo, hpojo, hname⟩
      obtain ⟨kept, hkept, rfl⟩ := List.mem_map.mp hpojo
      exact halias kept hkept hname ▸ hkept
    · exact fun hkept => ⟨_, List.mem_map_of_mem hkept, by rw [Pojo.name_revise, hrename]; rfl⟩
  · obtain ⟨kept, hkept, rfl⟩ := List.mem_map.mp hpojo
    obtain rfl := halias kept hkept hname
    exact ⟨r.type plain.type, by simp only [PlainMember.toAlias, Pojo.revise, hrename]⟩

/-- **Where plain types are put in place of references, a leaf becomes the type in which its chain
ends.** -/
theorem type_revision_of_leadsTo (hsimple : settings.referenceInlining = .simple)
    {type final : DataType} {path : List PlainMember} (htype : type.IsLeaf)
    (h : LeadsTo course.plains type path final) :
    course.revision.type type = final.rename settings.mapName := by
  rw [revision, Revision.type_ofEntries_eq, hsimple]
  exact congrArg (DataType.rename settings.mapName)
    (h.substituteAll_eq nodup_keys_plains isLeaf_of_mem_plains htype)

end Course

end PojoGraph
