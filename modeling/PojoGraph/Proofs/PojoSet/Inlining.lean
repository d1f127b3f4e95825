import PojoGraph.Proofs.PojoSet.Expansion

/-!
# Two ways to inline

Plain types can be put in place of references to them, or kept under their names. The two final
sets differ by the expansion of aliases alone: the one has the types of the other, less the
aliases whose chains end, and in each of its types the aliases are expanded. Members may have got
other descriptions on the way.

## Main definitions

* `Revision.retype` — types are changed, and the descriptions of members are dropped.
* `AreSettled` — entries as resolution leaves them.
* `Pojo.IsExpandable` — an alias whose chain ends.

## Main statements

* `keptPojos_simple` — the types that are left are those that are not expandable.
* `retype_pojos_ofEntries` — the two final sets differ by expansion.
* `cyclicAlias_mem_warnings_iff`, `nodup_warnings` — each alias that is left is reported once.
-/

namespace PojoGraph

/-! ## Types alone -/

/-- Types are changed by `f`, and members lose their descriptions. -/
def Revision.retype (f : DataType → DataType) : Revision where
  name := id
  member member := { member with type := f member.type, description := none }
  type := f

namespace Revision

theorem type_member_sequence_substitute (replacements : List Replacement) (member : Member) :
    ((sequence substitute replacements).member member).type
      = member.type.substituteAll replacements := by
  induction replacements generalizing member with
  | nil => rfl
  | cons first rest ih => exact ih _

theorem type_member_sequence_describe (described : List Described) (member : Member) :
    ((sequence describe described).member member).type = member.type := by
  induction described generalizing member with
  | nil => rfl
  | cons first rest ih =>
    refine (ih _).trans ?_
    simp only [describe, Member.describe]
    split <;> rfl

variable {settings : Settings} (hmapping : settings.mapName = id) (entries : List Resolved)

include hmapping

theorem type_ofEntries (type : DataType) : (ofEntries settings entries).type type
    = type.substituteAll (replacementsOf settings.referenceInlining entries) := by
  simp only [ofEntries, andThen, rename, hmapping, Function.comp_apply, type_sequence_describe,
    DataType.rename_id]
  rfl

theorem type_member_ofEntries (member : Member) :
    ((ofEntries settings entries).member member).type
      = member.type.substituteAll (replacementsOf settings.referenceInlining entries) := by
  simp only [ofEntries, andThen, rename, hmapping, Function.comp_apply, Member.rename_id,
    type_member_sequence_describe, type_member_sequence_substitute]

theorem name_ofEntries (name : PojoName) : (ofEntries settings entries).name name = name := by
  simp [ofEntries, andThen, rename, hmapping]

/-- Without name mappings only the types matter of what becomes of resolved types. -/
theorem ofEntries_andThen_retype (f : DataType → DataType) :
    (ofEntries settings entries).andThen (retype f) = retype fun type =>
      f (type.substituteAll (replacementsOf settings.referenceInlining entries)) := by
  refine ext_of (fun name => ?_) (fun member => ?_) (fun type => ?_)
  · exact name_ofEntries hmapping entries name
  · obtain ⟨hname, hnecessity, hnullability⟩ := keepsMembers_ofEntries settings entries member
    have htype := type_member_ofEntries hmapping entries member
    simp only [andThen, retype, Function.comp_apply, hname, hnecessity, hnullability, htype]
  · exact congrArg f (type_ofEntries hmapping entries type)

end Revision

/-! ## Entries of a resolution -/

/-- Entries as resolution leaves them: they have different keys, plain types are leaves, and no
pojo is an alias. -/
structure AreSettled (entries : List Resolved) : Prop where
  nodup : (entries.map (·.name.key)).Nodup
  isLeaf : ∀ plain, .plain plain ∈ entries → plain.type.IsLeaf
  notAlias : ∀ pojo, .pojo pojo ∈ entries → pojo.aliased? = none

theorem mem_plainMembers_iff {entries : List Resolved} {plain : PlainMember} :
    plain ∈ plainMembers entries ↔ .plain plain ∈ entries := by
  rw [plainMembers, List.mem_filterMap]
  constructor
  · rintro ⟨resolved, hresolved, hplain⟩
    cases resolved with
    | pojo pojo => cases hplain
    | plain other => cases hplain; exact hresolved
  · intro h
    exact ⟨_, h, rfl⟩

theorem keys_plainMembers_sublist (entries : List Resolved) :
    List.Sublist ((plainMembers entries).map (·.name.key)) (entries.map (·.name.key)) := by
  induction entries with
  | nil => exact .slnil
  | cons resolved rest ih =>
    cases resolved with
    | pojo pojo => exact ih.cons _
    | plain plain => exact ih.cons_cons _

theorem Pojo.aliased?_revise (r : Revision) (pojo : Pojo) :
    (pojo.revise r).aliased? = pojo.aliased?.map r.type := by
  cases pojo <;> rfl

/-- The pojo is an alias whose chain ends. -/
def Pojo.IsExpandable (pojos : List Pojo) (pojo : Pojo) : Prop :=
  pojo.aliased?.isSome ∧ ChainEnds (PointsTo pojos) pojo

/-- The pojos of the final set in which plain types are kept, without name mappings. -/
def unexpandedPojos (settings : Settings) (entries : List Resolved) : List Pojo :=
  (keptPojos .never entries).map
    (Pojo.revise (.ofEntries { settings with referenceInlining := .never } entries))

section

variable {settings : Settings} (hmapping : settings.mapName = id) {entries : List Resolved}

include hmapping

/-- Plain types that are kept stay as they are. -/
theorem revise_toAlias (plain : PlainMember) :
    plain.toAlias.revise (.ofEntries { settings with referenceInlining := .never } entries)
      = plain.toAlias := by
  have hmapping' : Settings.mapName { settings with referenceInlining := .never } = id := hmapping
  simp only [PlainMember.toAlias, Pojo.revise, Revision.name_ofEntries hmapping',
    Revision.type_ofEntries hmapping']
  rfl

variable (h : AreSettled entries)

include h

theorem AreSettled.nodup_keys_unexpandedPojos :
    ((unexpandedPojos settings entries).map (·.name.key)).Nodup := by
  have hkept : (keptPojos .never entries).map (·.name.key) = entries.map (·.name.key) := by
    rw [keptPojos, List.map_filterMap, ← List.filterMap_eq_map]
    exact List.filterMap_congr fun resolved _ => by cases resolved <;> rfl
  have hnever : Settings.mapName { settings with referenceInlining := .never } = id := hmapping
  have hname := Revision.name_ofEntries hnever entries
  rw [unexpandedPojos, List.map_map]
  simp only [Function.comp_def, Pojo.name_revise, hname]
  exact hkept ▸ h.nodup

theorem AreSettled.aliasesAre :
    AliasesAre (unexpandedPojos settings entries) (plainMembers entries) where
  mem plain hplain := by
    have hkept : plain.toAlias ∈ keptPojos .never entries :=
      List.mem_filterMap.mpr ⟨_, mem_plainMembers_iff.mp hplain, rfl⟩
    have hmem := List.mem_map_of_mem
      (f := Pojo.revise (.ofEntries { settings with referenceInlining := .never } entries)) hkept
    rwa [revise_toAlias hmapping] at hmem
  exists_eq pojo hpojo halias := by
    obtain ⟨kept, hkept, rfl⟩ := List.mem_map.mp hpojo
    obtain ⟨resolved, hresolved, heq⟩ := List.mem_filterMap.mp hkept
    cases resolved with
    | pojo original =>
      cases heq
      rw [Pojo.aliased?_revise, h.notAlias _ hresolved] at halias
      cases halias
    | plain plain =>
      cases heq
      exact ⟨plain, mem_plainMembers_iff.mpr hresolved, revise_toAlias hmapping plain⟩
  nodup := (keys_plainMembers_sublist entries).nodup h.nodup

open Classical in
/-- **The types that are left where plain types are put in place of references** are those that
are not expandable. -/
theorem AreSettled.keptPojos_simple :
    keptPojos .simple entries = (keptPojos .never entries).filter fun pojo =>
      ¬ (pojo.revise
          (.ofEntries { settings with referenceInlining := .never } entries)).IsExpandable
        (unexpandedPojos settings entries) := by
  rw [keptPojos, keptPojos, List.filter_filterMap]
  refine List.filterMap_congr fun resolved hresolved => ?_
  cases resolved with
  | pojo pojo =>
    have hnot : ¬ (pojo.revise (.ofEntries { settings with referenceInlining := .never }
        entries)).IsExpandable (unexpandedPojos settings entries) := by
      rintro ⟨halias, -⟩
      rw [Pojo.aliased?_revise, h.notAlias _ hresolved] at halias
      cases halias
    simp [Option.filter, hnot]
  | plain plain =>
    have hplain := mem_plainMembers_iff.mpr hresolved
    have hiff : (plain.finalType? (plainMembers entries)).isNone = true
        ↔ ¬ plain.toAlias.IsExpandable (unexpandedPojos settings entries) := by
      rw [isNone_finalType?_iff hplain, ← (h.aliasesAre hmapping).chainEnds_iff]
      exact not_congr (and_iff_right rfl).symm
    simp only [Option.filter, revise_toAlias hmapping plain, hiff, decide_eq_true_eq]

open Classical in
/-- **The two final sets differ by expansion.** Up to the descriptions of members, the types of
the one are those of the other that are not expandable, with all types in them expanded. -/
theorem AreSettled.retype_pojos_ofEntries (exclusion : Exclusion) :
    (PojoSet.ofEntries { settings with referenceInlining := .simple } exclusion
        entries).pojos.map (Pojo.revise (.retype id))
      = ((unexpandedPojos settings entries).filter fun pojo =>
          ¬ pojo.IsExpandable (unexpandedPojos settings entries)).map
        (Pojo.revise (.retype
          (DataType.substituteAll (Replacement.ofPlains (plainMembers entries))))) := by
  have hsimple : Settings.mapName { settings with referenceInlining := .simple } = id := hmapping
  have hnever : Settings.mapName { settings with referenceInlining := .never } = id := hmapping
  rw [pojos_ofEntries, h.keptPojos_simple hmapping]
  generalize hpojos : unexpandedPojos settings entries = pojos
  rw [← congrArg (List.filter _) hpojos, unexpandedPojos, List.filter_map, List.map_map,
    List.map_map]
  refine List.map_congr_left fun pojo _ => ?_
  rw [Function.comp_apply, Function.comp_apply, Pojo.revise_revise, Pojo.revise_revise,
    Revision.ofEntries_andThen_retype hsimple, Revision.ofEntries_andThen_retype hnever]
  rfl

end

/-! ## Warnings -/

/-- No circle is reported twice for one alias. -/
theorem AreSettled.nodup_warnings {entries : List Resolved} (h : AreSettled entries) :
    (PojoSet.ofResolved .simple entries).warnings.Nodup := by
  have hkeys : ((cyclicPlains (plainMembers entries)).map (·.name.key)).Nodup :=
    (List.filter_sublist.map _).nodup ((keys_plainMembers_sublist entries).nodup h.nodup)
  let key : Warning → String
    | .cyclicAlias name => name.key
    | _ => ""
  refine List.Nodup.of_map key ?_
  rw [PojoSet.ofResolved, inlinePlains, List.map_map]
  exact hkeys

/-- What is reported are the aliases that are left. -/
theorem AreSettled.cyclicAlias_mem_warnings_iff {entries : List Resolved} (h : AreSettled entries)
    {name : PojoName} : .cyclicAlias name ∈ (PojoSet.ofResolved .simple entries).warnings
      ↔ ∃ pojo ∈ keptPojos .simple entries, pojo.aliased?.isSome ∧ pojo.name = name := by
  change _ ∈ (cyclicPlains (plainMembers entries)).map _ ↔ _
  rw [List.mem_map]
  constructor
  · rintro ⟨plain, hplain, heq⟩
    cases heq
    obtain ⟨hmem, hcyclic⟩ := List.mem_filter.mp hplain
    exact ⟨plain.toAlias, mem_keptPojos_iff.mpr
      (.inr ⟨plain, mem_plainMembers_iff.mp hmem, rfl, .inr hcyclic⟩), rfl, rfl⟩
  · rintro ⟨pojo, hpojo, halias, rfl⟩
    rcases mem_keptPojos_iff.mp hpojo with hresolved | ⟨plain, hplain, rfl, hkept⟩
    · rw [h.notAlias _ hresolved] at halias
      cases halias
    · have hcyclic := hkept.resolve_left ReferenceInlining.noConfusion
      exact ⟨plain, List.mem_filter.mpr ⟨mem_plainMembers_iff.mpr hplain, hcyclic⟩, rfl⟩

end PojoGraph
