import PojoGraph.Proofs.PojoSet.Aliases
import PojoGraph.Proofs.PojoSet.Revisions

/-!
# Expansion of aliases

Putting plain types in place of references goes through the plain types one by one, and replaces
the references to each by the type in which its chain ends. What this comes to does not mention
the order: each reference to an alias whose chain ends is replaced by the type of the alias, again
and again until no such reference is left. The two agree since plain types are leaves, so that the
type in which a chain ends refers to no plain type any more.

## Main definitions

* `DataType.Expands` — all references to aliases whose chains end are replaced.

## Main statements

* `DataType.Expands.unique` — a type expands to one type only.
* `LeadsTo.substituteAll_eq` — a reference is replaced by the type in which its chain ends.
* `expands_substituteAll` — replacing references one plain type at a time expands types.
-/

namespace PojoGraph

/-- Each reference in the type to an alias whose chain ends is replaced by the type that the alias
stands for, in which the same is done, until no such reference is left. -/
inductive DataType.Expands (pojos : List Pojo) : DataType → DataType → Prop where
  | reference {name : PojoName} (traits : Traits) {pojo : Pojo} {type final : DataType}
      (hpojo : pojo ∈ pojos) (htype : pojo.aliased? = some type)
      (hkey : name.key = pojo.name.key) (hends : ChainEnds (PointsTo pojos) pojo)
      (hrest : Expands pojos type final) :
    Expands pojos (.leaf (.object name) traits) final
  | leaf {leaf : Leaf} (traits : Traits)
      (hother : ∀ name, leaf = .object name → ∀ pojo ∈ pojos, pojo.aliased?.isSome →
        ChainEnds (PointsTo pojos) pojo → name.key ≠ pojo.name.key) :
    Expands pojos (.leaf leaf traits) (.leaf leaf traits)
  | list {item item' : DataType} (traits : Traits) (hitem : Expands pojos item item') :
    Expands pojos (.list item traits) (.list item' traits)
  | map {key key' value value' : DataType} (traits : Traits) (hkey : Expands pojos key key')
      (hvalue : Expands pojos value value') :
    Expands pojos (.map key value traits) (.map key' value' traits)

/-- **A type expands to one type only**, where types have different keys. -/
theorem DataType.Expands.unique {pojos : List Pojo} (hnodup : (pojos.map (·.name.key)).Nodup)
    {type final final' : DataType} (h : type.Expands pojos final)
    (h' : type.Expands pojos final') : final = final' := by
  induction h generalizing final' with
  | reference traits hpojo htype hkey hends hrest ih =>
    cases h' with
    | reference _ hpojo' htype' hkey' hends' hrest' =>
      obtain rfl := List.inj_on_of_nodup_map hnodup hpojo hpojo' (hkey.symm.trans hkey')
      rw [htype] at htype'
      cases htype'
      exact ih hrest'
    | leaf _ hother => exact absurd hkey (hother _ rfl _ hpojo (by rw [htype]; rfl) hends)
  | leaf traits hother =>
    cases h' with
    | reference _ hpojo htype hkey hends hrest =>
      exact absurd hkey (hother _ rfl _ hpojo (by rw [htype]; rfl) hends)
    | leaf _ _ => rfl
  | list traits hitem ih =>
    cases h' with
    | list _ hitem' => rw [ih hitem']
  | map traits hkey hvalue ihkey ihvalue =>
    cases h' with
    | map _ hkey' hvalue' => rw [ihkey hkey', ihvalue hvalue']

/-! ## Replacements -/

theorem DataType.eq_of_objectName? {type : DataType} {name : PojoName}
    (h : type.objectName? = some name) : type = .leaf (.object name) type.traits := by
  cases type with
  | leaf leaf traits => cases leaf <;> cases h; rfl
  | list item traits => cases h
  | map key value traits => cases h

section

variable {replacements : List Replacement} {plains : List PlainMember}

/-- A leaf that is no reference to the name of a replacement stays as it is. -/
theorem DataType.substitute_leaf {leaf : Leaf} {replacement : Replacement}
    (h : ∀ name, leaf = .object name → name.key ≠ replacement.name.key) (traits : Traits) :
    (DataType.leaf leaf traits).substitute replacement = .leaf leaf traits := by
  cases leaf with
  | object name => simp [substitute, h name rfl]
  | _ => rfl

/-- The type with each reference exchanged that one of the replacements is for, one after the
other. -/
def DataType.substituteAll (replacements : List Replacement) (type : DataType) : DataType :=
  replacements.foldl (fun type replacement => type.substitute replacement) type

theorem DataType.substituteAll_cons (first : Replacement) (rest : List Replacement)
    (type : DataType) :
    type.substituteAll (first :: rest) = (type.substitute first).substituteAll rest :=
  rfl

theorem DataType.substituteAll_append (before after : List Replacement) (type : DataType) :
    type.substituteAll (before ++ after) = (type.substituteAll before).substituteAll after :=
  List.foldl_append

theorem substituteAll_of_forall {type : DataType}
    (h : ∀ replacement ∈ replacements, type.substitute replacement = type) :
    type.substituteAll replacements = type := by
  induction replacements with
  | nil => rfl
  | cons first rest ih =>
    rw [DataType.substituteAll_cons, h first List.mem_cons_self]
    exact ih fun replacement hmem => h replacement (List.mem_cons_of_mem _ hmem)

/-- A reference to the name of a replacement becomes the type of that, if no other replacement has
the name and none changes the type. -/
theorem substituteAll_reference {replacement : Replacement}
    (hnodup : (replacements.map (·.name.key)).Nodup) (hmem : replacement ∈ replacements)
    {name : PojoName} (hkey : name.key = replacement.name.key) (traits : Traits)
    (hfinal : ∀ other ∈ replacements, replacement.type.substitute other = replacement.type) :
    (DataType.leaf (.object name) traits).substituteAll replacements = replacement.type := by
  obtain ⟨before, after, rfl⟩ := List.append_of_mem hmem
  have hbefore : (DataType.leaf (.object name) traits).substituteAll before
      = .leaf (.object name) traits := by
    refine substituteAll_of_forall fun other hother => DataType.substitute_leaf ?_ traits
    rintro _ ⟨⟩ hsame
    rw [List.map_append, List.nodup_append] at hnodup
    exact hnodup.2.2 _ (List.mem_map_of_mem hother) _
      (List.mem_map_of_mem List.mem_cons_self) (hsame.symm.trans hkey)
  have hhere : (DataType.leaf (.object name) traits).substitute replacement
      = replacement.type := by
    simp [DataType.substitute, hkey]
  rw [DataType.substituteAll_append, hbefore, DataType.substituteAll_cons, hhere]
  exact substituteAll_of_forall fun other hother =>
    hfinal other (List.mem_append_right _ (List.mem_cons_of_mem _ hother))

theorem substituteAll_list (replacements : List Replacement) (item : DataType) (traits : Traits) :
    (DataType.list item traits).substituteAll replacements
      = .list (item.substituteAll replacements) traits := by
  induction replacements generalizing item with
  | nil => rfl
  | cons first rest ih => exact ih _

theorem substituteAll_map (replacements : List Replacement) (key value : DataType)
    (traits : Traits) :
    (DataType.map key value traits).substituteAll replacements
      = .map (key.substituteAll replacements) (value.substituteAll replacements) traits := by
  induction replacements generalizing key value with
  | nil => rfl
  | cons first rest ih => exact ih _ _

/-! ## Replacements of plain types -/

theorem mem_ofPlains_iff {replacement : Replacement} :
    replacement ∈ Replacement.ofPlains plains
      ↔ ∃ plain ∈ plains, ∃ final, plain.finalType? plains = some final
        ∧ replacement = ⟨plain.name, plain.description, final⟩ := by
  rw [Replacement.ofPlains, List.mem_filterMap]
  refine exists_congr fun plain => and_congr_right fun _ => ?_
  rw [Option.map_eq_some_iff]
  exact exists_congr fun final => and_congr_right fun _ => eq_comm

theorem nodup_keys_ofPlains (hnodup : (plains.map (·.name.key)).Nodup) :
    ((Replacement.ofPlains plains).map (·.name.key)).Nodup := by
  have hkeys : (Replacement.ofPlains plains).map (·.name.key)
      = (plains.filter fun plain => (plain.finalType? plains).isSome).map (·.name.key) := by
    rw [Replacement.ofPlains, List.map_filterMap, ← List.filterMap_eq_filter,
      List.map_filterMap]
    refine List.filterMap_congr fun plain _ => ?_
    cases hfinal : plain.finalType? plains <;> simp [Option.guard, hfinal]
  rw [hkeys]
  exact (List.filter_sublist.map _).nodup hnodup

/-- The type in which the chain from a leaf ends is a leaf, and no replacement of a plain type
changes it. -/
theorem LeadsTo.isLeaf {type final : DataType} {path : List PlainMember}
    (h : LeadsTo plains type path final) (hleaf : ∀ plain ∈ plains, plain.type.IsLeaf)
    (htype : type.IsLeaf) : final.IsLeaf :=
  h.induction_on_types hleaf htype

theorem LeadsTo.substitute_final {type final : DataType} {path : List PlainMember}
    (h : LeadsTo plains type path final) (hnodup : (plains.map (·.name.key)).Nodup)
    (hleaf : ∀ plain ∈ plains, plain.type.IsLeaf) (htype : type.IsLeaf) {plain : PlainMember}
    (hplain : plain ∈ plains) {description : Option String} {replaced : DataType} :
    final.substitute ⟨plain.name, description, replaced⟩ = final := by
  have hend := h.plainTarget?_eq_none
  have hfinal := h.isLeaf hleaf htype
  cases final with
  | leaf leaf traits =>
    refine DataType.substitute_leaf ?_ traits
    rintro name rfl hkey
    have hnext : plainTarget? plains (.leaf (.object name) traits) = some plain :=
      (plainTarget?_eq_some_iff hnodup).mpr ⟨hplain, name, rfl, hkey⟩
    rw [hend] at hnext
    cases hnext
  | list item traits => exact hfinal.elim
  | map key value traits => exact hfinal.elim

section

variable (hnodup : (plains.map (·.name.key)).Nodup) (hleaf : ∀ plain ∈ plains, plain.type.IsLeaf)

include hnodup hleaf

/-- What a plain type is replaced by has nothing to replace. -/
theorem substitute_of_mem_ofPlains {replacement other : Replacement}
    (hreplacement : replacement ∈ Replacement.ofPlains plains)
    (hother : other ∈ Replacement.ofPlains plains) :
    replacement.type.substitute other = replacement.type := by
  obtain ⟨plain, hplain, final, hfinal, rfl⟩ := mem_ofPlains_iff.mp hreplacement
  obtain ⟨plain', hplain', final', -, rfl⟩ := mem_ofPlains_iff.mp hother
  obtain ⟨path, hleads⟩ := (finalType?_eq_some_iff hplain).mp hfinal
  exact hleads.substitute_final hnodup hleaf (hleaf plain hplain) hplain'

/-- A leaf from which a chain ends becomes the type in which it ends. -/
theorem LeadsTo.substituteAll_eq {type final : DataType} {path : List PlainMember}
    (h : LeadsTo plains type path final) (htype : type.IsLeaf) :
    type.substituteAll (Replacement.ofPlains plains) = final := by
  cases h with
  | here hend =>
    refine substituteAll_of_forall fun replacement hmem => ?_
    obtain ⟨plain, hplain, final, -, rfl⟩ := mem_ofPlains_iff.mp hmem
    exact (LeadsTo.here hend).substitute_final hnodup hleaf htype hplain
  | @there _ _ next path hnext hrest =>
    obtain ⟨hplain, target, htarget, hkey⟩ := (plainTarget?_eq_some_iff hnodup).mp hnext
    have hmem : ⟨next.name, next.description, final⟩ ∈ Replacement.ofPlains plains :=
      mem_ofPlains_iff.mpr
        ⟨next, hplain, final, (finalType?_eq_some_iff hplain).mpr ⟨path, hrest⟩, rfl⟩
    rw [DataType.eq_of_objectName? htarget]
    exact substituteAll_reference (nodup_keys_ofPlains hnodup) hmem hkey type.traits
      fun other hother => substitute_of_mem_ofPlains hnodup hleaf hmem hother

omit hleaf in
/-- A leaf from which no chain ends stays as it is. -/
theorem substituteAll_of_not_leadsTo {type : DataType} (htype : type.IsLeaf)
    (h : ∀ path final, ¬ LeadsTo plains type path final) :
    type.substituteAll (Replacement.ofPlains plains) = type := by
  refine substituteAll_of_forall fun replacement hmem => ?_
  obtain ⟨plain, hplain, final, hfinal, rfl⟩ := mem_ofPlains_iff.mp hmem
  obtain ⟨path, hleads⟩ := (finalType?_eq_some_iff hplain).mp hfinal
  cases type with
  | leaf leaf traits =>
    refine DataType.substitute_leaf ?_ traits
    rintro name rfl hkey
    exact h _ _ (.there ((plainTarget?_eq_some_iff hnodup).mpr ⟨hplain, name, rfl, hkey⟩) hleads)
  | list item traits => exact htype.elim
  | map key value traits => exact htype.elim

end

variable {pojos : List Pojo} (h : AliasesAre pojos plains)
  (hleaf : ∀ plain ∈ plains, plain.type.IsLeaf)

include h hleaf

/-- A leaf expands to the type in which its chain ends. -/
theorem expands_of_leadsTo {type final : DataType} {path : List PlainMember} (htype : type.IsLeaf)
    (hleads : LeadsTo plains type path final) : type.Expands pojos final := by
  induction hleads with
  | @here type hend =>
    cases type with
    | leaf leaf traits =>
      refine .leaf traits ?_
      rintro name rfl pojo hpojo halias - hkey
      obtain ⟨plain, hplain, rfl⟩ := h.exists_eq pojo hpojo halias
      have hnext : plainTarget? plains (.leaf (.object name) traits) = some plain :=
        (plainTarget?_eq_some_iff h.nodup).mpr ⟨hplain, name, rfl, hkey⟩
      rw [hend] at hnext
      cases hnext
    | list item traits => exact htype.elim
    | map key value traits => exact htype.elim
  | @there type final next path hnext hrest ih =>
    obtain ⟨hmem, target, htarget, hkey⟩ := (plainTarget?_eq_some_iff h.nodup).mp hnext
    have hends : ChainEnds (PointsTo pojos) next.toAlias :=
      h.chainEnds_iff.mpr (exists_leadsTo_iff.mp ⟨path, final, hrest⟩)
    rw [DataType.eq_of_objectName? htarget]
    exact .reference type.traits (h.mem next hmem) rfl hkey hends (ih (hleaf next hmem))

/-- **Replacing references one plain type at a time expands types.** -/
theorem expands_substituteAll (type : DataType) :
    type.Expands pojos (type.substituteAll (Replacement.ofPlains plains)) := by
  induction type with
  | leaf leaf traits =>
    by_cases hends : ∃ path final, LeadsTo plains (.leaf leaf traits) path final
    · obtain ⟨path, final, hleads⟩ := hends
      rw [hleads.substituteAll_eq h.nodup hleaf trivial]
      exact expands_of_leadsTo h hleaf trivial hleads
    · have htype : (DataType.leaf leaf traits).IsLeaf := trivial
      have hnone : ∀ path final, ¬ LeadsTo plains (.leaf leaf traits) path final :=
        fun path final hleads => hends ⟨path, final, hleads⟩
      rw [substituteAll_of_not_leadsTo h.nodup htype hnone]
      refine .leaf traits ?_
      rintro name rfl pojo hpojo halias hchain hkey
      obtain ⟨plain, hplain, rfl⟩ := h.exists_eq pojo hpojo halias
      obtain ⟨path, final, hleads⟩ := exists_leadsTo_iff.mpr (h.chainEnds_iff.mp hchain)
      exact hnone _ _
        (.there ((plainTarget?_eq_some_iff h.nodup).mpr ⟨hplain, name, rfl, hkey⟩) hleads)
  | list item traits ih =>
    rw [substituteAll_list]
    exact .list traits ih
  | map key value traits ihkey ihvalue =>
    rw [substituteAll_map]
    exact .map traits ihkey ihvalue

end

end PojoGraph
