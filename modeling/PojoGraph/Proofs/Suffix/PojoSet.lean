import PojoGraph.Proofs.PojoSet.ScopedSteps
import PojoGraph.Proofs.Suffix.Sweep

/-!
# Final sets of renamed types

The steps to the final set look at names by their keys and, for exclusion and name mappings, at the
schema keys in them. So where all names in resolved schemas are changed in a way that does not
interfere with this, the final set is the same with all its names changed.

## Main definitions

* `PojoSet.renameAll` — a set with the names in its types and in its warnings changed.

## Main statements

* `ofResolved_renameAll`, `describe_renameAll`, `checkReferences_renameAll` — each step gives the
  renamed set.
* `ofEntries_renameAll` — **so do all steps together**.
-/

namespace PojoGraph

variable {P : PojoName → Prop}

/-! ## Renamed replacements and descriptions -/

/-- The replacement with all names changed. -/
def Replacement.rename (f : PojoName → PojoName) (replacement : Replacement) : Replacement :=
  { replacement with name := f replacement.name, type := replacement.type.rename f }

/-- The description of a type under another name. -/
def Described.rename (f : PojoName → PojoName) (described : Described) : Described :=
  { described with name := f described.name }

section

variable {f : PojoName → PojoName} {g : String → String}
  (hf : (Revision.rename f).IsFaithful P g)

include hf

theorem DataType.substitute_rename {replacement : Replacement} (hname : P replacement.name)
    {type : DataType} (htype : type.Within P) :
    (type.rename f).substitute (replacement.rename f) = (type.substitute replacement).rename f := by
  induction type with
  | leaf l traits =>
    cases l with
    | object name =>
      have hsame : (f name).isSame (f replacement.name) = name.isSame replacement.name :=
        hf.isSame (htype name (List.mem_singleton_self name)) hname
      simp only [rename, substitute, Replacement.rename, hsame]
      split <;> rfl
    | _ => rfl
  | list item traits ih => exact congrArg (list · traits) (ih htype)
  | map key value traits ihk ihv =>
    have hkey : key.Within P := fun name hmem => htype name (List.mem_append_left _ hmem)
    have hvalue : value.Within P := fun name hmem => htype name (List.mem_append_right _ hmem)
    exact congrArg₂ (map · · traits) (ihk hkey) (ihv hvalue)

theorem Member.refersTo_rename {member : Member} (hmember : member.type.Within P)
    {name : PojoName} (hname : P name) :
    (member.rename f).refersTo (f name) = member.refersTo name := by
  have hobject := hf.objectName? member.type
  change (member.type.rename f).objectName? = _ at hobject
  rw [refersTo, refersTo, rename, hobject]
  cases htarget : member.type.objectName? with
  | none => rw [Option.map_none, Option.any_none, Option.any_none]
  | some target => exact hf.isSame (hmember.of_objectName? htarget) hname

theorem Revision.agreesOn_substitute {replacement : Replacement}
    (h : replacement.Within P) :
    ((rename f).andThen (substitute (replacement.rename f))).AgreesOn P
      ((substitute replacement).andThen (rename f)) where
  name _ _ := rfl
  member member hmember := by
    have hrefers : (member.rename f).refersTo (replacement.rename f).name
        = member.refersTo replacement.name := Member.refersTo_rename hf hmember h.name
    have htype : (member.rename f).type.substitute (replacement.rename f)
        = (member.type.substitute replacement).rename f :=
      DataType.substitute_rename hf h.name hmember
    change (member.rename f).substitute (replacement.rename f)
      = (member.substitute replacement).rename f
    simp only [Member.substitute, hrefers, htype]
    rfl
  type type htype := DataType.substitute_rename hf h.name htype

theorem Revision.agreesOn_describe {described : Described} (h : P described.name) :
    ((rename f).andThen (describe (described.rename f))).AgreesOn P
      ((describe described).andThen (rename f)) where
  name _ _ := rfl
  member member hmember := by
    have hrefers := Member.refersTo_rename hf hmember h
    change (member.rename f).describe (described.rename f) = (member.describe described).rename f
    simp only [Member.describe, Described.rename, hrefers]
    split <;> rfl
  type _ _ := rfl

omit hf in
/-- Revisions one after the other come to the same before and after renaming if each does. -/
theorem Revision.agreesOn_sequence {α : Type} {r : α → Revision} {act : α → α} {as : List α}
    (hkeeps : ∀ a ∈ as, (r a).KeepsWithin P)
    (h : ∀ a ∈ as, ((rename f).andThen (r (act a))).AgreesOn P ((r a).andThen (rename f))) :
    ((rename f).andThen (sequence r (as.map act))).AgreesOn P
      ((sequence r as).andThen (rename f)) := by
  induction as with
  | nil => exact .refl P _
  | cons a rest ih =>
    have hfirst := (h a List.mem_cons_self).andThen_right (sequence r (rest.map act))
    have hrest := ih (fun b hb => hkeeps b (List.mem_cons_of_mem _ hb))
      fun b hb => h b (List.mem_cons_of_mem _ hb)
    exact hfirst.trans ((AgreesOn.refl P (r a)).andThen hrest (hkeeps a List.mem_cons_self))

/-! ## Plain types -/

section

variable {plains : List PlainMember} (hplains : ∀ plain ∈ plains, plain.Within P)

include hplains

theorem plainTarget?_rename {type : DataType} (htype : type.Within P) :
    plainTarget? (plains.map (.revise (.rename f))) (type.rename f)
      = (plainTarget? plains type).map (.revise (.rename f)) := by
  have hobject := hf.objectName? type
  change (type.rename f).objectName? = _ at hobject
  rw [plainTarget?, plainTarget?, hobject]
  cases htarget : type.objectName? with
  | none => rfl
  | some target =>
    simp only [Option.map_some, Option.bind_some, List.find?_map]
    refine congrArg _ (List.find?_congr fun plain hplain => ?_)
    exact hf.isSame (hplains plain hplain).name (htype.of_objectName? htarget)

theorem finalTypeFrom_rename (steps : Nat) {type : DataType} (htype : type.Within P) :
    finalTypeFrom (plains.map (.revise (.rename f))) steps (type.rename f)
      = (finalTypeFrom plains steps type).map (.rename f) := by
  induction steps generalizing type with
  | zero => rfl
  | succ steps ih =>
    rw [finalTypeFrom, finalTypeFrom, plainTarget?_rename hf hplains htype]
    cases htarget : plainTarget? plains type with
    | none => rfl
    | some next => exact ih (hplains next (mem_of_plainTarget? htarget)).type

theorem finalType?_rename {plain : PlainMember} (hplain : plain ∈ plains) :
    (plain.revise (.rename f)).finalType? (plains.map (.revise (.rename f)))
      = (plain.finalType? plains).map (.rename f) := by
  rw [PlainMember.finalType?, PlainMember.finalType?, List.length_map]
  exact finalTypeFrom_rename hf hplains _ (hplains plain hplain).type

theorem ofPlains_rename : Replacement.ofPlains (plains.map (.revise (.rename f)))
    = (Replacement.ofPlains plains).map (.rename f) := by
  rw [Replacement.ofPlains, Replacement.ofPlains, List.filterMap_map, List.map_filterMap]
  refine List.filterMap_congr fun plain hplain => ?_
  rw [Function.comp_apply, finalType?_rename hf hplains hplain]
  cases plain.finalType? plains <;> rfl

theorem cyclicPlains_rename : cyclicPlains (plains.map (.revise (.rename f)))
    = (cyclicPlains plains).map (.revise (.rename f)) := by
  rw [cyclicPlains, cyclicPlains, List.filter_map]
  refine congrArg _ (List.filter_congr fun plain hplain => ?_)
  rw [Function.comp_apply, finalType?_rename hf hplains hplain, Option.isNone_map]

end

/-! ## The first two steps -/

omit hf in
theorem plainMembers_rename (entries : List Resolved) :
    plainMembers (entries.map (.revise (.rename f)))
      = (plainMembers entries).map (.revise (.rename f)) := by
  rw [plainMembers, plainMembers, List.filterMap_map, List.map_filterMap]
  refine List.filterMap_congr fun resolved _ => ?_
  cases resolved <;> rfl

section

variable {entries : List Resolved} (hentries : ∀ resolved ∈ entries, resolved.Within P)
  (inlining : ReferenceInlining)

include hentries

theorem keptPojos_rename : keptPojos inlining (entries.map (.revise (.rename f)))
    = (keptPojos inlining entries).map (.rename f) := by
  rw [keptPojos, keptPojos, plainMembers_rename, List.filterMap_map, List.map_filterMap]
  refine List.filterMap_congr fun resolved hresolved => ?_
  cases resolved with
  | pojo pojo => rfl
  | plain plain =>
    cases inlining with
    | never => rfl
    | simple =>
      have hfinal := finalType?_rename hf (within_plainMembers hentries)
        (mem_plainMembers_iff.mpr hresolved)
      simp only [Function.comp_apply, Resolved.revise, hfinal, Option.isNone_map]
      split <;> rfl

theorem replacementsOf_rename : replacementsOf inlining (entries.map (.revise (.rename f)))
    = (replacementsOf inlining entries).map (.rename f) := by
  cases inlining with
  | never => rfl
  | simple =>
    rw [replacementsOf, replacementsOf, plainMembers_rename]
    exact ofPlains_rename hf (within_plainMembers hentries)

end

end

/-! ## Sets -/

namespace PojoSet

variable {f : PojoName → PojoName}

/-- The set with all names changed, in its types and in its warnings. -/
def renameAll (f : PojoName → PojoName) (set : PojoSet) : PojoSet :=
  ⟨set.pojos.map (Pojo.rename f), set.warnings.map (.rename f)⟩

variable {g : String → String} (hf : (Revision.rename f).IsFaithful P g)

/-- Types in scope that are revised and then renamed are what they are if renamed first. -/
theorem map_revise_rename {r r' : Revision} {pojos : List Pojo}
    (hpojos : ∀ pojo ∈ pojos, pojo.Within P)
    (h : ((Revision.rename f).andThen r').AgreesOn P (r.andThen (.rename f))) :
    (pojos.map (Pojo.rename f)).map (Pojo.revise r')
      = (pojos.map (Pojo.revise r)).map (Pojo.rename f) := by
  rw [List.map_map, List.map_map]
  refine List.map_congr_left fun pojo hpojo => ?_
  have hagrees := (hpojos pojo hpojo).revise_congr h
  rwa [← Pojo.revise_revise, ← Pojo.revise_revise] at hagrees

section

variable {entries : List Resolved} (hentries : ∀ resolved ∈ entries, resolved.Within P)
  (inlining : ReferenceInlining)

include hentries

include hf in
theorem ofResolved_renameAll : ofResolved inlining (entries.map (.revise (.rename f)))
    = (ofResolved inlining entries).renameAll f := by
  have hpojos : (ofResolved inlining (entries.map (.revise (.rename f)))).pojos
      = (ofResolved inlining entries).pojos.map (Pojo.rename f) := by
    have hwithin := within_replacementsOf hentries inlining
    rw [pojos_ofResolved, pojos_ofResolved, keptPojos_rename hf hentries,
      replacementsOf_rename hf hentries]
    exact map_revise_rename (within_keptPojos hentries inlining) (Revision.agreesOn_sequence
      (fun replacement hmem => Revision.keepsWithin_substitute (hwithin replacement hmem))
      fun replacement hmem => Revision.agreesOn_substitute hf (hwithin replacement hmem))
  have hwarnings : (ofResolved inlining (entries.map (.revise (.rename f)))).warnings
      = (ofResolved inlining entries).warnings.map (.rename f) := by
    cases inlining with
    | never => rfl
    | simple =>
      rw [ofResolved, ofResolved, inlinePlains, inlinePlains, plainMembers_rename,
        cyclicPlains_rename hf (within_plainMembers hentries), List.map_map, List.map_map]
      rfl
  rw [renameAll, ← hpojos, ← hwarnings]

end

section

variable {set : PojoSet} (hset : ∀ pojo ∈ set.pojos, pojo.Within P)

include hset hf

theorem describe_renameAll : (set.renameAll f).describe = set.describe.renameAll f := by
  have hdescribed : describedTypes (set.pojos.map (Pojo.rename f))
      = (describedTypes set.pojos).map (.rename f) := by
    rw [describedTypes, describedTypes, List.filterMap_map, List.map_filterMap]
    refine List.filterMap_congr fun pojo _ => ?_
    rw [Function.comp_apply, Pojo.name_rename, Pojo.rename, Pojo.description_revise]
    cases pojo.description <;> rfl
  have hwithin : ∀ described ∈ describedTypes set.pojos, P described.name := by
    intro described hmem
    obtain ⟨pojo, hpojo, hsome⟩ := List.mem_filterMap.mp hmem
    obtain ⟨description, -, rfl⟩ := Option.map_eq_some_iff.mp hsome
    exact (hset pojo hpojo).name
  have hpojos : (set.renameAll f).describe.pojos = set.describe.pojos.map (Pojo.rename f) := by
    rw [pojos_describe, pojos_describe, renameAll, hdescribed]
    exact map_revise_rename hset (Revision.agreesOn_sequence
      (fun described _ => Revision.keepsWithin_describe described)
      fun described hmem => Revision.agreesOn_describe hf (hwithin described hmem))
  exact congrArg (PojoSet.mk · (set.warnings.map (.rename f))) hpojos

omit hset in
theorem distinctNames_rename (seen : List String) {names : List PojoName}
    (hnames : ∀ name ∈ names, P name) :
    distinctNames (seen.map g) (names.map f) = (distinctNames seen names).map f := by
  induction names generalizing seen with
  | nil => rfl
  | cons name rest ih =>
    have hkey : (f name).key = g name.key := hf.key name (hnames name List.mem_cons_self)
    have hrest : ∀ other ∈ rest, P other :=
      fun other hother => hnames other (List.mem_cons_of_mem _ hother)
    have htail := ih (name.key :: seen) hrest
    rw [List.map_cons] at htail
    simp only [List.map_cons, distinctNames, hkey, List.mem_map_of_injective hf.injective]
    split
    · exact ih _ hrest
    · rw [htail, List.map_cons]

theorem danglingReferences_rename (exclusion : Exclusion) :
    danglingReferences exclusion (set.pojos.map (Pojo.rename f))
      = (danglingReferences exclusion set.pojos).map (.rename f) := by
  have hdefined : ∀ name, P name →
      ((set.pojos.map (Pojo.rename f)).map (·.name.key)).contains (f name).key
        = (set.pojos.map (·.name.key)).contains name.key := by
    intro name hname
    have hkeys : (set.pojos.map (Pojo.rename f)).map (·.name.key)
        = (set.pojos.map (·.name.key)).map g := by
      rw [List.map_map, List.map_map]
      refine List.map_congr_left fun pojo hpojo => ?_
      rw [Function.comp_apply, Pojo.name_rename]
      exact hf.key _ (hset pojo hpojo).name
    have hkey : (f name).key = g name.key := hf.key name hname
    rw [hkeys, hkey, Bool.eq_iff_iff, List.contains_iff_mem, List.contains_iff_mem,
      List.mem_map_of_injective hf.injective]
  rw [danglingReferences, danglingReferences, List.flatMap_map, List.map_flatMap]
  refine List.flatMap_congr fun pojo hpojo => ?_
  have hreferences := (hset pojo hpojo).references
  have hfilter : (pojo.rename f).references.filter (fun name =>
        !((set.pojos.map (Pojo.rename f)).map (·.name.key)).contains name.key
          && !exclusion.excludes name.raw)
      = (pojo.references.filter fun name =>
        !(set.pojos.map (·.name.key)).contains name.key && !exclusion.excludes name.raw).map f := by
    rw [Pojo.references_rename, List.filter_map]
    refine congrArg _ (List.filter_congr fun name hname => ?_)
    have hraw : (f name).raw = name.raw := hf.raw name
    rw [Function.comp_apply, hdefined name (hreferences name hname), hraw]
  rw [hfilter]
  have hdistinct := distinctNames_rename hf [] fun name hname =>
    hreferences name (List.mem_of_mem_filter (p := fun name =>
      !(set.pojos.map (·.name.key)).contains name.key && !exclusion.excludes name.raw) hname)
  rw [List.map_nil] at hdistinct
  rw [hdistinct, List.map_map, List.map_map, Pojo.name_rename]
  rfl

theorem checkReferences_renameAll (exclusion : Exclusion) :
    (set.renameAll f).checkReferences exclusion
      = (set.checkReferences exclusion).renameAll f := by
  rw [checkReferences, checkReferences, renameAll, renameAll,
    danglingReferences_rename hf hset exclusion, List.map_append]

end

/-! ## All steps -/

theorem rename_renameAll {h : PojoName → PojoName} (hcomm : ∀ name, h (f name) = f (h name))
    (set : PojoSet) : (set.renameAll f).rename h = (set.rename h).renameAll f := by
  have hpojo : ∀ pojo : Pojo, (pojo.rename f).rename h = (pojo.rename h).rename f := by
    intro pojo
    have hboth : h ∘ f = f ∘ h := funext hcomm
    rw [Pojo.rename_rename, Pojo.rename_rename, hboth]
  have hpojos : (set.pojos.map (Pojo.rename f)).map (Pojo.rename h)
      = (set.pojos.map (Pojo.rename h)).map (Pojo.rename f) := by
    rw [List.map_map, List.map_map]
    exact List.map_congr_left fun pojo _ => hpojo pojo
  exact congrArg (PojoSet.mk · (set.warnings.map (.rename f))) hpojos

include hf in
/-- **The final set of renamed schemas is the final set with all names changed**, if name mappings
do not interfere. -/
theorem ofEntries_renameAll {settings : Settings} (exclusion : Exclusion) {entries : List Resolved}
    (hentries : ∀ resolved ∈ entries, resolved.Within P)
    (hcomm : ∀ name, settings.mapName (f name) = f (settings.mapName name)) :
    ofEntries settings exclusion (entries.map (.revise (.rename f)))
      = (ofEntries settings exclusion entries).renameAll f := by
  have hresolved := within_ofResolved hentries settings.referenceInlining
  rw [ofEntries, ofEntries, ofResolved_renameAll hf hentries, describe_renameAll hf hresolved,
    checkReferences_renameAll hf (within_describe hresolved), rename_renameAll hcomm]

end PojoSet

end PojoGraph
