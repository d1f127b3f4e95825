import Mathlib.Data.Fintype.Card
import Mathlib.Data.List.Perm.Subperm
import Mathlib.Data.Set.Finite.Basic
import Mathlib.Logic.Relation
import Mathlib.Order.WellFounded
import PojoGraph.PojoSet
import PojoGraph.Proofs.Classification.Plain

/-!
# Chains of aliases

An alias may be a reference to another alias, which may be one again. A chain of such references
ends, or it runs into a circle. Plain types are followed in the same way when they are put in
place of references, at most as many steps as there are plain types: that is enough to tell the
two cases apart, since a chain that ends meets no plain type twice.

## Main definitions

* `ChainEnds`, `RunsIntoCycle` — the two ways in which a chain goes on.
* `LeadsTo` — the chain from a type, and the type in which it ends.
* `PointsTo` — an alias is a reference to another one.
* `AliasesAre` — the aliases of a set are given plain types.

## Main statements

* `not_chainEnds_iff` — a chain through a finite list ends or runs into a circle.
* `finalType?_eq_some_iff` — following a plain type as often as there are plain types decides
  whether its chain ends.
* `AliasesAre.chainEnds_iff` — the chain of an alias ends if that of its plain type does.
-/

namespace PojoGraph

open Relation

/-! ## Chains -/

section

variable {α : Type} {R : α → α → Prop} {a b : α}

/-- The chain from `a` comes to an element that leads no further. -/
def ChainEnds (R : α → α → Prop) (a : α) : Prop :=
  ∃ last, ReflTransGen R a last ∧ ∀ next, ¬ R last next

/-- The chain from `a` comes to an element from which it comes back to that element. -/
def RunsIntoCycle (R : α → α → Prop) (a : α) : Prop :=
  ∃ again, ReflTransGen R a again ∧ TransGen R again again

variable (hunique : ∀ a b c, R a b → R a c → b = c)

include hunique

/-- From an element of a circle the chain never leaves the circle. -/
theorem transGen_of_cycle (hcycle : TransGen R a a) (h : ReflTransGen R a b) : TransGen R b a := by
  induction h with
  | refl => exact hcycle
  | @tail middle last hreach hstep ih =>
    rcases TransGen.head'_iff.mp ih with ⟨next, hnext, hrest⟩
    obtain rfl := hunique middle last next hstep hnext
    rcases hrest.cases_head with rfl | ⟨further, hfurther, hback⟩
    · exact hcycle
    · exact TransGen.head' hfurther hback

/-- A chain that runs into a circle does not end. -/
theorem not_chainEnds_of_runsIntoCycle (h : RunsIntoCycle R a) : ¬ ChainEnds R a := by
  rintro ⟨last, hlast, hstop⟩
  obtain ⟨again, hagain, hcycle⟩ := h
  rcases ReflTransGen.total_of_right_unique (fun x y z => hunique x y z) hlast hagain with
    hafter | hbefore
  · rcases hafter.cases_head with rfl | ⟨next, hnext, -⟩
    · obtain ⟨next, hnext, -⟩ := TransGen.head'_iff.mp hcycle
      exact hstop next hnext
    · exact hstop next hnext
  · obtain ⟨next, hnext, -⟩ :=
      TransGen.head'_iff.mp (transGen_of_cycle hunique hcycle hbefore)
    exact hstop next hnext

/-- **A chain through a finite list ends or runs into a circle.** Without circles, reaching is a
well-founded relation on the elements that are reached, so that one of them is last. -/
theorem not_chainEnds_iff {as : List α} (hmem : ∀ a b, R a b → b ∈ as) :
    ¬ ChainEnds R a ↔ RunsIntoCycle R a := by
  refine ⟨fun hends => ?_, not_chainEnds_of_runsIntoCycle hunique⟩
  by_contra hcycles
  let reached := { b : α // b ∈ as ∧ ReflTransGen R a b }
  have hfinite : Finite reached := by
    refine Set.Finite.to_subtype (List.finite_toSet as |>.subset ?_)
    exact fun b hb => hb.1
  let after : reached → reached → Prop := fun x y => TransGen R y.1 x.1
  have htrans : IsTrans reached after := ⟨fun x y z hxy hyz => hyz.trans hxy⟩
  have hirrefl : Std.Irrefl after := ⟨fun x hx => hcycles ⟨x.1, x.2.2, hx⟩⟩
  have hwf : WellFounded after := Finite.wellFounded_of_trans_of_irrefl after
  obtain ⟨first, hfirst⟩ : ∃ first, R a first := by
    by_contra hnone
    exact hends ⟨a, .refl, fun next hnext => hnone ⟨next, hnext⟩⟩
  obtain ⟨last, -, hlast⟩ := hwf.has_min Set.univ
    ⟨⟨first, hmem a first hfirst, .single hfirst⟩, trivial⟩
  refine hends ⟨last.1, last.2.2, fun next hnext => ?_⟩
  exact hlast ⟨next, hmem last.1 next hnext, last.2.2.tail hnext⟩ trivial (.single hnext)

end

/-! ## Plain types -/

section

variable {plains : List PlainMember} {type final final' : DataType} {plain : PlainMember}
  {path path' : List PlainMember}

theorem mem_of_plainTarget? (h : plainTarget? plains type = some plain) : plain ∈ plains := by
  obtain ⟨target, -, hfind⟩ := Option.bind_eq_some_iff.mp h
  exact List.mem_of_find?_eq_some hfind

/-- The chain from a type leads through the plain types of `path`, each a reference to the next,
to a type that is no reference to a plain type. -/
inductive LeadsTo (plains : List PlainMember) :
    DataType → (path : List PlainMember) → DataType → Prop where
  | here {type : DataType} (hend : plainTarget? plains type = none) : LeadsTo plains type [] type
  | there {type final : DataType} {next : PlainMember} {path : List PlainMember}
      (hnext : plainTarget? plains type = some next) (hrest : LeadsTo plains next.type path final) :
    LeadsTo plains type (next :: path) final

namespace LeadsTo

theorem unique (h : LeadsTo plains type path final) (h' : LeadsTo plains type path' final') :
    path = path' ∧ final = final' := by
  induction h generalizing path' with
  | here hend =>
    cases h' with
    | here _ => exact ⟨rfl, rfl⟩
    | there hnext _ => rw [hend] at hnext; cases hnext
  | there hnext hrest ih =>
    cases h' with
    | here hend => rw [hnext] at hend; cases hend
    | there hnext' hrest' =>
      rw [hnext] at hnext'
      cases hnext'
      obtain ⟨hpath, hfinal⟩ := ih hrest'
      exact ⟨by rw [hpath], hfinal⟩

theorem mem_of_mem (h : LeadsTo plains type path final) (hmem : plain ∈ path) :
    plain ∈ plains := by
  induction h with
  | here hend => cases hmem
  | there hnext hrest ih =>
    rcases List.mem_cons.mp hmem with rfl | hmem
    · exact mem_of_plainTarget? hnext
    · exact ih hmem

/-- From a plain type on the path the chain takes the rest of the path. -/
theorem exists_of_mem (h : LeadsTo plains type path final) (hmem : plain ∈ path) :
    ∃ rest, rest.length < path.length ∧ LeadsTo plains plain.type rest final := by
  induction h with
  | here hend => cases hmem
  | @there type final next path hnext hrest ih =>
    rcases List.mem_cons.mp hmem with rfl | hmem
    · exact ⟨path, Nat.lt_succ_self _, hrest⟩
    · obtain ⟨rest, hlength, hleads⟩ := ih hmem
      exact ⟨rest, Nat.lt_succ_of_lt hlength, hleads⟩

/-- A chain that ends does not come back to where it began. -/
theorem not_mem (h : LeadsTo plains plain.type path final) : plain ∉ path := by
  intro hmem
  obtain ⟨rest, hlength, hleads⟩ := h.exists_of_mem hmem
  obtain ⟨rfl, -⟩ := h.unique hleads
  exact Nat.lt_irrefl _ hlength

theorem nodup (h : LeadsTo plains type path final) : path.Nodup := by
  induction h with
  | here hend => exact List.nodup_nil
  | there hnext hrest ih => exact List.nodup_cons.mpr ⟨hrest.not_mem, ih⟩

/-- A chain that ends has fewer steps than there are plain types. -/
theorem length_lt (h : LeadsTo plains plain.type path final) (hplain : plain ∈ plains) :
    path.length < plains.length := by
  have hnodup : (plain :: path).Nodup := List.nodup_cons.mpr ⟨h.not_mem, h.nodup⟩
  have hsubset : plain :: path ⊆ plains := by
    intro other hother
    rcases List.mem_cons.mp hother with rfl | hother
    · exact hplain
    · exact h.mem_of_mem hother
  exact (List.subperm_of_subset hnodup hsubset).length_le

/-- What holds of a type and of all plain types holds of the type in which the chain ends. -/
theorem induction_on_types {P : DataType → Prop} (h : LeadsTo plains type path final)
    (hplains : ∀ plain ∈ plains, P plain.type) (htype : P type) : P final := by
  induction h with
  | here hend => exact htype
  | there hnext _ ih => exact ih (hplains _ (mem_of_plainTarget? hnext))

theorem plainTarget?_eq_none (h : LeadsTo plains type path final) :
    plainTarget? plains final = none := by
  induction h with
  | here hend => exact hend
  | there hnext hrest ih => exact ih

end LeadsTo

theorem finalTypeFrom_eq_some_iff {steps : Nat} : finalTypeFrom plains steps type = some final
    ↔ ∃ path, LeadsTo plains type path final ∧ path.length < steps := by
  induction steps generalizing type with
  | zero => simp [finalTypeFrom]
  | succ steps ih =>
    rw [finalTypeFrom]
    cases hnext : plainTarget? plains type with
    | none =>
      constructor
      · intro h
        cases h
        exact ⟨[], .here hnext, Nat.succ_pos _⟩
      · rintro ⟨path, hleads, -⟩
        rw [((LeadsTo.here hnext).unique hleads).2]
    | some next =>
      dsimp only
      rw [ih]
      constructor
      · rintro ⟨path, hleads, hlength⟩
        exact ⟨next :: path, .there hnext hleads, Nat.succ_lt_succ hlength⟩
      · rintro ⟨path, hleads, hlength⟩
        cases hleads with
        | here hend => rw [hnext] at hend; cases hend
        | there hnext' hrest =>
          rw [hnext] at hnext'
          cases hnext'
          exact ⟨_, hrest, Nat.lt_of_succ_lt_succ hlength⟩

/-- **Following a plain type as often as there are plain types decides whether its chain ends**,
and where. -/
theorem finalType?_eq_some_iff (hplain : plain ∈ plains) :
    plain.finalType? plains = some final ↔ ∃ path, LeadsTo plains plain.type path final := by
  rw [PlainMember.finalType?, finalTypeFrom_eq_some_iff]
  constructor
  · rintro ⟨path, hleads, -⟩
    exact ⟨path, hleads⟩
  · rintro ⟨path, hleads⟩
    exact ⟨path, hleads, hleads.length_lt hplain⟩

/-- A plain type is a reference to the next one. -/
def PlainMember.Next (plains : List PlainMember) (plain next : PlainMember) : Prop :=
  plainTarget? plains plain.type = some next

theorem exists_leadsTo_iff : (∃ path final, LeadsTo plains plain.type path final)
    ↔ ChainEnds (PlainMember.Next plains) plain := by
  constructor
  · rintro ⟨path, final, h⟩
    generalize htype : plain.type = type at h
    induction h generalizing plain with
    | here hend =>
      refine ⟨plain, .refl, fun next hnext => ?_⟩
      rw [PlainMember.Next, htype, hend] at hnext
      cases hnext
    | @there type final next path hnext hrest ih =>
      obtain ⟨last, hreach, hlast⟩ := ih rfl
      have hstep : PlainMember.Next plains plain next := by rw [PlainMember.Next, htype, hnext]
      exact ⟨last, .head hstep hreach, hlast⟩
  · rintro ⟨last, hreach, hlast⟩
    induction hreach using ReflTransGen.head_induction_on with
    | refl =>
      refine ⟨[], last.type, .here ?_⟩
      cases hnext : plainTarget? plains last.type with
      | none => rfl
      | some next => exact absurd hnext (hlast next)
    | head hnext _ ih =>
      obtain ⟨path, final, hleads⟩ := ih
      exact ⟨_, final, .there hnext hleads⟩

/-- A plain type is kept if its chain does not end. -/
theorem isNone_finalType?_iff (hplain : plain ∈ plains) :
    (plain.finalType? plains).isNone = true ↔ ¬ ChainEnds (PlainMember.Next plains) plain := by
  rw [← exists_leadsTo_iff, Option.isNone_iff_eq_none, ← Option.not_isSome_iff_eq_none,
    not_iff_not, Option.isSome_iff_exists, exists_comm]
  exact exists_congr fun final => finalType?_eq_some_iff hplain

end

/-! ## Aliases -/

/-- The alias is directly a reference to another alias of the list. -/
def PointsTo (pojos : List Pojo) (pojo other : Pojo) : Prop :=
  other ∈ pojos ∧ other.aliased?.isSome
    ∧ ∃ type target, pojo.aliased? = some type ∧ type.objectName? = some target
      ∧ target.key = other.name.key

/-- The aliases of the list are the given plain types. -/
structure AliasesAre (pojos : List Pojo) (plains : List PlainMember) : Prop where
  mem : ∀ plain ∈ plains, plain.toAlias ∈ pojos
  exists_eq : ∀ pojo ∈ pojos, pojo.aliased?.isSome → ∃ plain ∈ plains, pojo = plain.toAlias
  nodup : (plains.map (·.name.key)).Nodup

/-- Where plain types have different keys, a type is a reference to the one with its key. -/
theorem plainTarget?_eq_some_iff {plains : List PlainMember}
    (hnodup : (plains.map (·.name.key)).Nodup) {type : DataType} {plain : PlainMember} :
    plainTarget? plains type = some plain ↔ plain ∈ plains
      ∧ ∃ target, type.objectName? = some target ∧ target.key = plain.name.key := by
  rw [plainTarget?, Option.bind_eq_some_iff]
  constructor
  · rintro ⟨target, htarget, hfind⟩
    have hkey : plain.name.key = target.key := by simpa using List.find?_some hfind
    exact ⟨List.mem_of_find?_eq_some hfind, target, htarget, hkey.symm⟩
  · rintro ⟨hplain, target, htarget, hkey⟩
    refine ⟨target, htarget, ?_⟩
    cases hfind : plains.find? (·.name.isSame target) with
    | none =>
      have hnone := List.find?_eq_none.mp hfind plain hplain
      exact absurd hkey.symm (by simpa using hnone)
    | some other =>
      have hother : other.name.key = target.key := by simpa using List.find?_some hfind
      rw [List.inj_on_of_nodup_map hnodup (List.mem_of_find?_eq_some hfind) hplain
        (hother.trans hkey)]

namespace AliasesAre

variable {pojos : List Pojo} {plains : List PlainMember} (h : AliasesAre pojos plains)
  {plain : PlainMember}

include h

theorem pointsTo_iff {other : Pojo} : PointsTo pojos plain.toAlias other
    ↔ ∃ next, other = next.toAlias ∧ PlainMember.Next plains plain next := by
  constructor
  · rintro ⟨hother, halias, type, target, htype, htarget, hkey⟩
    obtain ⟨next, hnext, rfl⟩ := h.exists_eq other hother halias
    cases htype
    exact ⟨next, rfl, (plainTarget?_eq_some_iff h.nodup).mpr ⟨hnext, target, htarget, hkey⟩⟩
  · rintro ⟨next, rfl, hnext⟩
    obtain ⟨hmem, target, htarget, hkey⟩ := (plainTarget?_eq_some_iff h.nodup).mp hnext
    exact ⟨h.mem next hmem, rfl, plain.type, target, rfl, htarget, hkey⟩

theorem reaches_iff {other : Pojo} : ReflTransGen (PointsTo pojos) plain.toAlias other
    ↔ ∃ next, other = next.toAlias ∧ ReflTransGen (PlainMember.Next plains) plain next := by
  constructor
  · intro hreach
    induction hreach with
    | refl => exact ⟨plain, rfl, .refl⟩
    | tail _ hstep ih =>
      obtain ⟨middle, rfl, hmiddle⟩ := ih
      obtain ⟨next, rfl, hnext⟩ := h.pointsTo_iff.mp hstep
      exact ⟨next, rfl, hmiddle.tail hnext⟩
  · rintro ⟨next, rfl, hreach⟩
    exact hreach.lift PlainMember.toAlias fun _ _ hstep => h.pointsTo_iff.mpr ⟨_, rfl, hstep⟩

/-- **The chain of an alias ends if and only if that of its plain type does.** -/
theorem chainEnds_iff :
    ChainEnds (PointsTo pojos) plain.toAlias ↔ ChainEnds (PlainMember.Next plains) plain := by
  constructor
  · rintro ⟨_, hreach, hlast⟩
    obtain ⟨last, rfl, hreaches⟩ := h.reaches_iff.mp hreach
    exact ⟨last, hreaches, fun next hnext => hlast _ (h.pointsTo_iff.mpr ⟨next, rfl, hnext⟩)⟩
  · rintro ⟨last, hreach, hlast⟩
    refine ⟨last.toAlias, h.reaches_iff.mpr ⟨last, rfl, hreach⟩, fun other hother => ?_⟩
    obtain ⟨next, rfl, hnext⟩ := h.pointsTo_iff.mp hother
    exact hlast next hnext

end AliasesAre

/-- Where types have different keys, a chain of aliases ends or runs into a circle. -/
theorem not_chainEnds_pointsTo_iff {pojos : List Pojo} (hnodup : (pojos.map (·.name.key)).Nodup)
    (pojo : Pojo) :
    ¬ ChainEnds (PointsTo pojos) pojo ↔ RunsIntoCycle (PointsTo pojos) pojo := by
  refine not_chainEnds_iff ?_ fun _ _ hstep => hstep.1
  rintro pojo other other' ⟨hother, -, type, target, htype, htarget, hkey⟩
    ⟨hother', -, type', target', htype', htarget', hkey'⟩
  rw [htype] at htype'
  cases htype'
  rw [htarget] at htarget'
  cases htarget'
  exact List.inj_on_of_nodup_map hnodup hother hother' (hkey.symm.trans hkey')

end PojoGraph
