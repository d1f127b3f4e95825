import PojoGraph.Composition
import PojoGraph.Proofs.Classification.Discovery

/-!
# Plain types

A schema is classified as a plain type only after arrays, compositions, objects and enums have
been ruled out. What it is mapped to is then a single value or a reference, and never a container
of other types. Aliases are nothing that classification gives: they are plain types that are kept
in the final set.

## Main definitions

* `DataType.IsLeaf` — a type that contains no others.
* `Pojo.aliased?` — the type that an alias stands for.

## Main statements

* `isLeaf_of_classify` — plain types are leaves.
* `aliased?_of_classify`, `Stub.aliased?_toPojo` — no other schema becomes an alias.
-/

namespace PojoGraph

/-- The type contains no other types. -/
def DataType.IsLeaf : DataType → Prop
  | .leaf _ _ => True
  | .list _ _ => False
  | .map _ _ _ => False

/-- The type that the alias stands for. -/
def Pojo.aliased? : Pojo → Option DataType
  | typeAlias _ _ type _ => some type
  | _ => none

/-! ## Forms -/

namespace Keywords

variable {k : Keywords Schema}

theorem isArrayShaped_of_form (h : k.form = .list) : k.isArrayShaped = true := by
  rw [form] at h
  repeat' split at h
  all_goals first | assumption | cases h

theorem mapValue?_of_form (h : k.form = .map) : k.mapValue?.isSome = true := by
  rw [form] at h
  repeat' split at h
  all_goals first | assumption | cases h

/-- A schema that describes no objects of its own describes no maps either. -/
theorem IsSimple.form_ne_map (h : k.IsSimple) : k.form ≠ .map := by
  intro hform
  obtain ⟨value, hvalue⟩ := Option.isSome_iff_exists.mp (mapValue?_of_form hform)
  have hobject := h.isObjectShaped
  rw [mapValue?] at hvalue
  split at hvalue
  · rename_i schema hadditional
    split at hvalue
    · rename_i hmap
      obtain ⟨⟨hadmits, -⟩, hvalue⟩ : (k.admitsType .object = true ∧ k.properties.isEmpty = true)
          ∧ schema.isEmpty = false := by simpa using hmap
      simp [Keywords.isObjectShaped, restrictsAdditional, hadditional, hadmits, hvalue] at hobject
    · cases hvalue
  · cases hvalue

theorem IsSimple.form_ne_list (h : k.IsSimple) : k.form ≠ .list := by
  intro hform
  have harray := h.isArrayShaped
  rw [isArrayShaped_of_form hform] at harray
  cases harray

end Keywords

/-! ## Types -/

section

variable {settings : Settings}

/-- A schema that describes neither lists nor maps is mapped to a leaf. -/
theorem isLeaf_mapSchema {owner : PojoName} {member : String} {registry : Registry}
    {k : Keywords Schema} (hlist : k.form ≠ .list) (hmap : k.form ≠ .map) :
    (mapSchema settings owner member registry (.inline k)).type.IsLeaf := by
  rw [mapSchema_inline]
  cases hform : k.form with
  | list => exact absurd hform hlist
  | map => exact absurd hform hmap
  | _ => trivial

/-- **Plain types are leaves.** -/
theorem isLeaf_of_classify {pending : Pending} {registry : Registry} {plain : PlainMember}
    {survey : Survey} (h : classify settings pending registry = .ok (.plain plain, survey)) :
    plain.type.IsLeaf := by
  obtain ⟨name, schema⟩ := pending
  cases schema with
  | ref target =>
    cases h
    change (mapSchema settings name valueMember registry (.ref target)).type.IsLeaf
    rw [mapSchema_ref]
    trivial
  | inline k =>
    cases classifies_classify h with
    | nullReference hshape hreference =>
      obtain ⟨target, htarget⟩ :=
        Option.isSome_iff_exists.mp (Bool.and_eq_true_iff.mp hreference).2
      have hform : k.form = .reference target := by rw [Keywords.form, htarget]
      exact isLeaf_mapSchema (by rw [hform]; simp) (by rw [hform]; simp)
    | plain hsimple hvalues hfree hsurvey =>
      exact isLeaf_mapSchema hsimple.form_ne_list hsimple.form_ne_map

/-! ## Aliases -/

/-- **No schema is classified as an alias.** -/
theorem aliased?_of_classify {pending : Pending} {registry : Registry} {pojo : Pojo}
    {survey : Survey} (h : classify settings pending registry = .ok (.pojo pojo, survey)) :
    pojo.aliased? = none := by
  obtain ⟨name, schema⟩ := pending
  cases schema with
  | ref target => cases h
  | inline k =>
    cases classifies_classify h with
    | enum hsimple hvalues henum =>
      obtain ⟨⟨values, rfl⟩, -⟩ := eq_enum_of_enumOf henum
      rfl
    | _ => rfl

end

/-- No stub becomes an alias. -/
theorem Stub.aliased?_toPojo (stub : Stub) (branches : Branches) :
    (stub.toPojo branches).aliased? = none := by
  unfold toPojo
  split <;> rfl

end PojoGraph
