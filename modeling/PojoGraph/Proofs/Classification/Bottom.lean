import PojoGraph.Proofs.Classification.Plain

/-!
# Where mapping bottoms out

Lists and maps take the form of what they hold: mapping follows the items of a list and the values
of a map until it comes to a schema of another form. Of a type, this is the innermost one. All that
mapping reports, and all that it says of the innermost type, it says of the schema in which it
bottoms out.

## Main definitions

* `DataType.nodes`, `DataType.innermost` — the types in a type, and the one inside all others.
* `Schema.bottom` — the schema in which mapping bottoms out.

## Main statements

* `Schema.mappingInduction` — induction along what mapping follows.
* `mapSchema_bottom` — the innermost type and the warnings are those of the schema in which mapping
  bottoms out.
-/

namespace PojoGraph

/-! ## Types in types -/

namespace DataType

/-- The type and all types in it, keys of maps included. -/
def nodes : DataType → List DataType
  | leaf l traits => [leaf l traits]
  | list item traits => list item traits :: item.nodes
  | map key value traits => map key value traits :: (key.nodes ++ value.nodes)

/-- The type inside all lists and maps: items are followed, and values of maps. -/
def innermost : DataType → DataType
  | leaf l traits => leaf l traits
  | list item _ => item.innermost
  | map _ value _ => value.innermost

end DataType

/-! ## Schemas -/

namespace Keywords

variable {k : Keywords Schema}

/-- A schema is mapped as a map only if its further properties have a schema. -/
theorem exists_additional_of_form (h : k.form = .map) :
    ∃ value, k.additional = some (.schema value) := by
  obtain ⟨value, hvalue⟩ := Option.isSome_iff_exists.mp (mapValue?_of_form h)
  rw [mapValue?] at hvalue
  split at hvalue
  · exact ⟨_, ‹_›⟩
  · cases hvalue

end Keywords

namespace Schema

/-- Induction along mapping, which follows the items of lists and the values of maps. -/
@[elab_as_elim]
theorem mappingInduction {motive : Schema → Prop} (ref : ∀ target, motive (.ref target))
    (list : ∀ (k : Keywords Schema) (item : Schema), k.form = .list → k.items = some item →
      motive item → motive (.inline k))
    (map : ∀ (k : Keywords Schema) (value : Schema), k.form = .map →
      k.additional = some (.schema value) → motive value → motive (.inline k))
    (last : ∀ k : Keywords Schema, (k.form = .list → k.items = none) → k.form ≠ .map →
      motive (.inline k)) (schema : Schema) : motive schema := by
  induction schema using childInduction with
  | ref target => exact ref target
  | inline k ih =>
    by_cases hmap : k.form = .map
    · obtain ⟨value, hvalue⟩ := Keywords.exists_additional_of_form hmap
      exact map k value hmap hvalue (ih value (Keywords.mem_children_of_additional hvalue))
    by_cases hlist : k.form = .list
    · cases hitems : k.items with
      | none => exact last k (fun _ => hitems) hmap
      | some item =>
        exact list k item hlist hitems (ih item (Keywords.mem_children_of_items hitems))
    · exact last k (fun h => absurd h hlist) hmap

/-- The schema in which mapping bottoms out: the items of a list are followed, and the values of a
map. -/
def bottom : Schema → Schema
  | ref target => ref target
  | inline ⟨facets, properties, additional, items, allOf, oneOf, anyOf⟩ =>
    let k : Keywords Schema := ⟨facets, properties, additional, items, allOf, oneOf, anyOf⟩
    match k.form with
    | .list =>
      match items with
      | some item => item.bottom
      | none => inline k
    | .map =>
      match additional with
      | some (.schema value) => value.bottom
      | some (.flag _) => inline k
      | none => inline k
    | _ => inline k

variable {k : Keywords Schema}

theorem bottom_inline (k : Keywords Schema) :
    (inline k).bottom =
      match k.form with
      | .list =>
        match k.items with
        | some item => item.bottom
        | none => inline k
      | .map =>
        match k.additional with
        | some (.schema value) => value.bottom
        | some (.flag _) => inline k
        | none => inline k
      | _ => inline k := by
  obtain ⟨facets, properties, additional, items, allOf, oneOf, anyOf⟩ := k
  rw [bottom.eq_def]

theorem bottom_list {item : Schema} (hform : k.form = .list) (hitems : k.items = some item) :
    (inline k).bottom = item.bottom := by
  simp only [bottom_inline, hform, hitems]

theorem bottom_map {value : Schema} (hform : k.form = .map)
    (hadditional : k.additional = some (.schema value)) : (inline k).bottom = value.bottom := by
  simp only [bottom_inline, hform, hadditional]

theorem bottom_last (hlist : k.form = .list → k.items = none) (hmap : k.form ≠ .map) :
    (inline k).bottom = inline k := by
  rw [bottom_inline]
  split
  · simp only [hlist ‹_›]
  · exact absurd ‹_› hmap
  · rfl

end Schema

/-! ## Mapping -/

section

variable (settings : Settings) (owner : PojoName) (member : String) (registry : Registry)
  {k : Keywords Schema}

theorem mapSchema_list {item : Schema} (hform : k.form = .list) (hitems : k.items = some item) :
    mapSchema settings owner member registry (.inline k)
      = (mapSchema settings owner member registry item).mapType
          (.list · { constraints := k.itemConstraints }) := by
  simp only [mapSchema_inline, hform, hitems]

theorem mapSchema_map {value : Schema} (hform : k.form = .map)
    (hadditional : k.additional = some (.schema value)) :
    mapSchema settings owner member registry (.inline k)
      = (mapSchema settings owner member registry value).mapType
          (.mapOf · k.propertyConstraints) := by
  simp only [mapSchema_inline, hform, hadditional]

/-- **The innermost type is that of the schema in which mapping bottoms out**, and the warnings are
those that it gives there. -/
theorem mapSchema_bottom (schema : Schema) :
    (mapSchema settings owner member registry schema).type.innermost
        = (mapSchema settings owner member registry schema.bottom).type.innermost
      ∧ (mapSchema settings owner member registry schema).warnings
        = (mapSchema settings owner member registry schema.bottom).warnings := by
  induction schema using Schema.mappingInduction with
  | ref target => exact ⟨rfl, rfl⟩
  | list k item hform hitems ih =>
    rw [Schema.bottom_list hform hitems, mapSchema_list _ _ _ _ hform hitems]
    exact ih
  | map k value hform hadditional ih =>
    rw [Schema.bottom_map hform hadditional, mapSchema_map _ _ _ _ hform hadditional]
    exact ih
  | last k hlist hmap =>
    rw [Schema.bottom_last hlist hmap]
    exact ⟨rfl, rfl⟩

end

end PojoGraph
