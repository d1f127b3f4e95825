import PojoGraph.Json.Reader
import PojoGraph.Proofs.Encoding.Documents

/-!
# Nesting

A reader of JSON has room for a number of levels of containers; what is nested deeper is
unreadable. So the tree of a value that is written out and read again is that of the value where
there is room for it, and a document that is nested too deep is not decoded from it.

## Main definitions

* `Json.depth` — how deep containers are nested in a value.
* `Json.treeWithin` — the tree of a value that is read with room for some levels.

## Main statements

* `Json.treeWithin_eq_tree`, `Json.isReadable_treeWithin` — the tree is that of the value, and
  readable, if and only if there is room.
* `Document.decode?_treeWithin` — a document is decoded if and only if there is room for it.
-/

namespace PojoGraph

namespace Json

mutual

/-- How deep containers are nested in the value. -/
def depth : Json → Nat
  | array items => depthOfItems items + 1
  | object fields => depthOfFields fields + 1
  | _ => 0

/-- How deep containers are nested in a list of values. -/
def depthOfItems : List Json → Nat
  | [] => 0
  | item :: rest => max item.depth (depthOfItems rest)

/-- How deep containers are nested in the values of fields. -/
def depthOfFields : List (String × Json) → Nat
  | [] => 0
  | (_, value) :: rest => max value.depth (depthOfFields rest)

end

mutual

/-- The tree that holds the value, where `room` levels of containers are readable. -/
def treeWithin (room : Nat) : Json → Tree
  | null => .null
  | bool value => .bool value
  | number value => .number value
  | string value => .text value
  | array items => nested room (.sequence (itemsWithin (room - 1) items))
  | object fields => nested room (.mapping (fieldsWithin (room - 1) fields))

/-- The items of an array as those of a sequence. -/
def itemsWithin (room : Nat) : List Json → List Tree
  | [] => []
  | item :: rest => item.treeWithin room :: itemsWithin room rest

/-- The fields of an object as the entries of a mapping. -/
def fieldsWithin (room : Nat) : List (String × Json) → List (Tree × Tree)
  | [] => []
  | (key, value) :: rest => (.text key, value.treeWithin room) :: fieldsWithin room rest

end

theorem depthOfFields_map_le_iff {α : Type} {entries : List α} {write : α → String × Json}
    {n : Nat} :
    depthOfFields (entries.map write) ≤ n ↔ ∀ entry ∈ entries, (write entry).2.depth ≤ n := by
  induction entries with
  | nil => simp [depthOfFields]
  | cons entry rest ih => simp [depthOfFields, ih]

theorem fieldsWithin_eq (room : Nat) (fields : List (String × Json)) :
    fieldsWithin room fields
      = fields.map fun field => (.text field.1, field.2.treeWithin room) := by
  induction fields with
  | nil => rfl
  | cons field rest ih => rw [fieldsWithin, ih, List.map_cons]

@[simp] theorem nested_succ (room : Nat) (tree : Tree) : nested (room + 1) tree = tree :=
  rfl

mutual

/-- **Where there is room for a value, its tree is the one that holds it.** -/
theorem treeWithin_eq_tree : ∀ {room : Nat} (value : Json), value.depth ≤ room →
    value.treeWithin room = value.tree
  | _, null, _ | _, bool _, _ | _, number _, _ | _, string _, _ => rfl
  | 0, array _, h | 0, object _, h => by simp [depth] at h
  | room + 1, array items, h => by
    rw [treeWithin, tree, nested_succ, Nat.add_sub_cancel,
      itemsWithin_eq_treeItems items (Nat.le_of_succ_le_succ h)]
  | room + 1, object fields, h => by
    rw [treeWithin, tree, nested_succ, Nat.add_sub_cancel,
      fieldsWithin_eq_treeFields fields (Nat.le_of_succ_le_succ h)]

theorem itemsWithin_eq_treeItems : ∀ {room : Nat} (items : List Json), depthOfItems items ≤ room →
    itemsWithin room items = treeItems items
  | _, [], _ => rfl
  | _, item :: rest, h => by
    obtain ⟨hitem, hrest⟩ := Nat.max_le.mp h
    rw [itemsWithin, treeItems, treeWithin_eq_tree item hitem, itemsWithin_eq_treeItems rest hrest]

theorem fieldsWithin_eq_treeFields : ∀ {room : Nat} (fields : List (String × Json)),
    depthOfFields fields ≤ room → fieldsWithin room fields = treeFields fields
  | _, [], _ => rfl
  | _, (key, value) :: rest, h => by
    obtain ⟨hvalue, hrest⟩ := Nat.max_le.mp h
    rw [fieldsWithin, treeFields, treeWithin_eq_tree value hvalue,
      fieldsWithin_eq_treeFields rest hrest]

end

mutual

/-- **The tree of a value is readable if and only if there is room for it.** -/
theorem isReadable_treeWithin : ∀ (room : Nat) (value : Json),
    (value.treeWithin room).isReadable = true ↔ value.depth ≤ room
  | _, null | _, bool _ | _, number _ | _, string _ => by
    simp [treeWithin, depth, Tree.isReadable]
  | 0, array _ | 0, object _ => by simp [treeWithin, depth, nested, Tree.isReadable]
  | room + 1, array items => by
    rw [treeWithin, depth, nested_succ, Nat.add_sub_cancel, Tree.isReadable,
      Nat.add_le_add_iff_right]
    exact areReadable_itemsWithin room items
  | room + 1, object fields => by
    rw [treeWithin, depth, nested_succ, Nat.add_sub_cancel, Tree.isReadable,
      Nat.add_le_add_iff_right]
    exact areEntriesReadable_fieldsWithin room fields

theorem areReadable_itemsWithin : ∀ (room : Nat) (items : List Json),
    Tree.areReadable (itemsWithin room items) = true ↔ depthOfItems items ≤ room
  | _, [] => by simp [itemsWithin, depthOfItems, Tree.areReadable]
  | room, item :: rest => by
    rw [itemsWithin, depthOfItems, Tree.areReadable, Bool.and_eq_true, Nat.max_le,
      isReadable_treeWithin room item, areReadable_itemsWithin room rest]

theorem areEntriesReadable_fieldsWithin : ∀ (room : Nat) (fields : List (String × Json)),
    Tree.areEntriesReadable (fieldsWithin room fields) = true ↔ depthOfFields fields ≤ room
  | _, [] => by simp [fieldsWithin, depthOfFields, Tree.areEntriesReadable]
  | room, (key, value) :: rest => by
    rw [fieldsWithin, depthOfFields, Tree.areEntriesReadable, Tree.isReadable, Bool.true_and,
      Bool.and_eq_true, Nat.max_le, isReadable_treeWithin room value,
      areEntriesReadable_fieldsWithin room rest]

end

end Json

/-! ## Documents -/

namespace Document

/-- Three levels of a document stand around its schemas. -/
theorem depth_encode_le_iff {document : Document} {room : Nat} :
    document.encode.depth ≤ room + 3 ↔ ∀ entry ∈ document.schemas, entry.2.encode.depth ≤ room := by
  obtain ⟨openapi, ⟨title, description, version⟩, components⟩ := document
  cases description <;> rcases components with _ | ⟨_ | ⟨entry, rest⟩⟩ <;>
    simp [encode, schemas, Json.ofFields?, Json.depth, Json.depthOfFields,
      Json.depthOfFields_map_le_iff]

/-- With room for these levels, the rest of the room is left for the schemas. -/
theorem treeWithin_encode (document : Document) (room : Nat) :
    document.encode.treeWithin (room + 3) = document.treeWith (·.encode.treeWithin room) := by
  obtain ⟨openapi, ⟨title, description, version⟩, components⟩ := document
  cases description <;> rcases components with _ | ⟨_ | ⟨entry, rest⟩⟩ <;>
    simp [encode, treeWith, Info.tree, Json.ofFields?, Json.treeWithin, Json.fieldsWithin,
      Json.fieldsWithin_eq]

/-- **A well-formed document that is written and read again is decoded if and only if there is room
for it.** -/
theorem decode?_treeWithin {document : Document} (h : document.IsWellFormed) (room : Nat) :
    decode? (document.encode.treeWithin (room + 3))
      = if document.encode.depth ≤ room + 3 then some document else none := by
  split
  · rename_i hroom
    rw [Json.treeWithin_eq_tree _ hroom, decode?_encode h]
  · rename_i hroom
    rw [depth_encode_le_iff] at hroom
    push Not at hroom
    obtain ⟨entry, hentry, hdeep⟩ := hroom
    rw [treeWithin_encode]
    refine decode?_treeWith_eq_none hentry ?_
    rw [Schema.decode?, if_neg]
    rw [Json.isReadable_treeWithin]
    omega

end Document

end PojoGraph
