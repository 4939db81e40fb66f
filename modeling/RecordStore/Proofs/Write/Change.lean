import RecordStore.Proofs.Schema
import RecordStore.Proofs.Write.Triple

/-!
# What a write can do to a store

Every write, however deeply nested and whether it succeeds or fails midway, is a sequence of
changes of a few kinds.  A record is added or replaced only after the check of unique groups has
passed on the store as it then stands; apart from that, records are only removed, or detached by
nulls in some columns.  What all changes keep is therefore kept by every write.
-/

namespace RecordStore

namespace Store

/-- One change of a store. -/
inductive Change : Store → Store → Prop where
  /-- Counters and the source of random digits move on. -/
  | supply (store : Store) (counters : Entries (Entries Int)) (entropy : Entropy) :
      Change store { store with counters, entropy }
  /-- Records are joined, or parted. -/
  | relink (store : Store) (joins : Joins) : Change store { store with joins }
  /-- A checked record is added to its collection. -/
  | insert (store : Store) (model : Model) (record : Record)
      (member : model ∈ store.schema.models)
      (free : store.checkUnique model record none = .ok ()) :
      Change store (store.append model.name record)
  /-- A checked record takes the place of a stored one. -/
  | replace (store next : Store) (model : Model) (current record : Record)
      (member : model ∈ store.schema.models)
      (free : store.checkUnique model record (some current) = .ok ())
      (swapped : store.swap model.name current record = some next) : Change store next
  /-- Records are removed from a collection. -/
  | remove (store : Store) (name : String) (kept : List Record)
      (fewer : kept.Sublist (store.items name)) :
      Change store (store.replaceCollection name kept)
  /-- Records are detached. -/
  | detach (store : Store) (model : Model) (scope : Record) (columns : List String) :
      Change store (store.detach model scope (Record.unbind columns []))

variable {store next : Store}

/-- A change keeps the schema. -/
theorem Change.schema_eq (h : Change store next) : next.schema = store.schema := by
  cases h with
  | replace _ model current record _ _ swapped =>
      obtain ⟨records, -, rfl⟩ := Option.map_eq_some_iff.mp swapped
      rfl
  | detach model scope columns =>
      unfold Store.detach
      split <;> rfl
  | _ => rfl

end Store

end RecordStore
