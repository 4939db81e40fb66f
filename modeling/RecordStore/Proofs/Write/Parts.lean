import RecordStore.Proofs.Entries
import RecordStore.Write.Nested

/-!
# Parts of a payload

What a nested operation is told stands somewhere inside the value of a key of the payload, so the
objects that it creates and updates records from are smaller parts of the payload.  Other records
are created and updated from such parts, which may have been given key columns, or from key columns
alone; nothing else is ever asked for.
-/

namespace RecordStore

namespace Value

variable {v w : Value} {given : Record}

/-- A value as it stands inside another one, at any depth; every value is inside itself. -/
inductive Within (v : Value) : Value → Prop where
  | refl : Within v v
  | item {w : Value} {items : List Value} (hmem : w ∈ items) (h : Within v w) :
      Within v (.array items)
  | field {key : String} {w : Value} {fields : Record} (hmem : (key, w) ∈ fields)
      (h : Within v w) : Within v (.object fields)

/-- What is inside an inner value is inside the outer one. -/
theorem Within.trans {u : Value} (hvw : Within v w) (huv : Within u v) : Within u w := by
  induction hvw with
  | refl => exact huv
  | item hmem _ ih => exact .item hmem ih
  | field hmem _ ih => exact .field hmem ih

/-- No item is nested more deeply than the items together. -/
theorem depth_le_itemsDepth {items : List Value} (h : v ∈ items) : depth v ≤ itemsDepth items := by
  induction items with
  | nil => cases h
  | cons item rest ih =>
      rw [itemsDepth]
      rcases List.mem_cons.mp h with rfl | hrest
      · exact Nat.le_max_left _ _
      · exact Nat.le_trans (ih hrest) (Nat.le_max_right _ _)

/-- No field is nested more deeply than the fields together. -/
theorem depth_le_fieldsDepth {fields : Record} {entry : String × Value} (h : entry ∈ fields) :
    depth entry.2 ≤ fieldsDepth fields := by
  induction fields with
  | nil => cases h
  | cons first rest ih =>
      rw [fieldsDepth]
      rcases List.mem_cons.mp h with rfl | hrest
      · exact Nat.le_max_left _ _
      · exact Nat.le_trans (ih hrest) (Nat.le_max_right _ _)

/-- What is inside a value is nested no deeper. -/
theorem Within.depth_le (h : Within v w) : depth v ≤ depth w := by
  induction h with
  | refl => exact Nat.le_refl _
  | item hmem _ ih =>
      rw [depth]
      exact Nat.le_succ_of_le (Nat.le_trans ih (depth_le_itemsDepth hmem))
  | field hmem _ ih =>
      rw [depth]
      exact Nat.le_succ_of_le (Nat.le_trans ih (depth_le_fieldsDepth hmem))

/-- A value inside the value of some key of a payload. -/
def Inside (v : Value) (given : Record) : Prop := ∃ entry ∈ given, Within v entry.2

/-- What is inside a value of a payload is inside the payload. -/
theorem Inside.within (h : w.Inside given) (hvw : Within v w) : v.Inside given := by
  obtain ⟨entry, hentry, hw⟩ := h
  exact ⟨entry, hentry, hw.trans hvw⟩

/-- Nothing is inside an empty payload. -/
theorem Inside.ne_nil (h : v.Inside given) : given ≠ [] := by
  obtain ⟨entry, hentry, -⟩ := h
  exact List.ne_nil_of_mem hentry

/-! ## Where things stand in a value -/

/-- A member stands in its value. -/
theorem within_get? {key : String} (h : w.get? key = some v) : Within v w := by
  cases w with
  | object fields => exact .field (Entries.mem_of_get?_eq_some h) .refl
  | _ => cases h

theorem within_object? {fields : Record} (h : w.object? = some fields) :
    Within (.object fields) w := by
  cases w with
  | object fields =>
      obtain rfl := Option.some.inj h
      exact .refl
  | _ => cases h

/-- So does each object of a list, or an object that stands for a list of one. -/
theorem within_objects {fields : Record} (h : fields ∈ w.objects) :
    Within (.object fields) w := by
  cases w with
  | array items =>
      obtain ⟨item, hitem, hfields⟩ := List.mem_filterMap.mp h
      exact .item hitem (within_object? hfields)
  | object fields =>
      obtain rfl := List.mem_singleton.mp h
      exact .refl
  | _ => cases h

end Value

/-- An object somewhere inside a payload, below its top. -/
abbrev PartOf (part given : Record) : Prop := (Value.object part).Inside given

/-- A part is nested less deeply than the whole. -/
theorem PartOf.fieldsDepth_lt {part given : Record} (h : PartOf part given) :
    Value.fieldsDepth part < Value.fieldsDepth given := by
  obtain ⟨entry, hentry, hwithin⟩ := h
  have hdepth := Nat.le_trans hwithin.depth_le (Value.depth_le_fieldsDepth hentry)
  rw [Value.depth] at hdepth
  exact hdepth

namespace Payload

open Value

variable {arg : Value} {key operation : String} {data : Record} {filter : Option Record}

/-- The payload of an operation is what the operation is told. -/
theorem within_object (h : object arg operation = .ok data) : Within (.object data) arg := by
  unfold object at h
  split at h
  · rename_i hfields
    obtain rfl := Except.ok.inj h
    exact within_object? hfields
  · cases h

/-- A member that an operation needs stands in its payload. -/
theorem within_member (h : member arg key operation = .ok data) : Within (.object data) arg := by
  unfold member at h
  split at h
  · rename_i hfields
    obtain rfl := Except.ok.inj h
    obtain ⟨under, hget, hobject⟩ := Option.bind_eq_some_iff.mp hfields
    exact (within_get? hget).trans (within_object? hobject)
  · cases h

/-- So does the data of an update, with a filter or without one. -/
theorem within_update (h : update arg = .ok (filter, data)) : Within (.object data) arg := by
  unfold update at h
  split at h
  · rename_i hfields
    obtain ⟨-, rfl⟩ := Prod.mk.inj (Except.ok.inj h)
    obtain ⟨under, hget, hobject⟩ := Option.bind_eq_some_iff.mp hfields
    exact (within_get? hget).trans (within_object? hobject)
  · cases hobject : object arg "update" with
    | error e =>
        rw [hobject] at h
        cases h
    | ok fields =>
        rw [hobject] at h
        obtain ⟨-, rfl⟩ := Prod.mk.inj (Except.ok.inj h)
        exact within_object hobject

/-- Each of several payloads stands in the list of them. -/
theorem within_entries {entry : Value} (h : entry ∈ entries arg) : Within entry arg := by
  cases arg with
  | array items => exact .item h .refl
  | _ =>
      obtain rfl := List.mem_singleton.mp h
      exact .refl

end Payload

/-! ## What nested writes are given and ask for -/

/-- What is written into the key columns of the records of a model to link or to part them: what a
    record that they belong to holds, or nulls. -/
inductive Schema.KeyColumns (schema : Schema) (related : Model) : Record → Prop where
  | scope {model : Model} {field : Field} {linkage : Linkage} {record columns : Record}
      (hmodel : model ∈ schema.models) (hfield : field ∈ model.relationFields)
      (hrelated : schema.relatedModel field = .ok related)
      (hlinkage : schema.linkage? model field = some linkage)
      (hscope : linkage.scope record = some columns) : KeyColumns schema related columns
  | detached {model : Model} {field : Field} {linkage : Linkage}
      (hmodel : model ∈ schema.models) (hfield : field ∈ model.relationFields)
      (hrelated : schema.relatedModel field = .ok related)
      (hlinkage : schema.linkage? model field = some linkage) :
      KeyColumns schema related linkage.detached

/-- A part of a payload as it stands, or with key columns written into it. -/
def Schema.Extends (schema : Schema) (related : Model) (part data : Record) : Prop :=
  data = part ∨ ∃ columns, schema.KeyColumns related columns ∧ data = Entries.insertAll part columns

/-- What a payload may ask to create or update a record of a model from: a part of it, with or
    without key columns, or key columns alone.  An empty payload asks for nothing. -/
def Schema.Asks (schema : Schema) (given : Record) (related : Model) (data : Record) : Prop :=
  (∃ part, PartOf part given ∧ schema.Extends related part data) ∨
    given ≠ [] ∧ schema.KeyColumns related data

/-- What nested writes are given, and what they may ask to create or update records from on account
    of it: an object that they are given, with or without key columns, or key columns alone. -/
structure Asking (schema : Schema) where
  given : Value → Prop
  asked : Model → Record → Prop
  within {v w : Value} : given w → Value.Within v w → given v
  of_part {related : Model} {part : Record} : given (.object part) → asked related part
  of_scope {related : Model} {part columns : Record} : given (.object part) →
    schema.KeyColumns related columns → asked related (Entries.insertAll part columns)
  of_columns {related : Model} {v : Value} {columns : Record} : given v →
    schema.KeyColumns related columns → asked related columns

namespace Asking

variable {schema : Schema}

/-- Whatever nested writes are given, they may ask for everything. -/
def all (schema : Schema) : Asking schema where
  given _ := True
  asked _ _ := True
  within _ _ := trivial
  of_part _ := trivial
  of_scope _ _ := trivial
  of_columns _ _ := trivial

/-- What stands in a payload is given, and only what the payload may ask for is asked for. -/
def ofPayload (schema : Schema) (payload : Record) : Asking schema where
  given v := v.Inside payload
  asked := schema.Asks payload
  within h hwithin := h.within hwithin
  of_part h := Or.inl ⟨_, h, Or.inl rfl⟩
  of_scope h hcolumns := Or.inl ⟨_, h, Or.inr ⟨_, hcolumns, rfl⟩⟩
  of_columns h hcolumns := Or.inr ⟨h.ne_nil, hcolumns⟩

end Asking

end RecordStore
