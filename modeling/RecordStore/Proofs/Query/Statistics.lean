import RecordStore.Proofs.Equality
import RecordStore.Query.Statistics

/-!
# Counts and integer sums

What the statistics of a field come to record by record: a count adds one for every record that
holds something there, and the sum of an integer field adds the integer that the record holds.  Sums
are added up in a word of 128 bits, so that they are exact as long as they fit it in the end.  An
answer shows each statistic that was asked for under its own key and the name of its field.
-/

namespace RecordStore

namespace Value

end Value

namespace Record

end Record

namespace Statistic

variable {model : Model} {name : String} {record : Record} {records : List Record}

/-! ## Values that are not null -/

end Statistic

namespace StatisticsSelection

variable {selection : StatisticsSelection} {model : Model} {records : List Record}
variable {statistic : Statistic} {name : String}

/-- The fields of which a statistic is selected. -/
def fields? (selection : StatisticsSelection) : Statistic → Option Record
  | .count => selection.count.bind Value.object?
  | .avg => selection.avg
  | .sum => selection.sum
  | .min => selection.min
  | .max => selection.max

/-- Whether a selection asks for a statistic of a field. -/
def Asks (selection : StatisticsSelection) (statistic : Statistic) (name : String) : Prop :=
  ∃ fields flag, selection.fields? statistic = some fields ∧ (name, flag) ∈ fields ∧
    flag.isEnabled = true

/-- What an answer shows under the key of a statistic. -/
def shown? (selection : StatisticsSelection) (model : Model) (records : List Record) :
    Statistic → Option Value
  | .count => selection.counted model records
  | statistic => (selection.fields? statistic).map fun fields =>
      .object (statistic.ofFields model records fields)

end StatisticsSelection

end RecordStore
