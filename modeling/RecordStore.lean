import RecordStore.Json.Writer
import RecordStore.Operation
import RecordStore.Proofs.Equality
import RecordStore.Proofs.Write.Triple
import RecordStore.Proofs.Write.Change
import RecordStore.Proofs.Write.Upkeep
import RecordStore.Proofs.Write.Supply
import RecordStore.Proofs.Write.Kept
import RecordStore.Proofs.Write.Walk
import RecordStore.Proofs.Write.KeptNested
import RecordStore.Proofs.Run
import RecordStore.Proofs.Columns
import RecordStore.Proofs.Uniqueness
import RecordStore.Proofs.Delete.Scope
import RecordStore.Proofs.Delete.Termination
import RecordStore.Proofs.Delete.Cascade
import RecordStore.Proofs.Delete.Closure
import RecordStore.Proofs.Join.Ids
import RecordStore.Proofs.Join.Refinement
import RecordStore.Proofs.Join.Reading
import RecordStore.Proofs.Failure
import RecordStore.Proofs.Shape
import RecordStore.Proofs.Join.Sides
import RecordStore.Proofs.Relation.Linked
import RecordStore.Proofs.Relation.BothEnds
import RecordStore.Proofs.Relation.ShortCut
import RecordStore.Proofs.Join.Ends
import RecordStore.Proofs.Join.Traced
import RecordStore.Proofs.Delete.Links
import RecordStore.Proofs.Join.Held
import RecordStore.Proofs.Write.Direct
import RecordStore.Proofs.Notices
import RecordStore.Proofs.Answer
import RecordStore.Proofs.Counters
import RecordStore.Proofs.Lookup
import RecordStore.Proofs.Write.InPlace
import RecordStore.Proofs.Relation.Dependents
import RecordStore.Proofs.Relation.JoinLinks
import RecordStore.Proofs.Relation.Relinking
import RecordStore.Proofs.Query.Grouping
import RecordStore.Proofs.Mirror
import RecordStore.Proofs.Faults
import RecordStore.Proofs.Write.Many
import RecordStore.Proofs.Delete.Unlinking
import RecordStore.Proofs.Delete.Detaching
import RecordStore.Proofs.Write.OwnedDelete
import RecordStore.Proofs.Write.Skipping
import RecordStore.Proofs.Write.Overwriting
import RecordStore.Proofs.Relation.OwnedLinks
import RecordStore.Proofs.Relation.NestedUpdates
import RecordStore.Proofs.Relation.NestedCreates
import RecordStore.Proofs.Write.Plain
import RecordStore.Proofs.Query.Sorting
import RecordStore.Proofs.Query.Pages
import RecordStore.Proofs.Relation.Grounded
import RecordStore.Proofs.Query.Including
import RecordStore.Proofs.Write.Arithmetic
import RecordStore.Proofs.Query.Operators
import RecordStore.Proofs.Relation.Quantifiers
import RecordStore.Proofs.Relation.Support
import RecordStore.Proofs.Query.Flattening
import RecordStore.Proofs.Query.Having
import RecordStore.Proofs.Query.Rows
import RecordStore.Proofs.Join.Declared
import RecordStore.Proofs.Delete.Descent
import RecordStore.Proofs.Write.Descent
import RecordStore.Proofs.Lowercase
import RecordStore.Proofs.Query.Comparators
import RecordStore.Proofs.Query.Bounds
