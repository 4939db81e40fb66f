import RecordStore.Operation
import RecordStore.Proofs.Schema

/-!
# What queries fail for

In a loaded schema every relation field has its model.  A query can therefore not miss a model on
its way through the relations that its projection names, however deep they are nested, and all that
is left to fail for are its arguments.
-/

namespace RecordStore

/-- An error of the arguments: they do not have the form that an operation takes, or ask for
    something that there is not. -/
def Error.OfArguments (e : Error) : Prop := e.kind = .malformed ∨ e.kind = .validation

/-- A result that is an error, if at all, for one of some causes. -/
def FailsOnly {α : Type} (causes : Error → Prop) (result : Except Error α) : Prop :=
  ∀ e, result = .error e → causes e

namespace FailsOnly

variable {α β : Type} {causes : Error → Prop} {result : Except Error α}

/-- What succeeds does not fail. -/
theorem ok (a : α) : FailsOnly causes (.ok a) := fun _ h => nomatch h

theorem error {e : Error} (h : causes e) : FailsOnly causes (.error e : Except Error α) := by
  rintro _ ⟨⟩
  exact h

/-- More errors may be allowed for. -/
theorem imp {causes' : Error → Prop} (h : FailsOnly causes result)
    (hcauses : ∀ e, causes e → causes' e) : FailsOnly causes' result :=
  fun e he => hcauses e (h e he)

/-- Of two steps each fails for its own errors. -/
theorem bind {f : α → Except Error β} (h : FailsOnly causes result)
    (hf : ∀ a, result = .ok a → FailsOnly causes (f a)) : FailsOnly causes (result >>= f) := by
  cases result with
  | error e => exact .error (h e rfl)
  | ok a => exact hf a rfl

theorem map {f : α → β} (h : FailsOnly causes result) : FailsOnly causes (result.map f) := by
  cases result with
  | error e => exact .error (h e rfl)
  | ok a => exact .ok _

/-- A list of results fails as one of them does. -/
theorem mapM {f : α → Except Error β} :
    ∀ {items : List α}, (∀ x ∈ items, FailsOnly causes (f x)) → FailsOnly causes (items.mapM f)
  | [], _ => .ok _
  | x :: rest, h => by
      obtain ⟨hfirst, hrest⟩ := List.forall_mem_cons.mp h
      rw [List.mapM_cons]
      exact hfirst.bind fun _ _ => (mapM hrest).bind fun _ _ => .ok _

/-- A loop fails for what one of its rounds may fail for. -/
theorem foldlM {f : β → α → Except Error β} (h : ∀ acc x, FailsOnly causes (f acc x)) :
    ∀ (items : List α) (acc : β), FailsOnly causes (items.foldlM f acc)
  | [], acc => .ok acc
  | x :: rest, acc => by
      rw [List.foldlM_cons]
      exact (h acc x).bind fun next _ => foldlM h rest next

end FailsOnly

/-! ## Arguments -/

namespace Arguments

variable {α : Type}

/-- Arguments fail for a key that is not known, or a value that cannot be read. -/
theorem failsOnly_parse (names : List String) (read : Record → Option α) (args : Value) :
    FailsOnly Error.OfArguments (parse names read args) := by
  unfold parse
  dsimp only
  split
  · exact .ok _
  · exact .error (Or.inl rfl)

/-- So do arguments that have to be an object. -/
theorem failsOnly_parseObject (read : Record → Option α) (args : Value) :
    FailsOnly Error.OfArguments (parseObject read args) := by
  unfold parseObject
  dsimp only
  split
  · exact .ok _
  · exact .error (Or.inl rfl)

end Arguments

/-! ## Related models -/

namespace Schema

variable {schema : Schema} {model : Model} {field : Field}

/-- What a relation field of a declared model refers to is declared. -/
theorem exists_relatedModel (hmodel : model ∈ schema.models) (hfield : field ∈ model.relationFields) :
    ∃ related ∈ schema.models, schema.relatedModel field = .ok related := by
  obtain ⟨related, hrelated, hname⟩ :=
    List.mem_map.mp (schema.targets_known model hmodel field hfield)
  refine ⟨related, hrelated, ?_⟩
  rw [relatedModel, Schema.model, ← hname, model?_of_mem hrelated]

/-- A schema that has been loaded has the models of its relation fields. -/
theorem failsOnly_relatedModel {causes : Error → Prop} (hmodel : model ∈ schema.models)
    (hfield : field ∈ model.relationFields) : FailsOnly causes (schema.relatedModel field) := by
  obtain ⟨related, -, hrelated⟩ := exists_relatedModel hmodel hfield
  rw [hrelated]
  exact .ok related

end Schema

/-! ## Projections -/

namespace Projection

variable {store : Store} {model : Model}

/-- A projection is refused only if it selects and includes at once. -/
theorem failsOnly_check (projection : Projection) :
    FailsOnly Error.OfArguments projection.check := by
  unfold check
  split
  · exact .error (Or.inr rfl)
  · exact .ok ()

/-- Counts are refused only for what they are asked to count. -/
theorem failsOnly_counts (store : Store) (model : Model) (record : Record) (arg : Value) :
    FailsOnly Error.OfArguments (counts store model record arg) := by
  unfold counts
  split
  · refine .foldlM (fun acc entry => ?_) _ _
    dsimp only
    split
    · exact .ok _
    · split
      · exact .error (Or.inr rfl)
      · exact .ok _
  · exact .ok _

mutual

/-- A selection fails as the relations fail that it names. -/
theorem failsOnly_extend {model : Model} (hmodel : model ∈ store.schema.models) (record : Record)
    (selecting : Bool) :
    ∀ (keys : List (String × Value)) (shaped : Record),
      FailsOnly Error.OfArguments (extend store model record selecting shaped keys)
  | [], shaped => .ok shaped
  | (key, arg) :: rest, shaped => by
      have hrest (shaped : Record) := failsOnly_extend hmodel record selecting rest shaped
      rw [extend]
      split
      · exact hrest _
      · split
        · split
          · rename_i e he
            exact .error (failsOnly_counts store model record arg e he)
          · exact hrest _
        · split
          · rename_i field hfield
            split
            · rename_i hrelation
              have hmember : field ∈ model.relationFields :=
                List.mem_filter.mpr ⟨(Model.field?_spec hfield).1, hrelation⟩
              split
              · rename_i e he
                exact .error (failsOnly_resolve hmodel hmember record arg e he)
              · exact hrest _
            · exact hrest _
          · split <;> exact hrest _
termination_by structural keys => keys

/-- The model of the related records is declared, and so are the models of all records further
    down. -/
theorem failsOnly_resolve {model : Model} (hmodel : model ∈ store.schema.models) {field : Field}
    (hfield : field ∈ model.relationFields) (record : Record) :
    ∀ arg : Value, FailsOnly Error.OfArguments (resolve store model record field arg)
  | .object fields => by
      obtain ⟨related, hrelated, hfound⟩ := Schema.exists_relatedModel hmodel hfield
      have hunder (other : Record) := failsOnly_shapeUnder hrelated other fields
      rw [resolve, hfound]
      dsimp only
      split
      · rename_i e he
        exact .error (Arguments.failsOnly_parse _ _ _ e he)
      · rename_i args hargs
        split
        · split
          · rename_i e he
            exact .error (failsOnly_check _ e he)
          · exact .map (.mapM fun other _ => (hunder other).map)
        · split
          · exact .ok _
          · split
            · rename_i e he
              exact .error (failsOnly_check _ e he)
            · exact (hunder _).map
  | .null | .bool _ | .integer _ | .double _ | .string _ | .array _ => by
      obtain ⟨related, -, hfound⟩ := Schema.exists_relatedModel hmodel hfield
      simp only [resolve, hfound]
      split <;> exact .ok _
termination_by structural arg => arg

theorem failsOnly_shapeUnder {model : Model} (hmodel : model ∈ store.schema.models) (record : Record) :
    ∀ members : List (String × Value),
      FailsOnly Error.OfArguments (shapeUnder store model record members)
  | [] => .ok record
  | (name, .object keys) :: rest => by
      rw [shapeUnder]
      split
      · exact failsOnly_extend hmodel record true keys []
      · split
        · exact failsOnly_extend hmodel record false keys record
        · exact failsOnly_shapeUnder hmodel record rest
  | (_, .null) :: rest | (_, .bool _) :: rest | (_, .integer _) :: rest | (_, .double _) :: rest
  | (_, .string _) :: rest | (_, .array _) :: rest => failsOnly_shapeUnder hmodel record rest
termination_by structural members => members

end

/-- An answer is shaped, or its projection is to blame. -/
theorem failsOnly_shape (hmodel : model ∈ store.schema.models) (projection : Projection)
    (record : Record) : FailsOnly Error.OfArguments (projection.shape store model record) := by
  unfold shape
  split
  · rename_i e he
    exact .error (failsOnly_check _ e he)
  · split
    · exact failsOnly_extend hmodel record true _ _
    · exact failsOnly_extend hmodel record false _ _
    · exact .ok _

end Projection

/-! ## Reads -/

/-- The reads that a client calls on a model. -/
inductive ReadOperation where
  | findMany
  | findFirst
  | findUnique
  | findFirstOrThrow
  | findUniqueOrThrow
  | count
  | aggregate
  | groupBy
  deriving DecidableEq, Repr

namespace ReadOperation

/-- A read of a model, whatever it answers. -/
def read : ReadOperation → Store → Model → Value → Except Error Unit
  | .findMany, store, model, args => (store.findMany model args).map fun _ => ()
  | .findFirst, store, model, args => (store.findFirst model args).map fun _ => ()
  | .findUnique, store, model, args => (store.findUnique model args).map fun _ => ()
  | .findFirstOrThrow, store, model, args => (store.findFirstOrThrow model args).map fun _ => ()
  | .findUniqueOrThrow, store, model, args => (store.findUniqueOrThrow model args).map fun _ => ()
  | .count, store, model, args => (store.count model args).map fun _ => ()
  | .aggregate, store, model, args => (store.aggregateRows model args).map fun _ => ()
  | .groupBy, store, model, args => (store.groupRows model args).map fun _ => ()

/-- Whether a read insists on a record. -/
def insists : ReadOperation → Bool
  | .findFirstOrThrow => true
  | .findUniqueOrThrow => true
  | _ => false

end ReadOperation

namespace Store

variable {store : Store} {model : Model}

/-- A search fails for its projection or its order, never for the schema. -/
theorem failsOnly_find (hmodel : model ∈ store.schema.models) (args : FindArguments) :
    FailsOnly Error.OfArguments (store.find model args) := by
  unfold find query
  split
  · rename_i e he
    exact .error (Projection.failsOnly_check _ e he)
  · exact .mapM fun record _ => Projection.failsOnly_shape hmodel args.projection record

/-- So does a search for the first record. -/
theorem failsOnly_findFirst (hmodel : model ∈ store.schema.models) (args : Value) :
    FailsOnly Error.OfArguments (store.findFirst model args) :=
  (Arguments.failsOnly_parse _ _ args).bind fun _ _ =>
    (failsOnly_find hmodel _).bind fun _ _ => .ok _

/-- That there is no record to find is the only other error, and only of a read that insists on
    one. -/
theorem failsOnly_findFirstOrThrow (hmodel : model ∈ store.schema.models) (args : Value) :
    FailsOnly (fun e => e.OfArguments ∨ e = .notFound model.name .toFind)
      (store.findFirstOrThrow model args) := by
  refine ((failsOnly_findFirst hmodel args).imp fun _ => Or.inl).bind fun found _ => ?_
  cases found with
  | none => exact .error (Or.inr rfl)
  | some record => exact .ok record

/-- Grouping fails for its arguments only. -/
theorem failsOnly_groupBy (args : GroupByArguments) :
    FailsOnly Error.OfArguments (store.groupBy model args) := by
  unfold groupBy
  dsimp only
  split
  · exact .error (Or.inr rfl)
  · exact .ok _

/-- A read fails for its arguments, or because it insists on a record and there is none. -/
theorem failsOnly_read (hmodel : model ∈ store.schema.models) (operation : ReadOperation)
    (args : Value) :
    FailsOnly (fun e => e.OfArguments ∨ operation.insists = true ∧ e = .notFound model.name .toFind)
      (operation.read store model args) := by
  cases operation with
  | findMany =>
      refine (FailsOnly.map ?_).imp fun _ => Or.inl
      exact (Arguments.failsOnly_parse _ _ args).bind fun args _ => failsOnly_find hmodel args
  | findFirst => exact (failsOnly_findFirst hmodel args).map.imp fun _ => Or.inl
  | findUnique => exact (failsOnly_findFirst hmodel args).map.imp fun _ => Or.inl
  | findFirstOrThrow =>
      exact (failsOnly_findFirstOrThrow hmodel args).map.imp fun _ h => h.imp_right fun h => ⟨rfl, h⟩
  | findUniqueOrThrow =>
      exact (failsOnly_findFirstOrThrow hmodel args).map.imp fun _ h => h.imp_right fun h => ⟨rfl, h⟩
  | count =>
      refine (FailsOnly.map ?_).imp fun _ => Or.inl
      exact (Arguments.failsOnly_parse _ _ args).bind fun args _ =>
        (failsOnly_find hmodel _).bind fun _ _ => .ok _
  | aggregate =>
      refine (FailsOnly.map ?_).imp fun _ => Or.inl
      exact (Arguments.failsOnly_parseObject _ args).bind fun _ _ => .ok _
  | groupBy =>
      refine (FailsOnly.map ?_).imp fun _ => Or.inl
      exact (Arguments.failsOnly_parseObject _ args).bind fun args _ => failsOnly_groupBy args

end Store

end RecordStore
