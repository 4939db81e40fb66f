import RecordStore.Operation
import RecordStore.Proofs.Query.Grouping

/-!
# The entries of a flattened filter

A `having` filter is flattened by writing entry after entry into objects, and by collecting the
statistics whose conditions get a key of their own.  What is written is described here by recursion
on the filter: the entries that each key becomes, and the statistics that it asks for.  Different
statistics have different keys, so where none of these keys is also a key of the filter, no entry
overwrites another and the flattened filter consists of just the entries described.
-/

namespace RecordStore

/-! ## Writing under new names -/

namespace Entries

variable {α : Type}

theorem insert_of_notMem {name : String} {entries : Entries α} (h : name ∉ keys entries)
    (new : α) : insert name new entries = entries ++ [(name, new)] := by
  induction entries with
  | nil => rfl
  | cons entry rest ih =>
      obtain ⟨hne, hrest⟩ := not_or.mp (mt List.mem_cons.mpr h)
      rw [insert, if_neg (Ne.symm hne), ih hrest, List.cons_append]

/-- Entries under different new names are added as they stand. -/
theorem insertAll_of_nodup {more : Entries α} :
    ∀ {entries : Entries α}, (keys (entries ++ more)).Nodup →
      insertAll entries more = entries ++ more := by
  induction more with
  | nil => exact fun _ => (List.append_nil _).symm
  | cons entry rest ih =>
      intro entries h
      have hfresh : entry.1 ∉ keys entries := by
        rw [keys, List.map_append, List.nodup_append] at h
        exact fun hmem => h.2.2 _ hmem _ List.mem_cons_self rfl
      show insertAll (insert entry.1 entry.2 entries) rest = _
      rw [insert_of_notMem hfresh, ih (by rwa [List.append_assoc]), List.append_assoc]
      rfl

theorem insertAll_append (entries first second : Entries α) :
    insertAll entries (first ++ second) = insertAll (insertAll entries first) second :=
  List.foldl_append

theorem insertAll_ne_nil {entries : Entries α} (h : entries ≠ []) (more : Entries α) :
    insertAll entries more ≠ [] := by
  induction more generalizing entries with
  | nil => exact h
  | cons entry rest ih =>
      refine ih fun hnil => ?_
      have hmem : entry.1 ∈ keys (insert entry.1 entry.2 entries) := mem_keys_insert.mpr (.inl rfl)
      rw [show insert entry.1 entry.2 entries = [] from hnil] at hmem
      cases hmem

end Entries

/-! ## Values with different keys -/

namespace Value

mutual

/-- Whether no object in a value has a key twice, as no object has that is read from a text: the
    last value under a key is the one that stands. -/
def hasDistinctKeys : Value → Bool
  | .array items => haveDistinctKeys items
  | .object fields => (Entries.keys fields).Nodup && fieldsHaveDistinctKeys fields
  | _ => true
termination_by structural v => v

/-- Whether no object in some values has a key twice. -/
def haveDistinctKeys : List Value → Bool
  | [] => true
  | v :: rest => hasDistinctKeys v && haveDistinctKeys rest
termination_by structural items => items

/-- Whether no object in the values of a record has a key twice. -/
def fieldsHaveDistinctKeys : List (String × Value) → Bool
  | [] => true
  | (_, v) :: rest => hasDistinctKeys v && fieldsHaveDistinctKeys rest
termination_by structural fields => fields

end

end Value

namespace Having

variable {pair other : Wanted}

/-! ## Synthetic keys -/

/-- The last letter of the name of a statistic. -/
def lastLetter : Statistic → Char
  | .count => 't'
  | .avg => 'g'
  | .sum => 'm'
  | .min => 'n'
  | .max => 'x'

/-- The name of a statistic with a capital. -/
def suffix : Statistic → String
  | .count => "Count"
  | .avg => "Avg"
  | .sum => "Sum"
  | .min => "Min"
  | .max => "Max"

theorem syntheticKey_eq (pair : Wanted) : syntheticKey pair = pair.2 ++ suffix pair.1 := by
  obtain ⟨statistic, field⟩ := pair
  cases statistic <;> rfl

/-- A synthetic key ends as its statistic does. -/
theorem getLast?_syntheticKey (pair : Wanted) :
    (syntheticKey pair).toList.getLast? = some (lastLetter pair.1) := by
  have hsuffix : (suffix pair.1).toList ≠ [] := by cases pair.1 <;> decide
  rw [syntheticKey_eq, String.toList_append, List.getLast?_append_of_ne_nil _ hsuffix]
  cases pair.1 <;> rfl

/-- **Different statistics have different keys.** -/
theorem syntheticKey_injective : Function.Injective syntheticKey := by
  intro pair other h
  have hlast : lastLetter pair.1 = lastLetter other.1 := by
    rw [← Option.some_inj, ← getLast?_syntheticKey, ← getLast?_syntheticKey, h]
  have hstatistic : pair.1 = other.1 := by
    revert hlast
    cases pair.1 <;> cases other.1 <;> decide
  rw [syntheticKey_eq, syntheticKey_eq, hstatistic, String.append_left_inj] at h
  exact Prod.ext hstatistic h

/-- No synthetic key is a word of filters. -/
theorem syntheticKey_notReserved (pair : Wanted) :
    Connective.ofName? (syntheticKey pair) = none ∧ syntheticKey pair ≠ "is" := by
  have hlast (word : String) (hletter : ∀ statistic : Statistic,
      word.toList.getLast? ≠ some (lastLetter statistic)) : syntheticKey pair ≠ word :=
    fun h => hletter pair.1 (h ▸ getLast?_syntheticKey pair)
  constructor
  · unfold Connective.ofName?
    split
    case h_1 h => exact absurd h (hlast "AND" fun statistic => by cases statistic <;> decide)
    case h_2 h => exact absurd h (hlast "OR" fun statistic => by cases statistic <;> decide)
    case h_3 h => exact absurd h (hlast "NOT" fun statistic => by cases statistic <;> decide)
    case h_4 => rfl
  · exact hlast "is" fun statistic => by cases statistic <;> decide

/-! ## What is asked of statistics -/

/-- The operators of a field that ask for statistics. -/
def asked (operators : Record) : List (Statistic × Value) :=
  operators.filterMap fun (name, operand) => (Statistic.ofKey? name).map (·, operand)

/-- The operators of a field that ask for no statistic. -/
def plain (operators : Record) : Record :=
  operators.filter fun (name, _) => (Statistic.ofKey? name).isNone

/-- The statistics that the operators of a field ask for. -/
def fieldPairs (name : String) (operators : Record) : List Wanted :=
  (asked operators).map fun (statistic, _) => (statistic, name)

mutual

/-- The statistics that a filter asks for. -/
def pairs : List (String × Value) → List Wanted
  | [] => []
  | (key, condition) :: rest => keyPairs key condition ++ pairs rest
termination_by structural filter => filter

/-- The statistics that one key of a filter asks for. -/
def keyPairs (key : String) : Value → List Wanted
  | .array items => if (Connective.ofName? key).isSome then itemPairs items else []
  | .object fields =>
      if (Connective.ofName? key).isSome then pairs fields else fieldPairs key fields
  | _ => []
termination_by structural condition => condition

/-- The statistics that the filters in a list ask for. -/
def itemPairs : List Value → List Wanted
  | [] => []
  | .object filter :: rest => pairs filter ++ itemPairs rest
  | _ :: rest => itemPairs rest
termination_by structural items => items

end

/-! ## The flattened filter -/

/-- The entries that the operators of a field become: one for each statistic, and one for the other
    operators, if there are any. -/
def flatField (name : String) (operators : Record) : Record :=
  ((asked operators).map fun (statistic, operand) => (syntheticKey (statistic, name), operand)) ++
    if (plain operators).isEmpty then []
    else [(name, .object (Entries.insertAll [] (plain operators)))]

mutual

/-- The entries that a filter becomes. -/
def flat : List (String × Value) → Record
  | [] => []
  | (key, condition) :: rest => flatKey key condition ++ flat rest
termination_by structural filter => filter

/-- The entries that one key of a filter becomes. -/
def flatKey (key : String) : Value → Record
  | .array items =>
      if (Connective.ofName? key).isSome then [(key, .array (flatItems items))]
      else [(key, .array items)]
  | .object fields =>
      if (Connective.ofName? key).isSome then
        [(key, .array [.object (Entries.insertAll [] (flat fields))])]
      else flatField key fields
  | condition =>
      if (Connective.ofName? key).isSome then [(key, .array [])] else [(key, condition)]
termination_by structural condition => condition

/-- What the filters in a list become. -/
def flatItems : List Value → List Value
  | [] => []
  | .object filter :: rest => .object (Entries.insertAll [] (flat filter)) :: flatItems rest
  | _ :: rest => flatItems rest
termination_by structural items => items

end

/-- One operator of a field is moved to a key of its own, or stays with the others. -/
def moveOperator (name : String) (state : Flattened × Record) (entry : String × Value) :
    Flattened × Record :=
  match Statistic.ofKey? entry.1 with
  | some statistic =>
      (⟨Entries.insert (syntheticKey (statistic, name)) entry.2 state.1.filter,
        addWanted state.1.wanted (statistic, name)⟩, state.2)
  | none => (state.1, Entries.insert entry.1 entry.2 state.2)

theorem foldl_moveOperator (name : String) (operators : Record) :
    ∀ (done : Flattened) (rest : Record),
      operators.foldl (moveOperator name) (done, rest) =
        (⟨Entries.insertAll done.filter
            ((asked operators).map fun (statistic, operand) =>
              (syntheticKey (statistic, name), operand)),
          (fieldPairs name operators).foldl addWanted done.wanted⟩,
          Entries.insertAll rest (plain operators)) := by
  induction operators with
  | nil => exact fun _ _ => rfl
  | cons entry others ih =>
      intro done rest
      obtain ⟨operator, operand⟩ := entry
      rw [List.foldl_cons]
      cases hstatistic : Statistic.ofKey? operator with
      | some statistic =>
          have hasked : asked ((operator, operand) :: others) =
              (statistic, operand) :: asked others :=
            List.filterMap_cons_some (by simp only [hstatistic]; rfl)
          have hplain : plain ((operator, operand) :: others) = plain others :=
            List.filter_cons_of_neg (by simp [hstatistic])
          rw [moveOperator, hstatistic, ih, fieldPairs, fieldPairs, hasked, hplain]
          rfl
      | none =>
          have hasked : asked ((operator, operand) :: others) = asked others :=
            List.filterMap_cons_none (by simp only [hstatistic]; rfl)
          have hplain : plain ((operator, operand) :: others) =
              (operator, operand) :: plain others :=
            List.filter_cons_of_pos (by simp [hstatistic])
          rw [moveOperator, hstatistic, ih, fieldPairs, fieldPairs, hasked, hplain]
          rfl

/-- Nothing is written exactly if there is nothing to write. -/
theorem isEmpty_insertAll_nil : ∀ entries : Record,
    (Entries.insertAll [] entries).isEmpty = entries.isEmpty
  | [] => rfl
  | entry :: rest =>
      List.isEmpty_eq_false_iff.mpr
        (Entries.insertAll_ne_nil (List.cons_ne_nil (entry.1, entry.2) []) rest)

/-- The operators of a field are written as the entries that they become. -/
theorem flattenField_eq (name : String) (operators : Record) (done : Flattened) :
    flattenField name operators done =
      ⟨Entries.insertAll done.filter (flatField name operators),
        (fieldPairs name operators).foldl addWanted done.wanted⟩ := by
  have hfold : flattenField name operators done =
      match operators.foldl (moveOperator name) (done, []) with
      | (done, rest) =>
          if rest.isEmpty then done
          else { done with filter := Entries.insert name (.object rest) done.filter } := rfl
  rw [hfold, foldl_moveOperator]
  simp only [isEmpty_insertAll_nil, flatField]
  split
  · rw [List.append_nil]
  · rw [Entries.insertAll_append]
    rfl

/-- A single value becomes one entry. -/
theorem flatKey_of_isScalar {condition : Value} (hscalar : condition.isScalar = true)
    (key : String) : flatKey key condition =
      if (Connective.ofName? key).isSome then [(key, .array [])] else [(key, condition)] := by
  cases condition with
  | array _ => cases hscalar
  | object _ => cases hscalar
  | _ => rfl

theorem flattenKey_of_isScalar {key : String} {condition : Value}
    (hscalar : condition.isScalar = true) (done : Flattened) :
    flattenKey done key condition =
      ⟨Entries.insertAll done.filter (flatKey key condition),
        (keyPairs key condition).foldl addWanted done.wanted⟩ := by
  have hflatten : flattenKey done key condition =
      ⟨Entries.insert key (if (Connective.ofName? key).isSome then .array [] else condition)
        done.filter, done.wanted⟩ := by
    cases condition with
    | array _ => cases hscalar
    | object _ => cases hscalar
    | _ => simp only [flattenKey]; cases Connective.ofName? key <;> rfl
  have hpairs : keyPairs key condition = [] := by
    cases condition with
    | array _ => cases hscalar
    | object _ => cases hscalar
    | _ => rfl
  rw [hflatten, flatKey_of_isScalar hscalar, hpairs]
  cases Connective.ofName? key <;> rfl

mutual

/-- A filter is written as the entries that it becomes, and the statistics that it asks for are
    added to the wanted ones. -/
theorem flatten_eq : ∀ (filter : List (String × Value)) (done : Flattened),
    flatten done filter =
      ⟨Entries.insertAll done.filter (flat filter), (pairs filter).foldl addWanted done.wanted⟩
  | [], _ => rfl
  | (key, condition) :: rest, done => by
      rw [flatten, flattenKey_eq condition key done, flatten_eq rest, flat, pairs,
        List.foldl_append, Entries.insertAll, Entries.insertAll, Entries.insertAll,
        List.foldl_append]
termination_by structural filter => filter

theorem flattenKey_eq : ∀ (condition : Value) (key : String) (done : Flattened),
    flattenKey done key condition =
      ⟨Entries.insertAll done.filter (flatKey key condition),
        (keyPairs key condition).foldl addWanted done.wanted⟩
  | .array items, key, done => by
      rw [flattenKey, flatKey, keyPairs]
      cases Connective.ofName? key with
      | some connective =>
          dsimp only
          rw [flattenItems_eq items done.wanted]
          rfl
      | none => rfl
  | .object fields, key, done => by
      rw [flattenKey, flatKey, keyPairs]
      cases Connective.ofName? key with
      | some connective =>
          dsimp only
          rw [flatten_eq fields ⟨[], done.wanted⟩]
          rfl
      | none => exact flattenField_eq key fields done
  | .null, _, done => flattenKey_of_isScalar rfl done
  | .bool _, _, done => flattenKey_of_isScalar rfl done
  | .integer _, _, done => flattenKey_of_isScalar rfl done
  | .double _, _, done => flattenKey_of_isScalar rfl done
  | .string _, _, done => flattenKey_of_isScalar rfl done
termination_by structural condition => condition

theorem flattenItems_eq : ∀ (items : List Value) (wanted : List Wanted),
    flattenItems wanted items = (flatItems items, (itemPairs items).foldl addWanted wanted)
  | [], _ => rfl
  | .object filter :: rest, wanted => by
      rw [flattenItems, flatten_eq filter ⟨[], wanted⟩]
      dsimp only
      rw [flattenItems_eq rest, flatItems, itemPairs, List.foldl_append]
  | .null :: rest, wanted => flattenItems_eq rest wanted
  | .bool _ :: rest, wanted => flattenItems_eq rest wanted
  | .integer _ :: rest, wanted => flattenItems_eq rest wanted
  | .double _ :: rest, wanted => flattenItems_eq rest wanted
  | .string _ :: rest, wanted => flattenItems_eq rest wanted
  | .array _ :: rest, wanted => flattenItems_eq rest wanted
termination_by structural items => items

end

/-! ## Entries under different keys -/

variable {name key : String} {operators fields : Record} {condition : Value}

theorem mem_fieldPairs : pair ∈ fieldPairs name operators ↔
    ∃ entry ∈ asked operators, (entry.1, name) = pair :=
  List.mem_map

/-- A key becomes one entry under it, unless it is a field with operators. -/
theorem flatKey_cases (key : String) (condition : Value) :
    (∃ written, flatKey key condition = [(key, written)]) ∨
      ∃ operators, condition = .object operators ∧
        flatKey key condition = flatField key operators ∧
        keyPairs key condition = fieldPairs key operators := by
  cases hconnective : (Connective.ofName? key).isSome with
  | true =>
      refine Or.inl ?_
      cases condition <;> exact ⟨_, if_pos hconnective⟩
  | false =>
      have hnone : ¬(Connective.ofName? key).isSome = true := by rw [hconnective]; decide
      cases condition with
      | object operators => exact Or.inr ⟨operators, rfl, if_neg hnone, if_neg hnone⟩
      | _ => exact Or.inl ⟨_, if_neg hnone⟩

/-- The keys of the operators of a field are those of its statistics, and the field itself if there
    are other operators. -/
theorem keys_flatField (name : String) (operators : Record) :
    Entries.keys (flatField name operators) =
      (fieldPairs name operators).map syntheticKey ++
        if (plain operators).isEmpty then [] else [name] := by
  rw [flatField, Entries.keys, List.map_append, List.map_map, fieldPairs, List.map_map]
  congr 1
  split <;> rfl

/-- What a key becomes stands under the key itself, or under those of statistics of it. -/
theorem mem_keys_flatKey {other : String} (h : other ∈ Entries.keys (flatKey key condition)) :
    other = key ∨ ∃ pair ∈ keyPairs key condition, pair.2 = key ∧ syntheticKey pair = other := by
  rcases flatKey_cases key condition with ⟨written, hflat⟩ | ⟨operators, -, hflat, hpairs⟩
  · rw [hflat] at h
    exact Or.inl (List.mem_singleton.mp h)
  · rw [hflat, keys_flatField] at h
    rw [hpairs]
    rcases List.mem_append.mp h with hsynthetic | hname
    · obtain ⟨pair, hpair, rfl⟩ := List.mem_map.mp hsynthetic
      obtain ⟨entry, -, rfl⟩ := mem_fieldPairs.mp hpair
      exact Or.inr ⟨_, hpair, rfl, rfl⟩
    · split at hname
      · cases hname
      · exact Or.inl (List.mem_singleton.mp hname)

/-- What a filter becomes stands under its keys, or under those of statistics of them. -/
theorem mem_keys_flat {other : String} (h : other ∈ Entries.keys (flat fields)) :
    other ∈ Entries.keys fields ∨
      ∃ pair ∈ pairs fields, pair.2 ∈ Entries.keys fields ∧ syntheticKey pair = other := by
  induction fields with
  | nil => cases h
  | cons entry rest ih =>
      obtain ⟨key, condition⟩ := entry
      rw [flat, Entries.keys, List.map_append] at h
      rw [pairs]
      rcases List.mem_append.mp h with hfirst | hrest
      · rcases mem_keys_flatKey hfirst with rfl | ⟨pair, hpair, rfl, hother⟩
        · exact Or.inl List.mem_cons_self
        · exact Or.inr ⟨pair, List.mem_append_left _ hpair, List.mem_cons_self, hother⟩
      · rcases ih hrest with hkey | ⟨pair, hpair, hkey, hother⟩
        · exact Or.inl (List.mem_cons_of_mem _ hkey)
        · exact Or.inr
            ⟨pair, List.mem_append_right _ hpair, List.mem_cons_of_mem _ hkey, hother⟩

/-- An operator that asks for a statistic is its key. -/
theorem eq_key_of_ofKey? {operator : String} {statistic : Statistic}
    (h : Statistic.ofKey? operator = some statistic) : operator = statistic.key := by
  unfold Statistic.ofKey? at h
  split at h <;> cases h <;> rfl

/-- Different operators ask for different statistics. -/
theorem nodup_fieldPairs (h : (Entries.keys operators).Nodup) :
    (fieldPairs name operators).Nodup := by
  have hstatistics : (asked operators).map Prod.fst =
      (Entries.keys operators).filterMap Statistic.ofKey? := by
    rw [asked, List.map_filterMap, Entries.keys, List.filterMap_map]
    refine List.filterMap_congr fun entry _ => ?_
    obtain ⟨operator, operand⟩ := entry
    cases hstatistic : Statistic.ofKey? operator <;> simp [hstatistic]
  have hpairs : fieldPairs name operators =
      ((asked operators).map Prod.fst).map fun statistic => (statistic, name) := by
    rw [List.map_map]
    rfl
  have hdifferent (first second : String) (statistic : Statistic)
      (hfirst : Statistic.ofKey? first = some statistic)
      (hsecond : Statistic.ofKey? second = some statistic) : first = second :=
    (eq_key_of_ofKey? hfirst).trans (eq_key_of_ofKey? hsecond).symm
  rw [hpairs, hstatistics]
  exact (h.filterMap hdifferent).map fun _ _ heq => congrArg Prod.fst heq

/-- The entries of a field are under different keys, if no statistic has the key of the field. -/
theorem nodup_keys_flatField (hoperators : (Entries.keys operators).Nodup)
    (hapart : ∀ pair ∈ fieldPairs name operators, syntheticKey pair ≠ name) :
    (Entries.keys (flatField name operators)).Nodup := by
  have hsynthetic : ((fieldPairs name operators).map syntheticKey).Nodup :=
    (nodup_fieldPairs hoperators).map syntheticKey_injective
  rw [keys_flatField]
  split
  · rwa [List.append_nil]
  · refine hsynthetic.append (List.nodup_singleton name) fun other hother hname => ?_
    obtain ⟨pair, hpair, rfl⟩ := List.mem_map.mp hother
    exact hapart pair hpair (List.mem_singleton.mp hname)

/-- The entries of a filter are under different keys, if no statistic has a key of the filter. -/
theorem nodup_keys_flat (hkeys : (Entries.keys fields).Nodup)
    (hdistinct : Value.fieldsHaveDistinctKeys fields = true)
    (hapart : ∀ pair ∈ pairs fields, syntheticKey pair ∉ Entries.keys fields) :
    (Entries.keys (flat fields)).Nodup := by
  induction fields with
  | nil => exact List.nodup_nil
  | cons entry rest ih =>
      obtain ⟨key, condition⟩ := entry
      obtain ⟨hfresh, hrest⟩ := List.nodup_cons.mp hkeys
      rw [Value.fieldsHaveDistinctKeys, Bool.and_eq_true] at hdistinct
      rw [pairs] at hapart
      obtain ⟨hcondition, hothers⟩ := List.forall_mem_append.mp hapart
      rw [flat, Entries.keys, List.map_append]
      refine List.Nodup.append ?_ ?_ fun other hfirst hsecond => ?_
      · rcases flatKey_cases key condition with
          ⟨written, hflat⟩ | ⟨operators, hobject, hflat, hpairs⟩
        · rw [hflat]
          exact List.nodup_singleton key
        · rw [hobject, Value.hasDistinctKeys, Bool.and_eq_true, decide_eq_true_eq] at hdistinct
          rw [hpairs] at hcondition
          rw [hflat]
          exact nodup_keys_flatField hdistinct.1.1 fun pair hpair heq =>
            hcondition pair hpair (heq ▸ List.mem_cons_self)
      · exact ih hrest hdistinct.2 fun pair hpair hmem =>
          hothers pair hpair (List.mem_cons_of_mem _ hmem)
      · -- one entry is under the first key or a key of its own, the other not
        rcases mem_keys_flatKey hfirst with rfl | ⟨pair, hpair, hkey, rfl⟩ <;>
          rcases mem_keys_flat hsecond with hmem | ⟨second, hsecond, hmem, heq⟩
        · exact hfresh hmem
        · exact hothers second hsecond (heq ▸ List.mem_cons_self)
        · exact hcondition pair hpair (List.mem_cons_of_mem _ hmem)
        · rw [syntheticKey_injective heq, hkey] at hmem
          exact hfresh hmem

/-- A filter that no statistic has a key of is written as the entries that it becomes. -/
theorem insertAll_flat (hdistinct : (Value.object fields).hasDistinctKeys = true)
    (hapart : ∀ pair ∈ pairs fields, syntheticKey pair ∉ Entries.keys fields) :
    Entries.insertAll [] (flat fields) = flat fields := by
  rw [Value.hasDistinctKeys, Bool.and_eq_true, decide_eq_true_eq] at hdistinct
  exact Entries.insertAll_of_nodup (nodup_keys_flat hdistinct.1 hdistinct.2 hapart)

/-- Operators under different keys are written as they stand. -/
theorem insertAll_plain (h : (Entries.keys operators).Nodup) :
    Entries.insertAll [] (plain operators) = plain operators :=
  Entries.insertAll_of_nodup (h.sublist (List.filter_sublist.map Prod.fst))

/-- Each statistic that is asked for is wanted once. -/
theorem mem_foldl_addWanted {more wanted : List Wanted} :
    pair ∈ more.foldl addWanted wanted ↔ pair ∈ more ∨ pair ∈ wanted := by
  induction more generalizing wanted with
  | nil => simp
  | cons new rest ih =>
      rw [List.foldl_cons, ih, addWanted]
      split <;> grind

end Having

end RecordStore
