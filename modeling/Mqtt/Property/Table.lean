import Mqtt.Property.Kind
import Mqtt.Property.Value

/-!
# Property tables

A `PropertyTable` stores one value for each kind of property and remembers the order in which the
kinds first came. Storing under a kind that is there keeps its place.

* `keys_insert_of_mem`, `keys_insert_of_not_mem`: what storing does to the order;
* `get?_insert_self`, `get?_insert_of_ne`: what it does to the values.
-/

namespace Mqtt

/-- The values of properties, in the order in which their kinds first came. -/
structure PropertyTable where
  entries : List (PropertyKind × PropertyValue)
  nodup : (entries.map Prod.fst).Nodup
  deriving DecidableEq

namespace PropertyTable

/-- The table without a property. -/
def empty : PropertyTable := ⟨[], List.nodup_nil⟩

instance : EmptyCollection PropertyTable := ⟨empty⟩

/-- The kinds in the table, in order. -/
def keys (t : PropertyTable) : List PropertyKind := t.entries.map Prod.fst

/-- Whether the table holds a kind. -/
def contains (t : PropertyTable) (k : PropertyKind) : Bool := t.keys.contains k

/-- The value of a kind. -/
def get? (t : PropertyTable) (k : PropertyKind) : Option PropertyValue := t.entries.lookup k

/-- Whether the table holds nothing. -/
def isEmpty (t : PropertyTable) : Bool := t.entries.isEmpty

/-- The entries with the value of `k` replaced. -/
def replaced (k : PropertyKind) (v : PropertyValue) (es : List (PropertyKind × PropertyValue)) :
    List (PropertyKind × PropertyValue) :=
  es.map fun e => if e.1 = k then (k, v) else e

/-- Replacing a value changes no kind and no place. -/
theorem map_fst_replaced (k : PropertyKind) (v : PropertyValue)
    (es : List (PropertyKind × PropertyValue)) :
    (replaced k v es).map Prod.fst = es.map Prod.fst := by
  simp only [replaced, List.map_map]
  apply List.map_congr_left
  intro e _
  by_cases h : e.1 = k <;> simp [h]

/-- The table with a value stored under `k`: in the place of `k`, or at the end. -/
def insert (t : PropertyTable) (k : PropertyKind) (v : PropertyValue) : PropertyTable :=
  if h : k ∈ t.keys then
    ⟨replaced k v t.entries, by rw [map_fst_replaced]; exact t.nodup⟩
  else
    ⟨t.entries ++ [(k, v)], by
      rw [List.map_append, List.nodup_append]
      refine ⟨t.nodup, by simp, ?_⟩
      intro a ha b hb
      simp only [List.map_cons, List.map_nil, List.mem_singleton] at hb
      rintro rfl
      exact h (hb ▸ ha)⟩

/-- The table without `k`. -/
def erase (t : PropertyTable) (k : PropertyKind) : PropertyTable where
  entries := t.entries.filter fun e => e.1 ≠ k
  nodup := t.nodup.sublist (List.filter_sublist.map _)

/-- The table with one more value in the list of `k`. -/
def push (t : PropertyTable) (k : PropertyKind) (s : Scalar) : PropertyTable :=
  match t.get? k with
  | some v => t.insert k (.many (v.scalars ++ [s]))
  | none => t.insert k (.many [s])

/-- The table of a list of entries; of several entries of a kind the last one counts. -/
def ofList (es : List (PropertyKind × PropertyValue)) : PropertyTable :=
  es.foldl (fun t e => t.insert e.1 e.2) empty

/-- The table in the form in which a packet keeps it: a single value of a listed kind becomes a
    list. -/
def listed (t : PropertyTable) : PropertyTable where
  entries := t.entries.map fun e => (e.1, if e.1.isListed then .many e.2.scalars else e.2)
  nodup := by simpa [List.map_map, Function.comp_def] using t.nodup

/-- Whether two tables hold the same values, in whatever order. -/
def same (t u : PropertyTable) : Bool :=
  t.entries.length == u.entries.length &&
    t.entries.all fun e => match u.get? e.1 with
      | some v => e.2.same v
      | none => false

/-! ### Order and values -/

/-- A table is its entries. -/
@[ext] theorem ext {t u : PropertyTable} (h : t.entries = u.entries) : t = u := by
  cases t; cases u; simp_all

/-- A table holds the kinds in its list of kinds. -/
theorem contains_iff {t : PropertyTable} {k : PropertyKind} : t.contains k = true ↔ k ∈ t.keys := by
  simp [contains]

/-- Storing under a kind that is there moves nothing. -/
theorem keys_insert_of_mem {t : PropertyTable} {k : PropertyKind} (v : PropertyValue)
    (h : k ∈ t.keys) : (t.insert k v).keys = t.keys := by
  unfold insert
  rw [dif_pos h]
  exact map_fst_replaced k v t.entries

/-- A new kind goes to the end. -/
theorem keys_insert_of_not_mem {t : PropertyTable} {k : PropertyKind} (v : PropertyValue)
    (h : k ∉ t.keys) : (t.insert k v).keys = t.keys ++ [k] := by
  unfold insert
  rw [dif_neg h]
  simp [keys]

/-- The kinds of a table are those it has a value for. -/
theorem get?_isSome_iff {t : PropertyTable} {k : PropertyKind} :
    (t.get? k).isSome = true ↔ k ∈ t.keys := by
  simp only [get?, keys]
  induction t.entries with
  | nil => simp
  | cons e es ih =>
    obtain ⟨j, w⟩ := e
    by_cases h : k = j
    · simp [h]
    · have h' : (k == j) = false := by simpa using h
      simp [List.lookup_cons, h', ih, h]

/-- Replacing a value changes what is found under its kind and nothing else. -/
theorem lookup_replaced (k j : PropertyKind) (v : PropertyValue)
    (es : List (PropertyKind × PropertyValue)) :
    (replaced k v es).lookup j = if j = k then (es.lookup k).map fun _ => v else es.lookup j := by
  induction es with
  | nil => simp [replaced]
  | cons e es ih =>
    obtain ⟨i, w⟩ := e
    simp only [replaced] at ih
    by_cases hk : i = k <;> by_cases hj : j = k <;> by_cases he : j = i <;>
      simp_all [replaced, List.lookup_cons, beq_eq_false_iff_ne.mpr]

/-- The value stored under a kind is there afterwards. -/
theorem get?_insert_self (t : PropertyTable) (k : PropertyKind) (v : PropertyValue) :
    (t.insert k v).get? k = some v := by
  by_cases h : k ∈ t.keys
  · unfold insert
    rw [dif_pos h]
    have hsome := get?_isSome_iff.mpr h
    simp only [get?, lookup_replaced, if_true] at hsome ⊢
    cases hl : t.entries.lookup k with
    | none => simp [hl] at hsome
    | some w => rfl
  · unfold insert
    rw [dif_neg h]
    have hnone : t.entries.lookup k = none := by
      cases hl : t.entries.lookup k with
      | none => rfl
      | some w => exact absurd (get?_isSome_iff.mp (by simp [get?, hl])) h
    simp [get?, List.lookup_append, hnone]

/-- Other kinds keep their values. -/
theorem get?_insert_of_ne (t : PropertyTable) {k j : PropertyKind} (v : PropertyValue)
    (h : j ≠ k) : (t.insert k v).get? j = t.get? j := by
  unfold insert
  split
  · simp [get?, lookup_replaced, h]
  · have hjk : (j == k) = false := by simpa using h
    simp [get?, List.lookup_append, List.lookup_cons, hjk]

end PropertyTable

end Mqtt
