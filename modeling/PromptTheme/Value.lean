/-
The values of a configuration tree. A table is a list of keyed values; `Value.Ordered` says that
every table in a value is sorted, and `Value.normalize` establishes it. Whole numbers and floats are
kept apart: they never equal each other.
-/
import PromptTheme.Keyed
import PromptTheme.Number.Decimal

namespace PromptTheme

/-- A whole number from `-2 ^ 63`, the least signed 64-bit integer, to below `2 ^ 64`, where the
unsigned ones end. -/
structure Whole where
  val : Int
  lower : -0x8000000000000000 ≤ val
  upper : val < 0x10000000000000000
deriving DecidableEq

namespace Whole

def ofInt? (n : Int) : Option Whole :=
  if h : -0x8000000000000000 ≤ n ∧ n < 0x10000000000000000 then some ⟨n, h.1, h.2⟩ else none

/-- A count; the largest whole number stands for what is beyond it. -/
def ofNat (n : Nat) : Whole := ⟨(min n 0xffffffffffffffff : Nat), by omega, by omega⟩

end Whole

inductive Number where
  | whole (n : Whole)
  | double (x : Double)
deriving DecidableEq

/-- Equality as numbers of one kind. -/
def Number.sameAs : Number → Number → Bool
  | .whole a, .whole b => a == b
  | .double a, .double b => a.sameAs b
  | _, _ => false

inductive Value where
  | null
  | bool (b : Bool)
  | number (n : Number)
  | string (s : String)
  | array (items : List Value)
  | table (entries : List (String × Value))

namespace Value

instance : Inhabited Value := ⟨.null⟩

/-- A count as a value. -/
def count (n : Nat) : Value := .number (.whole (.ofNat n))

/-! ## Views -/

def isNull : Value → Bool
  | .null => true
  | _ => false

def asString? : Value → Option String
  | .string s => some s
  | _ => none

theorem asString?_eq_some_iff {v : Value} {s : String} : v.asString? = some s ↔ v = .string s := by
  cases v <;> simp [asString?]

def asBool? : Value → Option Bool
  | .bool b => some b
  | _ => none

def asTable? : Value → Option (Keyed Value)
  | .table es => some es
  | _ => none

/-! ## Equality of content -/

mutual

/-- Equality of content: numbers are compared as numbers of one kind. -/
def sameAs : Value → Value → Bool
  | .null, .null => true
  | .bool a, .bool b => a == b
  | .number a, .number b => a.sameAs b
  | .string a, .string b => a == b
  | .array a, .array b => sameItems a b
  | .table a, .table b => sameEntries a b
  | _, _ => false

def sameItems : List Value → List Value → Bool
  | [], [] => true
  | a :: as, b :: bs => a.sameAs b && sameItems as bs
  | _, _ => false

def sameEntries : List (String × Value) → List (String × Value) → Bool
  | [], [] => true
  | (k, a) :: as, (l, b) :: bs => k == l && a.sameAs b && sameEntries as bs
  | _, _ => false

end

mutual

theorem sameAs_refl : ∀ v : Value, v.sameAs v = true
  | .null => rfl
  | .bool b => by simp [sameAs]
  | .number (.whole n) => by simp [sameAs, Number.sameAs]
  | .number (.double x) => by simp [sameAs, Number.sameAs, Double.sameAs]
  | .string s => by simp [sameAs]
  | .array items => by rw [sameAs, sameItems_refl items]
  | .table es => by rw [sameAs, sameEntries_refl es]

theorem sameItems_refl : ∀ vs : List Value, sameItems vs vs = true
  | [] => rfl
  | v :: vs => by rw [sameItems, sameAs_refl v, sameItems_refl vs]; rfl

theorem sameEntries_refl : ∀ es : List (String × Value), sameEntries es es = true
  | [] => rfl
  | (k, v) :: es => by rw [sameEntries, sameAs_refl v, sameEntries_refl es]; simp

end

/-! ## Order -/

mutual

/-- Every table in the value has strictly increasing keys. -/
def Ordered : Value → Prop
  | .array items => OrderedItems items
  | .table es => Keyed.Sorted es ∧ OrderedEntries es
  | _ => True

def OrderedItems : List Value → Prop
  | [] => True
  | v :: vs => v.Ordered ∧ OrderedItems vs

def OrderedEntries : List (String × Value) → Prop
  | [] => True
  | (_, v) :: es => v.Ordered ∧ OrderedEntries es

end

mutual

/-- Sorts every table; of equal keys the last one stays. -/
def normalize : Value → Value
  | .array items => .array (normalizeItems items)
  | .table es => .table (normalizeEntries [] es)
  | v => v

def normalizeItems : List Value → List Value
  | [] => []
  | v :: vs => v.normalize :: normalizeItems vs

/-- Adds the entries to a table that is sorted already. -/
def normalizeEntries (sorted : List (String × Value)) :
    List (String × Value) → List (String × Value)
  | [] => sorted
  | (k, v) :: es => normalizeEntries (Keyed.insert k v.normalize sorted) es

end

theorem orderedEntries_iff {es : Keyed Value} :
    OrderedEntries es ↔ ∀ e ∈ es, e.2.Ordered := by
  induction es with
  | nil => simp [OrderedEntries]
  | cons e rest ih => obtain ⟨k, v⟩ := e; simp [OrderedEntries, ih]

theorem orderedEntries_insert {es : Keyed Value} (h : OrderedEntries es) (key : String) {v : Value}
    (hv : v.Ordered) : OrderedEntries (Keyed.insert key v es) := by
  rw [orderedEntries_iff] at h ⊢
  intro e he
  rcases Keyed.mem_insert he with rfl | he
  · exact hv
  · exact h e he

theorem ordered_of_find? {es : Keyed Value} (h : OrderedEntries es) {key : String} {v : Value}
    (hf : Keyed.find? key es = some v) : v.Ordered := by
  induction es with
  | nil => simp at hf
  | cons e rest ih =>
    obtain ⟨k, w⟩ := e
    rw [Keyed.find?_cons] at hf
    simp only [OrderedEntries] at h
    split at hf
    · cases hf; exact h.1
    · exact ih h.2 hf

mutual

theorem ordered_normalize : ∀ v : Value, v.normalize.Ordered
  | .array items => by simpa [normalize, Ordered] using orderedItems_normalizeItems items
  | .table es => by
    simpa [normalize, Ordered] using
      ordered_normalizeEntries es [] List.Pairwise.nil (by simp [OrderedEntries])
  | .null => by simp [normalize, Ordered]
  | .bool _ => by simp [normalize, Ordered]
  | .number _ => by simp [normalize, Ordered]
  | .string _ => by simp [normalize, Ordered]

theorem orderedItems_normalizeItems : ∀ vs : List Value, OrderedItems (normalizeItems vs)
  | [] => by simp [normalizeItems, OrderedItems]
  | v :: vs => by
    simp only [normalizeItems, OrderedItems]
    exact ⟨ordered_normalize v, orderedItems_normalizeItems vs⟩

theorem ordered_normalizeEntries : ∀ (es sorted : List (String × Value)), Keyed.Sorted sorted →
    OrderedEntries sorted →
    Keyed.Sorted (normalizeEntries sorted es) ∧ OrderedEntries (normalizeEntries sorted es)
  | [], _, hs, ho => by simpa [normalizeEntries] using ⟨hs, ho⟩
  | (k, v) :: es, _, hs, ho => by
    simp only [normalizeEntries]
    exact ordered_normalizeEntries es _ (hs.insert k v.normalize)
      (orderedEntries_insert ho k (ordered_normalize v))

end

mutual

/-- What is sorted already stays as it is. -/
theorem normalize_eq_self : ∀ {v : Value}, v.Ordered → v.normalize = v
  | .array items, h => by rw [normalize, normalizeItems_eq_self h]
  | .table es, h => by
    rw [normalize, normalizeEntries_eq_append [] h.1 h.2, List.nil_append]
  | .null, _ => rfl
  | .bool _, _ => rfl
  | .number _, _ => rfl
  | .string _, _ => rfl

theorem normalizeItems_eq_self : ∀ {vs : List Value}, OrderedItems vs → normalizeItems vs = vs
  | [], _ => rfl
  | v :: vs, h => by rw [normalizeItems, normalize_eq_self h.1, normalizeItems_eq_self h.2]

theorem normalizeEntries_eq_append : ∀ (sorted : List (String × Value)) {es : List (String × Value)},
    Keyed.Sorted (sorted ++ es) → OrderedEntries es → normalizeEntries sorted es = sorted ++ es
  | sorted, [], _, _ => by rw [normalizeEntries, List.append_nil]
  | sorted, (k, v) :: es, hs, ho => by
    have hinsert := hs.insert_eq_append v
    rw [List.append_cons] at hs
    rw [normalizeEntries, normalize_eq_self ho.1, hinsert, normalizeEntries_eq_append _ hs ho.2,
      ← List.append_cons]

end

end Value

end PromptTheme
