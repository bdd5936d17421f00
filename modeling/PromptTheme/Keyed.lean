/-
Values under text keys, in strictly increasing key order. `Keyed` is the plain list that
configuration tables are made of; `Dict` packages one with the proof that it is sorted. The
lemmas say what `insert` does to `find?` and that `insert` and `erase` keep the order.
-/

namespace PromptTheme

/-- Keyed values, as a list. -/
abbrev Keyed (α : Type u) := List (String × α)

namespace Keyed

variable {α : Type u} {β : Type v}

/-- The keys increase strictly, so no key occurs twice. -/
def Sorted (es : Keyed α) : Prop := es.Pairwise (fun a b => a.1 < b.1)

instance (es : Keyed α) : Decidable (Sorted es) :=
  inferInstanceAs (Decidable (es.Pairwise (fun a b => a.1 < b.1)))

/-- The value under `key`. -/
def find? (key : String) : Keyed α → Option α
  | [] => none
  | (k, v) :: rest => if key = k then some v else find? key rest

/-- Puts `value` under `key`, in place of what was there. -/
def insert (key : String) (value : α) : Keyed α → Keyed α
  | [] => [(key, value)]
  | (k, v) :: rest =>
    if key = k then (key, value) :: rest
    else if key < k then (key, value) :: (k, v) :: rest
    else (k, v) :: insert key value rest

/-- Takes away what is under `key`. -/
def erase (key : String) : Keyed α → Keyed α
  | [] => []
  | (k, v) :: rest => if key = k then erase key rest else (k, v) :: erase key rest

/-- Inserts the pairs from first to last, so that of equal keys the last one stays. -/
def ofList (pairs : List (String × α)) : Keyed α :=
  pairs.foldl (fun es p => insert p.1 p.2 es) []

def keys (es : Keyed α) : List String := es.map Prod.fst

/-! ## Lookup -/

@[simp] theorem find?_nil (key : String) : find? key ([] : Keyed α) = none := rfl

theorem find?_cons (key k : String) (v : α) (rest : Keyed α) :
    find? key ((k, v) :: rest) = if key = k then some v else find? key rest := rfl

@[simp] theorem find?_insert_self (key : String) (value : α) (es : Keyed α) :
    find? key (insert key value es) = some value := by
  induction es with
  | nil => simp [insert, find?]
  | cons e rest ih =>
    obtain ⟨k, v⟩ := e
    by_cases hk : key = k
    · simp [insert, hk, find?]
    · by_cases hl : key < k <;> simp [insert, hk, hl, find?, ih]

theorem find?_insert_of_ne {key other : String} (value : α) (es : Keyed α) (h : other ≠ key) :
    find? other (insert key value es) = find? other es := by
  induction es with
  | nil => simp [insert, find?, h]
  | cons e rest ih =>
    obtain ⟨k, v⟩ := e
    by_cases hk : key = k
    · subst hk; simp [insert, find?, h]
    · by_cases hl : key < k <;> simp [insert, hk, hl, find?, h, ih]

/-! ## Order -/

theorem mem_insert {key : String} {value : α} {es : Keyed α} {e : String × α}
    (h : e ∈ insert key value es) : e = (key, value) ∨ e ∈ es := by
  induction es with
  | nil => simpa [insert] using h
  | cons p rest ih =>
    obtain ⟨k, v⟩ := p
    by_cases hk : key = k
    · simp only [insert, hk, if_true, List.mem_cons] at h ⊢
      rcases h with h | h
      · exact Or.inl h
      · exact Or.inr (Or.inr h)
    · by_cases hl : key < k
      · simpa [insert, hk, hl] using h
      · simp only [insert, hk, hl, if_false, List.mem_cons] at h ⊢
        rcases h with h | h
        · exact Or.inr (Or.inl h)
        · rcases ih h with h | h
          · exact Or.inl h
          · exact Or.inr (Or.inr h)

theorem lt_of_ne_of_not_lt {a b : String} (hne : a ≠ b) (h : ¬ a < b) : b < a := by
  apply Decidable.byContradiction
  intro hn
  exact hne (String.le_antisymm (String.not_lt.1 hn) (String.not_lt.1 h))

theorem Sorted.insert {es : Keyed α} (h : Sorted es) (key : String) (value : α) :
    Sorted (insert key value es) := by
  induction es with
  | nil => simp [Keyed.insert, Sorted]
  | cons p rest ih =>
    obtain ⟨k, v⟩ := p
    have hp := List.pairwise_cons.1 h
    by_cases hk : key = k
    · subst hk
      simp only [Keyed.insert, if_true]
      exact List.pairwise_cons.2 ⟨hp.1, hp.2⟩
    · by_cases hl : key < k
      · simp only [Keyed.insert, hk, hl, if_false, if_true]
        refine List.pairwise_cons.2 ⟨?_, h⟩
        intro e he
        rcases List.mem_cons.1 he with rfl | he
        · exact hl
        · exact String.lt_trans hl (hp.1 e he)
      · simp only [Keyed.insert, hk, hl, if_false]
        refine List.pairwise_cons.2 ⟨?_, ih hp.2⟩
        intro e he
        rcases mem_insert he with rfl | he
        · exact lt_of_ne_of_not_lt hk hl
        · exact hp.1 e he

theorem mem_of_find? {key : String} {value : α} {es : Keyed α} (h : find? key es = some value) :
    (key, value) ∈ es := by
  induction es with
  | nil => simp at h
  | cons e rest ih =>
    obtain ⟨k, v⟩ := e
    rw [find?_cons] at h
    split at h
    · rename_i hk
      cases h
      subst hk
      exact List.mem_cons_self
    · exact List.mem_cons_of_mem _ (ih h)

/-- Behind its first entry a sorted list does not have the key of that entry again. -/
theorem Sorted.find?_tail {key : String} {value : α} {rest : Keyed α}
    (h : Sorted ((key, value) :: rest)) : find? key rest = none := by
  cases hf : find? key rest with
  | none => rfl
  | some v =>
    have hlt := (List.pairwise_cons.1 h).1 _ (mem_of_find? hf)
    exact absurd hlt (String.lt_irrefl key)

/-- In a sorted list each entry is the one that is found under its key. -/
theorem Sorted.find?_of_mem {es : Keyed α} (h : Sorted es) {key : String} {value : α}
    (hm : (key, value) ∈ es) : find? key es = some value := by
  induction es with
  | nil => cases hm
  | cons e rest ih =>
    obtain ⟨k, v⟩ := e
    have hp := List.pairwise_cons.1 h
    rw [find?_cons]
    rcases List.mem_cons.1 hm with he | hr
    · cases he
      rw [if_pos rfl]
    · have hne : key ≠ k := by
        rintro rfl
        exact String.lt_irrefl key (hp.1 (key, value) hr)
      rw [if_neg hne, ih hp.2 hr]

/-- Putting in what is there already changes nothing. -/
theorem Sorted.insert_eq_self {es : Keyed α} (h : Sorted es) {key : String} {value : α}
    (hf : find? key es = some value) : Keyed.insert key value es = es := by
  induction es with
  | nil => cases hf
  | cons e rest ih =>
    obtain ⟨k, v⟩ := e
    have hp := List.pairwise_cons.1 h
    rw [find?_cons] at hf
    by_cases hk : key = k
    · subst hk
      rw [if_pos rfl] at hf
      cases hf
      rw [Keyed.insert, if_pos rfl]
    · rw [if_neg hk] at hf
      have hlt : ¬ key < k := fun hl =>
        String.lt_irrefl key (String.lt_trans hl (hp.1 (key, value) (mem_of_find? hf)))
      rw [Keyed.insert, if_neg hk, if_neg hlt, ih hp.2 hf]

/-- Only the last of two values put under the same key counts. -/
theorem insert_insert (key : String) (v w : α) (es : Keyed α) :
    insert key v (insert key w es) = insert key v es := by
  induction es with
  | nil => rw [insert, insert, insert, if_pos rfl]
  | cons e rest ih =>
    obtain ⟨k, u⟩ := e
    rw [insert, insert]
    by_cases hk : key = k
    · rw [if_pos hk, if_pos hk, insert, if_pos rfl]
    · rw [if_neg hk, if_neg hk]
      by_cases hl : key < k
      · rw [if_pos hl, if_pos hl, insert, if_pos rfl]
      · rw [if_neg hl, if_neg hl, insert, if_neg hk, if_neg hl, ih]

theorem find?_eq_none {key : String} {es : Keyed α} (h : ∀ e ∈ es, e.1 ≠ key) : find? key es = none := by
  cases hf : find? key es with
  | none => rfl
  | some v => exact absurd rfl (h _ (mem_of_find? hf))

/-- A key behind all others is put at the end. -/
theorem insert_of_lt {key : String} {es : Keyed α} (h : ∀ e ∈ es, e.1 < key) (value : α) :
    insert key value es = es ++ [(key, value)] := by
  induction es with
  | nil => rfl
  | cons e rest ih =>
    obtain ⟨k, v⟩ := e
    have hlt : k < key := h (k, v) List.mem_cons_self
    have hne : key ≠ k := by
      rintro rfl
      exact String.lt_irrefl key hlt
    rw [insert, if_neg hne, if_neg (fun hl => String.lt_irrefl k (String.lt_trans hlt hl)),
      ih fun e he => h e (List.mem_cons_of_mem _ he), List.cons_append]

/-- A new key is put among the others. -/
theorem insert_perm {key : String} {es : Keyed α} (h : find? key es = none) (value : α) :
    (insert key value es).Perm ((key, value) :: es) := by
  induction es with
  | nil => exact .refl _
  | cons e rest ih =>
    obtain ⟨k, v⟩ := e
    rw [find?_cons] at h
    have hk : key ≠ k := by
      rintro rfl
      rw [if_pos rfl] at h
      cases h
    rw [if_neg hk] at h
    rw [insert, if_neg hk]
    split
    · exact .refl _
    · exact ((ih h).cons (k, v)).trans (.swap ..)

/-- The order leaves no choice. -/
theorem Sorted.eq_of_perm {es fs : Keyed α} (he : Sorted es) (hf : Sorted fs) (h : es.Perm fs) : es = fs :=
  List.Perm.eq_of_pairwise
    (fun a _ _ _ hab hba => absurd (String.lt_trans hab hba) (String.lt_irrefl a.1)) he hf h

theorem Sorted.mem_iff {es : Keyed α} (h : Sorted es) {key : String} {value : α} :
    (key, value) ∈ es ↔ find? key es = some value :=
  ⟨h.find?_of_mem, mem_of_find?⟩

theorem Sorted.nodup {es : Keyed α} (h : Sorted es) : es.Nodup := by
  apply List.Pairwise.imp _ h
  rintro a _ hlt rfl
  exact String.lt_irrefl a.1 hlt

/-- A sorted list is known by what it has under each key. -/
theorem Sorted.ext {es fs : Keyed α} (he : Sorted es) (hf : Sorted fs)
    (h : ∀ key, find? key es = find? key fs) : es = fs := by
  apply he.eq_of_perm hf
  rw [List.perm_ext_iff_of_nodup he.nodup hf.nodup]
  rintro ⟨key, value⟩
  rw [he.mem_iff, hf.mem_iff, h]

theorem mem_erase {key : String} {es : Keyed α} {e : String × α}
    (h : e ∈ erase key es) : e ∈ es := by
  induction es with
  | nil => simp [erase] at h
  | cons p rest ih =>
    obtain ⟨k, v⟩ := p
    by_cases hk : key = k
    · simp only [erase, hk, if_true] at h
      subst hk
      exact List.mem_cons_of_mem _ (ih h)
    · simp only [erase, hk, if_false, List.mem_cons] at h ⊢
      rcases h with h | h
      · exact Or.inl h
      · exact Or.inr (ih h)

theorem Sorted.erase {es : Keyed α} (h : Sorted es) (key : String) : Sorted (erase key es) := by
  induction es with
  | nil => exact h
  | cons p rest ih =>
    obtain ⟨k, v⟩ := p
    have hp := List.pairwise_cons.1 h
    by_cases hk : key = k
    · subst hk
      simp only [Keyed.erase, if_true]
      exact ih hp.2
    · simp only [Keyed.erase, hk, if_false]
      exact List.pairwise_cons.2 ⟨fun e he => hp.1 e (mem_erase he), ih hp.2⟩

theorem sorted_foldl_insert (pairs : List (String × α)) {es : Keyed α} (h : Sorted es) :
    Sorted (pairs.foldl (fun es p => Keyed.insert p.1 p.2 es) es) := by
  induction pairs generalizing es with
  | nil => exact h
  | cons p rest ih => exact ih (h.insert p.1 p.2)

theorem sorted_ofList (pairs : List (String × α)) : Sorted (ofList pairs) :=
  sorted_foldl_insert pairs List.Pairwise.nil

/-- The next key of a sorted list is put at the end of the keys before it. -/
theorem Sorted.insert_eq_append {key : String} {value : α} {es rest : Keyed α}
    (h : Sorted (es ++ (key, value) :: rest)) (new : α) :
    Keyed.insert key new es = es ++ [(key, new)] :=
  insert_of_lt (fun e he => (List.pairwise_append.1 h).2.2 e he (key, value) List.mem_cons_self) new

/-- Sorted pairs are inserted one behind the other. -/
theorem foldl_insert_eq_append : ∀ {pairs es : Keyed α}, Sorted (es ++ pairs) →
    pairs.foldl (fun es p => insert p.1 p.2 es) es = es ++ pairs
  | [], es, _ => (List.append_nil es).symm
  | (k, v) :: pairs, es, h => by
    have hinsert := h.insert_eq_append v
    rw [List.append_cons] at h
    rw [List.foldl_cons, hinsert, foldl_insert_eq_append h, ← List.append_cons]

theorem Sorted.ofList_eq {es : Keyed α} (h : Sorted es) : ofList es = es := foldl_insert_eq_append h

theorem Sorted.filterMap {es : Keyed α} (h : Sorted es) (f : α → Option β) :
    Sorted (es.filterMap fun e => (f e.2).map (e.1, ·)) := by
  refine List.Pairwise.filterMap _ (fun a b hab x hx y hy => ?_) h
  obtain ⟨v, -, rfl⟩ := Option.map_eq_some_iff.1 hx
  obtain ⟨w, -, rfl⟩ := Option.map_eq_some_iff.1 hy
  exact hab

/-- Of a sorted list a selection by value has what is selected, under the same key. -/
theorem Sorted.find?_filterMap {es : Keyed α} (h : Sorted es) (f : α → Option β) (key : String) :
    find? key (es.filterMap fun e => (f e.2).map (e.1, ·)) = (find? key es).bind f := by
  induction es with
  | nil => rfl
  | cons e rest ih =>
    obtain ⟨k, v⟩ := e
    have hrest := ih (List.pairwise_cons.1 h).2
    rw [find?_cons, List.filterMap_cons]
    by_cases hk : key = k
    · subst hk
      rw [if_pos rfl, Option.bind_some]
      cases hv : f v with
      | none =>
        -- the key does not come again
        rw [h.find?_tail] at hrest
        simpa [hv] using hrest
      | some w => simp [find?_cons]
    · rw [if_neg hk, ← hrest]
      cases f v with
      | none => simp
      | some w => simp [find?_cons, hk]

theorem mem_foldl_insert {pairs : List (String × α)} {es : Keyed α} {e : String × α}
    (h : e ∈ pairs.foldl (fun es p => insert p.1 p.2 es) es) : e ∈ pairs ∨ e ∈ es := by
  induction pairs generalizing es with
  | nil => exact .inr h
  | cons p rest ih =>
    rcases ih h with h | h
    · exact .inl (List.mem_cons_of_mem _ h)
    · rcases mem_insert h with rfl | h
      · exact .inl List.mem_cons_self
      · exact .inr h

theorem mem_ofList {pairs : List (String × α)} {e : String × α} (h : e ∈ ofList pairs) : e ∈ pairs :=
  (mem_foldl_insert h).resolve_right (by simp)

end Keyed

/-- A sorted `Keyed` list. -/
structure Dict (α : Type u) where
  entries : Keyed α
  sorted : Keyed.Sorted entries
deriving DecidableEq

namespace Dict

variable {α : Type u}

def empty : Dict α := ⟨[], List.Pairwise.nil⟩

instance : Inhabited (Dict α) := ⟨empty⟩

def find? (d : Dict α) (key : String) : Option α := Keyed.find? key d.entries

def insert (d : Dict α) (key : String) (value : α) : Dict α :=
  ⟨Keyed.insert key value d.entries, d.sorted.insert key value⟩

def erase (d : Dict α) (key : String) : Dict α :=
  ⟨Keyed.erase key d.entries, d.sorted.erase key⟩

def ofList (pairs : List (String × α)) : Dict α :=
  ⟨Keyed.ofList pairs, Keyed.sorted_ofList pairs⟩

def keys (d : Dict α) : List String := Keyed.keys d.entries

def size (d : Dict α) : Nat := d.entries.length

def isEmpty (d : Dict α) : Bool := d.entries.isEmpty

def contains (d : Dict α) (key : String) : Bool := (d.find? key).isSome

end Dict

end PromptTheme
