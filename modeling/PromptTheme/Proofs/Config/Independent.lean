/-
Overlays that may be laid in either order. Two values agree when they are the same, or are tables whose
values agree under every key that both may write. Overlays whose values agree leave the same
configuration in either order (`Config.merge_comm`); when their values are the same in content only, so
is what they leave (`Config.sameAs_merge_comm`).

Under a key that one overlay alone writes, the order makes no difference. Under a key that both write,
either the same value is laid twice or two tables are laid over the same entries.
-/
import PromptTheme.Proofs.Config.Content

namespace PromptTheme

namespace Value

/-! ## Agreement -/

/-- Under each key that two overlays may both write, their values are related. -/
def Shared (related : Value → Value → Prop) (es fs : Keyed Value) : Prop :=
  ∀ key v w, isReserved key = false → Keyed.find? key es = some v → Keyed.find? key fs = some w →
    related v w

/-- The values are the same, or tables with values that agree wherever both may write. -/
inductive Agree (same : Value → Value → Prop) : Value → Value → Prop where
  | same {v w : Value} : same v w → Agree same v w
  | tables {es fs : Keyed Value} : Shared (Agree same) es fs → Agree same (.table es) (.table fs)

theorem Shared.content {related : Value → Value → Prop} {es fs : Keyed Value}
    (h : Shared (fun v w => related v.content w.content) es fs) :
    Shared related (contentEntries es) (contentEntries fs) := by
  intro key v w hk hv hw
  rw [find?_contentEntries] at hv hw
  obtain ⟨v', hv', rfl⟩ := Option.map_eq_some_iff.1 hv
  obtain ⟨w', hw', rfl⟩ := Option.map_eq_some_iff.1 hw
  exact h key v' w' hk hv' hw'

/-- Values that agree up to content have contents that agree. -/
theorem Agree.content {v w : Value} (h : Agree (fun v w => v.sameAs w = true) v w) :
    Agree (· = ·) v.content w.content := by
  induction h with
  | same h => exact .same (sameAs_iff.1 h)
  | tables _ ih => exact .tables (Shared.content ih)

/-! ## Laying values that agree -/

theorem laidOver_comm {v w : Value} (h : Agree (· = ·) v w) (hv : v.Ordered) (hw : w.Ordered)
    {old : Option Value} (ho : OrderedIf old) :
    w.laidOver (some (v.laidOver old)) = v.laidOver (some (w.laidOver old)) := by
  induction h generalizing old with
  | same h => rw [h]
  | @tables es fs _ ih =>
    have hold := ordered_entriesOf ho
    have hes := ordered_mergeEntries hold hv.2
    have hfs := ordered_mergeEntries hold hw.2
    rw [laidOver_table_eq hv old, laidOver_table_eq hw old, laidOver_table_eq hw, laidOver_table_eq hv,
      entriesOf_table, entriesOf_table]
    congr 1
    apply (ordered_mergeEntries hes hw.2).1.ext (ordered_mergeEntries hfs hv.2).1
    intro key
    rw [find?_mergeEntries _ _ hw.1, find?_mergeEntries _ _ hv.1, find?_mergeEntries _ _ hv.1,
      find?_mergeEntries _ _ hw.1]
    by_cases hk : isReserved key = true
    · simp only [if_pos hk]
    simp only [if_neg hk]
    cases hfv : Keyed.find? key es with
    | none => rfl
    | some v =>
      cases hfw : Keyed.find? key fs with
      | none => rfl
      | some w =>
        simp only
        congr 1
        exact ih key v w (Bool.eq_false_iff.2 hk) hfv hfw (ordered_of_find? hv.2 hfv)
          (ordered_of_find? hw.2 hfw) fun o hf => ordered_of_find? hold.2 hf

/-! ## Checking agreement -/

section Checking

variable (same : Value → Value → Prop) [DecidableRel same]

mutual

/-- Whether two values agree. -/
def agrees : Value → Value → Bool
  | .table es, w => decide (same (.table es) w) || (w.asTable?.any fun fs => entriesAgree es fs)
  | v, w => decide (same v w)

def entriesAgree : List (String × Value) → Keyed Value → Bool
  | [], _ => true
  | (k, v) :: es, fs =>
    (isReserved k || (Keyed.find? k fs).all fun w => agrees v w) && entriesAgree es fs

end

variable {same}

theorem entriesAgree_iff {es fs : Keyed Value} (hes : Keyed.Sorted es) :
    entriesAgree same es fs = true ↔ Shared (fun v w => agrees same v w = true) es fs := by
  have hmem : entriesAgree same es fs = true ↔ ∀ k v, (k, v) ∈ es → isReserved k = false →
      ∀ w, Keyed.find? k fs = some w → agrees same v w = true := by
    clear hes
    induction es with
    | nil => simp [entriesAgree]
    | cons e rest ih =>
      obtain ⟨k, v⟩ := e
      have hhead : (isReserved k || (Keyed.find? k fs).all fun w => agrees same v w) = true ↔
          (isReserved k = false → ∀ w, Keyed.find? k fs = some w → agrees same v w = true) := by
        cases isReserved k <;> cases Keyed.find? k fs <;> simp
      rw [entriesAgree, Bool.and_eq_true, hhead, ih]
      simp only [List.mem_cons, Prod.mk.injEq, or_imp, forall_and, and_imp, forall_eq,
        forall_eq_apply_imp_iff]
  rw [hmem]
  constructor
  · intro h key v w hk hv hw
    exact h key v (Keyed.mem_of_find? hv) hk w hw
  · intro h key v hm hk w hw
    exact h key v w hk (hes.find?_of_mem hm) hw

theorem shared_congr {related related' : Value → Value → Prop} {es : Keyed Value}
    (h : ∀ key v, Keyed.find? key es = some v → ∀ w, related v w ↔ related' v w) (fs : Keyed Value) :
    Shared related es fs ↔ Shared related' es fs := by
  constructor
  · intro hs key v w hk hv hw
    exact (h key v hv w).1 (hs key v w hk hv hw)
  · intro hs key v w hk hv hw
    exact (h key v hv w).2 (hs key v w hk hv hw)

theorem agrees_of_not_table {v : Value} (h : v.asTable? = none) (w : Value) :
    agrees same v w = decide (same v w) := by
  cases v with
  | table es => cases h
  | _ => rfl

theorem agrees_iff {v w : Value} (hv : v.Ordered) : agrees same v w = true ↔ Agree same v w := by
  induction v using table_induction generalizing w with
  | leaf v hl =>
    rw [agrees_of_not_table hl, decide_eq_true_iff]
    constructor
    · exact .same
    · rintro (h | h)
      · exact h
      · cases hl
  | table es ih =>
    have hentries : ∀ fs, entriesAgree same es fs = true ↔ Shared (Agree same) es fs := by
      intro fs
      rw [entriesAgree_iff hv.1]
      apply shared_congr
      intro key v hf w
      exact ih key v (Keyed.mem_of_find? hf) (ordered_of_find? hv.2 hf)
    rw [agrees, Bool.or_eq_true, decide_eq_true_iff, Option.any_eq_true]
    constructor
    · rintro (h | ⟨fs, ht, h⟩)
      · exact .same h
      · obtain rfl := asTable?_eq_some_iff.1 ht
        exact .tables ((hentries fs).1 h)
    · rintro (h | h)
      · exact .inl h
      · exact .inr ⟨_, rfl, (hentries _).2 h⟩

end Checking

end Value

namespace Config

/-! ## Compatible overlays -/

/-- Under each key that both overlays may write, they have the same value or two tables which are
compatible themselves. -/
def Compatible (same : Value → Value → Prop) (a b : Config) : Prop :=
  Value.Shared (Value.Agree same) a.entries b.entries

instance (same : Value → Value → Prop) [DecidableRel same] (a b : Config) :
    Decidable (Compatible same a b) :=
  decidable_of_iff (Value.entriesAgree same a.entries b.entries = true) <|
    (Value.entriesAgree_iff a.ordered.1).trans <|
      Value.shared_congr (fun _ _ hf _ => Value.agrees_iff (Value.ordered_of_find? a.ordered.2 hf)) _

/-- Compatible overlays may be laid in either order. -/
theorem merge_comm {a b : Config} (h : Compatible (· = ·) a b) (base : Config) :
    (base.merge a).merge b = (base.merge b).merge a := by
  apply eq_of_toValue
  rw [toValue_merge, toValue_merge, toValue_merge, toValue_merge]
  exact Value.laidOver_comm (.tables h) a.ordered b.ordered base.orderedIf_toValue

/-- No leaf gets another content from one overlay than from the other. -/
abbrev SetAlike (a b : Config) : Prop := Compatible (fun v w => v.sameAs w = true) a b

theorem SetAlike.content {a b : Config} (h : SetAlike a b) : Compatible (· = ·) a.content b.content := by
  apply Value.Shared.content
  intro key v w hk hv hw
  exact (h key v w hk hv hw).content

theorem sameAs_merge_comm {a b : Config} (h : SetAlike a b) (base : Config) :
    ((base.merge a).merge b).sameAs ((base.merge b).merge a) = true := by
  rw [sameAs_iff, content_merge, content_merge, content_merge, content_merge]
  exact merge_comm h.content base.content

/-- Tables that overlap, and a reserved key that both have. -/
example :
    let a : Config := .ofEntries [("m", .table [("x", .count 1), ("y", .null)]), ("prototype", .null)]
    let b : Config := .ofEntries [("m", .table [("x", .count 1), ("z", .null)]), ("prototype", .bool true)]
    a.SetAlike b := by
  decide

end Config

end PromptTheme
