import Formulary.Table
import Mathlib.Data.Finset.Card
import Mathlib.Data.List.Sort
import Mathlib.Tactic.Common

/-!
# Entries of tables

What is found in a table are its entries (`Table.mem_entries`).  The table of a list of assignments
has one entry for each name, with the value that was assigned to it last
(`Table.get?_ofList_eq_some`).
-/

namespace Formulary

variable {α β : Type} {name : String} {value : α} {assignments : List (String × α)}

/-- The last of the assignments to `name` is that of `value`. -/
def LastAssigned (assignments : List (String × α)) (name : String) (value : α) : Prop :=
  ∃ before after,
    assignments = before ++ (name, value) :: after ∧ name ∉ after.map Prod.fst

theorem not_lastAssigned_nil :
  ¬LastAssigned [] name value
  := by
  rintro ⟨before, after, h, -⟩
  simp at h

/-- One more assignment is the last one to its name, and to no other. -/
theorem lastAssigned_concat {a : String × α} :
  LastAssigned (assignments ++ [a]) name value
    ↔ if name = a.1 then value = a.2 else LastAssigned assignments name value
  := by
  obtain ⟨key, v⟩ := a
  constructor
  · rintro ⟨before, after, h, hafter⟩
    rcases List.eq_nil_or_concat after with rfl | ⟨after, b, rfl⟩
    · obtain ⟨-, heq⟩ := List.append_inj' h rfl
      obtain ⟨rfl, rfl⟩ : key = name ∧ v = value := by simpa using heq
      rw [if_pos rfl]
    · rw [List.concat_eq_append] at h hafter
      rw [← List.cons_append, ← List.append_assoc] at h
      obtain ⟨rfl, heq⟩ := List.append_inj' h rfl
      obtain rfl : (key, v) = b := by simpa using heq
      simp only [List.map_append, List.mem_append, not_or] at hafter
      rw [if_neg (by simpa using hafter.2)]
      exact ⟨before, after, rfl, hafter.1⟩
  · intro h
    split_ifs at h with hname
    · obtain rfl : value = v := h
      obtain rfl : name = key := hname
      exact ⟨assignments, [], rfl, by simp⟩
    · obtain ⟨before, after, rfl, hafter⟩ := h
      refine ⟨before, after ++ [(key, v)], by simp, ?_⟩
      simpa [hafter] using hname

namespace Table

/-! ### What is found -/

/-- What is found are the entries. -/
theorem mem_entries {t : Table α} :
  (name, value) ∈ t.entries ↔ t.get? name = some value
  := by
  obtain ⟨entries, ordered⟩ := t
  simp only [get?]
  induction entries with
  | nil => simp
  | cons e es ih =>
      obtain ⟨hfirst, hordered⟩ := List.pairwise_cons.mp ordered
      rw [lookup_cons_eq_ite, List.mem_cons, ih hordered]
      split_ifs with hname
      · subst hname
        have hnot : es.lookup e.1 ≠ some value := by
          rw [Ne, ← ih hordered]
          intro hmem
          exact String.lt_irrefl e.1 (hfirst (e.1, value) hmem)
        simp [hnot, Prod.ext_iff, eq_comm]
      · simp [hname, Prod.ext_iff]

/-- A table has just the entries that stand in order and are what is found. -/
theorem entries_eq_iff {t : Table α} {entries : List (String × α)} :
  t.entries = entries ↔ entries.Pairwise (fun a b => a.1 < b.1)
    ∧ ∀ name value, (name, value) ∈ entries ↔ t.get? name = some value
  := by
  constructor
  · rintro rfl
    exact ⟨t.ordered, fun _ _ => mem_entries⟩
  · rintro ⟨hordered, hmem⟩
    have hasymm : Std.Asymm fun a b : String × α => a.1 < b.1 := ⟨fun _ _ => String.lt_asymm⟩
    apply t.ordered.eq_of_mem_iff hordered
    rintro ⟨name, value⟩
    rw [mem_entries, hmem]

theorem ofList_concat (assignments : List (String × α)) (a : String × α) :
  ofList (assignments ++ [a]) = (ofList assignments).insert a.1 a.2
  := by rw [ofList, List.foldl_concat, ofList]

/-- What is found in the table of a list was assigned last. -/
theorem get?_ofList_eq_some :
  (ofList assignments).get? name = some value ↔ LastAssigned assignments name value
  := by
  induction assignments using List.reverseRecOn with
  | nil =>
      constructor
      · intro h
        cases h
      · intro h
        exact absurd h not_lastAssigned_nil
  | append_singleton assignments a ih =>
      rw [ofList_concat, get?_insert, lastAssigned_concat, ← ih]
      split_ifs
      · rw [Option.some.injEq, eq_comm]
      · rfl

/-- Something is found for every name that has been assigned a value. -/
theorem exists_get?_ofList :
  (∃ value, (ofList assignments).get? name = some value) ↔ name ∈ assignments.map Prod.fst
  := by
  induction assignments using List.reverseRecOn with
  | nil => simp [ofList]
  | append_singleton assignments a ih =>
      simp only [ofList_concat, get?_insert, List.map_append, List.mem_append, ← ih]
      split_ifs with hname <;> simp [hname]

/-! ### Entries in order -/

theorem names_nodup (t : Table α) :
  (t.entries.map Prod.fst).Nodup
  := by
  rw [List.Nodup, List.pairwise_map]
  apply t.ordered.imp
  intro a b hlt heq
  exact String.lt_irrefl _ (heq ▸ hlt)

/-- There are as many entries as names. -/
theorem size_ofList (assignments : List (String × α)) :
  (ofList assignments).size = (assignments.map Prod.fst).toFinset.card
  := by
  have hnames : ((ofList assignments).entries.map Prod.fst).toFinset
      = (assignments.map Prod.fst).toFinset := by
    ext name
    have hfound : (∃ value, (ofList assignments).get? name = some value) ↔ _ := exists_get?_ofList
    rw [List.mem_toFinset, List.mem_toFinset, ← hfound]
    simp only [← mem_entries, List.mem_map, Prod.exists, exists_and_right, exists_eq_right]
  rw [← hnames, List.toFinset_card_of_nodup (names_nodup _), List.length_map, size]

/-- A name after all others has the last entry. -/
theorem entries_insert_of_lt {t : Table α} (h : ∀ e ∈ t.entries, e.1 < name) :
  (t.insert name value).entries = t.entries ++ [(name, value)]
  := by
  simp only [insert]
  generalize t.entries = entries at h ⊢
  induction entries with
  | nil => rfl
  | cons e es ih =>
      obtain ⟨he, hes⟩ := List.forall_mem_cons.mp h
      rw [insertEntry, if_neg (String.lt_asymm he), if_pos he, ih hes, List.cons_append]

/-! ### Other values -/

/-- The table of the values changed by `f`. -/
def map (f : α → β) (t : Table α) : Table β :=
  ⟨t.entries.map fun e => (e.1, f e.2), List.pairwise_map.mpr t.ordered⟩

theorem get?_map (f : α → β) (t : Table α) (name : String) :
  (t.map f).get? name = (t.get? name).map f
  := by
  obtain ⟨entries, ordered⟩ := t
  simp only [map, get?]
  clear ordered
  induction entries with
  | nil => rfl
  | cons e es ih =>
      rw [List.map_cons, lookup_cons_eq_ite, lookup_cons_eq_ite, ih]
      split_ifs <;> rfl

end Table

/-! ### The last assignment -/

theorem LastAssigned.unique {value' : α} (h : LastAssigned assignments name value)
    (h' : LastAssigned assignments name value') :
  value = value'
  := by
  apply Option.some.inj
  rw [← Table.get?_ofList_eq_some.mpr h, Table.get?_ofList_eq_some.mpr h']

/-- Every name that has been assigned a value has a last one. -/
theorem exists_lastAssigned :
  (∃ value, LastAssigned assignments name value) ↔ name ∈ assignments.map Prod.fst
  := by simp only [← Table.exists_get?_ofList, Table.get?_ofList_eq_some]

end Formulary
