/-!
# Tables

A table assigns values to names.  Its entries are kept in the order of their names, by code points,
which is also the order of the names' UTF-8 bytes.  Each name has at most one entry: `insert`
replaces the value of a name that is present.  A table is determined by what `get?` finds in it.
-/

namespace Formulary

/-- A finite assignment of values to names. -/
structure Table (α : Type) where
  entries : List (String × α)
  ordered : entries.Pairwise fun a b => a.1 < b.1

namespace Table

variable {α : Type}

instance : EmptyCollection (Table α) := ⟨⟨[], .nil⟩⟩

instance : Inhabited (Table α) := ⟨∅⟩

/-- The value assigned to `name`. -/
def get? (t : Table α) (name : String) : Option α := t.entries.lookup name

/-- The number of names. -/
def size (t : Table α) : Nat := t.entries.length

/-- Puts an entry in its place in an ordered list, over any entry of the same name. -/
def insertEntry (name : String) (value : α) : List (String × α) → List (String × α)
  | [] => [(name, value)]
  | e :: es =>
    if name < e.1 then (name, value) :: e :: es
    else if e.1 < name then e :: insertEntry name value es
    else (name, value) :: es

theorem mem_insertEntry {name : String} {value : α} {es : List (String × α)} {e : String × α}
    (h : e ∈ insertEntry name value es) :
  e = (name, value) ∨ e ∈ es
  := by
  fun_induction insertEntry name value es with
  | case1 => simpa using h
  | case2 => simpa using h
  | case3 d es _ _ ih =>
    simp only [List.mem_cons] at h
    rcases h with h | h
    · simp [h]
    · rcases ih h with h | h <;> simp [h]
  | case4 =>
    simp only [List.mem_cons] at h
    rcases h with h | h <;> simp [h]

theorem pairwise_insertEntry {name : String} {value : α} {es : List (String × α)}
    (h : es.Pairwise fun a b => a.1 < b.1) :
  (insertEntry name value es).Pairwise fun a b => a.1 < b.1
  := by
  fun_induction insertEntry name value es with
  | case1 => simp
  | case2 d es hd =>
    rw [List.pairwise_cons] at h
    refine List.pairwise_cons.2 ⟨fun e he => ?_, List.pairwise_cons.2 h⟩
    rcases List.mem_cons.1 he with rfl | he
    · exact hd
    · exact String.lt_trans hd (h.1 e he)
  | case3 d es _ hd ih =>
    rw [List.pairwise_cons] at h
    refine List.pairwise_cons.2 ⟨fun e he => ?_, ih h.2⟩
    rcases mem_insertEntry he with rfl | he
    · exact hd
    · exact h.1 e he
  | case4 d es hnd hdn =>
    rw [List.pairwise_cons] at h
    refine List.pairwise_cons.2 ⟨fun e he => ?_, h.2⟩
    simpa [String.le_antisymm hdn hnd] using h.1 e he

/-- The table with `value` assigned to `name`, whatever was assigned before. -/
def insert (t : Table α) (name : String) (value : α) : Table α :=
  ⟨insertEntry name value t.entries, pairwise_insertEntry t.ordered⟩

/-- The table of a list of assignments; of two for one name the later holds. -/
def ofList (assignments : List (String × α)) : Table α :=
  assignments.foldl (fun t a => t.insert a.1 a.2) ∅

@[simp]
theorem get?_empty (name : String) :
  (∅ : Table α).get? name = none
  := rfl

theorem lookup_cons_eq_ite (name : String) (e : String × α) (es : List (String × α)) :
  (e :: es).lookup name = if name = e.1 then some e.2 else es.lookup name
  := by
  obtain ⟨key, value⟩ := e
  by_cases h : name = key
  · simp [h]
  · simp [List.lookup_cons, h, beq_eq_false_iff_ne.2 h]

theorem lookup_insertEntry {name other : String} {value : α} {es : List (String × α)} :
  (insertEntry name value es).lookup other = if other = name then some value else es.lookup other
  := by
  fun_induction insertEntry name value es with
  | case1 => simp [lookup_cons_eq_ite]
  | case2 => simp [lookup_cons_eq_ite]
  | case3 d es _ hd ih =>
    have : d.1 ≠ name := fun hn => String.lt_irrefl _ (hn ▸ hd)
    by_cases hod : other = d.1
    · simp [lookup_cons_eq_ite, hod, this]
    · simp [lookup_cons_eq_ite, hod, ih]
  | case4 d es hnd hdn =>
    by_cases hon : other = name
    · simp [hon]
    · simp [lookup_cons_eq_ite, hon, ← String.le_antisymm hdn hnd]

theorem get?_insert (t : Table α) (name other : String) (value : α) :
  (t.insert name value).get? other = if other = name then some value else t.get? other
  := lookup_insertEntry

/-- Tables are equal when their entries are. -/
theorem ext_entries {s t : Table α} (h : s.entries = t.entries) :
  s = t
  := by
  cases s
  cases t
  simp_all

instance [DecidableEq α] : DecidableEq (Table α) := fun s t =>
  if h : s.entries = t.entries then .isTrue (ext_entries h)
  else .isFalse fun hst => h (hst ▸ rfl)

end Table

end Formulary
