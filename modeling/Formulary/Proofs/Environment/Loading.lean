import Formulary.Environment.Load
import Formulary.Proofs.Table
import Formulary.Proofs.Text.Order

/-!
# The loading of environments

The entries of an object are taken one after the other.  Each of them is either bound or skipped
with a warning (`Loaded.Sorts`).  A reader of JSON *keeps* of the members of an object the last one
of each name, and visits them in the order of their names (`Json.Keeps`), so that the names of an
object are divided between its environment and the warnings (`load_partitions`).  Nothing else is
supposed of the reader.
-/

namespace Formulary

/-- The value in JSON. -/
def Value.json : Value → Json
  | .bool b => .boolean b
  | .str s => .string s

namespace Json

/-- The kinds of JSON that are no values. -/
def unsupported : List Kind := [.null, .number, .array, .object]

/-- A reader keeps of the members of an object the last one of each name, in the order of the bytes
of the names. -/
structure Keeps (members entries : List (String × Json)) : Prop where
  ascending : entries.Pairwise fun e e' => Utf8.encode e.1 < Utf8.encode e'.1
  last : ∀ name json, (name, json) ∈ entries ↔ LastAssigned members name json

variable {json : Json} {v : Value} {members entries : List (String × Json)}

theorem value?_eq_some :
  json.value? = some v ↔ json = v.json
  := by cases json <;> cases v <;> simp [value?, Value.json]

theorem value?_eq_none :
  json.value? = none ↔ json.kind ∈ unsupported
  := by cases json <;> simp [value?, kind, unsupported]

/-- What is kept are the entries of the table of the members. -/
theorem keeps_iff :
  Keeps members entries ↔ (Table.ofList members).entries = entries
  := by
  simp only [Table.entries_eq_iff, Table.get?_ofList_eq_some, Utf8.lt_iff_encode_lt]
  constructor
  · rintro ⟨hascending, hlast⟩
    exact ⟨hascending, hlast⟩
  · rintro ⟨hascending, hlast⟩
    exact ⟨hascending, hlast⟩

/-- There are as many entries as names. -/
theorem Keeps.length_eq (h : Keeps members entries) :
  entries.length = (members.map Prod.fst).toFinset.card
  := by
  obtain rfl := keeps_iff.mp h
  apply Table.size_ofList

end Json

namespace Environment

variable {name : String} {kind : Json.Kind} {members entries : List (String × Json)} {l : Loaded}

/-! ### Entries in order -/

/-- What an entry is bound to. -/
def binding? (e : String × Json) : Option (String × Value) := e.2.value?.map fun v => (e.1, v)

/-- What is skipped of an entry without a value. -/
def skipped? (e : String × Json) : Option (String × Json.Kind) :=
  match e.2.value? with
  | some _ => none
  | none => some (e.1, e.2.kind)

theorem skipped?_eq_some {e : String × Json} :
  skipped? e = some (name, kind) ↔ e.2.kind ∈ Json.unsupported ∧ e.1 = name ∧ e.2.kind = kind
  := by
  rw [← Json.value?_eq_none, skipped?]
  cases e.2.value? <;> simp

/-- Every entry is either bound or skipped. -/
theorem length_binding?_add_skipped? (entries : List (String × Json)) :
  (entries.filterMap binding?).length + (entries.filterMap skipped?).length = entries.length
  := by
  induction entries with
  | nil => rfl
  | cons e es ih =>
      cases hvalue : e.2.value? <;>
        simp only [List.filterMap_cons, binding?, skipped?, hvalue, Option.map, List.length_cons]
          at ih ⊢ <;>
        omega

namespace Loaded

/-- Of the entries, those with a value are bound and the others are warned about, in order. -/
structure Sorts (l : Loaded) (entries : List (String × Json)) : Prop where
  bindings : l.environment.entries = entries.filterMap binding?
  warnings : l.warnings.toList
    = (entries.filterMap skipped?).map fun (name, kind) => .unsupportedValue name kind

theorem sorts_nothing :
  nothing.Sorts []
  := ⟨rfl, rfl⟩

/-- One more entry, with a name after all others, is sorted in. -/
theorem Sorts.entry (h : l.Sorts entries) (hlt : ∀ e ∈ entries, e.1 < name) (json : Json) :
  (l.entry name json).Sorts (entries ++ [(name, json)])
  := by
  obtain ⟨hbindings, hwarnings⟩ := h
  rw [Loaded.entry]
  cases hvalue : json.value? with
  | some v =>
      have hfirst : ∀ e ∈ l.environment.entries, e.1 < name := by
        intro e he
        rw [hbindings] at he
        obtain ⟨e', he', hbinding⟩ := List.mem_filterMap.mp he
        obtain ⟨_, -, rfl⟩ := Option.map_eq_some_iff.mp hbinding
        apply hlt e' he'
      constructor
      · simp [bind, Table.entries_insert_of_lt hfirst, hbindings, binding?, hvalue]
      · simp [bind, hwarnings, skipped?, hvalue]
  | none =>
      constructor
      · simp [warn, hbindings, binding?, hvalue]
      · simp [warn, hwarnings, skipped?, hvalue]

theorem sorts_foldl (h : entries.Pairwise fun e e' => e.1 < e'.1) :
  (entries.foldl (fun l (name, json) => l.entry name json) nothing).Sorts entries
  := by
  induction entries using List.reverseRecOn with
  | nil => apply sorts_nothing
  | append_singleton entries e ih =>
      obtain ⟨hentries, -, hlast⟩ := List.pairwise_append.mp h
      rw [List.foldl_concat]
      apply (ih hentries).entry
      intro e' he'
      apply hlast e' he' e (List.mem_singleton_self e)

/-! ### What is reported -/

/-- The warnings are what has been reported. -/
def Reported (l : Loaded) : Prop := l.log.toList = l.warnings.toList.map .environmentProblem

theorem Reported.entry (h : l.Reported) (name : String) (json : Json) :
  (l.entry name json).Reported
  := by
  rw [Loaded.entry]
  cases json.value? with
  | some v => apply h
  | none =>
      rw [Reported] at h
      simp [Reported, warn, h]

theorem Reported.foldl (h : l.Reported) (entries : List (String × Json)) :
  (entries.foldl (fun l (name, json) => l.entry name json) l).Reported
  := by
  induction entries generalizing l with
  | nil => apply h
  | cons e es ih => apply ih (h.entry e.1 e.2)

/-! ### Members as they are written -/

/-- A name is bound to the value of its last member, if this has one, and otherwise it is warned
about once, with the kind of that member and in the order of the bytes of the names. -/
structure Partitions (l : Loaded) (members : List (String × Json)) : Prop where
  bound : ∀ name v, l.environment.get? name = some v ↔ LastAssigned members name v.json
  warned : ∃ skipped : List (String × Json.Kind),
    l.warnings.toList = (skipped.map fun (name, kind) => .unsupportedValue name kind)
      ∧ (skipped.Pairwise fun s s' => Utf8.encode s.1 < Utf8.encode s'.1)
      ∧ ∀ name kind, (name, kind) ∈ skipped
          ↔ kind ∈ Json.unsupported ∧ ∃ json, json.HasForm kind ∧ LastAssigned members name json
  divided : ∀ name, (∃ v, l.environment.get? name = some v)
    ↔ name ∈ members.map Prod.fst ∧ ∀ kind, .unsupportedValue name kind ∉ l.warnings
  count : l.environment.size + l.warnings.size = (members.map Prod.fst).toFinset.card

variable (hkeeps : Json.Keeps members entries)

include hkeeps

theorem mem_skipped :
  (name, kind) ∈ entries.filterMap skipped?
    ↔ kind ∈ Json.unsupported ∧ ∃ json, json.HasForm kind ∧ LastAssigned members name json
  := by
  simp only [List.mem_filterMap, Prod.exists, skipped?_eq_some, hkeeps.last, ← Json.kind_eq_iff]
  constructor
  · rintro ⟨_, json, hlast, hunsupported, rfl, rfl⟩
    exact ⟨hunsupported, json, rfl, hlast⟩
  · rintro ⟨hunsupported, json, rfl, hlast⟩
    exact ⟨name, json, hlast, hunsupported, rfl, rfl⟩

variable (h : l.Sorts entries)

include h

theorem Sorts.get?_eq_some {v : Value} :
  l.environment.get? name = some v ↔ LastAssigned members name v.json
  := by
  rw [← Table.mem_entries, h.bindings, ← hkeeps.last, List.mem_filterMap]
  constructor
  · rintro ⟨⟨_, json⟩, hm, hbinding⟩
    obtain ⟨_, hvalue, heq⟩ := Option.map_eq_some_iff.mp hbinding
    obtain ⟨rfl, rfl⟩ := Prod.mk.inj heq
    rwa [← Json.value?_eq_some.mp hvalue]
  · intro hm
    use (name, v.json), hm
    rw [binding?, Json.value?_eq_some.mpr rfl]
    rfl

theorem Sorts.mem_warnings :
  .unsupportedValue name kind ∈ l.warnings
    ↔ kind ∈ Json.unsupported ∧ ∃ json, json.HasForm kind ∧ LastAssigned members name json
  := by
  rw [← mem_skipped hkeeps, ← Array.mem_toList_iff, h.warnings]
  simp

/-- The last member of a name has a value or has none. -/
theorem Sorts.divided :
  (∃ v, l.environment.get? name = some v)
    ↔ name ∈ members.map Prod.fst ∧ ∀ kind, .unsupportedValue name kind ∉ l.warnings
  := by
  simp only [h.get?_eq_some hkeeps, h.mem_warnings hkeeps, ← exists_lastAssigned]
  constructor
  · rintro ⟨v, hv⟩
    use ⟨v.json, hv⟩
    rintro kind ⟨hkind, json, hform, hjson⟩
    obtain rfl := hv.unique hjson
    rw [← Json.kind_eq_iff.mpr hform, ← Json.value?_eq_none, Json.value?_eq_some.mpr rfl] at hkind
    cases hkind
  · rintro ⟨⟨json, hjson⟩, hnone⟩
    cases hvalue : json.value? with
    | none =>
        refine absurd ?_ (hnone json.kind)
        exact ⟨Json.value?_eq_none.mp hvalue, json, Json.kind_eq_iff.mp rfl, hjson⟩
    | some v =>
        use v
        rwa [← Json.value?_eq_some.mp hvalue]

theorem Sorts.count :
  l.environment.size + l.warnings.size = (members.map Prod.fst).toFinset.card
  := by
  rw [Table.size, h.bindings, ← Array.length_toList, h.warnings, List.length_map,
    length_binding?_add_skipped?, hkeeps.length_eq]

theorem Sorts.partitions :
  l.Partitions members
  where
  bound _ _ := h.get?_eq_some hkeeps
  warned := by
    use entries.filterMap skipped?, h.warnings
    constructor
    · rw [List.pairwise_filterMap]
      apply hkeeps.ascending.imp
      intro e e' hlt s hs s' hs'
      obtain ⟨-, hname, -⟩ := skipped?_eq_some.mp hs
      obtain ⟨-, hname', -⟩ := skipped?_eq_some.mp hs'
      rwa [← hname, ← hname']
    · intro name kind
      apply mem_skipped hkeeps
  divided _ := h.divided hkeeps
  count := h.count hkeeps

end Loaded

/-! ### Documents -/

theorem partitions_ofEntries (h : Json.Keeps members entries) :
  (Loaded.ofEntries entries).Partitions members
  := by
  have hsorts := Loaded.sorts_foldl (h.ascending.imp Utf8.lt_iff_encode_lt.mpr)
  obtain ⟨bound, warned, divided, count⟩ := hsorts.partitions h
  exact ⟨bound, warned, divided, count⟩

/-- Of whatever a document was read as, the warnings of the log are the warnings about it. -/
theorem filter_log_ofParsed (parsed : Except String Json) :
  (Loaded.ofParsed parsed).log.toList.filter (fun e => e.level = .warn)
    = (Loaded.ofParsed parsed).warnings.toList.map .environmentProblem
  := by
  unfold Loaded.ofParsed
  split
  · rfl
  · rename_i entries
    have hnothing : Loaded.nothing.Reported := rfl
    have hlog := hnothing.foldl entries
    rw [Loaded.Reported] at hlog
    simp [Loaded.ofEntries, Loaded.report, hlog, Event.level_eq_warn_iff]
  · rfl

/-- The names of an object are divided between the environment and the warnings, by the last member
of each name.  A document that is no JSON, or no object, leaves the environment empty and has one
warning, with the reason of the reader or the kind of what was read.  In any case the warnings are
reported in their order. -/
theorem load_partitions (parse : String → Except String Json) (document : String) :
  (∀ members entries, parse document = .ok (.object entries) → Json.Keeps members entries →
      (load parse document).Partitions members)
    ∧ (∀ reason, parse document = .error reason →
        (load parse document).environment = ∅
          ∧ (load parse document).warnings = #[.malformed reason])
    ∧ (∀ json kind, parse document = .ok json → json.HasForm kind → kind ≠ .object →
        (load parse document).environment = ∅
          ∧ (load parse document).warnings = #[.notAnObject kind])
    ∧ (load parse document).log.toList.filter (fun e => e.level = .warn)
        = (load parse document).warnings.toList.map .environmentProblem
  := by
  refine ⟨?_, ?_, ?_, ?_⟩
  · intro members entries hparse hkeeps
    rw [load, hparse]
    apply partitions_ofEntries hkeeps
  · intro reason hparse
    rw [load, hparse]
    exact ⟨rfl, rfl⟩
  · intro json kind hparse hform hobject
    obtain rfl := Json.kind_eq_iff.mpr hform
    rw [load, hparse]
    cases json with
    | object entries => exact absurd rfl hobject
    | _ => exact ⟨rfl, rfl⟩
  · apply filter_log_ofParsed

/-- A truth value that is overridden by an array is warned about, a null that is overridden by a
text is not.  An array is no object, and an empty document is no JSON. -/
theorem load_partitions_repeated :
  let document := "\x7b\"b\": null, \"a\": true, \"é\": \x7b\x7d, \"n1\": 0, \"b\": \"x\", "
    ++ "\"z\": null, \"a\": []\x7d"
  let entries : List (String × Json) := [("a", .array []), ("b", .string "x"), ("n1", .number),
    ("z", .null), ("é", .object [])]
  let reason := "EOF while parsing a value at line 1 column 0"
  let parse (text : String) : Except String Json :=
    if text = document then .ok (.object entries)
    else if text = "[true]" then .ok (.array [.boolean true])
    else .error reason
  let l := load parse document
  l.environment.get? "b" = some (.str "x")
    ∧ .unsupportedValue "a" .array ∈ l.warnings ∧ .unsupportedValue "n1" .number ∈ l.warnings
    ∧ .unsupportedValue "z" .null ∈ l.warnings ∧ .unsupportedValue "é" .object ∈ l.warnings
    ∧ (¬∃ v, l.environment.get? "a" = some v)
    ∧ l.environment.size + l.warnings.size = 5
    ∧ (load parse "[true]").environment = ∅
    ∧ (load parse "[true]").warnings = #[.notAnObject .array]
    ∧ (load parse "").environment = ∅ ∧ (load parse "").warnings = #[.malformed reason]
  := by
  intro document entries reason parse l
  let members : List (String × Json) := [("b", .null), ("a", .boolean true), ("é", .object []),
    ("n1", .number), ("b", .string "x"), ("z", .null), ("a", .array [])]
  have hparse : parse document = .ok (.object entries) := if_pos rfl
  have hkeeps : Json.Keeps members entries := Json.keeps_iff.mpr rfl
  obtain ⟨bound, ⟨skipped, hwarnings, -, hskipped⟩, divided, count⟩ :=
    (load_partitions parse document).1 members entries hparse hkeeps
  have hb : l.environment.get? "b" = some (.str "x") :=
    (bound "b" (.str "x")).mpr ⟨[_, _, _, _], [_, _], rfl, by decide⟩
  have hwarned (name : String) (json : Json) (hkind : json.kind ∈ Json.unsupported)
      (hlast : LastAssigned members name json) : .unsupportedValue name json.kind ∈ l.warnings := by
    rw [← Array.mem_toList_iff, hwarnings, List.mem_map]
    refine ⟨(name, json.kind), (hskipped name json.kind).mpr ⟨hkind, json, ?_, hlast⟩, rfl⟩
    apply Json.kind_eq_iff.mp rfl
  have ha : .unsupportedValue "a" .array ∈ l.warnings :=
    hwarned "a" (.array []) (by decide) ⟨[_, _, _, _, _, _], [], rfl, by decide⟩
  have hunbound : ¬∃ v, l.environment.get? "a" = some v := by
    rw [divided]
    rintro ⟨-, hnone⟩
    apply hnone _ ha
  refine ⟨hb, ha, ?_, ?_, ?_, hunbound, count, ?_⟩
  · apply hwarned "n1" .number (by decide) ⟨[_, _, _], [_, _, _], rfl, by decide⟩
  · apply hwarned "z" .null (by decide) ⟨[_, _, _, _, _], [_], rfl, by decide⟩
  · apply hwarned "é" (.object []) (by decide) ⟨[_, _], [_, _, _, _], rfl, by decide⟩
  · have harray : parse "[true]" = .ok (.array [.boolean true]) := rfl
    have hempty : parse "" = .error reason := rfl
    obtain ⟨hbindings, hwarning⟩ :=
      (load_partitions parse "[true]").2.2.1 _ .array harray ⟨_, rfl⟩ (by decide)
    obtain ⟨hbindings', hwarning'⟩ := (load_partitions parse "").2.1 reason hempty
    exact ⟨hbindings, hwarning, hbindings', hwarning'⟩

end Environment

end Formulary
