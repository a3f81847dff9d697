import Mathlib.Data.List.TakeWhile
import Mathlib.Tactic.Common

/-!
# Scans

A scan reads a value from the beginning of a list of code points, or fails.  Scans are what parsers
come to when tapes and cursors are left aside: for each way to compose parsers there is the same way
to compose scans, and for each a lemma that says when the composed scan reads a given value.

`Scan.fix F` is the scan that `F` makes of it.  It exists where `F` is *guarded*, which is to say
that `F f` passes a code point before it reads with `f` (`Scan.fix_eq`).
-/

namespace Formulary

/-- A reader of values of type `α` from the beginning of a list of code points. -/
structure Scan (α : Type) where
  read : List Char → Option (α × List Char)
  suffix : ∀ {xs a rest}, read xs = some (a, rest) → rest <:+ xs

namespace Scan

variable {α β : Type} {xs ys rest : List Char}

@[ext]
theorem ext {f g : Scan α} (h : ∀ xs, f.read xs = g.read xs) :
  f = g
  := by
  obtain ⟨read, suffix⟩ := f
  obtain ⟨read', suffix'⟩ := g
  obtain rfl : read = read' := funext h
  rfl

theorem length_le (f : Scan α) {a : α} (h : f.read xs = some (a, rest)) :
  rest.length ≤ xs.length
  := (f.suffix h).length_le

/-! ### Composition -/

/-- Reads nothing and gives `a`. -/
def succeed (a : α) : Scan α where
  read xs := some (a, xs)
  suffix h := by
    obtain ⟨-, rfl⟩ := Prod.mk.inj (Option.some.inj h)
    apply List.suffix_refl

/-- Fails. -/
def fail : Scan α where
  read _ := none
  suffix h := by cases h

/-- Reads with `f`, then with the scan that `g` makes of the value. -/
def bind (f : Scan α) (g : α → Scan β) : Scan β where
  read xs :=
    match f.read xs with
    | none => none
    | some (a, ys) => (g a).read ys
  suffix {xs _ _} h := by
    cases hf : f.read xs with
    | none =>
        rw [hf] at h
        cases h
    | some r =>
        rw [hf] at h
        apply List.IsSuffix.trans ((g r.1).suffix h) (f.suffix hf)

/-- Changes the value. -/
def map (φ : α → β) (f : Scan α) : Scan β := f.bind fun a => succeed (φ a)

/-- Changes the value, and fails where `φ` rejects it. -/
def filterMap (φ : α → Option β) (f : Scan α) : Scan β := f.bind fun a => (φ a).elim fail succeed

/-- Reads with `f`, then with `g`. -/
def both (f : Scan α) (g : Scan β) : Scan (α × β) := f.bind fun a => g.map fun b => (a, b)

/-- Reads with `f`, and where `f` fails with `g`. -/
def orElse (f g : Scan α) : Scan α where
  read xs := (f.read xs).or (g.read xs)
  suffix {xs _ _} h := by
    rcases Option.or_eq_some_iff.mp h with h | ⟨-, h⟩
    · apply f.suffix h
    · apply g.suffix h

/-- Reads with `f`, and where `f` fails reads nothing. -/
def optional (f : Scan α) : Scan (Option α) := (f.map some).orElse (succeed none)

theorem succeed_eq_some {a b : α} :
  (succeed a).read xs = some (b, rest) ↔ a = b ∧ xs = rest
  := by simp [succeed]

theorem bind_eq_some {f : Scan α} {g : α → Scan β} {b : β} :
  (f.bind g).read xs = some (b, rest)
    ↔ ∃ a ys, f.read xs = some (a, ys) ∧ (g a).read ys = some (b, rest)
  := by
  cases h : f.read xs with
  | none => simp [bind, h]
  | some r =>
      simp only [bind, h, Option.some.injEq]
      constructor
      · intro hg
        use r.1, r.2
      · rintro ⟨a, ys, rfl, hg⟩
        apply hg

theorem map_eq_some {f : Scan α} {φ : α → β} {b : β} :
  (f.map φ).read xs = some (b, rest) ↔ ∃ a, f.read xs = some (a, rest) ∧ φ a = b
  := by
  rw [map, bind_eq_some]
  constructor
  · rintro ⟨a, ys, hf, h⟩
    obtain ⟨rfl, rfl⟩ := succeed_eq_some.mp h
    use a
  · rintro ⟨a, hf, rfl⟩
    use a, rest, hf
    rfl

theorem map_read (φ : α → β) (f : Scan α) (xs : List Char) :
  (f.map φ).read xs = (f.read xs).map fun (a, rest) => (φ a, rest)
  := by
  simp only [map, bind, succeed]
  cases f.read xs <;> rfl

theorem filterMap_eq_some {f : Scan α} {φ : α → Option β} {b : β} :
  (f.filterMap φ).read xs = some (b, rest) ↔ ∃ a, f.read xs = some (a, rest) ∧ φ a = some b
  := by
  rw [filterMap, bind_eq_some]
  constructor
  · rintro ⟨a, ys, hf, h⟩
    use a
    cases hφ : φ a with
    | none =>
        rw [hφ] at h
        cases h
    | some c =>
        rw [hφ] at h
        obtain ⟨rfl, rfl⟩ := succeed_eq_some.mp h
        use hf
  · rintro ⟨a, hf, hφ⟩
    use a, rest, hf
    rw [hφ]
    rfl

theorem both_eq_some {f : Scan α} {g : Scan β} {a : α} {b : β} :
  (f.both g).read xs = some ((a, b), rest)
    ↔ ∃ ys, f.read xs = some (a, ys) ∧ g.read ys = some (b, rest)
  := by
  rw [both, bind_eq_some]
  constructor
  · rintro ⟨c, ys, hf, h⟩
    obtain ⟨d, hg, h⟩ := map_eq_some.mp h
    obtain ⟨rfl, rfl⟩ := Prod.mk.inj h
    use ys, hf
  · rintro ⟨ys, hf, hg⟩
    use a, ys, hf
    apply map_eq_some.mpr
    use b, hg

theorem orElse_eq_some {f g : Scan α} {a : α} :
  (f.orElse g).read xs = some (a, rest)
    ↔ f.read xs = some (a, rest) ∨ f.read xs = none ∧ g.read xs = some (a, rest)
  := Option.or_eq_some_iff

theorem optional_eq_some {f : Scan α} {o : Option α} :
  f.optional.read xs = some (o, rest)
    ↔ (∃ a, f.read xs = some (a, rest) ∧ some a = o) ∨ f.read xs = none ∧ none = o ∧ xs = rest
  := by
  have hnone : (f.map some).read xs = none ↔ f.read xs = none := by
    simp only [map, bind]
    cases f.read xs <;> simp [succeed]
  rw [optional, orElse_eq_some, map_eq_some, hnone, succeed_eq_some]

/-- Of two alternatives that exclude each other, the order does not matter. -/
theorem orElse_eq_some_of_exclusive {f g : Scan α} {a : α}
    (h : ∀ {a b ys zs}, f.read xs = some (a, ys) → ¬g.read xs = some (b, zs)) :
  (f.orElse g).read xs = some (a, rest)
    ↔ f.read xs = some (a, rest) ∨ g.read xs = some (a, rest)
  := by
  rw [orElse_eq_some]
  constructor
  · rintro (hf | ⟨-, hg⟩)
    · exact .inl hf
    · exact .inr hg
  · rintro (hf | hg)
    · exact .inl hf
    · right
      constructor
      · rw [Option.eq_none_iff_forall_ne_some]
        intro _ hf
        apply h hf hg
      · apply hg

/-! ### Leaves -/

/-- Reads a code point that satisfies `φ`. -/
def one (φ : Char → Bool) : Scan Char where
  read
    | [] => none
    | x :: xs => if φ x then some (x, xs) else none
  suffix {xs _ _} h := by
    cases xs with
    | nil => cases h
    | cons x xs =>
        simp only [Option.ite_none_right_eq_some, Option.some.injEq, Prod.mk.injEq] at h
        rw [← h.2.2]
        apply List.suffix_cons

theorem one_eq_some {φ : Char → Bool} {x : Char} :
  (one φ).read xs = some (x, rest) ↔ xs = x :: rest ∧ φ x
  := by
  cases xs with
  | nil => simp [one]
  | cons y ys => simp [one]; grind

/-- Reads the code point `x`. -/
def point (x : Char) : Scan Char := one (· = x)

theorem point_eq_some {x y : Char} :
  (point x).read xs = some (y, rest) ↔ y = x ∧ xs = x :: rest
  := by
  rw [point, one_eq_some, decide_eq_true_eq]
  constructor
  · rintro ⟨hxs, rfl⟩
    exact ⟨rfl, hxs⟩
  · rintro ⟨rfl, hxs⟩
    exact ⟨hxs, rfl⟩

/-- Reads the code points `text`. -/
def literal (text : List Char) : Scan (List Char) where
  read xs := if text <+: xs then some (text, xs.drop text.length) else none
  suffix h := by
    simp only [Option.ite_none_right_eq_some, Option.some.injEq, Prod.mk.injEq] at h
    rw [← h.2.2]
    apply List.drop_suffix

theorem literal_eq_some {text : List Char} {a : List Char} :
  (literal text).read xs = some (a, rest) ↔ a = text ∧ xs = text ++ rest
  := by
  simp only [literal, Option.ite_none_right_eq_some, Option.some.injEq, Prod.mk.injEq]
  constructor
  · rintro ⟨⟨ys, rfl⟩, rfl, rfl⟩
    simp
  · rintro ⟨rfl, rfl⟩
    simp

/-- Reads a code point that satisfies `first` and all that follow it and satisfy `later`. -/
def several (first later : Char → Bool) : Scan String where
  read
    | [] => none
    | x :: xs =>
      if first x then some (String.ofList (x :: xs.takeWhile later), xs.dropWhile later) else none
  suffix {xs _ _} h := by
    cases xs with
    | nil => cases h
    | cons x xs =>
        simp only [Option.ite_none_right_eq_some, Option.some.injEq, Prod.mk.injEq] at h
        rw [← h.2.2]
        apply (List.dropWhile_suffix later).trans (List.suffix_cons x xs)

theorem several_eq_some {first later : Char → Bool} {s : String} :
  (several first later).read xs = some (s, rest)
    ↔ ∃ x ys, s.toList = x :: ys ∧ xs = x :: ys ++ rest ∧ first x ∧ (∀ y ∈ ys, later y)
        ∧ ∀ z ∈ rest.head?, ¬later z
  := by
  constructor
  · intro h
    cases xs with
    | nil => cases h
    | cons x xs =>
        simp only [several, Option.ite_none_right_eq_some, Option.some.injEq, Prod.mk.injEq] at h
        obtain ⟨hx, rfl, rfl⟩ := h
        refine ⟨x, xs.takeWhile later, String.toList_ofList, ?_, hx, ?_, ?_⟩
        · rw [List.cons_append, List.takeWhile_append_dropWhile]
        · intro y hy
          apply List.mem_takeWhile_imp hy
        · intro z hz
          have := List.head?_dropWhile_not later xs
          rw [Option.mem_def.mp hz] at this
          simpa using this
  · rintro ⟨x, ys, hs, rfl, hx, hys, hrest⟩
    have hstops : rest.takeWhile later = [] ∧ rest.dropWhile later = rest := by
      cases rest with
      | nil => simp
      | cons z zs => simpa using hrest z rfl
    simp only [several, List.cons_append]
    rw [if_pos hx, List.takeWhile_append_of_pos hys, List.dropWhile_append_of_pos hys, hstops.1,
      hstops.2, List.append_nil, ← hs, String.ofList_toList]

/-! ### Repetition -/

/-- Repeats `f` until it fails or reads nothing, and combines its values from the left. -/
def gather (f : Scan α) (combine : β → α → β) (gathered : β) (xs : List Char) : β × List Char :=
  match f.read xs with
  | none => (gathered, xs)
  | some (a, ys) =>
    if ys.length < xs.length then gather f combine (combine gathered a) ys
    else (combine gathered a, ys)
termination_by xs.length

theorem gather_suffix (f : Scan α) (combine : β → α → β) (gathered : β) (xs : List Char) :
  (f.gather combine gathered xs).2 <:+ xs
  := by
  fun_induction gather f combine gathered xs with
  | case1 => apply List.suffix_refl
  | case2 _ _ _ _ h _ ih => apply ih.trans (f.suffix h)
  | case3 _ _ _ _ h => apply f.suffix h

theorem gather_of_none {f : Scan α} (h : f.read xs = none) (combine : β → α → β) (gathered : β) :
  f.gather combine gathered xs = (gathered, xs)
  := by rw [gather, h]

theorem gather_of_some {f : Scan α} {a : α} (h : f.read xs = some (a, rest))
    (hlt : rest.length < xs.length) (combine : β → α → β) (gathered : β) :
  f.gather combine gathered xs = f.gather combine (combine gathered a) rest
  := by
  rw [gather, h]
  apply if_pos hlt

/-- What is gathered on top of something depends on it as `combine` does. -/
theorem gather_map (f : Scan α) {combine : β → α → β} (φ : β → β)
    (hφ : ∀ gathered a, φ (combine gathered a) = combine (φ gathered) a) (gathered : β)
    (xs : List Char) :
  f.gather combine (φ gathered) xs = (f.gather combine gathered xs).map φ id
  := by
  fun_induction gather f combine gathered xs with
  | case1 gathered xs h =>
      rw [gather_of_none h]
      rfl
  | case2 gathered xs a ys h hlt ih => rw [gather_of_some h hlt, ← hφ, ih]
  | case3 gathered xs a ys h hlt =>
      rw [gather, h]
      simp only [if_neg hlt, ← hφ]
      rfl

/-- Repeats `f` and combines its values from the left, beginning with `seed`. -/
def foldl (f : Scan α) (seed : β) (combine : β → α → β) : Scan β where
  read xs := some (f.gather combine seed xs)
  suffix {xs _ rest} h := by
    obtain rfl : (f.gather combine seed xs).2 = rest := by rw [Option.some.inj h]
    apply gather_suffix

/-- Repeats `f`, with the values in order. -/
def many (f : Scan α) : Scan (List α) :=
  (f.foldl [] fun values value => value :: values).map List.reverse

theorem many_of_none {f : Scan α} (h : f.read xs = none) :
  f.many.read xs = some ([], xs)
  := by
  simp [many, map, bind, foldl, gather_of_none h, succeed]

theorem many_of_some {f : Scan α} {a : α} (h : f.read xs = some (a, rest))
    (hlt : rest.length < xs.length) :
  f.many.read xs = (f.many.read rest).map fun (values, rest) => (a :: values, rest)
  := by
  have hcons :
      f.gather (fun values value => value :: values) [a] rest
        = (f.gather (fun values value => value :: values) [] rest).map (· ++ [a]) id :=
    f.gather_map (· ++ [a]) (fun _ _ => rfl) [] rest
  simp only [many, map, bind, foldl, succeed, Option.map_some]
  rw [gather_of_some h hlt, hcons]
  simp

/-! ### Agreement and fixed points -/

/-- Two scans that read the same of less than `n` code points. -/
def AgreeBelow (n : Nat) (f g : Scan α) : Prop :=
  ∀ xs, xs.length < n → f.read xs = g.read xs

variable {n : Nat}

theorem AgreeBelow.refl (n : Nat) (f : Scan α) :
  AgreeBelow n f f
  := fun _ _ => rfl

theorem AgreeBelow.bind {f f' : Scan α} {g g' : α → Scan β} (hf : AgreeBelow n f f')
    (hg : ∀ a, AgreeBelow n (g a) (g' a)) :
  AgreeBelow n (f.bind g) (f'.bind g')
  := by
  intro xs hxs
  simp only [Scan.bind]
  rw [← hf xs hxs]
  cases h : f.read xs with
  | none => rfl
  | some r => apply hg r.1 r.2 (Nat.lt_of_le_of_lt (f.length_le h) hxs)

/-- After a code point has been passed, agreement on fewer code points will do. -/
theorem AgreeBelow.bind_of_lt {f : Scan α} {g g' : α → Scan β}
    (hf : ∀ {xs a ys}, f.read xs = some (a, ys) → ys.length < xs.length)
    (hg : ∀ a, AgreeBelow n (g a) (g' a)) :
  AgreeBelow (n + 1) (f.bind g) (f.bind g')
  := by
  intro xs hxs
  simp only [Scan.bind]
  cases h : f.read xs with
  | none => rfl
  | some r =>
      have := hf h
      apply hg r.1 r.2
      omega

theorem AgreeBelow.map {f f' : Scan α} (φ : α → β) (hf : AgreeBelow n f f') :
  AgreeBelow n (f.map φ) (f'.map φ)
  := hf.bind fun _ => AgreeBelow.refl n _

theorem AgreeBelow.both {f f' : Scan α} {g g' : Scan β} (hf : AgreeBelow n f f')
    (hg : AgreeBelow n g g') :
  AgreeBelow n (f.both g) (f'.both g')
  := hf.bind fun _ => hg.map _

theorem AgreeBelow.orElse {f f' g g' : Scan α} (hf : AgreeBelow n f f')
    (hg : AgreeBelow n g g') :
  AgreeBelow n (f.orElse g) (f'.orElse g')
  := by
  intro xs hxs
  simp only [Scan.orElse]
  rw [hf xs hxs, hg xs hxs]

theorem AgreeBelow.optional {f f' : Scan α} (hf : AgreeBelow n f f') :
  AgreeBelow n f.optional f'.optional
  := (hf.map some).orElse (AgreeBelow.refl n _)

theorem AgreeBelow.foldl {f f' : Scan α} (seed : β) (combine : β → α → β)
    (hf : AgreeBelow n f f') :
  AgreeBelow n (f.foldl seed combine) (f'.foldl seed combine)
  := by
  intro xs hxs
  simp only [Scan.foldl, Option.some.injEq]
  fun_induction gather f combine seed xs with
  | case1 gathered xs h =>
      rw [gather, ← hf xs hxs, h]
  | case2 gathered xs a ys h hlt ih =>
      rw [ih (Nat.lt_trans hlt hxs), gather.eq_def f' combine gathered xs, ← hf xs hxs, h]
      simp only [if_pos hlt]
  | case3 gathered xs a ys h hlt =>
      rw [gather, ← hf xs hxs, h]
      simp only [if_neg hlt]

theorem AgreeBelow.many {f f' : Scan α} (hf : AgreeBelow n f f') :
  AgreeBelow n f.many f'.many
  := (hf.foldl _ _).map _

/-- `F f` passes a code point before it reads with `f`. -/
def Guarded (F : Scan α → Scan α) : Prop :=
  ∀ n f g, AgreeBelow n f g → AgreeBelow (n + 1) (F f) (F g)

/-- The scan with less than `depth` entries within each other. -/
def approximate (F : Scan α → Scan α) : Nat → Scan α
  | 0 => fail
  | depth + 1 => F (approximate F depth)

/-- The scan that `F` makes of it. -/
def fix (F : Scan α → Scan α) : Scan α where
  read xs := (approximate F (xs.length + 1)).read xs
  suffix h := (approximate F _).suffix h

/-- More depth does not change what is read of a few code points. -/
theorem approximate_agree {F : Scan α → Scan α} (hF : Guarded F) {depth depth' : Nat}
    (h : depth ≤ depth') :
  AgreeBelow depth (approximate F depth) (approximate F depth')
  := by
  induction depth generalizing depth' with
  | zero =>
      intro xs hxs
      cases hxs
  | succ depth ih =>
      cases depth' with
      | zero => cases h
      | succ depth' => apply hF _ _ _ (ih (Nat.le_of_succ_le_succ h))

theorem approximate_agree_fix {F : Scan α → Scan α} (hF : Guarded F) (depth : Nat) :
  AgreeBelow depth (approximate F depth) (fix F)
  := by
  intro xs hxs
  symm
  apply approximate_agree hF hxs xs (Nat.lt_succ_self _)

theorem fix_eq {F : Scan α → Scan α} (hF : Guarded F) :
  fix F = F (fix F)
  := by
  ext1 xs
  apply hF _ _ _ (approximate_agree_fix hF xs.length) xs (Nat.lt_succ_self _)

/-- What holds of all that is read at any finite depth holds of all that is read. -/
theorem fix_induction {F : Scan α → Scan α} {P : List Char → α → List Char → Prop}
    (step : ∀ f : Scan α, (∀ {xs a rest}, f.read xs = some (a, rest) → P xs a rest) →
      ∀ {xs a rest}, (F f).read xs = some (a, rest) → P xs a rest)
    {a : α} (h : (fix F).read xs = some (a, rest)) :
  P xs a rest
  := by
  have hdepth (depth : Nat) {xs a rest} :
      (approximate F depth).read xs = some (a, rest) → P xs a rest := by
    induction depth generalizing xs a rest with
    | zero =>
        intro h
        cases h
    | succ depth ih => apply step _ ih
  apply hdepth _ h

end Scan

end Formulary
