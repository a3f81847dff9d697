import Formulary.Proofs.Formula.Conduct
import Formulary.Proofs.Formula.Decision
import Formulary.Proofs.Formula.RoundTrip
import Formulary.Proofs.Parser.Runs
import Formulary.Proofs.Reading

/-!
# What is advised about a text

Each identifier of a text is met at most once while a formula is read, although what was read may be
given up.  The identifiers met are the names of the formula, and after them *dangling* ones: those
of an operand or a side that could not be read to its end.  Where there are any, the text goes on
with the token before that operand, which no rule around can pass over, so that nothing is read a
second time (`Met`).

Hence the advices name runs of the text, each at most once; and when a formula is all of its text,
they name the identifiers of the formula that resemble a keyword (`parseFormula_advices`).
-/

namespace Formulary

namespace Formula

open Formulary.Parser

variable {xs ys rest : List Char} {names names' dangling words : List String} {r r' : Rule}
  {t : Term} {k : Connective} {found : Option (Term × List Char)}

/-! ### Names and dangling identifiers -/

/-- Of `xs` by the rule `r` a formula with the names `names` was read, before `rest`, of which the
identifiers `dangling` were met as well: there are any only where the rule could go on. -/
structure Met (r : Rule) (xs : List Char) (names dangling : List String) (rest : List Char) :
    Prop where
  names_sublist : (names ++ runs rest).Sublist (runs xs)
  dangling_sublist : dangling.Sublist (runs rest)
  continues : dangling ≠ [] → Continues r rest

/-- Nothing dangles. -/
theorem met_nil (r : Rule) (h : (names ++ runs rest).Sublist (runs xs)) :
  Met r xs names [] rest
  := ⟨h, List.nil_sublist _, fun hne => absurd rfl hne⟩

theorem Met.sublist (h : Met r xs names dangling rest) :
  (names ++ dangling).Sublist (runs xs)
  := (h.dangling_sublist.append_left names).trans h.names_sublist

theorem Met.of_sublist (hruns : (runs ys).Sublist (runs xs)) (h : Met r ys names dangling rest) :
  Met r xs names dangling rest
  := ⟨h.names_sublist.trans hruns, h.dangling_sublist, h.continues⟩

theorem Met.imp (h : Met r xs names dangling rest) (hr : Continues r rest → Continues r' rest) :
  Met r' xs names dangling rest
  := ⟨h.names_sublist, h.dangling_sublist, fun hne => hr (h.continues hne)⟩

/-- Where the rule cannot go on, nothing dangles. -/
theorem Met.eq_nil (h : Met r xs names dangling rest) (hr : ¬Continues r rest) :
  dangling = []
  := by
  by_contra hne
  apply hr (h.continues hne)

/-- What is met and given up dangles. -/
theorem Met.dangle (h : Met r xs names [] rest) (hwords : words.Sublist (runs rest))
    (hr : Continues r' rest) :
  Met r' xs names words rest
  := ⟨h.names_sublist, hwords, fun _ => hr⟩

theorem Met.trans (h : Met r xs names [] ys) (h' : Met r' ys names' dangling rest) :
  Met r' xs (names ++ names') dangling rest
  where
  names_sublist := by
    rw [List.append_assoc]
    apply (h'.names_sublist.append_left names).trans h.names_sublist
  dangling_sublist := h'.dangling_sublist
  continues := h'.continues

/-- What a rule of the grammar reads and meets. -/
inductive Tells (r : Rule) : Conduct Term where
  | failed {xs : List Char} {words : List String} (sublist : words.Sublist (runs xs)) :
      Tells r xs none words
  | read {xs rest : List Char} {t : Term} {dangling : List String}
      (met : Met r xs t.names dangling rest) : Tells r xs (some (t, rest)) (t.names ++ dangling)

theorem Tells.of_sublist (hruns : (runs ys).Sublist (runs xs)) (h : Tells r ys found words) :
  Tells r xs found words
  := by
  cases h with
  | failed sublist => apply Tells.failed (sublist.trans hruns)
  | read met => apply Tells.read (met.of_sublist hruns)

/-- By which rule nothing is read makes no difference. -/
theorem Tells.failed_by (h : Tells r xs none words) :
  Tells r' xs none words
  := by
  cases h with
  | failed sublist => apply Tells.failed sublist

/-- With nothing dangling the words are the names. -/
theorem tells_names (h : Met r xs t.names [] rest) :
  Tells r xs (some (t, rest)) t.names
  := by
  rw [← List.append_nil t.names]
  apply Tells.read h

/-! ### Atoms -/

theorem ValueAt.runs_sublist {v : Value} (h : ValueAt xs v rest) :
  (runs rest).Sublist (runs xs)
  := by
  cases h with
  | true word =>
      rw [word.runs_eq]
      apply List.sublist_cons_self
  | false word =>
      rw [word.runs_eq]
      apply List.sublist_cons_self
  | text gap contents =>
      rw [gap.runs_cons (by decide), contents.eq_escapeQuotes, runs_append_cons (by decide)]
      apply List.sublist_append_right

/-- What is read and met of an atom without parentheses: where there is none, nothing is met. -/
def leaf : Conduct Term := fun xs found words =>
  Tells .atom xs found words ∧ (found = none → words = [])

theorem follows_value :
  Follows (value.map .value) leaf
  := by
  apply Follows.map
  apply (silent_value.follows denotes_value).mono
  rintro xs found _ ⟨hread, rfl⟩
  refine ⟨?_, fun _ => rfl⟩
  cases found with
  | none => apply Tells.failed (List.nil_sublist _)
  | some r =>
      have hruns := (valueScan_eq_some.mp hread).runs_sublist
      apply tells_names (t := .value r.1) (met_nil .atom hruns)

theorem follows_identifier :
  Follows (ident.map .identifier) leaf
  := by
  apply Follows.map
  apply follows_ident.mono
  rintro xs found _ ⟨hread, rfl⟩
  cases found with
  | none => exact ⟨.failed (List.nil_sublist _), fun _ => rfl⟩
  | some r =>
      obtain ⟨hword, -⟩ := identScan_eq_some.mp hread
      refine ⟨?_, fun h => nomatch h⟩
      apply tells_names (t := .identifier r.1)
      apply met_nil
      rw [hword.runs_eq]
      apply List.Sublist.refl

/-- A formula with anything dangling is not closed. -/
theorem follows_parenthesised {p : Parser Term} (hp : Follows p (Tells (.chain .or))) :
  Follows (((token "(").both p).both (token ")")).fst.snd (Tells .atom)
  := by
  have hopened : Follows ((token "(").both p) ((Tells (.chain .or)).on Prod.snd) := by
    apply (silent_token "(").both_follows (denotes_token "(") hp
    · intro xs
      apply Tells.failed (List.nil_sublist _)
    · intro xs ys _ found words hread htells
      obtain ⟨-, hgap⟩ := (Scan.token_eq_some rfl (by decide)).mp hread
      have hruns : (runs ys).Sublist (runs xs) := by rw [hgap.runs_cons (by decide)]
      have htells' := htells.of_sublist hruns
      cases found <;> apply htells'
  have hclosing := (silent_token ")").follows (denotes_token ")")
  apply Follows.map
  apply Follows.map
  apply hopened.both hclosing
  · intro xs words htells
    apply htells.failed_by
  · rintro xs ys ⟨s, t⟩ found words _ htells ⟨hread, rfl⟩
    rw [List.append_nil]
    cases htells with
    | @read _ _ _ dangling met =>
      cases found with
      | none => apply Tells.failed met.sublist
      | some r =>
          -- no formula goes on with a closing parenthesis
          obtain ⟨-, hgap⟩ := (Scan.token_eq_some rfl (by decide)).mp hread
          obtain rfl := met.eq_nil fun h => h.not_parenthesis hgap
          have hnames := met.names_sublist
          rw [hgap.runs_cons (by decide)] at hnames
          apply Tells.read (met_nil .atom hnames)

theorem follows_atomOf {p : Parser Term} (hp : Follows p (Tells (.chain .or))) :
  Follows (atomOf p) (Tells .atom)
  := by
  have hleaf : Follows ((value.map .value).orElse (ident.map .identifier)) leaf := by
    apply follows_value.orElse follows_identifier
    · intro _ _ _ h
      apply h
    · intro _ _ h
      apply h.2 rfl
  apply hleaf.orElse (follows_parenthesised hp)
  · intro _ _ _ h
    apply h.1
  · intro _ _ h
    apply h.2 rfl

/-! ### Equations and negations -/

/-- What is read and met of an equation after its first side. -/
def side : Conduct Term := (Tells .atom).after fun xs ys => Gap xs ('=' :: ys)

/-- What is met after the sign dangles if the other side cannot be read. -/
theorem Met.without_side (h : Met .atom xs names [] rest) (hside : side rest none words) :
  Met .equation xs names words rest
  := by
  cases hside with
  | absent => apply met_nil .equation h.names_sublist
  | present gap htells =>
      cases htells with
      | failed sublist =>
          rw [← gap.runs_cons (by decide)] at sublist
          apply h.dangle sublist (.sign gap)

theorem Met.with_side (h : Met .atom xs names [] ys) (hside : side ys (some (t, rest)) words) :
  words = t.names ∧ Met .equation xs (names ++ t.names) [] rest
  := by
  cases hside with
  | present gap htells =>
      cases htells with
      | read met =>
          obtain rfl := met.eq_nil not_continues_atom
          have hnames := met.names_sublist
          rw [← gap.runs_cons (by decide)] at hnames
          have hmet := h.trans (met_nil .atom hnames)
          exact ⟨List.append_nil _, met_nil .equation hmet.names_sublist⟩

theorem follows_equationOf {p : Parser Term} (hp : Follows p (Tells .atom)) :
  Follows (equationOf p) (Tells .equation)
  := by
  have hside : Follows ((token "=").both p).snd side :=
    (silent_token "=").snd_follows (denotes_token "=") hp
      fun hread => ((Scan.token_eq_some rfl (by decide)).mp hread).2
  apply Follows.map
  apply hp.both hside.optional
  · intro xs words htells
    apply htells.failed_by
  · intro xs ys left found words words' htells hoptional
    cases htells with
    | read met =>
        obtain rfl := met.eq_nil not_continues_atom
        rw [List.append_nil]
        cases hoptional with
        | absent hnone => apply Tells.read (met.without_side hnone)
        | @present _ _ right _ hsome =>
            obtain ⟨rfl, hmet⟩ := met.with_side hsome
            apply tells_names (t := .equation left right) hmet

theorem Negations.runs_sublist {n : Nat} (h : Negations n xs ys) :
  (runs ys).Sublist (runs xs)
  := by
  induction h with
  | none => apply List.Sublist.refl
  | more word _ ih =>
      rw [word.runs_eq]
      apply ih.trans (List.sublist_cons_self _ _)

theorem follows_negationOf {p : Parser Term} (hp : Follows p (Tells .equation)) :
  Follows (negationOf p) (Tells .negation)
  := by
  apply Follows.map
  have hnot : Silent ((keyword "NOT").foldl false fun negated _ => !negated) :=
    (silent_keyword "NOT").foldl _ _
  apply hnot.both_follows ((denotes_keyword "NOT").foldl _ _) hp
  · intro xs
    apply Tells.failed (List.nil_sublist _)
  · intro xs ys b found words hread htells
    obtain ⟨n, hn, -⟩ := negations_of_gather (Option.some.inj hread)
    have htells' := htells.of_sublist hn.runs_sublist
    cases htells' with
    | failed sublist => apply Tells.failed sublist
    | @read _ _ t _ met =>
        have hmet := met.imp Continues.body
        cases b with
        | true => apply Tells.read (t := .not t) hmet
        | false => apply Tells.read hmet

/-! ### Chains -/

/-- What is read and met of a chain after an operand. -/
def link (k : Connective) : Conduct Term :=
  (Tells (.operand k)).after fun xs ys => WordAt xs k.word ys

/-- After an operand with something dangling the chain does not go on. -/
theorem Met.next (h : Met (.operand k) xs names dangling ys)
    (hlink : link k ys (some (t, rest)) words) :
  ∃ dangling', dangling ++ words = t.names ++ dangling'
    ∧ Met (.operand k) xs (names ++ t.names) dangling' rest
  := by
  cases hlink with
  | @present _ zs _ _ word htells =>
      obtain rfl := h.eq_nil fun hcontinues => hcontinues.not_word word
      have hruns : (runs zs).Sublist (runs ys) := by
        rw [word.runs_eq]
        apply List.sublist_cons_self
      cases htells with
      | @read _ _ _ dangling' met => exact ⟨dangling', rfl, h.trans (met.of_sublist hruns)⟩

theorem Met.last (h : Met (.operand k) xs names dangling rest) (hlink : link k rest none words) :
  Met (.chain k) xs names (dangling ++ words) rest
  := by
  cases hlink with
  | absent =>
      rw [List.append_nil]
      apply h.imp .operand
  | present word htells =>
      obtain rfl := h.eq_nil fun hcontinues => hcontinues.not_word word
      cases htells with
      | failed sublist =>
          apply h.dangle _ (.word word)
          rw [word.runs_eq]
          apply sublist.cons

/-- Through all the operands of a chain, what was met are their names and what dangles. -/
theorem Met.many {found : Option (List Term × List Char)}
    (h : Met (.operand k) xs names dangling ys) (hmany : (link k).many ys found words) :
  ∃ operands rest dangling', found = some (operands, rest)
    ∧ dangling ++ words = operands.flatMap Term.names ++ dangling'
    ∧ Met (.chain k) xs (names ++ operands.flatMap Term.names) dangling' rest
  := by
  -- what dangles after an operand decides whether there is a next one
  induction hmany generalizing names dangling with
  | @failed ys words hlink =>
      refine ⟨[], ys, dangling ++ words, rfl, rfl, ?_⟩
      rw [List.flatMap_nil, List.append_nil]
      apply h.last hlink
  | @idle _ rest t _ hlink =>
      obtain ⟨dangling', hwords, hmet⟩ := h.next hlink
      refine ⟨[t], rest, dangling', rfl, ?_, ?_⟩
      · rw [List.flatMap_singleton, hwords]
      · rw [List.flatMap_singleton]
        apply hmet.imp .operand
  | @progress _ _ _ t operands _ words' hlink _ ih =>
      obtain ⟨dangling', hwords, hmet⟩ := h.next hlink
      obtain ⟨_, rest, last, heq, hwords', hmet'⟩ := ih hmet
      obtain ⟨rfl, rfl⟩ := Prod.mk.inj (Option.some.inj heq)
      refine ⟨t :: operands, _, last, rfl, ?_, ?_⟩
      · rw [← List.append_assoc, hwords, List.append_assoc, hwords', List.flatMap_cons,
          List.append_assoc]
      · rwa [List.flatMap_cons, ← List.append_assoc]

theorem names_nestRight (k : Connective) (t : Term) (operands : List Term) :
  (nestRight k.join t operands).names = t.names ++ operands.flatMap Term.names
  := by
  induction operands generalizing t with
  | nil => simp [nestRight]
  | cons next operands ih => rw [nestRight, Term.names_join, ih, List.flatMap_cons]

theorem follows_chainOf (k : Connective) {p : Parser Term} (hp : Follows p (Tells (.operand k))) :
  Follows (chainOf k.word k.join p) (Tells (.chain k))
  := by
  have hlink : Follows ((keyword k.word).both p).snd (link k) :=
    (silent_keyword k.word).snd_follows (denotes_keyword k.word) hp
      fun hread => (Scan.keyword_eq_some.mp hread).2
  apply Follows.map
  apply hp.both hlink.many
  · intro xs words htells
    apply htells.failed_by
  · intro xs ys t found words words' htells hmany
    cases htells with
    | read met =>
        obtain ⟨operands, rest, dangling, rfl, hwords, hmet⟩ := met.many hmany
        rw [List.append_assoc, hwords, ← List.append_assoc, ← names_nestRight]
        rw [← names_nestRight] at hmet
        apply Tells.read hmet

/-! ### Formulas -/

/-- Formulas are read and met as their grammar says, however deep they nest. -/
theorem follows_formula :
  Follows formula (Tells (.chain .or))
  := by
  apply Follows.fix
  · intro xs
    apply Tells.failed (List.nil_sublist _)
  · intro p hp
    have hnegation := follows_negationOf (follows_equationOf (follows_atomOf hp))
    apply follows_chainOf .or (follows_chainOf .and hnegation)

end Formula

/-! ### Whole texts -/

open Formulary.Formula Formulary.Parser

variable {tape : Tape} {text rest : List Char} {c : Cursor}

/-- To read the spaces and the text after a value gives no advice. -/
theorem advices_finish {α : Type} (outcome : Result α × Tape) :
  advices (finish outcome).2.log = advices outcome.2.log
  := by
  obtain ⟨⟨value, c⟩ | c, tape⟩ := outcome
  · simp only [finish, Tape.rest]
    rw [advices_passWhile, silent_spaces]
  · apply (advices_record _ _).trans
    apply List.append_nil

theorem advices_readFormula (c : Cursor) (tape : Tape) :
  advices (readFormula c tape).2.log = advices (formula.run c tape).2.log
  := by
  rw [← advices_finish, readFormula]
  rcases finish (formula.run c tape) with ⟨_ | reading, tape'⟩
  · rfl
  · apply (advices_record _ _).trans
    apply List.append_nil

/-- From any cursor on any tape, the identifiers met in reading a formula are runs of what remains,
and the names of the formula if nothing remains after it. -/
theorem readFormula_meets (h : tape.Spells text) (hc : tape.Stands text c rest) :
  ∃ words, Meets tape (readFormula c tape).2 words ∧ words.Sublist (runs rest)
    ∧ ∀ t, (readFormula c tape).1 = .ok ⟨t, ""⟩ → words = t.names
  := by
  obtain ⟨found, words, hread, hmeets, htells⟩ := follows_formula h hc
  have hfound := hread.unique (denotes_formula h hc)
  refine ⟨words, ⟨?_, hmeets.free⟩, ?_, ?_⟩
  · rw [advices_readFormula, hmeets.advices]
  · cases htells with
    | failed sublist => apply sublist
    | read met => apply met.sublist
  · intro t hok
    rw [readFormula_eq h hc, ← hfound] at hok
    cases htells with
    | failed => cases hok
    | @read _ rest' _ dangling met =>
        simp only [Scan.finish, Except.ok.injEq, Reading.mk.injEq] at hok
        obtain ⟨rfl, hremaining⟩ := hok
        -- only spaces remain, in which there are no runs to dangle
        have hgap := gap_dropWhile rest'
        rw [String.ofList_eq_empty_iff.mp hremaining] at hgap
        have hdangling := met.dangling_sublist
        rw [hgap.runs_eq, runs_nil, List.sublist_nil] at hdangling
        rw [hdangling, List.append_nil]

/-- The identifiers of the advices about words are those that resemble a keyword. -/
theorem map_fst_filterMap_advice? (words : List String) :
  (words.filterMap advice?).map Prod.fst = words.filter fun word => keywords.any (sameButCase · word)
  := by
  induction words with
  | nil => rfl
  | cons word words ih =>
      have hany : keywords.any (sameButCase · word) = (nearKeyword? word).isSome := by
        rw [nearKeyword?, List.isSome_find?]
      cases hnear : nearKeyword? word <;> simp [advice?, hany, hnear, ← ih]

theorem resembles_of_advice? {word : String} {advice : String × String}
    (h : advice? word = some advice) :
  advice.1 = word ∧ advice.2 ∈ keywords ∧ sameButCase advice.2 advice.1
  := by
  obtain ⟨keyword, hnear, rfl⟩ := Option.map_eq_some_iff.mp h
  rw [nearKeyword?] at hnear
  have hsame := List.find?_some hnear
  exact ⟨rfl, List.mem_of_find?_eq_some hnear, hsame⟩

/-- Whether or not a text is read, the identifiers of the advices given about it are runs of the
text, from left to right and each at most once; none is a keyword, and each differs from the keyword
of its advice in case only.  When a formula is all of the text, they are the identifiers of the
formula that differ from some keyword in case only, from left to right. -/
theorem parseFormula_advices (text : String) :
  let advised := advices (parseFormula text).2
  (advised.map Prod.fst).Sublist (runs text.toList)
    ∧ (∀ advice ∈ advised,
        advice.1 ∉ keywords ∧ advice.2 ∈ keywords ∧ sameButCase advice.2 advice.1)
    ∧ ∀ t, (parseFormula text).1 = .ok ⟨t, ""⟩ →
        advised.map Prod.fst = t.names.filter fun name => keywords.any (sameButCase · name)
  := by
  intro advised
  obtain ⟨words, hmeets, hsublist, hnames⟩ :=
    readFormula_meets (Tape.ofText_spells text) (Tape.ofText_stands text)
  have hlog : (parseFormula text).2
      = (readFormula (Tape.ofText text).1 (Tape.ofText text).2).2.log := by
    simp only [parseFormula]
  have hreading : (parseFormula text).1
      = (readFormula (Tape.ofText text).1 (Tape.ofText text).2).1 := by
    simp only [parseFormula]
  have hempty : advices (Tape.ofText text).2.log = [] := rfl
  have hadvised : advised = words.filterMap advice? := by
    rw [← List.nil_append (words.filterMap advice?), ← hempty, ← hmeets.advices, ← hlog]
  refine ⟨?_, ?_, ?_⟩
  · rw [hadvised, map_fst_filterMap_advice?]
    apply List.Sublist.trans List.filter_sublist hsublist
  · intro advice hmem
    rw [hadvised] at hmem
    obtain ⟨word, hword, hadvice⟩ := List.mem_filterMap.mp hmem
    obtain ⟨rfl, hresembles⟩ := resembles_of_advice? hadvice
    exact ⟨hmeets.free _ hword, hresembles⟩
  · intro t hok
    rw [hreading] at hok
    rw [hadvised, map_fst_filterMap_advice?, hnames t hok]

/-- The advices about a formula with a side in parentheses name its identifiers in order.  A word
that goes on after the letters of a keyword resembles none. -/
theorem parseFormula_advices_nested :
  (advices (parseFormula "(and OR nOt) = Or AND or2").2).map Prod.fst = ["and", "nOt", "Or"]
  := by
  have hok : (parseFormula "(and OR nOt) = Or AND or2").1
      = .ok ⟨.and (.equation (.or (.identifier "and") (.identifier "nOt")) (.identifier "Or"))
          (.identifier "or2"), ""⟩ := by
    decide +kernel
  rw [(parseFormula_advices "(and OR nOt) = Or AND or2").2.2 _ hok]
  decide

/-- An operand that is given up was met. -/
example : advices (parseFormula "x AND (or").2 = [("or", "OR")] := by decide +kernel

end Formulary
