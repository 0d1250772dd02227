import SqlClause.Proofs.Formula
import SqlClause.Proofs.Shape

/-!
# Reading expressions by precedence

The text of an expression is read from left to right. What still waits for its right operand stands
on a stack, and the next operator completes everything on top of it that binds at least as tightly
as itself, so operators of one precedence associate to the left. Negation is a prefix, and an
opening parenthesis waits for the closing one.

A formula can be read back from its text if no right operand is of the precedence of its operator
(`Formula.Graded`): the parentheses that looser operands get are all that the reader needs.

* `complete`, `Reading.next`: what an operand completes, and one step of the reader;
* `Formula.readTokens_tokens`: the reader is given back the formula whose tokens it reads;
* `Formula.lexes_tokens`: the text falls into the tokens that spell it;
* `Formula.read_text`: reading the text of a formula gives back the formula;
* **`Compiler.agrees_of_sql_eq`**: formulas that compile to one text have trees that agree.
-/

namespace SqlClause

/-! ## 1. Reading tokens -/

/-- What waits for a right operand or for a closing parenthesis. -/
inductive Pending where
  | operator (left : Formula) (o : Operator)
  | negation
  | opening

/-- Completes what binds at least as tightly as `m`, the innermost first. -/
def complete (m : Nat) : List Pending → Formula → List Pending × Formula
  | .operator left o :: stack, f =>
      if m ≤ o.precedence then complete m stack (.op left o f) else (.operator left o :: stack, f)
  | .negation :: stack, f =>
      if m ≤ Operator.not.precedence then complete m stack (.not f) else (.negation :: stack, f)
  | stack, f => (stack, f)

/-- How far the reader has come: it waits for an operand, or has one. -/
inductive Reading where
  | wanting (stack : List Pending)
  | having (stack : List Pending) (f : Formula)

namespace Reading

/-- Reads one token. -/
def next : Reading → Token → Option Reading
  | wanting stack, .name s => some (having stack (.column s))
  | wanting stack, .operator o => if o = .not then some (wanting (.negation :: stack)) else none
  | wanting stack, .opening => some (wanting (.opening :: stack))
  | having stack f, .operator o =>
      let (stack, f) := complete o.precedence stack f
      if o = .not then none else some (wanting (.operator f o :: stack))
  | having stack f, .closing =>
      match complete 0 stack f with
      | (.opening :: stack, f) => some (having stack f)
      | _ => none
  | _, _ => none

/-- The formula that has been read, if nothing is left open. -/
def result : Reading → Option Formula
  | having stack f =>
      match complete 0 stack f with
      | ([], f) => some f
      | _ => none
  | wanting _ => none

end Reading

/-- The formula that the tokens spell. -/
def Formula.readTokens (ts : List Token) : Option Formula := do
  (← ts.foldlM Reading.next (.wanting [])).result

/-- Negation has a precedence of its own. -/
theorem Operator.precedence_ne_not {o : Operator} (h : o ≠ .not) :
    o.precedence ≠ Operator.not.precedence := by
  cases o <;> first | exact absurd rfl h | decide

/-! ## 2. What waits while a formula is read -/

/-- An operator of precedence `m` leaves what is on the stack as it is. -/
def Waits (m : Nat) : List Pending → Prop
  | .operator _ o :: _ => o.precedence < m
  | .negation :: _ => Operator.not.precedence < m
  | _ => True

theorem complete_of_waits {m : Nat} {stack : List Pending} (h : Waits m stack) (f : Formula) :
    complete m stack f = (stack, f) := by
  rcases stack with _ | ⟨_ | _ | _, stack⟩
  · rfl
  · exact if_neg (Nat.not_le.mpr h)
  · exact if_neg (Nat.not_le.mpr h)
  · rfl

theorem Waits.mono {m n : Nat} {stack : List Pending} (h : Waits m stack) (hmn : m ≤ n) :
    Waits n stack := by
  rcases stack with _ | ⟨_ | _ | _, stack⟩
  · trivial
  · exact Nat.lt_of_lt_of_le h hmn
  · exact Nat.lt_of_lt_of_le h hmn
  · trivial

namespace Formula

/-- The operator between two operands in the last step. -/
def binary? : Formula → Option Operator
  | op _ o _ => some o
  | _ => none

/-- No right operand is joined by an operator of the precedence of the one before it. -/
def Graded : Formula → Prop
  | column _ => True
  | op left o right =>
      left.Graded ∧ right.Graded ∧ ∀ p ∈ right.binary?, p.precedence ≠ o.precedence
  | not f => f.Graded

instance decidableGraded : DecidablePred Graded
  | column _ => inferInstanceAs (Decidable True)
  | op left o right =>
      have := decidableGraded left
      have := decidableGraded right
      inferInstanceAs (Decidable (left.Graded ∧ right.Graded ∧
        ∀ p ∈ right.binary?, p.precedence ≠ o.precedence))
  | not f => decidableGraded f

/-- The operator of the formula, if it has one, binds at least as tightly as `m`. -/
def Binds (m : Nat) (f : Formula) : Prop := ∀ o ∈ f.operator?, m ≤ o.precedence

theorem binds_of_not_looserThan {f : Formula} {o : Operator} (h : f.looserThan o = false) :
    f.Binds o.precedence := by
  intro p hp
  have hp' : f.operator? = some p := hp
  rw [looserThan, hp', Option.any_some, decide_eq_false_iff_not] at h
  exact Nat.le_of_not_lt h

theorem Plain.ne_not {f : Formula} (h : f.Plain) {o : Operator} (ho : o ∈ f.binary?) :
    o ≠ .not := by
  cases f with
  | op left p right =>
      obtain ⟨-, -, -, hnot⟩ := h
      exact Option.some.inj ho ▸ hnot
  | _ => cases ho

theorem operator?_of_binary? {f : Formula} {o : Operator} (h : o ∈ f.binary?) :
    o ∈ f.operator? := by
  cases f <;> first | exact h | cases h

/-- After the tokens the reader has, on top of `stack`, what amounts to `f` for everything that
follows with a precedence of `m` or less. -/
def Leaves (ts : List Token) (stack : List Pending) (f : Formula) (m : Nat) : Prop :=
  ∃ stack' g, ts.foldlM Reading.next (.wanting stack) = some (.having stack' g) ∧
    ∀ k ≤ m, complete k stack' g = complete k stack f

/-- An operand in its parentheses, if it has any, leaves itself for what binds no tighter than the
operator beside it. -/
theorem leaves_bracket {f : Formula}
    (ih : ∀ stack m, (∀ p ∈ f.binary?, Waits p.precedence stack) → f.Binds m →
      Leaves f.tokens stack f m)
    (stack : List Pending) (o : Operator)
    (hstack : f.looserThan o = false → ∀ p ∈ f.binary?, Waits p.precedence stack) :
    Leaves (Token.bracket (f.looserThan o) f.tokens) stack f o.precedence := by
  cases hlooser : f.looserThan o with
  | false => exact ih stack o.precedence (hstack hlooser) (binds_of_not_looserThan hlooser)
  | true =>
      obtain ⟨stack', g, hread, hcomplete⟩ :=
        ih (.opening :: stack) 0 (fun _ _ => trivial) (fun _ _ => Nat.zero_le _)
      refine ⟨stack, f, ?_, fun _ _ => rfl⟩
      -- the closing parenthesis completes all down to the opening one
      have hclose : complete 0 stack' g = (.opening :: stack, f) := hcomplete 0 (Nat.le_refl 0)
      have hnext : Reading.next (.having stack' g) .closing = some (.having stack f) := by
        rw [Reading.next, hclose]
      have hopen : Reading.next (.wanting stack) .opening =
        some (.wanting (.opening :: stack)) := rfl
      simp only [Token.bracket, if_true, List.cons_append, List.foldlM_cons, List.foldlM_append,
        hopen, Option.bind_eq_bind, Option.bind_some, hread, hnext, List.foldlM_nil,
        Option.pure_def]

/-- **What is read of a formula amounts to the formula**, as long as its operator binds tighter
than what waits for it. -/
theorem leaves_tokens : ∀ f : Formula, f.Plain → f.Graded → ∀ stack m,
    (∀ p ∈ f.binary?, Waits p.precedence stack) → f.Binds m → Leaves f.tokens stack f m
  | column name, _, _, stack, _, _, _ => ⟨stack, column name, rfl, fun _ _ => rfl⟩
  | op left o right, hplain, hgraded, stack, m, hstack, hm => by
      obtain ⟨hleft, hright, -, hnot⟩ := hplain
      obtain ⟨hleftGraded, hrightGraded, hgrade⟩ := hgraded
      have hwaits : Waits o.precedence stack := hstack o rfl
      have hmo : m ≤ o.precedence := hm o rfl
      obtain ⟨stack₁, g₁, hread₁, hcomplete₁⟩ :=
        leaves_bracket (leaves_tokens left hleft hleftGraded) stack o
          fun hlooser p hp =>
            hwaits.mono (binds_of_not_looserThan hlooser p (operator?_of_binary? hp))
      -- the operator completes the left operand and waits for the right one
      have hoperator : Reading.next (.having stack₁ g₁) (.operator o) =
          some (.wanting (.operator left o :: stack)) := by
        simp only [Reading.next, hcomplete₁ o.precedence (Nat.le_refl _), complete_of_waits hwaits,
          if_neg hnot]
      obtain ⟨stack₂, g₂, hread₂, hcomplete₂⟩ :=
        leaves_bracket (leaves_tokens right hright hrightGraded) (.operator left o :: stack) o
          fun hlooser p hp =>
            Nat.lt_of_le_of_ne (binds_of_not_looserThan hlooser p (operator?_of_binary? hp))
              (hgrade p hp).symm
      refine ⟨stack₂, g₂, ?_, fun k hk => ?_⟩
      · simp only [tokens, List.foldlM_append, List.foldlM_cons, hread₁, hoperator,
          Option.bind_eq_bind, Option.bind_some, hread₂]
      · rw [hcomplete₂ k (Nat.le_trans hk hmo), complete, if_pos (Nat.le_trans hk hmo)]
  | not f, hplain, hgraded, stack, m, _, hm => by
      have hmnot : m ≤ Operator.not.precedence := hm .not rfl
      obtain ⟨stack', g, hread, hcomplete⟩ :=
        leaves_bracket (leaves_tokens f hplain hgraded) (.negation :: stack) .not
          fun hlooser p hp =>
            Nat.lt_of_le_of_ne (binds_of_not_looserThan hlooser p (operator?_of_binary? hp))
              (Operator.precedence_ne_not (Plain.ne_not (f := f) hplain hp)).symm
      refine ⟨stack', g, ?_, fun k hk => ?_⟩
      · have hoperator : Reading.next (.wanting stack) (.operator .not) =
          some (.wanting (.negation :: stack)) := rfl
        simp only [tokens, List.foldlM_cons, hoperator, Option.bind_eq_bind, Option.bind_some,
          hread]
      · rw [hcomplete k (Nat.le_trans hk hmnot), complete, if_pos (Nat.le_trans hk hmnot)]

/-- **The reader is given back the formula whose tokens it reads.** -/
theorem readTokens_tokens {f : Formula} (hplain : f.Plain) (hgraded : f.Graded) :
    readTokens f.tokens = some f := by
  obtain ⟨stack, g, hread, hcomplete⟩ :=
    leaves_tokens f hplain hgraded [] 0 (fun _ _ => trivial) (fun _ _ => Nat.zero_le _)
  have hall : complete 0 stack g = ([], f) := hcomplete 0 (Nat.le_refl 0)
  simp only [readTokens, hread, Option.bind_eq_bind, Option.bind_some, Reading.result, hall]

end Formula

/-! ## 3. Reading text -/

namespace Token

/-- The token that a word is. -/
def ofWord (w : List Char) : Token :=
  if w = ['('] then opening
  else if w = [')'] then closing
  else match Operator.all.find? fun o => o.sql.toList == w with
    | some o => operator o
    | none => name (String.ofList w)

/-- The character belongs to a word, with the characters around it. -/
def isWordChar (c : Char) : Bool := c != ' ' && c != '(' && c != ')'

/-- A word that ends, unless there is none. -/
def ended (w : List Char) : List (List Char) := if w.isEmpty then [] else [w]

/-- Cuts characters into words: blanks divide words, and parentheses are words of their own. The
word `w` has begun before. -/
def scan : List Char → List Char → List (List Char)
  | w, [] => ended w
  | w, c :: cs =>
      if isWordChar c then scan (w ++ [c]) cs
      else if c = ' ' then ended w ++ scan [] cs
      else ended w ++ [c] :: scan [] cs

/-- No word goes on into the characters. -/
def Apart (cs : List Char) : Prop := ∀ c ∈ cs.head?, isWordChar c = false

theorem scan_word {v : List Char} (h : ∀ c ∈ v, isWordChar c = true) :
    ∀ w rest, scan w (v ++ rest) = scan (w ++ v) rest := by
  induction v with
  | nil => intro w rest; rw [List.nil_append, List.append_nil]
  | cons c v ih =>
      intro w rest
      rw [List.cons_append, scan, if_pos (h c List.mem_cons_self),
        ih fun d hd => h d (List.mem_cons_of_mem _ hd), List.append_assoc, List.singleton_append]

theorem scan_apart {rest : List Char} (h : Apart rest) (w : List Char) :
    scan w rest = ended w ++ scan [] rest := by
  cases rest with
  | nil => simp [scan, ended]
  | cons c cs =>
      have hc : isWordChar c = false := h c rfl
      simp only [scan, hc, Bool.false_eq_true, if_false]
      split <;> simp [ended]

/-- A word is cut off where it ends. -/
theorem scan_word_apart {v rest : List Char} (hv : ∀ c ∈ v, isWordChar c = true) (hne : v ≠ [])
    (hrest : Apart rest) : scan [] (v ++ rest) = v :: scan [] rest := by
  rw [scan_word hv, List.nil_append, scan_apart hrest]
  simp [ended, hne]

theorem isWordChar_of_mem_sql (o : Operator) : ∀ c ∈ o.sql.toList, isWordChar c = true := by
  have hall : o.sql.toList.all isWordChar = true := by
    cases o <;> rfl
  exact List.all_eq_true.mp hall

theorem isWordChar_of_continuesName {c : Char} (h : continuesName c = true) :
    isWordChar c = true := by
  have hblank : continuesName ' ' = false := by decide
  have hopening : continuesName '(' = false := by decide
  have hclosing : continuesName ')' = false := by decide
  simp only [isWordChar, Bool.and_eq_true, bne_iff_ne]
  refine ⟨⟨?_, ?_⟩, ?_⟩
  · rintro rfl; rw [hblank] at h; cases h
  · rintro rfl; rw [hopening] at h; cases h
  · rintro rfl; rw [hclosing] at h; cases h

theorem ofWord_sql (o : Operator) : ofWord o.sql.toList = operator o := by
  cases o <;> decide

/-- A plain name is no other token. -/
theorem ofWord_name {s : String} (h : isPlainName s.toList = true) : ofWord s.toList = name s := by
  have hopening : s.toList ≠ ['('] := by
    intro e; rw [e] at h; revert h; decide
  have hclosing : s.toList ≠ [')'] := by
    intro e; rw [e] at h; revert h; decide
  have hoperator : Operator.all.find? (fun o => o.sql.toList == s.toList) = none := by
    rw [List.find?_eq_none]
    intro o _ e
    rw [← beq_iff_eq.mp e] at h
    revert h
    cases o <;> decide
  rw [ofWord, if_neg hopening, if_neg hclosing, hoperator, String.ofList_toList]

/-- The tokens of a text. -/
def lex (cs : List Char) : List Token := (scan [] cs).map ofWord

theorem lex_blank (rest : List Char) : lex (' ' :: rest) = lex rest := rfl

theorem lex_opening (rest : List Char) : lex ('(' :: rest) = opening :: lex rest := rfl

theorem lex_closing (rest : List Char) : lex (')' :: rest) = closing :: lex rest := rfl

theorem apart_blank (rest : List Char) : Apart (' ' :: rest) := by
  intro c hc
  obtain rfl := Option.some.inj hc
  decide

theorem apart_closing (rest : List Char) : Apart (')' :: rest) := by
  intro c hc
  obtain rfl := Option.some.inj hc
  decide

/-- An operator before a blank is a token. -/
theorem lex_operator (o : Operator) (rest : List Char) :
    lex (o.sql.toList ++ ' ' :: rest) = operator o :: lex rest := by
  have hne : o.sql.toList ≠ [] := by cases o <;> decide
  rw [lex, scan_word_apart (isWordChar_of_mem_sql o) hne (apart_blank rest), List.map_cons,
    ofWord_sql]
  rfl

/-- A name that can stand as it is is a token. -/
theorem lex_name {s : String} (h : requiresQuotes s = false) {rest : List Char}
    (hrest : Apart rest) : lex (s.toList ++ rest) = name s :: lex rest := by
  obtain ⟨hplain, -⟩ := requiresQuotes_eq_false_iff.mp h
  have hne : s.toList ≠ [] := by
    intro e
    rw [e] at hplain
    cases hplain
  have hchars : ∀ c ∈ s.toList, isWordChar c = true := by
    intro c hc
    refine isWordChar_of_continuesName ?_
    cases hs : s.toList with
    | nil => exact absurd hs hne
    | cons d ds =>
        rw [hs, isPlainName, Bool.and_eq_true] at hplain
        exact List.all_eq_true.mp hplain.2 c (hs ▸ hc)
  rw [lex, scan_word_apart hchars hne hrest, List.map_cons, ofWord_name hplain]
  rfl

/-- The text of the tokens is cut into them, whatever comes behind it. -/
def Lexes (ts : List Token) : Prop :=
  ∀ rest, Apart rest → lex ((spell ts).toList ++ rest) = ts ++ lex rest

theorem lexes_bracket {ts : List Token} (h : Lexes ts) (inParentheses : Bool) :
    Lexes (bracket inParentheses ts) := by
  cases inParentheses with
  | false => exact h
  | true =>
      intro rest hrest
      have hchars : (spell (bracket true ts)).toList ++ rest =
          '(' :: ((spell ts).toList ++ ')' :: rest) := by
        simp [bracket, spelling, String.toList_append]
      rw [hchars, lex_opening, h _ (apart_closing rest), lex_closing]
      simp [bracket]

end Token

namespace Formula

open Token in
/-- **The text of a formula is cut into the tokens of the formula.** -/
theorem lexes_tokens : ∀ f : Formula, f.Plain → Lexes f.tokens
  | column s, hplain => by
      intro rest hrest
      have hchars : (spell (column s).tokens).toList ++ rest = s.toList ++ rest := by
        simp [tokens, spelling]
      rw [hchars, lex_name hplain hrest]
      rfl
  | op left o right, hplain => by
      obtain ⟨hleft, hright, hcomma, hnot⟩ := hplain
      have hl := lexes_bracket (lexes_tokens left hleft) (left.looserThan o)
      have hr := lexes_bracket (lexes_tokens right hright) (right.looserThan o)
      intro rest hrest
      have hseparator : o.separator.toList = ' ' :: (o.sql.toList ++ [' ']) := by
        revert hcomma
        cases o <;> decide
      have hchars : (spell (op left o right).tokens).toList ++ rest =
          (spell (bracket (left.looserThan o) left.tokens)).toList ++ ' ' :: (o.sql.toList ++
            ' ' :: ((spell (bracket (right.looserThan o) right.tokens)).toList ++ rest)) := by
        simp [tokens, spelling_operator hnot, hseparator, String.toList_append]
      rw [hchars, hl _ (apart_blank _), lex_blank, lex_operator, hr rest hrest]
      simp [tokens]
  | not f, hplain => by
      have hf := lexes_bracket (lexes_tokens f hplain) (f.looserThan .not)
      intro rest hrest
      have hchars : (spell (not f).tokens).toList ++ rest = Operator.not.sql.toList ++
          ' ' :: ((spell (bracket (f.looserThan .not) f.tokens)).toList ++ rest) := by
        simp [tokens, spelling, String.toList_append, Operator.sql]
      rw [hchars, lex_operator, hf rest hrest]
      simp [tokens]

/-- The formula that a text is read as. -/
def read (text : String) : Option Formula := readTokens (Token.lex text.toList)

/-- **Reading the text of a formula gives back the formula.** -/
theorem read_text {f : Formula} (hplain : f.Plain) (hgraded : f.Graded) :
    read f.text = some f := by
  have hlex : Token.lex f.text.toList = f.tokens := by
    have h := lexes_tokens f hplain [] nofun
    rw [List.append_nil] at h
    exact h.trans (List.append_nil _)
  rw [read, hlex, readTokens_tokens hplain hgraded]

/-! ## 4. Texts of formulas -/

theorem values_selfGroup {n : Node} (h : n.values = []) (against : Option Operator) :
    (n.selfGroup against).values = [] := by
  rw [Node.selfGroup]
  split
  · rw [Node.grouping, Node.values_mk]
    simp [Clause.map, Clause.values, Clause.attributes, Attribute.values, Attribute.parts, h]
  · exact h

/-- The tree of a formula binds nothing. -/
theorem values_node : ∀ f : Formula, f.node.values = []
  | column _ => rfl
  | op left o right => by
      have hl := values_selfGroup (values_node left) (some o)
      have hr := values_selfGroup (values_node right) (some o)
      rw [node, Node.op, Node.values_mk]
      simp [Clause.map, Clause.values, Clause.attributes, Attribute.values, Attribute.parts, hl, hr]
  | not f => by
      have hf := values_selfGroup (values_node f) (some .not)
      rw [node, Node.not, Node.values_mk]
      simp [Clause.map, Clause.values, Clause.attributes, Attribute.values, Attribute.parts, hf]

/-- The tree of a formula agrees with itself. -/
theorem agrees_node_self (f : Formula) : f.node.agrees f.node = true := by
  rw [Node.agrees_iff, values_node]
  exact ⟨rfl, .nil⟩

end Formula

namespace Compiler

/-- Compilers write the text of a formula, in every dialect that quotes in the common way. -/
theorem compile_formula {s : Settings} (hs : s.registry = .core ∨ s.registry = .postgresql)
    (hkeeps : s.dialect.KeepsQuoting) (collected : List Value) {f : Formula} (hf : f.Plain) :
    ((having s collected).compile f.node).1 = .ok ⟨f.text, []⟩ := by
  have hrules := Registry.rendersFormulas_of hs
  have hquote : ∀ name, requiresQuotes name = false → s.dialect.quote name = name := by
    intro name h
    rw [hkeeps.quote_eq, h]
    rfl
  exact compile_of_yields (Formula.yields_text (σ := s.style false) hrules hquote f hf) collected

/-- **Formulas that are compiled to one text have trees that agree**, in every dialect that quotes in
the common way: what is compiled of a formula is read back as the formula, by the precedences of its
operators, from left to right, with negation as a prefix, and with the parentheses that are
there. -/
theorem agrees_of_sql_eq {s : Settings} (hs : s.registry = .core ∨ s.registry = .postgresql)
    (hkeeps : s.dialect.KeepsQuoting) (collected : List Value) {f g : Formula} (hf : f.Plain)
    (hfGraded : f.Graded) (hg : g.Plain) (hgGraded : g.Graded) :
    (∃ r, ((having s collected).compile f.node).1 = .ok r ∧ Formula.read r.sql = some f) ∧
    ∀ r r', ((having s collected).compile f.node).1 = .ok r →
      ((having s collected).compile g.node).1 = .ok r' → r.sql = r'.sql →
        f.node.agrees g.node = true := by
  have hftext := compile_formula hs hkeeps collected hf
  have hgtext := compile_formula hs hkeeps collected hg
  refine ⟨⟨_, hftext, Formula.read_text hf hfGraded⟩, fun r r' hr hr' hsql => ?_⟩
  obtain rfl := Except.ok.inj (hftext.symm.trans hr)
  obtain rfl := Except.ok.inj (hgtext.symm.trans hr')
  have hread := Formula.read_text hf hfGraded
  rw [show f.text = g.text from hsql, Formula.read_text hg hgGraded] at hread
  obtain rfl := Option.some.inj hread
  exact Formula.agrees_node_self _

/-- A condition with operators of five levels and a negation. -/
def condition : Formula :=
  .op (.op (.op (.op (.column "a") .sub (.column "b")) .mul (.column "c")) .eq (.column "d")) .and
    (.not (.op (.column "e") .or (.op (.column "a") .like (.column "b"))))

theorem agrees_of_sql_eq_condition :
    condition.Plain ∧ condition.Graded ∧
      ((having ⟨.postgresql, .postgresql, false⟩ []).compile condition.node).1 =
        .ok ⟨"(a - b) * c = d AND NOT (e OR a LIKE b)", []⟩ ∧
      Formula.read "(a - b) * c = d AND NOT (e OR a LIKE b)" = some condition ∧
      condition.node.agrees condition.node = true := by
  have hplain : condition.Plain := by decide
  have hgraded : condition.Graded := by decide
  have hcompile : ((having ⟨.postgresql, .postgresql, false⟩ []).compile condition.node).1 =
      .ok ⟨"(a - b) * c = d AND NOT (e OR a LIKE b)", []⟩ := rfl
  obtain ⟨⟨r, hr, hread⟩, hagrees⟩ := agrees_of_sql_eq (s := ⟨.postgresql, .postgresql, false⟩)
    (.inr rfl) Dialect.keepsQuoting_postgresql [] hplain hgraded hplain hgraded
  obtain rfl := Except.ok.inj (hcompile.symm.trans hr)
  exact ⟨hplain, hgraded, hcompile, hread, hagrees _ _ hcompile hcompile rfl⟩

end Compiler

end SqlClause
