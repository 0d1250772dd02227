import SqlClause.Proofs.Assembly
import SqlClause.Proofs.Template

/-!
# `DISTINCT ON` from one side or from the other

Terms for `DISTINCT ON` can be given to the statement itself, or to an extension that is applied to
it. In PostgreSQL the caller cannot tell the difference: the same terms are refused, at the same
step and for the same reason, and the statements are rendered alike. They are not the same
statements: one is the other with its own terms moved into the clause of an extension
(`Select.moveToExtension`), and that move goes along with every step and leaves the rendering as it
is.

* `Blind.moveToExtension`, `Select.extendDistinctOn_moveToExtension`: one step;
* `Move.takeAll_moveToExtension`: any number of steps;
* `Node.render_moveToExtension`: the rendering;
* **`Compiler.compile_addDistinctOn_eq_extendDistinctOn`**: the two sides come to the same.
-/

namespace SqlClause

/-! ## 1. Two ways of asking -/

/-- The statement with terms of `DISTINCT ON` put into it by an extension. -/
def Select.extendDistinctOn (s : Statement) (terms : List Argument) : Except Error Statement := do
  s.extend (← Extension.readDistinctOn terms)

/-- A step of a caller who gives terms to `DISTINCT ON` always in the same way. -/
inductive Move where
  | build (b : Builder)
  | hint (a : Argument)
  | distinctOn (terms : List Argument)

namespace Move

/-- The statement after a step, where `ask` is the way in which terms are given. -/
def take (ask : Statement → List Argument → Except Error Statement) (s : Statement) :
    Move → Except Error Statement
  | build b => b.apply s
  | hint a => do s.extend (← Extension.readHint a)
  | distinctOn terms => ask s terms

/-- The statement after steps that are counted from `k`, or the first step that fails. -/
def takeAll (ask : Statement → List Argument → Except Error Statement) (k : Nat) (s : Statement) :
    List Move → Except (Nat × Error) Statement
  | [] => .ok s
  | m :: rest =>
      match m.take ask s with
      | .ok t => takeAll ask (k + 1) t rest
      | .error e => .error (k, e)

/-- The step does not ask for `DISTINCT ON` without terms. -/
def HasTerms : Move → Prop
  | distinctOn terms => terms ≠ []
  | build _ | hint _ => True

end Move

/-! ## 2. Moving the terms -/

namespace Select

/-- The statement with something else said about `DISTINCT ON`. -/
def withDistinctOn {α : Type} (s : Select α) (own : List α) (claimed : Bool) (pre : List α) :
    Select α :=
  { s with distinctOn := own, distinctOnClaimed := claimed, preColumns := pre }

/-- The statement with its own terms, if there are any, in the clause of an extension. -/
def moveToExtension (s : Statement) : Statement :=
  if s.distinctOn = [] then s else s.withDistinctOn [] true [⟨.distinctOn s.distinctOn⟩]

/-- No extension has a part in `DISTINCT ON`; if there are terms, the statement is `DISTINCT`. -/
structure OwnOnly (s : Statement) : Prop where
  unclaimed : s.distinctOnClaimed = false
  preColumns : s.preColumns = []
  distinct : s.distinctOn ≠ [] → s.distinct = true

variable {s t : Statement}

theorem moveToExtension_of_nil (h : s.distinctOn = []) : s.moveToExtension = s := if_pos h

theorem moveToExtension_of_ne_nil (h : s.distinctOn ≠ []) :
    s.moveToExtension = s.withDistinctOn [] true [⟨.distinctOn s.distinctOn⟩] := if_neg h

/-- The move changes nothing but what is said about `DISTINCT ON`, and leaves no terms behind. -/
theorem exists_moveToExtension_eq (s : Statement) :
    ∃ claimed pre, s.moveToExtension = s.withDistinctOn [] claimed pre := by
  by_cases h : s.distinctOn = []
  · refine ⟨s.distinctOnClaimed, s.preColumns, ?_⟩
    rw [moveToExtension_of_nil h, withDistinctOn, ← h]
  · exact ⟨_, _, moveToExtension_of_ne_nil h⟩

/-- Terms that are added after the move come behind those that were moved. -/
theorem mergeDistinctOn_moveToExtension (h : s.OwnOnly) (terms : List Node) :
    Extension.mergeDistinctOn terms s.moveToExtension.preColumns =
      [⟨.distinctOn (s.distinctOn ++ terms)⟩] := by
  by_cases hown : s.distinctOn = []
  · rw [moveToExtension_of_nil hown, h.preColumns, hown]
    exact Extension.mergeDistinctOn_nil terms
  · rw [moveToExtension_of_ne_nil hown]
    exact Extension.mergeDistinctOn_distinctOn terms s.distinctOn

theorem OwnOnly.of_keeps (h : s.OwnOnly) (hkeeps : Builder.Keeps s t) : t.OwnOnly where
  unclaimed := hkeeps.distinctOnClaimed.trans h.unclaimed
  preColumns := hkeeps.preColumns.trans h.preColumns
  distinct := by
    rw [hkeeps.distinctOn]
    exact fun hterms => hkeeps.distinct (h.distinct hterms)

end Select

/-! ## 3. The move goes along with every step -/

/-- A change of statements that does not look at what is said about `DISTINCT ON`. -/
def Blind (f : Statement → Except Error Statement) : Prop :=
  ∀ s own claimed pre, f (s.withDistinctOn own claimed pre) =
    (f s).map (·.withDistinctOn own claimed pre)

namespace Blind

variable {f : Statement → Except Error Statement} {s t : Statement}

/-- What is not looked at is not changed either: the statement could be given its own words. -/
theorem distinctOn_eq (hf : Blind f) (ht : f s = .ok t) : t.distinctOn = s.distinctOn := by
  have hown : f s = (f s).map (·.withDistinctOn s.distinctOn s.distinctOnClaimed s.preColumns) :=
    hf s s.distinctOn s.distinctOnClaimed s.preColumns
  rw [ht, Except.map] at hown
  have heq : t = t.withDistinctOn s.distinctOn s.distinctOnClaimed s.preColumns :=
    Except.ok.inj hown
  rw [heq]
  rfl

theorem moveToExtension (hf : Blind f) (s : Statement) :
    f s.moveToExtension = (f s).map Select.moveToExtension := by
  by_cases hown : s.distinctOn = []
  · rw [Select.moveToExtension_of_nil hown]
    cases ht : f s with
    | error e => rfl
    | ok t =>
        have hkept : t.distinctOn = [] := (hf.distinctOn_eq ht).trans hown
        rw [Except.map, Select.moveToExtension_of_nil hkept]
  · rw [Select.moveToExtension_of_ne_nil hown, hf]
    cases ht : f s with
    | error e => rfl
    | ok t =>
        have hkept : t.distinctOn = s.distinctOn := hf.distinctOn_eq ht
        rw [Except.map, Except.map, Select.moveToExtension_of_ne_nil (hkept ▸ hown), hkept]

end Blind

theorem Builder.blind_apply (b : Builder) : Blind b.apply := by
  intro s own claimed pre
  cases b with
  | addGroupBy terms | addOrderBy terms =>
      simp only [apply, Select.addGroupBy_eq, Select.addOrderBy_eq]
      cases Select.readTerms terms <;> rfl
  | _ => rfl

/-- A hint that can be read goes to the end, whatever way of giving terms it stands between. -/
theorem Move.take_hint (ask : Statement → List Argument → Except Error Statement) (s : Statement)
    (a : Argument) :
    (hint a).take ask s =
      (coerce .option a).map fun n => { s with postBody := s.postBody ++ [⟨.hint n⟩] } := by
  show (do s.extend (← Extension.hint <$> coerce .option a)) = _
  cases coerce .option a <;> rfl

theorem Move.blind_hint (ask : Statement → List Argument → Except Error Statement) (a : Argument) :
    Blind ((hint a).take ask) := by
  intro s own claimed pre
  show (hint a).take ask _ = ((hint a).take ask s).map _
  rw [take_hint, take_hint]
  cases coerce .option a <;> rfl

namespace Select

variable {s t : Statement}

theorem readDistinctOn_eq (terms : List Argument) :
    Extension.readDistinctOn terms = (readTerms terms).bind fun ns =>
      if ns = [] then .error (.empty .distinctOnTerms) else .ok (.distinctOn ns) := by
  unfold Extension.readDistinctOn
  cases readTerms terms with
  | error e => rfl
  | ok ns => cases ns <;> rfl

theorem readTerms_cons (a : Argument) (rest : List Argument) :
    readTerms (a :: rest) = (coerce .byOf a).bind fun n => (readTerms rest).map (n :: ·) := by
  rw [readTerms, List.mapM_cons]
  exact congrArg (Except.bind _) (funext fun n => bind_pure_comp (n :: ·) (readTerms rest))

/-- Every argument that is read gives a term. -/
theorem readTerms_ne_nil {terms : List Argument} {ns : List Node} (h : readTerms terms = .ok ns)
    (hterms : terms ≠ []) : ns ≠ [] := by
  obtain ⟨a, rest, rfl⟩ := List.exists_cons_of_ne_nil hterms
  rintro rfl
  rw [readTerms_cons] at h
  cases ha : coerce .byOf a with
  | error e => rw [ha] at h; cases h
  | ok n =>
      rw [ha] at h
      obtain ⟨others, -, hcons⟩ := exists_of_map_eq_ok h
      cases hcons

/-- Without an extension, terms of the statement's own fail only where they cannot be read. -/
theorem OwnOnly.addDistinctOn_eq (h : s.OwnOnly) (terms : List Argument) :
    s.addDistinctOn terms = (readTerms terms).map fun ns =>
      { s with distinctOn := s.distinctOn ++ ns, distinct := true } := by
  rw [Select.addDistinctOn_eq, h.unclaimed]
  cases readTerms terms <;> simp [Except.bind, Except.map]

/-- **Terms of its own or terms of an extension**: as long as the statement has only the one kind,
the other kind comes to the same after the move. -/
theorem extendDistinctOn_moveToExtension (h : s.OwnOnly) {terms : List Argument}
    (hterms : terms ≠ []) :
    s.moveToExtension.extendDistinctOn terms = (s.addDistinctOn terms).map moveToExtension := by
  rw [extendDistinctOn, h.addDistinctOn_eq, readDistinctOn_eq]
  cases hread : readTerms terms with
  | error e => rfl
  | ok ns =>
      have hne : ns ≠ [] := readTerms_ne_nil hread hterms
      have hmoved : moveToExtension { s with distinctOn := s.distinctOn ++ ns, distinct := true } =
          withDistinctOn { s with distinct := true } [] true
            [⟨.distinctOn (s.distinctOn ++ ns)⟩] :=
        moveToExtension_of_ne_nil (List.append_ne_nil_of_right_ne_nil _ hne)
      obtain ⟨claimed, pre, heq⟩ := exists_moveToExtension_eq s
      have hown : s.moveToExtension.distinctOn = [] := by
        rw [heq]
        rfl
      simp only [Except.bind, if_neg hne, Except.map]
      rw [hmoved, ← mergeDistinctOn_moveToExtension h ns]
      show s.moveToExtension.extend (.distinctOn ns) = _
      rw [extend_distinctOn, if_pos hown, heq]
      rfl

/-- The statement has no terms but its own after terms of its own. -/
theorem OwnOnly.addDistinctOn (h : s.OwnOnly) {terms : List Argument}
    (ht : s.addDistinctOn terms = .ok t) : t.OwnOnly := by
  obtain ⟨ns, -, rfl⟩ := exists_of_addDistinctOn ht
  exact ⟨h.unclaimed, h.preColumns, fun _ => rfl⟩

end Select

namespace Move

open Select

variable {s t : Statement}

/-- **The move goes along with a step.** -/
theorem take_moveToExtension (h : s.OwnOnly) {m : Move} (hm : m.HasTerms) :
    m.take extendDistinctOn s.moveToExtension =
      (m.take addDistinctOn s).map moveToExtension := by
  cases m with
  | build b => exact b.blind_apply.moveToExtension s
  | hint a => exact (blind_hint addDistinctOn a).moveToExtension s
  | distinctOn terms => exact extendDistinctOn_moveToExtension h hm

theorem ownOnly_of_take (h : s.OwnOnly) {m : Move} (ht : m.take addDistinctOn s = .ok t) :
    t.OwnOnly := by
  cases m with
  | build b => exact h.of_keeps (Builder.keeps_of_apply ht)
  | hint a =>
      rw [take_hint] at ht
      obtain ⟨n, -, rfl⟩ := exists_of_map_eq_ok ht
      exact ⟨h.unclaimed, h.preColumns, h.distinct⟩
  | distinctOn terms => exact h.addDistinctOn ht

end Move

/-! ## 4. The move leaves the rendering as it is -/

namespace Layout

open RenderM

variable {α : Type}

/-- What is between `SELECT` and the columns. -/
def opening (σ : Style) (s : Select α) : Layout α := distinctWord σ s ++ clausesBefore s.preColumns

/-- A statement from its columns on. -/
def body (σ : Style) (sources : List Relation) (s : Select α) : Layout α :=
  selectList s.columns ++ fixed (fromText σ sources) ++ criterion s.criterion
    ++ clausesAfter s.postCriteria ++ termList " GROUP BY " s.groupBy
    ++ termList " ORDER BY " s.orderBy
    ++ fixed (RenderM.numberText " LIMIT " s.limit ++ RenderM.numberText " OFFSET " s.offset)
    ++ clausesAfter s.postBody

variable {σ : Style} {settings : Settings} {s : Select (RenderM String)}

theorem run_select (sources : List Relation) :
    run (select σ sources s) settings = (do
      return "SELECT " ++ (← run (opening σ s) settings) ++
        (← run (body σ sources s) settings)) := by
  have hsplit : select σ sources s = fixed "SELECT " ++ opening σ s ++ body σ sources s := by
    simp only [select, opening, body, List.append_assoc]
  rw [hsplit]
  simp only [run_append, run_fixed, bind_at, pure_at, pure_bind, bind_assoc]

/-- **`DISTINCT ON` of the statement's own** is `DISTINCT` with the clause of an extension behind
it. -/
theorem run_opening_withDistinctOn (hsupports : σ.supportsDistinctOn = true)
    (hterms : s.distinctOn ≠ []) (hpre : s.preColumns = []) (hdistinct : s.distinct = true)
    {x : RenderM String}
    (hx : x settings = run (fixed "ON (" ++ separated ", " s.distinctOn ++ fixed ")") settings) :
    run (opening σ (s.withDistinctOn [] true [x])) settings = run (opening σ s) settings := by
  have hempty : s.distinctOn.isEmpty = false := List.isEmpty_eq_false_iff.mpr hterms
  have hown : opening σ s =
      fixed "DISTINCT ON (" ++ separated ", " s.distinctOn ++ fixed ") " ++ [] := by
    rw [opening, distinctWord, hempty, hsupports, hpre]
    rfl
  have hextended : opening σ (s.withDistinctOn [] true [x]) =
      fixed (if s.distinct then "DISTINCT " else "") ++ (part x ++ fixed " " ++ []) := rfl
  -- the two texts break at different places
  have htext : ∀ terms : String,
      "DISTINCT " ++ ("ON (" ++ terms ++ ")" ++ " ") = "DISTINCT ON (" ++ terms ++ ") " := by
    intro terms
    have hopen : "DISTINCT ON (" = "DISTINCT " ++ "ON (" := rfl
    have hclose : ") " = ")" ++ " " := rfl
    rw [hopen, hclose]
    simp only [String.append_assoc]
  rw [hown, hextended, hdistinct, List.append_nil, List.append_nil]
  simp only [run_append, run_fixed, run_part, bind_at, pure_at, hx, pure_bind, bind_assoc, htext,
    if_true]

end Layout

namespace Node

open Select

variable {s : Statement} {settings : Settings}

/-- **The move leaves the rendering as it is**, where there is `DISTINCT ON` and the clause of the
extension is rendered as what it is. -/
theorem render_moveToExtension (h : s.OwnOnly)
    (hsupports : settings.dialect.supportsDistinctOn = true)
    (hselect : settings.registry.element? "select" = some .select)
    (hclause : settings.registry.element? "postgresql_distinct_on" = some .distinctOn) :
    (select s.moveToExtension).render settings = (select s).render settings := by
  by_cases hown : s.distinctOn = []
  · rw [moveToExtension_of_nil hown]
  · have hrendered : ∀ t : Statement, (select t).render settings =
        (Layout.select (settings.style false) t.relations (t.map render)).run settings := by
      intro t
      have hrule : (select t).render settings = _ := render_of_rule hselect
      exact hrule.trans (Layout.select_at settings false t.relations (t.map render))
    have hx : (mk (.distinctOn s.distinctOn)).render settings =
        (Layout.fixed "ON (" ++ Layout.separated ", " (s.distinctOn.map render)
          ++ Layout.fixed ")").run settings := by
      have hrule : (mk (.distinctOn s.distinctOn)).render settings = _ := render_of_rule hclause
      rw [hrule]
      funext p
      exact ElementRule.apply_of_mem (List.mem_singleton_self _) settings p
    have hterms : (s.map render).distinctOn ≠ [] := by
      rw [Select.map]
      exact mt List.map_eq_nil_iff.mp hown
    have hpre : (s.map render).preColumns = [] := by
      rw [Select.map, h.preColumns]
      rfl
    have hopening := Layout.run_opening_withDistinctOn (σ := settings.style false) hsupports hterms
      hpre (h.distinct hown) hx
    have hmap : (s.withDistinctOn [] true [⟨.distinctOn s.distinctOn⟩]).map render =
        (s.map render).withDistinctOn [] true [(mk (.distinctOn s.distinctOn)).render] := rfl
    rw [moveToExtension_of_ne_nil hown, hrendered, hrendered, Layout.run_select,
      Layout.run_select, hmap, hopening]
    rfl

end Node

/-! ## 5. The two sides come to the same -/

/-- The failure is that an argument cannot play its role. -/
def Error.isCoercion : Error → Bool
  | coercion .. => true
  | _ => false

theorem isCoercion_of_coerce {role : Role} {a : Argument} {e : Error}
    (h : coerce role a = .error e) : e.isCoercion = true := by
  unfold coerce coerceWith at h
  split at h
  · split at h <;> cases h
    rfl
  · split at h <;> cases h
    rfl

namespace Select

theorem isCoercion_of_readTerms {e : Error} : ∀ {terms : List Argument},
    readTerms terms = .error e → e.isCoercion = true
  | [], h => nomatch h
  | a :: rest, h => by
      rw [readTerms_cons] at h
      cases ha : coerce .byOf a with
      | error e' =>
          rw [ha] at h
          obtain rfl := Except.error.inj h
          exact isCoercion_of_coerce ha
      | ok n =>
          rw [ha] at h
          exact isCoercion_of_readTerms (eq_error_of_map_eq_error h)

end Select

namespace Move

open Select

variable {s t : Statement} {e : Error}

/-- A step fails for its arguments only: without an extension there is no conflict. -/
theorem isCoercion_of_take (h : s.OwnOnly) {m : Move} (he : m.take addDistinctOn s = .error e) :
    e.isCoercion = true := by
  cases m with
  | build b =>
      cases b with
      | addGroupBy terms | addOrderBy terms =>
          simp only [take, Builder.apply, addGroupBy_eq, addOrderBy_eq] at he
          exact isCoercion_of_readTerms (eq_error_of_map_eq_error he)
      | _ => cases he
  | hint a =>
      rw [take_hint] at he
      exact isCoercion_of_coerce (eq_error_of_map_eq_error he)
  | distinctOn terms =>
      rw [take, h.addDistinctOn_eq] at he
      exact isCoercion_of_readTerms (eq_error_of_map_eq_error he)

/-- **Both callers get through, or both fail** at the same step and for the same reason; and if they
get through, the move leads from the one statement to the other. -/
theorem takeAll_moveToExtension : ∀ {ms : List Move} {s : Statement} (k : Nat), s.OwnOnly →
    (∀ m ∈ ms, m.HasTerms) →
    (∃ j e, e.isCoercion = true ∧ takeAll addDistinctOn k s ms = .error (j, e) ∧
      takeAll extendDistinctOn k s.moveToExtension ms = .error (j, e)) ∨
    ∃ t : Statement, t.OwnOnly ∧ takeAll addDistinctOn k s ms = .ok t ∧
      takeAll extendDistinctOn k s.moveToExtension ms = .ok t.moveToExtension
  | [], s, _, h, _ => .inr ⟨s, h, rfl, rfl⟩
  | m :: rest, s, k, h, hms => by
      have hmoved : m.take extendDistinctOn s.moveToExtension =
          (m.take addDistinctOn s).map moveToExtension :=
        take_moveToExtension h (hms m List.mem_cons_self)
      rw [takeAll, takeAll, hmoved]
      cases ht : m.take addDistinctOn s with
      | error e => exact .inl ⟨k, e, isCoercion_of_take h ht, rfl, rfl⟩
      | ok t =>
          exact takeAll_moveToExtension (k + 1) (ownOnly_of_take h ht)
            fun m' hm' => hms m' (List.mem_cons_of_mem _ hm')

end Move

namespace Compiler

open Select Move

/-- **`DISTINCT ON` by the statement or by an extension comes to the same in PostgreSQL.** From a
statement about which nothing of the kind was said yet, both ways of giving terms fail at the same
step with the same refusal of an argument, or lead to statements that compile alike. -/
theorem compile_addDistinctOn_eq_extendDistinctOn {s : Statement}
    (hunclaimed : s.distinctOnClaimed = false) (hown : s.distinctOn = [])
    (hpre : s.preColumns = []) {moves : List Move} (hmoves : ∀ m ∈ moves, m.HasTerms) :
    (∃ k e, e.isCoercion = true ∧ takeAll addDistinctOn 0 s moves = .error (k, e) ∧
      takeAll extendDistinctOn 0 s moves = .error (k, e)) ∨
    ∃ a b, takeAll addDistinctOn 0 s moves = .ok a ∧ takeAll extendDistinctOn 0 s moves = .ok b ∧
      ∀ (literalBinds : Bool) (collected : List Value),
        (having ⟨.postgresql, .postgresql, literalBinds⟩ collected).compile (Node.select a) =
          (having ⟨.postgresql, .postgresql, literalBinds⟩ collected).compile (Node.select b) := by
  have hs : s.OwnOnly := ⟨hunclaimed, hpre, fun hterms => absurd hown hterms⟩
  have hruns := takeAll_moveToExtension 0 hs hmoves
  rw [moveToExtension_of_nil hown] at hruns
  rcases hruns with hfail | ⟨t, ht, hadd, hextend⟩
  · exact .inl hfail
  · refine .inr ⟨t, t.moveToExtension, hadd, hextend, fun literalBinds collected => ?_⟩
    refine compile_congr (Node.render_moveToExtension ht ?_ ?_ ?_).symm <;> rfl

/-- Two lists of terms, with a hint and a limit between them. -/
def distinctOnTwice : List Move :=
  [.distinctOn [.value (.text "a")], .hint (.value (.text "FOR UPDATE")), .build (.setLimit 5),
    .distinctOn [.element (Node.literal (.int 7)), .element (Node.column "b")]]

theorem compile_addDistinctOn_eq_extendDistinctOn_twice :
    (∀ m ∈ distinctOnTwice, m.HasTerms) ∧
    ∃ a b, takeAll addDistinctOn 0 (ofColumns [Node.column "c"]) distinctOnTwice = .ok a ∧
      takeAll extendDistinctOn 0 (ofColumns [Node.column "c"]) distinctOnTwice = .ok b ∧
      ((having ⟨.postgresql, .postgresql, false⟩ []).compile (Node.select a)).1 =
        .ok ⟨"SELECT DISTINCT ON (a, $1, b) c LIMIT 5 FOR UPDATE", [.int 7]⟩ ∧
      ((having ⟨.postgresql, .postgresql, false⟩ []).compile (Node.select b)).1 =
        .ok ⟨"SELECT DISTINCT ON (a, $1, b) c LIMIT 5 FOR UPDATE", [.int 7]⟩ := by
  have hmoves : ∀ m ∈ distinctOnTwice, m.HasTerms := by
    simp [distinctOnTwice, HasTerms]
  refine ⟨hmoves, ?_⟩
  rcases compile_addDistinctOn_eq_extendDistinctOn (s := ofColumns [Node.column "c"]) rfl rfl rfl
    hmoves with ⟨k, e, -, hadd, -⟩ | ⟨a, b, hadd, hextend, hsame⟩
  · cases hadd
  · have ha : ((having ⟨.postgresql, .postgresql, false⟩ []).compile (Node.select a)).1 =
        .ok ⟨"SELECT DISTINCT ON (a, $1, b) c LIMIT 5 FOR UPDATE", [.int 7]⟩ := by
      obtain rfl := Except.ok.inj hadd
      rfl
    exact ⟨a, b, hadd, hextend, ha, hsame false [] ▸ ha⟩

end Compiler

end SqlClause
