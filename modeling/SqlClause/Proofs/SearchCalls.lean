import SqlClause.Function
import SqlClause.Proofs.Arguments
import SqlClause.Proofs.Sequence

/-!
# Calls of text search functions

Every argument of a call of text search is read as an expression: a clause stands as it is, and a
value is bound under the name of the function. Only the type of the first value depends on the other
arguments: it is that of a configuration if the call is a configured one. The type shows in the
text, where such a value is cast; all other arguments are written as they are written alone.

* `SearchFunction.isConfigured_iff`: which calls are configured;
* `SearchFunction.arguments_eq_ok`, `SearchFunction.failure?_call`: the arguments as they are read;
* `Compiler.process_bind`: a bound value and its cast;
* `Compiler.process_function`: a call is processed like its arguments, one after the other;
* **`SearchFunction.call_reads_arguments`**: what a call is made of, and what is written for it.
-/

namespace SqlClause

/-! ## 1. Configured calls -/

namespace DataType

/-- The type of queries is known by its name, in any letter case. -/
theorem isTsquery_iff {t : DataType} :
    t.isTsquery = true ↔ ∃ name, t = .custom name ∧ upperCase name = "TSQUERY" := by
  rw [isTsquery, beq_iff_eq, tsquery]
  constructor
  · intro h
    cases t with
    | custom name => exact ⟨name, rfl, custom.inj h⟩
    | _ => cases h
  · rintro ⟨name, rfl, hname⟩
    exact congrArg custom hname

theorem isRegconfig_regconfig : regconfig.isRegconfig = true := by decide +kernel

end DataType

/-- No value is of the type of configurations by itself. -/
theorem Value.isRegconfig_dataType (v : Value) : v.dataType.isRegconfig = false := by
  cases v <;> rfl

namespace SearchFunction

/-- The argument is an expression of the type of queries, in whatever letter case. -/
def IsQuery (a : Argument) : Prop :=
  ∃ n name, a = .element n ∧ n.isColumnElement = true ∧ n.dataType = .custom name ∧
    DataType.upperCase name = "TSQUERY"

/-- The call has two arguments or more, of which the second one of `ts_headline` is no query. -/
def Configured (f : SearchFunction) (args : List Argument) : Prop :=
  2 ≤ args.length ∧ (f = .tsHeadline → ∀ a, args[1]? = some a → ¬ IsQuery a)

theorem isQuery_iff {a : Argument} : isQuery a = true ↔ IsQuery a := by
  cases a with
  | value v => exact iff_of_false nofun nofun
  | element n =>
      rw [isQuery, Bool.and_eq_true, DataType.isTsquery_iff]
      constructor
      · rintro ⟨hcolumn, name, htype, hname⟩
        exact ⟨n, name, rfl, hcolumn, htype, hname⟩
      · rintro ⟨m, name, hm, hcolumn, htype, hname⟩
        obtain rfl := Argument.element.inj hm
        exact ⟨hcolumn, name, htype, hname⟩

/-- **Which calls are configured.** -/
theorem isConfigured_iff {f : SearchFunction} {args : List Argument} :
    f.isConfigured args = true ↔ f.Configured args := by
  match args with
  | [] => cases f <;> exact iff_of_false nofun fun h => absurd h.1 (by decide)
  | [_] => cases f <;> exact iff_of_false nofun fun h => absurd h.1 (by simp)
  | first :: second :: rest =>
      have hmany : 2 ≤ (first :: second :: rest).length := by simp
      cases f with
      | tsHeadline =>
          rw [isConfigured, Bool.not_eq_true', ← Bool.not_eq_true, isQuery_iff]
          constructor
          · intro h
            refine ⟨hmany, fun _ a ha => ?_⟩
            obtain rfl := Option.some.inj ha
            exact h
          · rintro ⟨-, h⟩
            exact h rfl second rfl
      | _ => exact iff_of_true rfl ⟨hmany, nofun⟩

instance (f : SearchFunction) (args : List Argument) : Decidable (f.Configured args) :=
  decidable_of_iff _ isConfigured_iff

/-! ## 2. Reading the arguments -/

/-- The options under which the argument at a place is read. -/
def optionsAt (f : SearchFunction) (args : List Argument) (i : Nat) : BindOptions :=
  if i = 0 ∧ f.Configured args then .typed .regconfig f.name else .named f.name

/-- What the argument at a place is read as. -/
def readAt (f : SearchFunction) (args : List Argument) (i : Nat) (a : Argument) : Node :=
  a.expression (f.optionsAt args i)

theorem firstOptions_eq (f : SearchFunction) (args : List Argument) :
    f.firstOptions args = f.optionsAt args 0 := by
  rw [firstOptions, optionsAt]
  by_cases h : f.Configured args
  · rw [if_pos (isConfigured_iff.mpr h), if_pos ⟨rfl, h⟩]
  · rw [if_neg (mt isConfigured_iff.mp h), if_neg fun hfirst => h hfirst.2]

/-- **The arguments are read one by one**, the first with options of its own. -/
theorem arguments_eq_ok {f : SearchFunction} {args : List Argument}
    (h : ∀ a ∈ args, a.offence? = none) :
    f.arguments args = .ok (args.mapIdx (f.readAt args)) := by
  cases args with
  | nil => rfl
  | cons first rest =>
      have hfirst := coerceWith_expression_of_none (h first List.mem_cons_self)
        (f.firstOptions (first :: rest))
      have hrest : (rest.mapM fun b => coerceWith .expression b (.named f.name)) =
          .ok (rest.map fun b => b.expression (.named f.name)) :=
        mapM_eq_ok fun b hb => coerceWith_expression_of_none (h b (List.mem_cons_of_mem _ hb)) _
      have hoptions : ∀ i, f.optionsAt (first :: rest) (i + 1) = .named f.name :=
        fun i => if_neg fun hzero => Nat.succ_ne_zero i hzero.1
      have hlater : (rest.mapIdx fun i => f.readAt (first :: rest) (i + 1)) =
          rest.map fun b => b.expression (.named f.name) :=
        List.ext_getElem (by simp) (by simp [readAt, hoptions])
      rw [arguments, hfirst, hrest, List.mapIdx_cons, hlater, readAt, ← firstOptions_eq]
      rfl

/-- What the arguments of a call are read as: clauses as they are, and values bound under the name
of the function, the first value of a configured call as a configuration and every other one as what
it is. -/
structure Reads (f : SearchFunction) (args : List Argument) (arguments : List Node) : Prop where
  length : arguments.length = args.length
  element : ∀ (i : Nat) n, args[i]? = some (.element n) → arguments[i]? = some n
  value : ∀ (i : Nat) v, args[i]? = some (.value v) → ∃ type,
    arguments[i]? = some (.bind (some f.name) v (some type)) ∧
      (type = .regconfig ↔ i = 0 ∧ f.Configured args) ∧
      (¬ (i = 0 ∧ f.Configured args) → type = v.dataType)

/-- The value at a place is bound with the type that the place asks for. -/
theorem readAt_value (f : SearchFunction) (args : List Argument) (i : Nat) (v : Value) :
    f.readAt args i (.value v) = .bind (some f.name) v
      (some (if i = 0 ∧ f.Configured args then .regconfig else v.dataType)) := by
  rw [readAt, optionsAt]
  split <;> rfl

theorem getElem?_mapIdx_readAt {f : SearchFunction} {args : List Argument} {i : Nat}
    {a : Argument} (h : args[i]? = some a) :
    (args.mapIdx (f.readAt args))[i]? = some (f.readAt args i a) := by
  rw [List.getElem?_mapIdx, h, Option.map_some]

theorem reads_mapIdx (f : SearchFunction) (args : List Argument) :
    f.Reads args (args.mapIdx (f.readAt args)) where
  length := List.length_mapIdx
  element _ _ h := getElem?_mapIdx_readAt h
  value i v h := by
    refine ⟨if i = 0 ∧ f.Configured args then .regconfig else v.dataType, ?_, ?_, fun hplain => ?_⟩
    · rw [getElem?_mapIdx_readAt h, readAt_value]
    · split
      · rename_i hfirst
        exact iff_of_true rfl hfirst
      · rename_i hplain
        refine iff_of_false (fun hregconfig => ?_) hplain
        have hvalue := v.isRegconfig_dataType
        rw [hregconfig, DataType.isRegconfig_regconfig] at hvalue
        cases hvalue
    · rw [if_neg hplain]

/-- A call fails with the offence of the first argument that is one. -/
theorem failure?_call (f : SearchFunction) (args : List Argument) :
    failure? (f.call args) = args.findSome? Argument.offence? := by
  have harguments : failure? (f.call args) = failure? (f.arguments args) :=
    failure?_bindPure (fun as => Node.function f.name as f.resultType) _
  rw [harguments]
  cases args with
  | nil => rfl
  | cons first rest =>
      rw [List.findSome?_cons, ← failure?_expression first (f.firstOptions (first :: rest)),
        arguments]
      cases coerceWith .expression first (f.firstOptions (first :: rest)) with
      | error e => rfl
      | ok a =>
          have hrest : failure? (rest.mapM fun b => coerceWith .expression b (.named f.name)) =
              rest.findSome? Argument.offence? := by
            rw [failure?_mapM]
            exact findSome?_congr fun b _ => failure?_expression b _
          rw [← hrest]
          exact failure?_bindPure (a :: ·) _

end SearchFunction

/-! ## 3. Writing a call -/

namespace Compiler

/-- A bound value is written as the compiler binds it, with its cast if it is a configuration. -/
theorem process_bind {c : Compiler}
    (h : c.settings.registry.element? "bindparam" = some .castingBind) (p : BindParam) :
    c.process ⟨.bind p⟩ = ((c.bind p.value).1.map (· ++
      if p.type.isRegconfig then "::" ++ p.type.toSql else ""), (c.bind p.value).2) := by
  have hrule : (Node.mk (.bind p)).render c.settings = _ := Node.render_of_rule h
  have hrender : (Node.mk (.bind p)).render c.settings = (do
      return (← RenderM.bindValue p.value) ++
        if p.type.isRegconfig then "::" ++ p.type.toSql else "" : RenderM String) c.settings :=
    hrule.trans (RenderM.castingBind_at c.settings p)
  have hprocess : c.process ⟨.bind p⟩ = c.run (do
      return (← RenderM.bindValue p.value) ++
        if p.type.isRegconfig then "::" ++ p.type.toSql else "") := by
    rw [process, run, hrender]
    rfl
  rw [hprocess]
  exact run_map c (RenderM.bindValue p.value) (· ++ _)

/-- **A call is processed like its arguments, one after the other**, with the name and parentheses
around them. -/
theorem process_function {c : Compiler}
    (h : c.settings.registry.element? "function" = some .function) (name : String)
    (arguments : List Node) (type : DataType) :
    c.process (.function name arguments type) = ((c.processEach arguments).1.map fun texts =>
      name ++ "(" ++ ", ".intercalate texts ++ ")", (c.processEach arguments).2) := by
  have hrule : (Node.function name arguments type).render c.settings = _ := Node.render_of_rule h
  have hrender : (Node.function name arguments type).render c.settings = (do
      return (name ++ "(") ++ (← Node.renderAll ", " arguments) ++ ")" : RenderM String)
        c.settings := hrule
  exact process_enclosed hrender

end Compiler

namespace SearchFunction

open Compiler

/-- The cast behind the argument at a place. -/
def castAt (f : SearchFunction) (args : List Argument) (i : Nat) : String :=
  if i = 0 ∧ f.Configured args then "::REGCONFIG" else ""

/-- **A value among the arguments** is written as the compiler binds it, with a cast behind it if it
is the configuration of the call. -/
theorem process_readAt {c : Compiler}
    (h : c.settings.registry.element? "bindparam" = some .castingBind) (f : SearchFunction)
    (args : List Argument) (i : Nat) (v : Value) :
    c.process (f.readAt args i (.value v)) =
      ((c.bind v).1.map (· ++ f.castAt args i), (c.bind v).2) := by
  rw [readAt_value, castAt]
  refine (process_bind h _).trans ?_
  by_cases hfirst : i = 0 ∧ f.Configured args
  · simp only [if_pos hfirst, Option.getD_some, DataType.isRegconfig_regconfig, if_true]
    rfl
  · simp only [if_neg hfirst, Option.getD_some, v.isRegconfig_dataType, Bool.false_eq_true,
      if_false]

/-! ## 4. Calls -/

/-- **What a call is made of, and what is written for it.** A call fails exactly if an argument is a
clause that yields no value of a column, and then with the first such argument. Otherwise its
arguments are read one by one. With the rules of PostgreSQL, whether values are bound or written
into the text, a call is processed like its arguments, one after the other, with its name and
parentheses around them; a value among them is written as it is bound, with a cast behind it if it
is the configuration of the call; and the call compiles if the clauses among the arguments do. -/
theorem call_reads_arguments (f : SearchFunction) (args : List Argument) :
    (∀ e, f.call args = .error e ↔ ∃ before n after, args = before ++ .element n :: after ∧
      (∀ m, .element m ∈ before → m.isColumnElement = true) ∧ n.isColumnElement = false ∧
      e = .coercion .expression ("'" ++ n.tag ++ "' element") .notColumn) ∧
    ((∀ n, .element n ∈ args → n.isColumnElement = true) →
      ∃ arguments, f.Reads args arguments ∧
        f.call args = .ok (.function f.name arguments f.resultType) ∧
        (∀ c : Compiler, c.settings.registry = .postgresql →
          c.process (.function f.name arguments f.resultType) =
              ((c.processEach arguments).1.map fun texts =>
                f.name ++ "(" ++ ", ".intercalate texts ++ ")", (c.processEach arguments).2) ∧
            ∀ (i : Nat) v m, args[i]? = some (.value v) → arguments[i]? = some m →
              c.process m = ((c.bind v).1.map (· ++ f.castAt args i), (c.bind v).2)) ∧
        ∀ (s : Settings) (collected : List Value), s.registry = .postgresql →
          (∀ n, .element n ∈ args → ∃ r, ((having s collected).compile n).1 = .ok r) →
            ∃ texts params, (having s []).processEach arguments = (.ok texts, having s params) ∧
              ((having s collected).compile (.function f.name arguments f.resultType)).1 =
                .ok ⟨f.name ++ "(" ++ ", ".intercalate texts ++ ")", params⟩) := by
  refine ⟨fun e => ?_, fun hcolumns => ?_⟩
  · rw [← failure?_eq_some_iff, failure?_call, List.findSome?_eq_some_iff]
    constructor
    · rintro ⟨before, a, after, hsplit, ha, hbefore⟩
      obtain ⟨n, rfl, hn, rfl⟩ := Argument.offence?_eq_some_iff.mp ha
      exact ⟨before, n, after, hsplit,
        fun m hm => Argument.offence?_eq_none_iff.mp (hbefore _ hm) m rfl, hn, rfl⟩
    · rintro ⟨before, n, after, hsplit, hbefore, hn, rfl⟩
      refine ⟨before, .element n, after, hsplit,
        Argument.offence?_eq_some_iff.mpr ⟨n, rfl, hn, rfl⟩, fun a ha => ?_⟩
      exact Argument.offence?_eq_none_iff.mpr fun m hm => hbefore m (hm ▸ ha)
  · have hoffence : ∀ a ∈ args, a.offence? = none := fun a ha =>
      Argument.offence?_eq_none_iff.mpr fun n hn => hcolumns n (hn ▸ ha)
    have hcall : f.call args =
        .ok (.function f.name (args.mapIdx (f.readAt args)) f.resultType) := by
      rw [call, arguments_eq_ok hoffence]
      rfl
    have hfunction : ∀ r : Registry, r = .postgresql → r.element? "function" = some .function ∧
        r.element? "bindparam" = some .castingBind := by
      rintro r rfl
      exact ⟨rfl, rfl⟩
    refine ⟨_, f.reads_mapIdx args, hcall, fun c hc => ⟨?_, fun i v m hv hm => ?_⟩,
      fun s collected hs hcompiles => ?_⟩
    · exact process_function (hfunction _ hc).1 ..
    · rw [getElem?_mapIdx_readAt hv] at hm
      obtain rfl := Option.some.inj hm
      exact process_readAt (hfunction _ hc).2 f args i v
    · have hall : ∀ m ∈ args.mapIdx (f.readAt args),
          ∃ r, ((having s collected).compile m).1 = .ok r := by
        intro m hm
        obtain ⟨i, hi, rfl⟩ := List.mem_mapIdx.mp hm
        cases ha : args[i] with
        | element n => exact hcompiles n (ha ▸ List.getElem_mem hi)
        | value v =>
            -- to bind a value cannot fail, so only the clauses are asked for
            have hprocess := process_readAt (c := having s []) (hfunction _ hs).2 f args i v
            rw [bind_having] at hprocess
            exact ⟨_, compile_of_process hprocess⟩
      obtain ⟨texts, params, htexts⟩ := exists_processEach hall []
      refine ⟨texts, params, htexts, compile_of_process ?_⟩
      rw [process_function (c := having s []) (hfunction _ hs).1, htexts]
      rfl

/-- A query in plain words. -/
def catsQuery : Node :=
  .function "to_tsquery" [.bind (some "to_tsquery") (.text "cats") none] .tsquery

/-- The body of a document with what is searched for, in English. -/
def englishHeadline : List Argument :=
  [.value (.text "english"), .element (.tableColumn "docs" "body" .text), .element catsQuery]

/-- The headline is configured, as its second argument is no query. The configuration is cast, and
the words of the query are not. -/
theorem call_reads_arguments_headline :
    (∀ n, .element n ∈ englishHeadline → n.isColumnElement = true) ∧
      tsHeadline.Configured englishHeadline ∧
      (postgresql false).settings.registry = .postgresql ∧
      ∃ arguments, tsHeadline.Reads englishHeadline arguments ∧
        tsHeadline.call englishHeadline = .ok (.function "ts_headline" arguments .text) ∧
        ((postgresql false).compile (.function "ts_headline" arguments .text)).1 =
          .ok ⟨"ts_headline($1::REGCONFIG, docs.body, to_tsquery($2))",
            [.text "english", .text "cats"]⟩ := by
  have hmem : ∀ n, .element n ∈ englishHeadline →
      n = .tableColumn "docs" "body" .text ∨ n = catsQuery := by
    intro n hn
    simpa [englishHeadline] using hn
  have hcolumns : ∀ n, .element n ∈ englishHeadline → n.isColumnElement = true := by
    intro n hn
    rcases hmem n hn with rfl | rfl <;> rfl
  have hconfigured : tsHeadline.Configured englishHeadline := isConfigured_iff.mp rfl
  have hregistry : (postgresql false).settings.registry = .postgresql := rfl
  obtain ⟨-, hreads⟩ := call_reads_arguments tsHeadline englishHeadline
  obtain ⟨arguments, hread, hcall, hwritten, hcompile⟩ := hreads hcolumns
  refine ⟨hcolumns, hconfigured, hregistry, arguments, hread, hcall, ?_⟩
  obtain ⟨texts, params, htexts, hcompiled⟩ := hcompile _ [] hregistry fun n hn => by
    rcases hmem n hn with rfl | rfl <;> exact ⟨_, rfl⟩
  have hknown : tsHeadline.call englishHeadline = .ok (.function "ts_headline"
      [.bind (some "ts_headline") (.text "english") (some .regconfig),
        .tableColumn "docs" "body" .text, catsQuery] .text) := rfl
  obtain rfl := (Clause.function.inj (Node.mk.inj (Except.ok.inj (hcall.symm.trans hknown)))).2.1
  obtain ⟨-, hvalue⟩ := hwritten (postgresql false) hregistry
  have hfirst := hvalue 0 _ _ rfl rfl
  rw [castAt, if_pos ⟨rfl, hconfigured⟩] at hfirst
  have hall : (postgresql false).processEach _ = _ := processEach_cons hfirst
    [.tableColumn "docs" "body" .text, catsQuery]
  obtain ⟨rfl, rfl⟩ : texts = ["$1::REGCONFIG", "docs.body", "to_tsquery($2)"] ∧
      params = [.text "english", .text "cats"] := by
    have hsame := htexts.symm.trans hall
    cases hsame
    exact ⟨rfl, rfl⟩
  exact hcompiled

end SearchFunction

end SqlClause
