import SchemeCore.Proofs.Evaluation.Coupling
import SchemeCore.Proofs.Evaluation.Wording
import SchemeCore.Proofs.Reader.Written

/-!
# The limit on nesting

The reader, the evaluator and the walk over a template count nesting against one limit, each from
its own start: the reader from the outermost datum, the evaluator from the expression, the walk anew
from each template. What the reader accepts under the limit the other two get through. It still may
fail for its depth, since the stack may be too small for the text of a datum that a failure shows,
and the failure is then taken for one of too deep an evaluation.

1. An expression of height `h` needs the levels `0` to `h` and no more, since every operand and
   every unquoted part lies lower than the form it stands in (`evalWithin_inDepth`).
2. The height of a template is below that of its form, so its nesting stays below the limit too.
3. What the reader answers with is at most as high as the limit (`layouts_of_readAll`).
4. So the wording of a failure is the only place where the depth can be felt
   (`Context.outrunsStack_iff`), and there it is: a list of the height of the limit is too much for
   the text of its refusal (`depth_is_felt_while_wording`).
-/

namespace SchemeCore

theorem Fault.OfShape.kind_ne {f : Fault} (h : f.OfShape) : f.kind ≠ "recursion-depth" := by
  cases f with
  | operands | outsideTemplate | assignTarget | spliceAlone | spliceNotList | notAForm =>
    simp [Fault.kind, ErrorClass.kind]
  | name | notADatum | tooDeep | templateTooDeep | declared => exact False.elim h

theorem Fault.kind_name_ne (e : NameError) : (Fault.name e).kind ≠ "recursion-depth" := by
  cases e <;> simp [Fault.kind, NameError.cls, ErrorClass.kind]

namespace Coupling

/-- A run and itself, if it does not stop for the depth. -/
def inDepth : Coupling where
  store := Eq
  item _ := True
  stop e₁ e₂ := e₁ = e₂ ∧ e₁.kind? ≠ some "recursion-depth"
  excused _ _ := False
  item_symbol _ := True.intro
  item_items _ ds _ := item_items_true ds
  stop_fault _ hf _ := ⟨rfl, fun h => hf.kind_ne (Option.some.inj h)⟩
  stop_unmade _ _ _ _ := ⟨rfl, by rintro ⟨⟩⟩

theorem inDepth_supports (a : Access) : inDepth.Supports a := by
  refine supports_of_chain (fun _ => True.intro) (fun _ _ hs => congrArg Store.chain hs) ?_ ?_ a
  · rintro s _ w c rfl
    rfl
  · exact fun e => ⟨rfl, fun h => Fault.kind_name_ne e (Option.some.inj h)⟩

theorem inDepth_fits {limit n : Int} (h : n ≤ limit) : inDepth.Fits limit limit n :=
  ⟨fun hlt => absurd h (Int.not_le.2 hlt), id⟩

/-- An expression that is lower than the levels that are left never stops for the depth. -/
theorem evalWithin_inDepth {settings : Settings} {limit : Int} {levels : Nat} {e : Datum}
    (hlevels : e.height < levels) (hlimit : (e.height : Int) ≤ settings.maxDepth) :
    inDepth.Holds (fun _ => True) (Context.evalWithin ⟨settings, Forms.builtin⟩ limit levels e)
      (Context.evalWithin ⟨settings, Forms.builtin⟩ limit levels e) := by
  induction levels generalizing e with
  | zero => exact absurd hlevels (Nat.not_lt_zero _)
  | succ levels ih =>
    refine evalWithin_succ_holds True.intro (fun a _ => inDepth_supports a) ?_ ?_ ?_
    · rintro s _ rfl
      rfl
    · intro n hn
      apply inDepth_fits
      omega
    · intro e' he' _ _
      apply ih
      · omega
      · omega

theorem kind?_of_ends {α : Type} {P : α → Prop} {r : Except Stop α × Store}
    (h : inDepth.Ends P r r) {e : Stop} (he : r.1 = .error e) :
    e.kind? ≠ some "recursion-depth" := by
  obtain ⟨result, t⟩ := r
  cases h with
  | value => cases he
  | stop hs =>
    cases he
    exact hs.2
  | excused hs => exact False.elim hs

end Coupling

namespace Context

variable {settings : Settings} {s t : Store} {f : EvalFailure}

theorem kind?_of_evalAt {e : Datum} (h : (e.height : Int) ≤ settings.maxDepth) {stop : Stop}
    (he : ((evalAt ⟨settings, Forms.builtin⟩ settings.maxDepth 0 e).exec s).1 = .error stop) :
    stop.kind? ≠ some "recursion-depth" := by
  refine Coupling.kind?_of_ends (Coupling.evalWithin_inDepth ?_ h s s rfl) he
  unfold levelsLeft
  omega

/-- The evaluation of a datum stops at a fault that has nothing to do with depth, and the stack ends
while the text of the datum that this fault shows is made. -/
def OutrunsStack (ctx : Context) (e : Datum) (s : Store) : Prop :=
  ∃ fault d, ((ctx.evalAt ctx.settings.maxDepth 0 e).exec
      { s with log := s.log ++ ctx.settings.records }).1 = .error (.fault fault) ∧
    fault.kind ≠ "recursion-depth" ∧ fault.subject? = some (.datum d) ∧
    d.textFits ctx.settings.textLevels = false

theorem outcome_of_outrunsStack {e : Datum} (h : OutrunsStack ⟨settings, Forms.builtin⟩ e s) :
    ((evaluate ⟨settings, Forms.builtin⟩ (.datum e)).run s).1 =
      .failure (.tooDeep settings.maxDepth) := by
  obtain ⟨fault, d, hexec, -, hsubject, hd⟩ := h
  have hfits : fault.wordingFits settings.textLevels = false := by
    rw [Fault.wordingFits, hsubject]
    exact hd
  rw [run_evaluate, evalItem]
  dsimp only
  rw [hexec]
  exact Fault.outcome_of_not_fits hfits

/-- An evaluation within the limit fails for its depth exactly if it outruns the stack. -/
theorem outrunsStack_iff {e : Datum} (h : (e.height : Int) ≤ settings.maxDepth)
    (hf : ((evaluate ⟨settings, Forms.builtin⟩ (.datum e)).run s).1 = .failure f) :
    f.kind = "recursion-depth" ↔ OutrunsStack ⟨settings, Forms.builtin⟩ e s := by
  constructor
  · intro hkind
    rw [run_evaluate, evalItem] at hf
    dsimp only at hf
    generalize hr : ((evalAt ⟨settings, Forms.builtin⟩ settings.maxDepth 0 e).exec
      { s with log := s.log ++ settings.records }).1 = r at hf
    cases r with
    | ok v => cases hf
    | error stop =>
      have hstop := kind?_of_evalAt h hr
      rcases Stop.kind?_of_ofResult hf with hsame | ⟨fault, rfl, hfits, -⟩
      · exact absurd (hsame.trans (congrArg some hkind)) hstop
      · obtain ⟨d, hsubject, hd⟩ := Fault.exists_of_not_fits hfits
        exact ⟨fault, d, hr, fun hfault => hstop (congrArg some hfault), hsubject, hd⟩
  · intro houtruns
    rw [outcome_of_outrunsStack houtruns] at hf
    cases hf
    rfl

theorem run_of_outrunsStack {text : String} {e : Datum}
    (hread : readAll settings.maxDepth text = .ok [e])
    (h : ∀ t, OutrunsStack ⟨settings, Forms.builtin⟩ e t) (s : Store) :
    ((run ⟨settings, Forms.builtin⟩ text).run s).1 =
      .ok (.failure (.tooDeep settings.maxDepth)) := by
  obtain ⟨t, -, hrun⟩ := run_of_readAll_ok ⟨settings, Forms.builtin⟩ hread s
  rw [hrun, evaluateAll_singleton_failure _ (outcome_of_outrunsStack (h t))]

end Context

/-- The depth of what the reader accepts is felt only where a failure is worded. An evaluation of an
expression that is at most as high as the limit is never stopped for its depth, neither by the check
of the evaluator nor by that of a template. Its failure is one for depth exactly if it outruns the
stack, and then it says that the evaluation nested too deep. A program fails for its depth only if
one of its data does. -/
theorem depth_is_felt_only_while_wording (settings : Settings) :
    let ctx : Context := ⟨settings, Forms.builtin⟩
    (∀ (e : Datum) (s : Store), (e.height : Int) ≤ settings.maxDepth →
      (∀ stop, ((ctx.evalAt settings.maxDepth 0 e).exec s).1 = .error stop →
        stop.kind? ≠ some "recursion-depth") ∧
      (∀ f, ((ctx.evaluate (.datum e)).run s).1 = .failure f →
        (f.kind = "recursion-depth" ↔ ctx.OutrunsStack e s)) ∧
      (ctx.OutrunsStack e s → ((ctx.evaluate (.datum e)).run s).1 =
        .failure (.tooDeep settings.maxDepth))) ∧
    (∀ (text : String) (s : Store) (f : EvalFailure),
      ((ctx.run text).run s).1 = .ok (.failure f) → f.kind = "recursion-depth" →
        ∃ exprs, readAll settings.maxDepth text = .ok exprs ∧
          ∃ e ∈ exprs, ∃ t, ctx.OutrunsStack e t) := by
  intro ctx
  refine ⟨fun e s h => ⟨fun stop => Context.kind?_of_evalAt h, fun f => Context.outrunsStack_iff h,
    Context.outcome_of_outrunsStack⟩, fun text s f hf hkind => ?_⟩
  rw [Context.run_run] at hf
  cases hread : readAll settings.maxDepth text with
  | error failure =>
    dsimp only at hf
    rw [hread] at hf
    cases hf
  | ok exprs =>
    dsimp only at hf
    rw [hread] at hf
    obtain ⟨e, he, t, t', hrun⟩ :=
      Context.failure_of_evaluateAll _ (Prod.ext (Except.ok.inj hf) rfl)
    have hheight : (e.height : Int) ≤ settings.maxDepth :=
      (Reader.layouts_of_readAll hread e he).2
    exact ⟨exprs, rfl, e, he, t,
      (Context.outrunsStack_iff hheight (congrArg Prod.fst hrun)).1 hkind⟩

theorem depth_is_felt_only_while_wording_small :
    let ctx : Context := ⟨{ depthText := some "3", textLevels := 1 }, Forms.builtin⟩
    let template : Datum := Mark.quasiquote.on (.list [.symbol "a", Mark.unquote.on (.symbol "x")])
    let nested : Datum := .list [.list [.list []]]
    let s : Store := { chain := ⟨[], []⟩ }
    let deep : EvalFailure := ⟨"recursion-depth", "evaluation nested deeper than 3 levels"⟩
    (template.height : Int) = ctx.settings.maxDepth ∧
      ((ctx.evaluate (.datum template)).run s).1 =
        .failure ⟨"unbound-variable", "Unbound variable x"⟩ ∧
      ¬ ctx.OutrunsStack template s ∧
      ((ctx.evaluate (.datum nested)).run s).1 = .failure deep ∧ ctx.OutrunsStack nested s ∧
      ((ctx.run "((()))").run s).1 = .ok (.failure deep) ∧
      ∃ exprs, readAll ctx.settings.maxDepth "((()))" = .ok exprs ∧
        ∃ e ∈ exprs, ∃ t, ctx.OutrunsStack e t := by
  intro ctx template nested s deep
  have hheight : (template.height : Int) = ctx.settings.maxDepth := by decide
  have hunbound : ((ctx.evaluate (.datum template)).run s).1 =
      .failure ⟨"unbound-variable", "Unbound variable x"⟩ := by decide
  have hdeep : ((ctx.evaluate (.datum nested)).run s).1 = .failure deep := by decide
  have hread : readAll ctx.settings.maxDepth nested.toSource = .ok [nested] :=
    Reader.readAll_toSource (by simp [nested, Datum.Readable, Datum.AllReadable]) (by decide)
  rw [show nested.toSource = "((()))" by decide] at hread
  have hrun : ((ctx.run "((()))").run s).1 = .ok (.failure deep) := by
    rw [Context.run_run, hread]
    decide
  obtain ⟨hevaluations, hprograms⟩ := depth_is_felt_only_while_wording ctx.settings
  refine ⟨hheight, hunbound, fun houtruns => ?_, hdeep,
    ((hevaluations nested s (by decide)).2.1 deep hdeep).1 rfl, hrun, hprograms _ s deep hrun rfl⟩
  have hkind := ((hevaluations template s hheight.le).2.1 _ hunbound).2 houtruns
  revert hkind
  decide

/-! ## Where it is felt -/

theorem Datum.written_inside_list (n : Nat) : (inside (fun d => .list [d]) n .nil).written =
    List.replicate (n + 1) '(' ++ List.replicate (n + 1) ')' := by
  induction n with
  | zero => rfl
  | succ n ih =>
    rw [inside, written, writtenItems, ih, List.append_assoc, ← List.replicate_succ']
    rfl

theorem Datum.readable_inside_list (n : Nat) : (inside (fun d => .list [d]) n .nil).Readable := by
  induction n with
  | zero => exact True.intro
  | succ n ih => exact ⟨ih, True.intro⟩

namespace Context

variable {settings : Settings} {items : List Datum}

/-- A list whose only element is a list is refused, and the refusal shows all of it. -/
theorem outrunsStack_list (h : (Datum.list [.list items]).textFits settings.textLevels = false)
    (s : Store) : OutrunsStack ⟨settings, Forms.builtin⟩ (.list [.list items]) s := by
  refine ⟨.notAForm _, _, ?_, by simp [Fault.kind], rfl, h⟩
  have hlimit : 0 ≤ settings.maxDepth := Int.le_trans (by decide) settings.one_le_maxDepth
  rw [evalAt]
  dsimp only
  rw [levelsLeft_of_le hlimit]
  rfl

theorem outrunsStack_inside_list {n : Nat} (h : settings.textLevels < n + 2) (s : Store) :
    OutrunsStack ⟨settings, Forms.builtin⟩ (.inside (fun d => .list [d]) (n + 2) .nil) s := by
  have hfits : (Datum.inside (fun d => .list [d]) (n + 2) .nil).textFits settings.textLevels =
      false := Datum.not_textFits_inside (fun _ => rfl) h
  exact outrunsStack_list hfits s

/-- A vector that a name stands for is refused where it is spliced, and the refusal shows it. -/
theorem outrunsStack_splice {name : String} {s : Store}
    (h : (Datum.vector items).textFits settings.textLevels = false)
    (hs : s.chain.lookup name = some (.datum (.vector items))) :
    OutrunsStack ⟨settings, Forms.builtin⟩
      (Mark.quasiquote.on (.list [Mark.unquoteSplicing.on (.symbol name)])) s := by
  refine ⟨.spliceNotList (.datum (.vector items)), _, ?_, by simp [Fault.kind, ErrorClass.kind],
    rfl, h⟩
  have hlimit : 0 ≤ settings.maxDepth := Int.le_trans (by decide) settings.one_le_maxDepth
  have hoperand : 0 + 1 ≤ settings.maxDepth := settings.one_le_maxDepth
  rw [evalAt]
  dsimp only
  rw [levelsLeft_of_le hlimit, levelsLeft_of_le hoperand]
  generalize levelsLeft settings.maxDepth (0 + 1 + 1) = levels
  have hcontribution (t : Store) (ht : t.chain = s.chain) : (Template.contribution
      (evalWithin ⟨settings, Forms.builtin⟩ settings.maxDepth (levels + 1)) settings.maxDepth 1 0
        (Mark.unquoteSplicing.on (.symbol name))).exec t =
        (.error (.fault (.spliceNotList (.datum (.vector items)))), t) := by
    show (Eval.lookup name >>= Template.spliced).exec t = _
    rw [Eval.exec_bind, Eval.exec_lookup, ht, hs]
    rfl
  show ((Form.quasiquote settings [.list [Mark.unquoteSplicing.on (.symbol name)]]
    (evalWithin ⟨settings, Forms.builtin⟩ settings.maxDepth (levels + 1))).exec _).1 = _
  rw [Form.quasiquote, Eval.exec_bind, Eval.exec_askDepth]
  dsimp only
  rw [Template.fill, if_neg (Int.not_lt.2 hlimit), Eval.exec_bind, Template.fillItems_cons,
    Eval.exec_bind, hcontribution]
  · rfl
  · simp

theorem outrunsStack_splice_inside {n : Nat} (h : settings.textLevels < n + 1) {name : String}
    {s : Store}
    (hs : s.chain.lookup name =
      some (.datum (.inside (fun d => .vector [d]) (n + 1) (.vector [])))) :
    OutrunsStack ⟨settings, Forms.builtin⟩
      (Mark.quasiquote.on (.list [Mark.unquoteSplicing.on (.symbol name)])) s := by
  have hfits : (Datum.inside (fun d => .vector [d]) (n + 1) (.vector [])).textFits
      settings.textLevels = false := Datum.not_textFits_inside (fun _ => rfl) h
  exact outrunsStack_splice hfits hs

end Context

/-- The reader accepts 201 pairs of parentheses under the default limit, and the refusal of this
list as an expression is taken for too deep an evaluation. So is the refusal to splice a vector
inside 1000 others, although the expression is no higher than 3. -/
theorem depth_is_felt_while_wording :
    let lists : Datum := Datum.inside (fun d => .list [d]) 200 .nil
    let text := String.ofList (List.replicate 201 '(' ++ List.replicate 201 ')')
    let vectors : Datum := Datum.inside (fun d => .vector [d]) 1000 (.vector [])
    let splicing : Datum := Mark.quasiquote.on (.list [Mark.unquoteSplicing.on (.symbol "x")])
    let deep : EvalFailure := ⟨"recursion-depth", "evaluation nested deeper than 200 levels"⟩
    (lists.height : Int) = Settings.maxDepth {} ∧
      readAll (Settings.maxDepth {}) text = .ok [lists] ∧
      ((Context.run {} text).run { chain := ⟨[], []⟩ }).1 = .ok (.failure deep) ∧
      splicing.height = 3 ∧
      ((Context.evaluate {} (.datum splicing)).run
        { chain := ⟨[("x", .datum vectors)], []⟩ }).1 = .failure deep := by
  intro lists text vectors splicing deep
  have hheight : lists.height = 200 := Datum.height_inside (fun _ => rfl) 200
  have hlimit : Settings.maxDepth {} = 200 := by decide
  have hdeep : EvalFailure.tooDeep (Settings.maxDepth {}) = deep := by decide
  have hread : readAll (Settings.maxDepth {}) text = .ok [lists] := by
    have htext : lists.toSource = text := by
      rw [Datum.toSource, Datum.written_inside_list]
    rw [← htext]
    exact Reader.readAll_toSource (Datum.readable_inside_list 200) (by rw [hheight, hlimit]; decide)
  have hlists (s : Store) : Context.OutrunsStack {} lists s :=
    @Context.outrunsStack_inside_list {} 198 (by decide) s
  have hsplicing : Context.OutrunsStack {} splicing { chain := ⟨[("x", .datum vectors)], []⟩ } :=
    @Context.outrunsStack_splice_inside {} 999 (by decide) _ _ rfl
  refine ⟨by rw [hheight, hlimit]; rfl, hread, ?_, by decide, ?_⟩
  · rw [Context.run_of_outrunsStack hread hlists, hdeep]
  · rw [Context.outcome_of_outrunsStack hsplicing, hdeep]

end SchemeCore
