import SchemeCore.Proofs.Evaluation.Writing
import SchemeCore.Proofs.Scopes
import Mathlib.Tactic.TFAE

/-!
# Scopes over a session

What a session does to its scopes it does by steps: a step adds a scope, or it changes the frames
that are visible from one by writes (`Step.forest`). So parents stay as they are and are older than
their scopes, and no frame repeats a name, however long the session goes on (`Sound.step`,
`Reachable.sound`). All ways to ask for a name agree, and a single `bind` or `assign` replaces one
frame, which is seen by exactly those scopes whose paths lead to it.
-/

namespace SchemeCore.Session

variable {s t : Session} {a b n : Nat} {x : String} {v : Item}

/-- One step of a session: a new scope, a change to the names of one, an evaluation in one, another
limit on the nesting, or a form that stops. -/
inductive Step (s : Session) : Session → Prop where
  | addScope (parent : Option Nat) (h : ∀ p ∈ parent, p < s.forest.scopes.length) :
      Step s (s.addScope parent).2
  | bind (scope : Nat) (name value : Item) : Step s (s.bind scope name value).2
  | assign (scope : Nat) (name value : Item) : Step s (s.assign scope name value).2
  | update (scope : Nat) (pairs : List (Item × Item)) : Step s (s.update scope pairs).2
  | evaluate (scope : Nat) (expr : Item) : Step s (s.inScope scope (s.context.evaluate expr)).2
  | evaluateAt (scope : Nat) (limit depth : Int) (expr : Item) :
      Step s (s.inScope scope (s.context.evalItem limit depth expr).run).2
  | fillTemplate (scope : Nat) (template : Item) (level nesting : Int) (limit? : Option Int) :
      Step s (s.inScope scope (s.context.fillTemplate template level nesting limit?).run).2
  | run (scope : Nat) (text : String) : Step s (s.inScope scope (s.context.run text)).2
  | runFirst (scope : Nat) (text : String) : Step s (s.inScope scope (s.context.runFirst text)).2
  | setDepth (text : Option String) : Step s (s.setDepth text)
  | install (name : String) (stop : Stop) : Step s (s.install name (.stopping stop))

/-- The session has come about by steps from one with a single scope that has no bindings. -/
def Reachable (s : Session) : Prop :=
  ∃ settings : Settings, Relation.ReflTransGen Step { context := { settings } } s

/-- What every step keeps. -/
structure Sound (s : Session) : Prop where
  forms : ∃ stops, s.context.forms = .stoppingAt stops
  descends : s.forest.Descends
  nodup : s.forest.Nodup

/-! ## Steps -/

theorem written_orUnchanged {f : Chain → Except NameError Chain} {c : Chain}
    (hf : ∀ c', f c = .ok c' → c.Written Set.univ c') :
    c.Written Set.univ (orUnchanged f c).1 := by
  unfold orUnchanged
  split
  · rename_i c' hc'
    exact hf c' hc'
  · exact .refl _ c

/-- A step adds a scope inside an older one, or else it puts a chain back that writes have made of
the one that a scope shows. -/
theorem Step.forest (h : s.Step t) (hforms : ∃ stops, s.context.forms = .stoppingAt stops) :
    (∃ parent, (∀ p ∈ parent, p < s.forest.scopes.length) ∧
      t.forest = (s.forest.addScope parent).1) ∨
    ∃ scope c, (s.forest.chain scope).Written Set.univ c ∧
      t.forest = s.forest.putChain scope c := by
  obtain ⟨stops, hforms⟩ := hforms
  have hsame : ∃ scope c, (s.forest.chain scope).Written Set.univ c ∧
      s.forest = s.forest.putChain scope c :=
    ⟨0, _, .refl _ _, (Forest.putChain_chain s.forest 0).symm⟩
  cases h with
  | addScope parent hparent => exact .inl ⟨parent, hparent, rfl⟩
  | bind scope name value =>
    exact .inr ⟨scope, (orUnchanged (·.bindItem name value) _).1,
      written_orUnchanged fun _ => Chain.written_bindItem, rfl⟩
  | assign scope name value =>
    exact .inr ⟨scope, (orUnchanged (·.assignItem name value) _).1,
      written_orUnchanged fun _ => Chain.written_assignItem, rfl⟩
  | update scope pairs => exact .inr ⟨scope, _, Chain.written_bindPairs _ _, rfl⟩
  | evaluate scope expr =>
    exact .inr ⟨scope, _, Context.evaluate_writing hforms expr ⟨_, [], []⟩, rfl⟩
  | evaluateAt scope limit depth expr =>
    exact .inr ⟨scope, _, Context.evalItem_writing hforms limit depth expr ⟨_, [], []⟩, rfl⟩
  | fillTemplate scope template level nesting limit? =>
    exact .inr ⟨scope, _,
      Context.fillTemplate_writing hforms template level nesting limit? ⟨_, [], []⟩, rfl⟩
  | run scope text => exact .inr ⟨scope, _, Context.run_writing hforms text ⟨_, [], []⟩, rfl⟩
  | runFirst scope text =>
    exact .inr ⟨scope, _, Context.runFirst_writing hforms text ⟨_, [], []⟩, rfl⟩
  | setDepth text => exact .inr hsame
  | install name stop => exact .inr hsame

theorem Step.forms (h : s.Step t) (hforms : ∃ stops, s.context.forms = .stoppingAt stops) :
    ∃ stops, t.context.forms = .stoppingAt stops := by
  cases h with
  | install name stop =>
    obtain ⟨stops, hstops⟩ := hforms
    refine ⟨stops ++ [(name, stop)], ?_⟩
    show s.context.forms.install name (.stopping stop) = _
    rw [hstops, Forms.stoppingAt, Forms.stoppingAt, List.foldl_append]
    rfl
  | addScope | bind | assign | update | evaluate | evaluateAt | fillTemplate | run | runFirst
  | setDepth => exact hforms

theorem Sound.step (hs : s.Sound) (h : s.Step t) : t.Sound := by
  have hforms := h.forms hs.forms
  rcases h.forest hs.forms with ⟨parent, hparent, ht⟩ | ⟨scope, c, hc, ht⟩
  · refine ⟨hforms, ht ▸ hs.descends.addScope hparent, fun n => ?_⟩
    rw [ht, Forest.frame_addScope]
    exact hs.nodup n
  · refine ⟨hforms, fun n p hp => ?_, ht ▸ hs.nodup.putChain hc⟩
    rw [ht, Forest.parent?_putChain] at hp
    exact hs.descends n p hp

theorem Reachable.sound (h : s.Reachable) : s.Sound := by
  obtain ⟨settings, hsteps⟩ := h
  induction hsteps with
  | refl =>
    refine ⟨⟨[], rfl⟩, fun n p hp => ?_, fun n => ?_⟩
    · cases n <;> cases hp
    · cases n <;> exact List.nodup_nil
  | tail _ hstep ih => exact ih.step hstep

/-- Scopes stay, and their parents too. -/
theorem Step.parents (h : s.Step t) (hforms : ∃ stops, s.context.forms = .stoppingAt stops) :
    s.forest.scopes.length ≤ t.forest.scopes.length ∧
      ∀ n < s.forest.scopes.length, t.forest.parent? n = s.forest.parent? n := by
  rcases h.forest hforms with ⟨parent, -, ht⟩ | ⟨scope, c, -, ht⟩
  · rw [ht]
    refine ⟨?_, fun n hn => Forest.parent?_addScope hn parent⟩
    show _ ≤ (s.forest.scopes ++ [(⟨[], parent⟩ : Scope)]).length
    rw [List.length_append]
    exact Nat.le_add_right _ _
  · rw [ht, Forest.length_putChain, Forest.parent?_putChain]
    exact ⟨Nat.le_refl _, fun _ _ => rfl⟩

theorem Sound.parents (hs : s.Sound) (h : Relation.ReflTransGen Step s t) :
    t.Sound ∧ s.forest.scopes.length ≤ t.forest.scopes.length ∧
      ∀ n < s.forest.scopes.length, t.forest.parent? n = s.forest.parent? n := by
  induction h with
  | refl => exact ⟨hs, Nat.le_refl _, fun _ _ => rfl⟩
  | tail _ hstep ih =>
    obtain ⟨hsound, hle, hparents⟩ := ih
    obtain ⟨hle', hparents'⟩ := hstep.parents hsound.forms
    refine ⟨hsound.step hstep, Nat.le_trans hle hle', fun n hn => ?_⟩
    rw [hparents' n (Nat.lt_of_lt_of_le hn hle), hparents n hn]

/-! ## Ways to ask for a name -/

theorem lookup_symbol (s : Session) (b : Nat) (x : String) :
    s.lookup b (.datum (.symbol x)) =
      ((s.forest.valueOf b x).map Except.ok).getD (.error (.unbound (.datum (.symbol x)))) := by
  rw [← Forest.lookup_chain, lookup, Chain.lookupItem, Item.name?, Option.bind_some]
  cases (s.forest.chain b).lookup x <;> rfl

theorem lookup_eq_ok : s.lookup b (.datum (.symbol x)) = .ok v ↔ s.forest.valueOf b x = some v := by
  rw [lookup_symbol]
  cases s.forest.valueOf b x <;> simp

/-- A lookup depends on the value of the name only, if it is one. -/
theorem lookup_congr {y : Item}
    (h : ∀ x, y = .datum (.symbol x) → t.forest.valueOf b x = s.forest.valueOf b x) :
    t.lookup b y = s.lookup b y := by
  rcases y with (x | _ | _ | _ | _ | _ | _) | _
  · rw [lookup_symbol, lookup_symbol, h x rfl]
  all_goals rfl

theorem find?_congr {y : Item}
    (h : ∀ x, y = .datum (.symbol x) → t.forest.holder? b x = s.forest.holder? b x) :
    t.forest.find? b y = s.forest.find? b y := by
  rcases y with (x | _ | _ | _ | _ | _ | _) | _
  · rw [Forest.find?_symbol, Forest.find?_symbol, h x rfl]
  all_goals rfl

/-! ## Changes of one name -/

theorem change_refused {f : Chain → Except NameError Chain} {e : NameError}
    (h : s.change a (orUnchanged f) = (some e, t)) : t = s := by
  unfold change orUnchanged at h
  split at h
  rename_i c e' hc
  split at hc
  · cases hc
    cases h
  · cases hc
    cases h
    rw [Forest.putChain_chain]

theorem bind_symbol (s : Session) (a : Nat) (x : String) (v : Item) :
    s.bind a (.datum (.symbol x)) v =
      (none, { s with forest := s.forest.putFrame a ((s.forest.frame a).bind x v) }) := by
  rw [← Forest.putChain_bind]
  rfl

theorem assign_of_some {c : Chain} (h : (s.forest.chain a).assign x v = some c) :
    s.assign a (.datum (.symbol x)) v = (none, { s with forest := s.forest.putChain a c }) := by
  simp [assign, change, orUnchanged, Chain.assignItem, Item.name?, h]

theorem assign_of_none (h : (s.forest.chain a).assign x v = none) :
    s.assign a (.datum (.symbol x)) v = (some (.cannotAssign (.datum (.symbol x))), s) := by
  simp [assign, change, orUnchanged, Chain.assignItem, Item.name?, h, Forest.putChain_chain]

/-- An assignment that succeeds replaces the bindings that are the nearest to hold the name. -/
theorem of_assign (h : s.assign a (.datum (.symbol x)) v = (none, t)) :
    ∃ n, s.forest.holder? a x = some n ∧
      t.forest = s.forest.putFrame n ((s.forest.frame n).bind x v) := by
  cases hassign : (s.forest.chain a).assign x v with
  | some c =>
    rw [assign_of_some hassign] at h
    cases h
    exact Forest.putChain_assign hassign
  | none =>
    rw [assign_of_none hassign] at h
    cases h

theorem assign_succeeds_iff :
    (s.assign b (.datum (.symbol x)) v).1 = none ↔ (s.forest.holder? b x).isSome = true := by
  cases hassign : (s.forest.chain b).assign x v with
  | some c =>
    obtain ⟨n, hn, -⟩ := Forest.putChain_assign hassign
    simp [assign_of_some hassign, hn]
  | none => simp [assign_of_none hassign, Forest.assign_chain_eq_none.1 hassign]

/-- All ways to ask a scope for a name succeed together. -/
theorem found_tfae (s : Session) (b : Nat) (x : String) (v : Item) :
    [∃ n ∈ s.forest.path b, (s.forest.frame n).binds x = true,
      ∃ n, s.forest.find? b (.datum (.symbol x)) = some n,
      ∃ w, s.lookup b (.datum (.symbol x)) = .ok w,
      (s.assign b (.datum (.symbol x)) v).1 = none].TFAE := by
  tfae_have 1 ↔ 2 := by
    rw [Forest.find?_symbol, ← Option.isSome_iff_exists, Forest.holder?, List.find?_isSome]
  tfae_have 2 ↔ 3 := by
    simp only [lookup_eq_ok, ← Option.isSome_iff_exists, Forest.find?_symbol, Forest.isSome_valueOf]
  tfae_have 2 ↔ 4 := by
    rw [assign_succeeds_iff, Forest.find?_symbol, Option.isSome_iff_exists]
  tfae_finish

/-- A lookup that succeeds is one in the bindings that are the nearest to hold the name. -/
theorem lookup_of_find? (h : s.forest.find? b (.datum (.symbol x)) = some n) :
    s.forest.Reaches b x n ∧
      ∃ w, (s.forest.frame n).find? x = some w ∧ s.lookup b (.datum (.symbol x)) = .ok w := by
  rw [Forest.find?_symbol] at h
  obtain ⟨hreaches, hbinds⟩ := Forest.holder?_eq_some_iff.1 h
  obtain ⟨w, hw⟩ := Option.isSome_iff_exists.1 hbinds
  refine ⟨hreaches, w, hw, lookup_eq_ok.2 ?_⟩
  rw [Forest.valueOf, h]
  exact hw

/-- What an assignment that succeeds does to every scope. -/
theorem seen_of_assign (h : s.assign a (.datum (.symbol x)) v = (none, t)) :
    (∀ b y, t.forest.find? b y = s.forest.find? b y) ∧
      (∀ b, s.forest.find? b (.datum (.symbol x)) = s.forest.find? a (.datum (.symbol x)) →
        t.lookup b (.datum (.symbol x)) = .ok v) ∧
      (∀ b y, (y = .datum (.symbol x) → s.forest.find? b y ≠ s.forest.find? a y) →
        t.lookup b y = s.lookup b y) ∧
      ∀ n, (t.forest.frame n).names = (s.forest.frame n).names := by
  obtain ⟨n, hn, ht⟩ := of_assign h
  have hbinds := (Forest.holder?_eq_some_iff.1 hn).2
  -- the scopes that find the name where `a` does are those whose paths lead to what is replaced
  have hreaches (b : Nat) : s.forest.find? b (.datum (.symbol x)) =
      s.forest.find? a (.datum (.symbol x)) ↔ s.forest.Reaches b x n := by
    rw [Forest.find?_symbol, Forest.find?_symbol, hn, Forest.holder?_eq_some_iff]
    exact and_iff_left hbinds
  refine ⟨fun b y => find?_congr fun z _ => ?_, fun b hb => lookup_eq_ok.2 ?_,
    fun b y hy => lookup_congr fun z hz => ?_, fun m => ?_⟩
  · rw [ht]
    exact Forest.holder?_putFrame hbinds v z
  · rw [ht]
    exact Forest.valueOf_putFrame ((hreaches b).1 hb) v
  · rw [ht]
    apply Forest.valueOf_putFrame_of_not
    rintro ⟨rfl, hb⟩
    subst hz
    exact hy rfl ((hreaches b).2 hb)
  · rw [ht]
    by_cases hmn : m = n
    · subst hmn
      have hm : m < s.forest.scopes.length := by
        apply @Forest.lt_length_of_mem_path s.forest a
        exact List.mem_of_find?_eq_some hn
      rw [Forest.frame_putFrame hm, Frame.names_bind, if_pos hbinds]
    · rw [Forest.frame_putFrame_of_ne hmn]

/-- What a binding does to every scope. -/
theorem seen_of_bind (h : s.bind a (.datum (.symbol x)) v = (none, t)) :
    (∀ b, s.forest.Reaches b x a → t.lookup b (.datum (.symbol x)) = .ok v) ∧
      ∀ b y, (y = .datum (.symbol x) → ¬ s.forest.Reaches b x a) →
        t.lookup b y = s.lookup b y := by
  rw [bind_symbol] at h
  cases h
  refine ⟨fun b hb => lookup_eq_ok.2 (Forest.valueOf_putFrame hb v),
    fun b y hy => lookup_congr fun z hz => Forest.valueOf_putFrame_of_not ?_ v⟩
  rintro ⟨rfl, hb⟩
  exact hy hz hb

/-- The scopes of a session obey lexical scope, whatever its steps have been. Parents never change
and form no cycle, a path goes on with that of the parent, and no frame repeats a name. A name is
bound on the path of a scope, found, looked up and assigned together, and its value is the one in
the nearest frame that binds it. An assignment changes the value that its frame has for the name,
and with it the lookups of just those scopes that find the name there. A binding is seen by just
those scopes whose paths lead to it past no other binding of the name. What is refused changes
nothing. -/
theorem scopes_are_lexical {s : Session} (hs : s.Reachable) :
    (∀ t, Relation.ReflTransGen Step s t →
      ∀ n < s.forest.scopes.length, t.forest.parent? n = s.forest.parent? n) ∧
    (∀ n, ¬ Relation.TransGen (fun n p => s.forest.parent? n = some p) n n) ∧
    (∀ n < s.forest.scopes.length,
      s.forest.path n = n :: ((s.forest.parent? n).map s.forest.path).getD []) ∧
    (∀ n, (s.forest.frame n).names.Nodup) ∧
    (∀ (b : Nat) (x : String) (v : Item),
      [∃ n ∈ s.forest.path b, (s.forest.frame n).binds x = true,
        ∃ n, s.forest.find? b (.datum (.symbol x)) = some n,
        ∃ w, s.lookup b (.datum (.symbol x)) = .ok w,
        (s.assign b (.datum (.symbol x)) v).1 = none].TFAE) ∧
    (∀ (b : Nat) (x : String) (n : Nat), s.forest.find? b (.datum (.symbol x)) = some n →
      s.forest.Reaches b x n ∧
        ∃ w, (s.forest.frame n).find? x = some w ∧ s.lookup b (.datum (.symbol x)) = .ok w) ∧
    (∀ (a : Nat) (x : String) (v : Item) (t : Session),
      s.assign a (.datum (.symbol x)) v = (none, t) →
        (∀ b y, t.forest.find? b y = s.forest.find? b y) ∧
        (∀ b, s.forest.find? b (.datum (.symbol x)) = s.forest.find? a (.datum (.symbol x)) →
          t.lookup b (.datum (.symbol x)) = .ok v) ∧
        (∀ b y, (y = .datum (.symbol x) → s.forest.find? b y ≠ s.forest.find? a y) →
          t.lookup b y = s.lookup b y) ∧
        ∀ n, (t.forest.frame n).names = (s.forest.frame n).names) ∧
    (∀ (a : Nat) (x : String) (v : Item), ∃ t, s.bind a (.datum (.symbol x)) v = (none, t) ∧
      (∀ b, s.forest.Reaches b x a → t.lookup b (.datum (.symbol x)) = .ok v) ∧
      ∀ b y, (y = .datum (.symbol x) → ¬ s.forest.Reaches b x a) →
        t.lookup b y = s.lookup b y) ∧
    ∀ (a : Nat) (name value : Item) (e : NameError) (t : Session),
      s.bind a name value = (some e, t) ∨ s.assign a name value = (some e, t) → t = s := by
  have hsound := hs.sound
  refine ⟨fun t ht => (hsound.parents ht).2.2, hsound.descends.acyclic,
    fun n hn => Forest.path_eq_parent hsound.descends hn, hsound.nodup, s.found_tfae,
    fun b x n h => lookup_of_find? h, fun a x v t h => seen_of_assign h, fun a x v => ?_,
    fun a name value e t h => h.elim change_refused change_refused⟩
  exact ⟨_, s.bind_symbol a x v, seen_of_bind (s.bind_symbol a x v)⟩

theorem scopes_are_lexical_shadowing :
    let x : Item := .datum (.symbol "x")
    let number (n : Int) : Item := .datum (.integer n)
    let nested : Session := ((({} : Session).addScope (some 0)).2.addScope (some 0)).2
    let s := ((nested.bind 0 x (number 0)).2.bind 1 x (number 1)).2
    s.Reachable ∧ s.forest.find? 1 x = some 1 ∧ s.forest.find? 2 x = some 0 ∧
      ∃ t, s.assign 2 x (number 7) = (none, t) ∧ t.lookup 0 x = .ok (number 7) ∧
        t.lookup 2 x = .ok (number 7) ∧ t.lookup 1 x = .ok (number 1) := by
  intro x number nested s
  have hreach : s.Reachable := by
    refine ⟨{}, ?_⟩
    have hfirst : Step {} (({} : Session).addScope (some 0)).2 :=
      .addScope (some 0) (by rintro p ⟨⟩; decide)
    have hsecond : Step _ nested := .addScope (some 0) (by rintro p ⟨⟩; decide)
    exact .tail (.tail (.tail (.single hfirst) hsecond) (.bind 0 x (number 0)))
      (.bind 1 x (number 1))
  have hforest : s.forest = ⟨[⟨[("x", number 0)], none⟩, ⟨[("x", number 1)], some 0⟩,
      ⟨[], some 0⟩]⟩ := by
    show (Session.bind (Session.bind _ _ _ _).2 _ _ _).2.forest = _
    rw [bind_symbol, bind_symbol]
    rfl
  obtain ⟨-, -, hpath, -, htfae, hvalue, hassign, -, -⟩ := scopes_are_lexical hreach
  have hlength : s.forest.scopes.length = 3 := by rw [hforest]; rfl
  have hparent₀ : s.forest.parent? 0 = none := by rw [hforest]; rfl
  have hparent₁ : s.forest.parent? 1 = some 0 := by rw [hforest]; rfl
  have hparent₂ : s.forest.parent? 2 = some 0 := by rw [hforest]; rfl
  have hpath₀ : s.forest.path 0 = [0] := by rw [hpath 0 (by omega), hparent₀]; rfl
  have hpath₁ : s.forest.path 1 = [1, 0] := by
    rw [hpath 1 (by omega), hparent₁, Option.map_some, hpath₀]; rfl
  have hpath₂ : s.forest.path 2 = [2, 0] := by
    rw [hpath 2 (by omega), hparent₂, Option.map_some, hpath₀]; rfl
  have hfind₀ : s.forest.find? 0 x = some 0 := by
    rw [Forest.find?_symbol, Forest.holder?, hpath₀, hforest]; rfl
  have hfind₁ : s.forest.find? 1 x = some 1 := by
    rw [Forest.find?_symbol, Forest.holder?, hpath₁, hforest]; rfl
  have hfind₂ : s.forest.find? 2 x = some 0 := by
    rw [Forest.find?_symbol, Forest.holder?, hpath₂, hforest]; rfl
  have hfound : (∃ n, s.forest.find? 2 x = some n) ↔ (s.assign 2 x (number 7)).1 = none :=
    (htfae 2 "x" (number 7)).out 1 3
  obtain ⟨t, ht⟩ : ∃ t, s.assign 2 x (number 7) = (none, t) :=
    ⟨(s.assign 2 x (number 7)).2, Prod.ext (hfound.1 ⟨0, hfind₂⟩) rfl⟩
  obtain ⟨-, hsame, hothers, -⟩ := hassign 2 "x" (number 7) t ht
  have hkept : t.lookup 1 x = s.lookup 1 x := hothers 1 x fun _ => by rw [hfind₁, hfind₂]; decide
  obtain ⟨-, w, hw, hlookup⟩ := hvalue 1 "x" 1 hfind₁
  rw [hforest] at hw
  cases hw
  exact ⟨hreach, hfind₁, hfind₂, t, ht, hsame 0 (hfind₀.trans hfind₂.symm), hsame 2 rfl,
    hkept.trans hlookup⟩

end SchemeCore.Session
